import HornQuery.Conversion.TypeHierarchy
import HornQuery.Proofs.Distinct
import Mathlib.Data.List.Chain
import Mathlib.Logic.Relation

namespace HornQuery

namespace TypeHierarchy

variable {types : TypeHierarchy} {tag other above : TypeTag} {listed chain : List TypeTag}

/-! Declarations made one after the other. -/

def declareAll (types : TypeHierarchy) (declarations : List TypeDeclaration) : TypeHierarchy :=
  declarations.foldl declare types

theorem declaration?_declare (types : TypeHierarchy) (declaration : TypeDeclaration)
    (tag : TypeTag) :
    (types.declare declaration).declaration? tag =
      if declaration.tag = tag then some declaration else types.declaration? tag := by
  rw [declaration?, declare, List.find?_cons]
  by_cases same : declaration.tag = tag
  · simp [same]
  · simp only [if_neg same, decide_eq_false same, List.find?_filter, declaration?]
    congr 1
    funext former
    by_cases found : former.tag = tag
    · simp [found, Ne.symm same]
    · simp [found]

theorem declaration?_declareAll (types : TypeHierarchy) (declarations : List TypeDeclaration)
    (tag : TypeTag) :
    (types.declareAll declarations).declaration? tag =
      (declarations.reverse.find? fun declaration => declaration.tag = tag).or
        (types.declaration? tag) := by
  induction declarations using List.reverseRecOn with
  | nil => rfl
  | append_singleton declarations last induction =>
      rw [declareAll, List.foldl_concat, declaration?_declare, List.reverse_concat, List.find?_cons]
      by_cases same : last.tag = tag
      · simp [same]
      · rw [if_neg same, decide_eq_false same]
        exact induction

/-! The way up from a type. -/

theorem ascend_of_mem (member : tag ∈ listed) : types.ascend listed tag = [] := by
  rw [ascend, dif_pos (by simpa using member)]

theorem ascend_of_top (fresh : tag ∉ listed) (top : types.supertype? tag = none) :
    types.ascend listed tag = [tag] := by
  rw [ascend, dif_neg (by simpa using fresh)]
  split
  case h_1 => rfl
  case h_2 _ declared => simp [top] at declared

theorem ascend_of_supertype (fresh : tag ∉ listed) (declared : types.supertype? tag = some above) :
    types.ascend listed tag = tag :: types.ascend (tag :: listed) above := by
  rw [ascend, dif_neg (by simpa using fresh)]
  split
  case h_1 top => simp [top] at declared
  case h_2 found =>
    rw [declared] at found
    cases found
    rfl

theorem ascend_induction {motive : List TypeTag → TypeTag → Prop}
    (stop : ∀ listed tag, tag ∈ listed → motive listed tag)
    (top : ∀ listed tag, tag ∉ listed → types.supertype? tag = none → motive listed tag)
    (step : ∀ listed tag above, tag ∉ listed → types.supertype? tag = some above →
      motive (tag :: listed) above → motive listed tag) (listed : List TypeTag) (tag : TypeTag) :
    motive listed tag := by
  induction listed, tag using ascend.induct types with
  | case1 listed tag member => exact stop listed tag (by simpa using member)
  | case2 listed tag fresh declared => exact top listed tag (by simpa using fresh) declared
  | case3 listed tag fresh above declared induction =>
      exact step listed tag above (by simpa using fresh) declared induction

/-! The supertypes of a type. -/

abbrev Extends (types : TypeHierarchy) (tag above : TypeTag) : Prop :=
  types.supertype? tag = some above

abbrev IsA (types : TypeHierarchy) : TypeTag → TypeTag → Prop :=
  Relation.ReflTransGen types.Extends

def HasInterface (types : TypeHierarchy) (tag interface : TypeTag) : Prop :=
  ∃ type, types.IsA tag type ∧ interface ∈ types.interfaces type

def Closed (types : TypeHierarchy) (listed : List TypeTag) : Prop :=
  ∀ type ∈ listed, ∀ above, types.Extends type above → above ∈ listed

/-- A type and its supertypes, the nearest first, cut at the first repeat. -/
structure IsAscent (types : TypeHierarchy) (tag : TypeTag) (chain : List TypeTag) : Prop where
  starts : chain.head? = some tag
  linked : chain.IsChain types.Extends
  nodup : chain.Nodup
  closed : types.Closed chain

theorem not_mem_of_mem_ascend (member : other ∈ types.ascend listed tag) : other ∉ listed := by
  induction listed, tag using types.ascend_induction with
  | stop listed tag found => simp [ascend_of_mem found] at member
  | top listed tag fresh none =>
      rw [ascend_of_top fresh none, List.mem_singleton] at member
      exact member ▸ fresh
  | step listed tag above fresh declared induction =>
      rw [ascend_of_supertype fresh declared, List.mem_cons] at member
      rcases member with first | later
      · exact first ▸ fresh
      · exact fun found => induction later (List.mem_cons_of_mem tag found)

theorem nodup_ascend (types : TypeHierarchy) (listed : List TypeTag) (tag : TypeTag) :
    (types.ascend listed tag).Nodup := by
  induction listed, tag using types.ascend_induction with
  | stop listed tag found => simp [ascend_of_mem found]
  | top listed tag fresh none => simp [ascend_of_top fresh none]
  | step listed tag above fresh declared induction =>
      rw [ascend_of_supertype fresh declared, List.nodup_cons]
      exact ⟨fun again => not_mem_of_mem_ascend again List.mem_cons_self, induction⟩

theorem head?_ascend (first : other ∈ (types.ascend listed tag).head?) : other = tag := by
  induction listed, tag using types.ascend_induction with
  | stop listed tag found => simp [ascend_of_mem found] at first
  | top listed tag fresh none => simpa [ascend_of_top fresh none, eq_comm] using first
  | step listed tag above fresh declared induction =>
      simpa [ascend_of_supertype fresh declared, eq_comm] using first

theorem linked_ascend (types : TypeHierarchy) (listed : List TypeTag) (tag : TypeTag) :
    (types.ascend listed tag).IsChain types.Extends := by
  induction listed, tag using types.ascend_induction with
  | stop listed tag found => simp [ascend_of_mem found]
  | top listed tag fresh none => simp [ascend_of_top fresh none]
  | step listed tag above fresh declared induction =>
      rw [ascend_of_supertype fresh declared, List.isChain_cons]
      exact ⟨fun next found => (head?_ascend found).symm ▸ declared, induction⟩

theorem mem_ascend_self (types : TypeHierarchy) (listed : List TypeTag) (tag : TypeTag) :
    tag ∈ listed ∨ tag ∈ types.ascend listed tag := by
  by_cases found : tag ∈ listed
  · exact .inl found
  · refine .inr ?_
    cases declared : types.supertype? tag with
    | none => simp [ascend_of_top found declared]
    | some above => simp [ascend_of_supertype found declared]

theorem mem_ascend_of_extends (member : other ∈ types.ascend listed tag)
    (link : types.Extends other above) : above ∈ listed ∨ above ∈ types.ascend listed tag := by
  induction listed, tag using types.ascend_induction with
  | stop listed tag found => simp [ascend_of_mem found] at member
  | top listed tag fresh none =>
      rw [ascend_of_top fresh none, List.mem_singleton] at member
      rw [member, Extends, none] at link
      cases link
  | step listed tag next fresh declared induction =>
      rw [ascend_of_supertype fresh declared, List.mem_cons] at member ⊢
      have kept : above ∈ tag :: listed ∨ above ∈ types.ascend (tag :: listed) next := by
        rcases member with first | later
        · rw [first, Extends, declared] at link
          cases link
          exact types.mem_ascend_self (tag :: listed) above
        · exact induction later
      rw [List.mem_cons, or_assoc] at kept
      exact or_left_comm.mp kept

theorem isAscent_ascend (types : TypeHierarchy) (tag : TypeTag) :
    types.IsAscent tag (types.ascend [] tag) where
  starts := by
    cases declared : types.supertype? tag with
    | none => simp [ascend_of_top List.not_mem_nil declared]
    | some above => simp [ascend_of_supertype List.not_mem_nil declared]
  linked := types.linked_ascend [] tag
  nodup := types.nodup_ascend [] tag
  closed := fun _ member _ link =>
    (mem_ascend_of_extends member link).resolve_left List.not_mem_nil

theorem ascend_of_linked {rest : List TypeTag} (fresh : ∀ type ∈ tag :: rest, type ∉ listed)
    (linked : (tag :: rest).IsChain types.Extends) (nodup : (tag :: rest).Nodup)
    (closed : ∀ type ∈ tag :: rest, ∀ above, types.Extends type above →
      above ∈ listed ∨ above ∈ tag :: rest) :
    types.ascend listed tag = tag :: rest := by
  induction rest generalizing listed tag with
  | nil =>
      have first : tag ∉ listed := fresh tag List.mem_cons_self
      cases declared : types.supertype? tag with
      | none => exact ascend_of_top first declared
      | some above =>
          have again : above ∈ tag :: listed := by
            rw [List.mem_cons, or_comm]
            simpa using closed tag List.mem_cons_self above declared
          rw [ascend_of_supertype first declared, ascend_of_mem again]
  | cons next rest induction =>
      obtain ⟨declared, linked⟩ := List.isChain_cons_cons.mp linked
      obtain ⟨absent, nodup⟩ := List.nodup_cons.mp nodup
      rw [ascend_of_supertype (fresh tag List.mem_cons_self) declared]
      congr 1
      apply induction _ linked nodup
      · intro type member above link
        have kept := closed type (List.mem_cons_of_mem tag member) above link
        rw [List.mem_cons, ← or_assoc] at kept
        rw [List.mem_cons]
        exact kept.imp_left Or.symm
      · intro type member found
        rcases List.mem_cons.mp found with same | earlier
        · exact absent (same ▸ member)
        · exact fresh type (List.mem_cons_of_mem tag member) earlier

theorem isAscent_iff : types.IsAscent tag chain ↔ chain = types.ascend [] tag := by
  constructor
  · intro ascent
    obtain ⟨rest, rfl⟩ := List.head?_eq_some_iff.mp ascent.starts
    refine (ascend_of_linked (fun _ _ => List.not_mem_nil) ascent.linked ascent.nodup ?_).symm
    exact fun type member above link => .inr (ascent.closed type member above link)
  · intro same
    exact same ▸ types.isAscent_ascend tag

theorem mem_ascend_nil_iff : other ∈ types.ascend [] tag ↔ types.IsA tag other := by
  have ascent := types.isAscent_ascend tag
  constructor
  · apply ascent.linked.induction (types.IsA tag)
    · exact fun _ _ link isA => isA.tail link
    · intro some
      rw [List.head_of_mem_head? ascent.starts]
  · intro isA
    induction isA with
    | refl => exact List.mem_of_mem_head? ascent.starts
    | tail _ link induction => exact ascent.closed _ induction _ link

/-! The order of the types. -/

theorem ascend_eq_removeAll (closed : types.Closed listed) (tag : TypeTag) :
    types.ascend listed tag = (types.ascend [] tag).removeAll listed := by
  -- On the way up more and more types are listed besides those that are closed.
  have among : ∀ visited tag all, (∀ type, type ∈ all ↔ type ∈ visited ∨ type ∈ listed) →
      types.ascend all tag = (types.ascend visited tag).removeAll listed := by
    intro visited tag
    induction visited, tag using types.ascend_induction with
    | stop visited tag found =>
        intro all member
        rw [ascend_of_mem found, ascend_of_mem ((member tag).mpr (.inl found)), List.nil_removeAll]
    | top visited tag fresh none =>
        intro all member
        rw [ascend_of_top fresh none]
        by_cases found : tag ∈ listed
        · rw [ascend_of_mem ((member tag).mpr (.inr found))]
          simp [List.removeAll, found]
        · rw [ascend_of_top (by simp [member, fresh, found]) none]
          simp [List.removeAll, found]
    | step visited tag above fresh declared induction =>
        intro all member
        rw [ascend_of_supertype fresh declared, List.cons_removeAll]
        have later := induction (tag :: all) (by simp [member, or_assoc])
        by_cases found : tag ∈ listed
        · have next : above ∈ tag :: all :=
            List.mem_cons_of_mem tag ((member above).mpr (.inr (closed tag found above declared)))
          rw [ascend_of_mem next] at later
          rw [ascend_of_mem ((member tag).mpr (.inr found)), ← later]
          simp [found]
        · rw [ascend_of_supertype (by simp [member, fresh, found]) declared, later]
          simp [found]
  exact among [] tag listed (by simp)

theorem Closed.append_ascend (closed : types.Closed listed) (tag : TypeTag) :
    types.Closed (listed ++ types.ascend listed tag) := by
  intro type member above link
  rw [List.mem_append] at member ⊢
  rcases member with former | latter
  · exact .inl (closed type former above link)
  · exact mem_ascend_of_extends latter link

theorem foldl_ascend_eq_eraseDups (interfaces : List TypeTag) (closed : types.Closed listed)
    (nodup : listed.Nodup) :
    interfaces.foldl (fun order interface => order ++ types.ascend order interface) listed =
      (listed ++ interfaces.flatMap (types.ascend [])).eraseDups := by
  induction interfaces generalizing listed with
  | nil => simp [eraseDups_eq_self nodup]
  | cons interface interfaces induction =>
      have apart : (listed ++ types.ascend listed interface).Nodup := by
        rw [List.nodup_append]
        refine ⟨nodup, types.nodup_ascend listed interface, ?_⟩
        exact fun type former other latter same => not_mem_of_mem_ascend latter (same ▸ former)
      rw [List.foldl_cons, induction (closed.append_ascend interface) apart,
        ascend_eq_removeAll closed, eraseDups_append_removeAll, List.flatMap_cons,
        List.append_assoc]

/-- The types come across on the way up from a type and then from each interface that is declared
along it, with their repeats. -/
def encounters (types : TypeHierarchy) (tag : TypeTag) : List TypeTag :=
  let chain := types.ascend [] tag
  chain ++ (chain.flatMap types.interfaces).flatMap (types.ascend [])

theorem precedence_eq_eraseDups (types : TypeHierarchy) (tag : TypeTag) :
    types.precedence tag = (types.encounters tag ++ [TypeTag.any]).eraseDups := by
  have ascent := types.isAscent_ascend tag
  rw [precedence, foldl_ascend_eq_eraseDups _ ascent.closed ascent.nodup, eraseDups_concat,
    encounters]
  simp only [List.contains_eq_mem, List.mem_eraseDups, decide_eq_true_eq]
  split
  case isTrue => exact (List.append_nil _).symm
  case isFalse => rfl

theorem nodup_precedence (types : TypeHierarchy) (tag : TypeTag) : (types.precedence tag).Nodup :=
  types.precedence_eq_eraseDups tag ▸ nodup_eraseDups _

theorem ascend_isPrefix_precedence (types : TypeHierarchy) (tag : TypeTag) :
    types.ascend [] tag <+: types.precedence tag := by
  rw [precedence_eq_eraseDups, encounters, List.append_assoc, List.eraseDups_append,
    eraseDups_eq_self (types.nodup_ascend [] tag)]
  exact List.prefix_append _ _

theorem mem_precedence_iff :
    other ∈ types.precedence tag ↔
      types.IsA tag other ∨
        (∃ interface, types.HasInterface tag interface ∧ types.IsA interface other) ∨
        other = .any := by
  simp only [precedence_eq_eraseDups, encounters, List.mem_eraseDups, List.mem_append,
    List.mem_flatMap, List.mem_singleton, mem_ascend_nil_iff, or_assoc, HasInterface]

/-- After any declarations the converters for a type are asked in the order of what counts as
declared: the type and its supertypes, the interfaces declared along them with their own supertypes,
and the wildcard, each where it first occurs. The last declaration of a type counts. -/
theorem precedence_declareAll (former : TypeHierarchy) (declarations : List TypeDeclaration)
    (tag : TypeTag) :
    let types := former.declareAll declarations
    let order := types.precedence tag
    (∀ type, types.declaration? type =
      (declarations.reverse.find? fun declaration => declaration.tag = type).or
        (former.declaration? type)) ∧
    order.Nodup ∧
    (∀ other, other ∈ order ↔
      types.IsA tag other ∨
        (∃ interface, types.HasInterface tag interface ∧ types.IsA interface other) ∨
        other = .any) ∧
    ∃ ascent : TypeTag → List TypeTag,
      (∀ type chain, types.IsAscent type chain ↔ chain = ascent type) ∧
      ascent tag <+: order ∧
      order = (ascent tag ++ ((ascent tag).flatMap types.interfaces).flatMap ascent
        ++ [TypeTag.any]).eraseDups := by
  intro types order
  refine ⟨former.declaration?_declareAll declarations, types.nodup_precedence tag,
    fun other => mem_precedence_iff, types.ascend [], fun type chain => isAscent_iff, ?_, ?_⟩
  · exact types.ascend_isPrefix_precedence tag
  · exact types.precedence_eq_eraseDups tag

end TypeHierarchy

end HornQuery
