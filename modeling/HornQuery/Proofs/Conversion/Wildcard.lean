import HornQuery.Proofs.Conversion.Answers
import HornQuery.Proofs.Conversion.Precedence

namespace HornQuery

namespace TypeHierarchy

variable {types : TypeHierarchy} {tag : TypeTag}

theorem getLast?_precedence_iff (types : TypeHierarchy) (tag : TypeTag) :
    (types.precedence tag).getLast? = some TypeTag.any ↔
      ∀ other ∈ types.encounters tag, other ≠ .any →
        other ∈ (types.encounters tag).takeWhile (· ≠ .any) := by
  rw [precedence_eq_eraseDups]
  exact getLast?_eraseDups_concat_iff _ _

theorem not_isA_any (unnamed : ∀ type, ¬ types.Extends type .any) (other : tag ≠ .any) :
    ¬ types.IsA tag .any := by
  intro isA
  rcases isA.cases_tail with same | ⟨type, _, link⟩
  · exact other same.symm
  · exact unnamed type link

theorem any_not_mem_encounters (unnamed : ∀ type, ¬ types.Extends type .any)
    (noInterface : ∀ type, .any ∉ types.interfaces type) (other : tag ≠ .any) :
    TypeTag.any ∉ types.encounters tag := by
  intro found
  rcases List.mem_append.mp found with chain | later
  · exact not_isA_any unnamed other (mem_ascend_nil_iff.mp chain)
  · obtain ⟨interface, declared, above⟩ := List.mem_flatMap.mp later
    obtain ⟨type, _, declared⟩ := List.mem_flatMap.mp declared
    have proper : interface ≠ .any := fun same => noInterface type (same ▸ declared)
    exact not_isA_any unnamed proper (mem_ascend_nil_iff.mp above)

theorem precedence_eq_concat (last : (types.precedence tag).getLast? = some TypeTag.any) :
    types.precedence tag = (types.precedence tag).filter (· ≠ .any) ++ [TypeTag.any] := by
  obtain ⟨specific, split⟩ := List.getLast?_eq_some_iff.mp last
  have distinct := types.nodup_precedence tag
  rw [split, List.nodup_append] at distinct
  have kept : ∀ type ∈ specific, decide (type ≠ .any) = true := fun type member =>
    decide_eq_true (distinct.2.2 type member .any (List.mem_singleton_self _))
  rw [split, List.filter_append, List.filter_eq_self.mpr kept]
  simp

end TypeHierarchy

open TypeHierarchy

theorem Policy.candidates_eq_precedence {policy : Policy} {value : Value}
    (noArray : ∀ items, value ≠ .array items) :
    policy.candidates value = policy.types.precedence value.typeTag := by
  cases value with
  | array items => exact absurd rfl (noArray items)
  | _ => rfl

/-- The wildcard is the last type to be asked exactly if no other type is first come across after it;
so it is for every other type if no declaration names it. Where it is the last, its converter is
asked after the others that are registered for the type have all declined. -/
theorem wildcard_last_iff (types : TypeHierarchy) (tag : TypeTag) :
    let order := types.precedence tag
    let met := types.encounters tag
    (order.getLast? = some TypeTag.any ↔
      ∀ other ∈ met, other ≠ .any → other ∈ met.takeWhile (· ≠ .any)) ∧
    (tag ≠ .any → (∀ type, ¬ types.Extends type .any) → (∀ type, .any ∉ types.interfaces type) →
      order.getLast? = some TypeTag.any) ∧
    ∀ (policy : Policy) (value : Value), policy.types = types → value.typeTag = tag →
      value ≠ .null → (∀ items, value ≠ .array items) → order.getLast? = some TypeTag.any →
      let ask := askConverters value (policy.toTerms value.parts)
      let specific := (order.filter (· ≠ .any)).filterMap fun type =>
        policy.objectConverters.lookup type
      policy.toTerm value = settled s!"value of type `{tag.name}`"
        (if declines (ask specific) then ask (policy.objectConverters.lookup .any).toList
        else ask specific) := by
  intro order met
  refine ⟨getLast?_precedence_iff types tag, ?_, ?_⟩
  · intro other unnamed noInterface
    refine (getLast?_precedence_iff types tag).mpr fun type found different => ?_
    have absent := any_not_mem_encounters unnamed noInterface other
    rw [List.takeWhile_eq_self_iff.mpr]
    · exact found
    · exact fun type found => decide_eq_true fun same => absent (same ▸ found)
  · intro policy value isTypes isTag some noArray last ask specific
    have wild : [TypeTag.any].filterMap (fun type => policy.objectConverters.lookup type) =
        (policy.objectConverters.lookup .any).toList := by
      cases found : policy.objectConverters.lookup .any <;> simp [found]
    rw [Policy.toTerm_eq_settled some, Policy.candidates_eq_precedence noArray, isTypes, isTag,
      precedence_eq_concat last, List.filterMap_append, wild, askConverters_append]

/-- A square that is drawn: the wildcard's converter is asked where the one for drawn things
declines, and only there. -/
theorem wildcard_last_iff_square :
    let square : TypeTag := ⟨"square"⟩
    let drawn : TypeTag := ⟨"drawn"⟩
    let types := empty.declareAll [⟨square, none, [drawn]⟩]
    let object : Value := .object ⟨0, square, ""⟩
    let policy (answer : Option Term) : Policy :=
      ⟨types, [(.any, fun _ _ => .ok (some (.atom "thing"))), (drawn, fun _ _ => .ok answer)],
        [], [], []⟩
    (types.precedence square).getLast? = some TypeTag.any ∧
      (policy (some (.atom "drawing"))).toTerm object = .ok (.atom "drawing") ∧
      (policy none).toTerm object = .ok (.atom "thing") := by
  intro square drawn types object policy
  obtain ⟨-, wildcardLast, asks⟩ := wildcard_last_iff types square
  have declared : ∀ type, types.declaration? type = if square = type then
      some ⟨square, none, [drawn]⟩ else none :=
    declaration?_declare empty ⟨square, none, [drawn]⟩
  have unnamed : ∀ type, ¬ types.Extends type .any := by
    intro type
    rw [Extends, supertype?, declared]
    split <;> simp
  have noInterface : ∀ type, .any ∉ types.interfaces type := by
    intro type
    rw [interfaces, declared]
    split
    · decide
    · simp
  have last := wildcardLast (by decide) unnamed noInterface
  have order : types.precedence square = [square, drawn, .any] := by
    have chain : types.ascend [] square = [square] := ascend_of_top List.not_mem_nil rfl
    have above : types.ascend [] drawn = [drawn] := ascend_of_top List.not_mem_nil rfl
    have interface : [square].flatMap types.interfaces = [drawn] := rfl
    rw [precedence_eq_eraseDups, encounters, chain, interface, List.flatMap_singleton, above]
    rfl
  refine ⟨last, ?_, ?_⟩
  · rw [asks _ object rfl rfl (by simp [object]) (by simp [object]) last, order]
    rfl
  · rw [asks _ object rfl rfl (by simp [object]) (by simp [object]) last, order]
    rfl

/-- A type whose supertype is the wildcard is asked for its interface after it. -/
theorem not_wildcard_last :
    ¬ ∀ (declarations : List TypeDeclaration) (tag : TypeTag), tag ≠ .any →
      ((empty.declareAll declarations).precedence tag).getLast? = some TypeTag.any := by
  intro all
  let square : TypeTag := ⟨"square"⟩
  let shape : TypeTag := ⟨"shape"⟩
  let types := empty.declareAll [⟨square, some .any, [shape]⟩]
  have chain : types.ascend [] square = [square, .any] := by
    rw [ascend_of_supertype List.not_mem_nil rfl, ascend_of_top (by decide) rfl]
  have above : types.ascend [] shape = [shape] := ascend_of_top List.not_mem_nil rfl
  have declared : [square, TypeTag.any].flatMap types.interfaces = [shape] := rfl
  have met : types.encounters square = [square, .any, shape] := by
    rw [encounters, chain, declared, List.flatMap_singleton, above]
    rfl
  have last := (getLast?_precedence_iff types square).mp (all _ square (by decide))
  rw [met] at last
  exact absurd (last shape (by decide) (by decide)) (by decide)

end HornQuery
