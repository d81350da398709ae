import HornQuery.Proofs.Number.Comparison
import HornQuery.Proofs.Term.Occurrences
import HornQuery.Term.Matching

namespace HornQuery.Term

/-! Lists as chains of cells. -/

mutual
/-- The term with each of its lists as a chain of cells that ends in the empty list. -/
def cells : Term → Term
  | .compound functor args => .compound functor (cellsAll args)
  | .list items => chain items
  | .atom name => .atom name
  | .integer value => .integer value
  | .float value => .float value
  | .var name => .var name

def cellsAll : List Term → List Term
  | [] => []
  | term :: terms => term.cells :: cellsAll terms

def chain : List Term → Term
  | [] => .list []
  | item :: items => .compound listCell [item.cells, chain items]
end

mutual
theorem occurrences_cellForm : ∀ term : Term, term.cells.occurrences = term.occurrences
  | .compound _ args => occurrencesAll_cellsAll args
  | .list items => occurrences_chain items
  | .atom _ | .integer _ | .float _ | .var _ => rfl

theorem occurrencesAll_cellsAll :
    ∀ terms : List Term, occurrencesAll (cellsAll terms) = occurrencesAll terms
  | [] => rfl
  | term :: terms => by
      rw [cellsAll, occurrencesAll, occurrencesAll, occurrences_cellForm term,
        occurrencesAll_cellsAll terms]

theorem occurrences_chain :
    ∀ items : List Term, (chain items).occurrences = occurrencesAll items
  | [] => rfl
  | item :: items => by
      rw [chain, occurrences, occurrencesAll_pair, occurrencesAll, occurrences_cellForm item,
        occurrences_chain items]
end

/-! Replacing variables. -/

mutual
/-- Whether the term comes out when every occurrence of a variable in the pattern is replaced by
some term that the variable may stand for. -/
def Fills (mayBe : String → Term → Prop) : Term → Term → Prop
  | .var name, term => mayBe name term
  | .atom name, .atom other => name = other
  | .integer value, .integer other => value = other
  | .float value, .float other => value = other
  | .compound functor args, .compound other others => functor = other ∧ FillsAll mayBe args others
  | .list items, .list others => FillsAll mayBe items others
  | _, _ => False

def FillsAll (mayBe : String → Term → Prop) : List Term → List Term → Prop
  | [], [] => True
  | pattern :: patterns, term :: terms => Fills mayBe pattern term ∧ FillsAll mayBe patterns terms
  | _, _ => False
end

/-- What a variable may stand for under one substitution; the anonymous variable stands for
something else each time. -/
def Assigned (assignment : String → Term) (name : String) (term : Term) : Prop :=
  name = "_" ∨ term = assignment name

/-- Instances of a pattern under one substitution of its named variables. -/
def IsInstance (pattern term : Term) : Prop :=
  ∃ assignment, Fills (Assigned assignment) pattern.cells term.cells

/-- Terms in which the occurrences of one variable may differ. -/
def IsLooseInstance (pattern term : Term) : Prop :=
  Fills (fun _ _ => True) pattern.cells term.cells

/-- A pattern in which every named variable occurs once. -/
def IsLinear (pattern : Term) : Prop :=
  (pattern.occurrences.filter (· ≠ "_")).Nodup

section

variable {mayBe other : String → Term → Prop}

mutual
theorem Fills.mono : ∀ {pattern term : Term},
    (∀ name ∈ pattern.occurrences, ∀ term, mayBe name term → other name term) →
    Fills mayBe pattern term → Fills other pattern term
  | .var name, _, wider, fills => wider name (List.mem_singleton.mpr rfl) _ fills
  | .atom _, term, _, fills => by cases term <;> exact fills
  | .integer _, term, _, fills => by cases term <;> exact fills
  | .float _, term, _, fills => by cases term <;> exact fills
  | .compound _ args, term, wider, fills => by
      cases term with
      | compound functor others => exact ⟨fills.1, FillsAll.mono wider fills.2⟩
      | _ => exact fills
  | .list items, term, wider, fills => by
      cases term with
      | list others => exact FillsAll.mono wider fills
      | _ => exact fills

theorem FillsAll.mono : ∀ {patterns terms : List Term},
    (∀ name ∈ occurrencesAll patterns, ∀ term, mayBe name term → other name term) →
    FillsAll mayBe patterns terms → FillsAll other patterns terms
  | [], [], _, _ => trivial
  | _ :: _, _ :: _, wider, fills =>
      ⟨fills.1.mono fun name member => wider name (List.mem_append_left _ member),
        FillsAll.mono (fun name member => wider name (List.mem_append_right _ member)) fills.2⟩
end

end

/-- Two assignments agree where they are used if the names they are used for have nothing in
common. -/
theorem exists_assignment {former latter : List String} (first second : String → Term)
    (once : ((former ++ latter).filter (· ≠ "_")).Nodup) :
    ∃ assignment, (∀ name ∈ former, ∀ term, Assigned first name term →
        Assigned assignment name term) ∧
      ∀ name ∈ latter, ∀ term, Assigned second name term → Assigned assignment name term := by
  refine ⟨fun name => if name ∈ former then first name else second name, ?_, ?_⟩
  · intro name member term assigned
    exact assigned.imp_right fun same => same.trans (if_pos member).symm
  · intro name member term assigned
    rcases assigned with anonymous | same
    · exact .inl anonymous
    by_cases named : name = "_"
    · exact .inl named
    have apart : name ∉ former := by
      intro both
      rw [List.filter_append] at once
      have kept : ∀ names : List String, name ∈ names → name ∈ names.filter (· ≠ "_") :=
        fun names inside => List.mem_filter.mpr ⟨inside, by simpa using named⟩
      exact (List.nodup_append.mp once).2.2 name (kept _ both) name (kept _ member) rfl
    exact .inr (same.trans (if_neg apart).symm)

mutual
theorem exists_assigned : ∀ {pattern term : Term},
    (pattern.occurrences.filter (· ≠ "_")).Nodup → Fills (fun _ _ => True) pattern term →
    ∃ assignment, Fills (Assigned assignment) pattern term
  | .var _, term, _, _ => ⟨fun _ => term, .inr rfl⟩
  | .atom _, term, _, fills => ⟨.var, by cases term <;> exact fills⟩
  | .integer _, term, _, fills => ⟨.var, by cases term <;> exact fills⟩
  | .float _, term, _, fills => ⟨.var, by cases term <;> exact fills⟩
  | .compound _ args, term, once, fills => by
      cases term with
      | compound functor others =>
          obtain ⟨assignment, assigned⟩ := exists_assignedAll once fills.2
          exact ⟨assignment, fills.1, assigned⟩
      | _ => exact fills.elim
  | .list items, term, once, fills => by
      cases term with
      | list others => exact exists_assignedAll once fills
      | _ => exact fills.elim

theorem exists_assignedAll : ∀ {patterns terms : List Term},
    ((occurrencesAll patterns).filter (· ≠ "_")).Nodup → FillsAll (fun _ _ => True) patterns terms →
    ∃ assignment, FillsAll (Assigned assignment) patterns terms
  | [], [], _, _ => ⟨.var, trivial⟩
  | pattern :: patterns, term :: terms, once, fills => by
      have parted := once
      rw [occurrencesAll, List.filter_append] at parted
      obtain ⟨first, assigned⟩ := exists_assigned (List.nodup_append.mp parted).1 fills.1
      obtain ⟨second, assignedAll⟩ := exists_assignedAll (List.nodup_append.mp parted).2.1 fills.2
      obtain ⟨assignment, former, latter⟩ := exists_assignment first second once
      exact ⟨assignment, assigned.mono former, assignedAll.mono latter⟩
end

theorem IsInstance.isLooseInstance {pattern term : Term} (isInstance : IsInstance pattern term) :
    IsLooseInstance pattern term := by
  obtain ⟨assignment, fills⟩ := isInstance
  exact fills.mono fun _ _ _ _ => trivial

theorem IsLinear.isInstance_iff {pattern : Term} (linear : pattern.IsLinear) (term : Term) :
    IsInstance pattern term ↔ IsLooseInstance pattern term := by
  constructor
  · exact IsInstance.isLooseInstance
  · apply exists_assigned
    rw [occurrences_cellForm]
    exact linear

/-! Matching. -/

/-- Terms that are compared as data: no list goes on with a variable or with another list, and no
number is compared otherwise than by its bits. -/
inductive Regular : Term → Prop
  | atom (name : String) : Regular (.atom name)
  | integer (value : Int64) : Regular (.integer value)
  | float {value : Float} (number : value.isNaN = false) (plain : value ≠ Number.negativeZero) :
      Regular (.float value)
  | var (name : String) : Regular (.var name)
  | list {items : List Term} (all : ∀ item ∈ items, Regular item) : Regular (.list items)
  | compound {functor : String} {args : List Term}
      (closed : ∀ item tail, functor = listCell → args = [item, tail] →
        (∀ name, tail ≠ .var name) ∧ ∀ items, tail ≠ .list items)
      (all : ∀ arg ∈ args, Regular arg) : Regular (.compound functor args)

section

variable {mayBe : String → Term → Prop}

theorem fills_chain_iff (items others : List Term) :
    Fills mayBe (chain items) (chain others) ↔
      FillsAll mayBe (cellsAll items) (cellsAll others) := by
  induction items generalizing others with
  | nil => cases others <;> simp [chain, cellsAll, Fills, FillsAll]
  | cons item items induction =>
      cases others with
      | nil => simp [chain, cellsAll, Fills, FillsAll]
      | cons other others => simp [chain, cellsAll, Fills, FillsAll, induction]

/-- The end of a chain of cells, if it is neither a variable nor a list, comes out of no list and no
list comes out of it. -/
theorem not_fills_chain (items : List Term) {tail : Term} (regular : tail.Regular)
    (noVariable : ∀ name, tail ≠ .var name) (noList : ∀ items, tail ≠ .list items) :
    ¬Fills mayBe tail.cells (chain items) ∧ ¬Fills mayBe (chain items) tail.cells := by
  induction items generalizing tail with
  | nil =>
      cases tail with
      | var name => exact absurd rfl (noVariable name)
      | list items => exact absurd rfl (noList items)
      | _ => exact ⟨id, id⟩
  | cons item items induction =>
      cases regular with
      | var name => exact absurd rfl (noVariable name)
      | list all => exact absurd rfl (noList _)
      | compound closed all =>
          rename_i functor args
          match args with
          | [first, last] =>
              by_cases isCell : functor = listCell
              · obtain ⟨lastNoVariable, lastNoList⟩ := closed first last isCell rfl
                obtain ⟨former, latter⟩ := induction (all last (by simp)) lastNoVariable lastNoList
                exact ⟨fun fills => former fills.2.2.1, fun fills => latter fills.2.2.1⟩
              · exact ⟨fun fills => isCell fills.1, fun fills => isCell fills.1.symm⟩
          | [] => exact ⟨fun fills => fills.2, fun fills => fills.2⟩
          | [_] => exact ⟨fun fills => fills.2.2, fun fills => fills.2.2⟩
          | _ :: _ :: _ :: _ => exact ⟨fun fills => fills.2.2.2, fun fills => fills.2.2.2⟩
      | _ => exact ⟨id, id⟩

end

mutual
/-- Between regular terms matching finds the instances in which the occurrences of a variable are
replaced one by one. -/
theorem matches_iff : ∀ {pattern fact : Term}, pattern.Regular → fact.Regular →
    fact.occurrences = [] → (pattern.matches fact = true ↔ IsLooseInstance pattern fact)
  | _, .var _, _, _, ground => nomatch ground
  | .var _, fact, _, _, _ => by
      cases fact <;> exact iff_of_true rfl trivial
  | .atom name, fact, regular, _, ground => by
      cases fact with
      | atom other => exact beq_iff_eq
      | list items => exact iff_of_false nofun (not_fills_chain items regular nofun nofun).1
      | var name => cases ground
      | _ => exact iff_of_false nofun id
  | .integer value, fact, regular, _, ground => by
      cases fact with
      | integer other => exact beq_iff_eq
      | list items => exact iff_of_false nofun (not_fills_chain items regular nofun nofun).1
      | var name => cases ground
      | _ => exact iff_of_false nofun id
  | .float value, fact, regular, isFact, ground => by
      cases fact with
      | float other =>
          cases regular with
          | float number plain =>
              cases isFact with
              | float _ otherPlain => exact Number.beq_iff_same number plain otherPlain
      | list items => exact iff_of_false nofun (not_fills_chain items regular nofun nofun).1
      | var name => cases ground
      | _ => exact iff_of_false nofun id
  | .compound functor args, fact, regular, isFact, ground => by
      cases fact with
      | compound other others =>
          cases regular with
          | compound _ all =>
              cases isFact with
              | compound _ allFacts =>
                  exact Bool.and_eq_true_iff.trans
                    (and_congr beq_iff_eq (matchesAll_iff all allFacts ground))
      | list items => exact iff_of_false nofun (not_fills_chain items regular nofun nofun).1
      | var name => cases ground
      | _ => exact iff_of_false nofun id
  | .list items, fact, regular, isFact, ground => by
      cases fact with
      | list others =>
          cases regular with
          | list all =>
              cases isFact with
              | list allFacts =>
                  exact (matchesAll_iff all allFacts ground).trans
                    (fills_chain_iff items others).symm
      | var name => cases ground
      | _ => exact iff_of_false nofun (not_fills_chain items isFact nofun nofun).2

theorem matchesAll_iff : ∀ {patterns facts : List Term},
    (∀ pattern ∈ patterns, pattern.Regular) → (∀ fact ∈ facts, fact.Regular) →
    occurrencesAll facts = [] → (matchesAll patterns facts = true ↔
      FillsAll (fun _ _ => True) (cellsAll patterns) (cellsAll facts))
  | [], [], _, _, _ => iff_of_true rfl trivial
  | [], _ :: _, _, _, _ => iff_of_false nofun id
  | _ :: _, [], _, _, _ => iff_of_false nofun id
  | pattern :: patterns, fact :: facts, regular, isFact, ground => by
      obtain ⟨first, others⟩ := List.append_eq_nil_iff.mp ground
      rw [List.forall_mem_cons] at regular isFact
      exact Bool.and_eq_true_iff.trans (and_congr (matches_iff regular.1 isFact.1 first)
        (matchesAll_iff regular.2 isFact.2 others))
end

end HornQuery.Term
