import HornQuery.Proofs.Token.Names

namespace HornQuery

namespace Term

inductive Readable : Term → Prop
  | atom {name : String} (proper : name ≠ "[]") : Readable (.atom name)
  | integer (value : Int64) : Readable (.integer value)
  | float {value : Float} (number : value.isNaN = false) : Readable (.float value)
  | var {name : String} (spelled : Token.IsVariableName name) : Readable (.var name)
  | list {items : List Term} (all : ∀ item ∈ items, Readable item) : Readable (.list items)
  | compound {functor : String} {args : List Term} (some : args ≠ [])
      (proper : ∀ item items, functor = listCell → args ≠ [item, .list items])
      (all : ∀ arg ∈ args, Readable arg) : Readable (.compound functor args)

/-- Compounds that are written in functional notation: neither a list cell nor a term in
braces. -/
structure Functional (functor : String) (args : List Term) : Prop where
  noCell : ∀ item tail, functor = listCell → args ≠ [item, tail]
  noBraces : ∀ inner, functor = "\x7b\x7d" → args ≠ [inner]

inductive CompoundForm : String → List Term → Prop
  | cell (item tail : Term) : CompoundForm listCell [item, tail]
  | braces (inner : Term) : CompoundForm "\x7b\x7d" [inner]
  | functional {functor : String} {args : List Term} (plain : Functional functor args) :
      CompoundForm functor args

theorem compoundForm (functor : String) (args : List Term) : CompoundForm functor args := by
  by_cases cell : functor = listCell ∧ ∃ item tail, args = [item, tail]
  · obtain ⟨isCell, item, tail, pair⟩ := cell
    subst isCell pair
    exact .cell item tail
  by_cases braces : functor = "\x7b\x7d" ∧ ∃ inner, args = [inner]
  · obtain ⟨isBraces, inner, single⟩ := braces
    subst isBraces single
    exact .braces inner
  · exact .functional ⟨fun item tail same pair => cell ⟨same, item, tail, pair⟩,
      fun inner same single => braces ⟨same, inner, single⟩⟩

end Term

/-! Nesting as it is written: a chain of cells is one list. -/

/-- How deep a term nests, and how deep the items nest that it adds to the list of which it is
the tail. -/
structure Nesting where
  height : Nat
  asTail : Nat

namespace Nesting

def leaf : Nesting := ⟨1, 1⟩

def deepest (parts : List Nesting) : Nat :=
  parts.foldr (fun part depth => max part.height depth) 0

def ofList (parts : List Nesting) : Nesting :=
  ⟨1 + deepest parts, deepest parts⟩

def functional (parts : List Nesting) : Nesting :=
  ⟨1 + deepest parts, 1 + deepest parts⟩

def ofCompound (functor : String) (parts : List Nesting) : Nesting :=
  match parts with
  | [item, tail] =>
      if functor = Term.listCell then
        ⟨1 + max item.height tail.asTail, max item.height tail.asTail⟩
      else functional parts
  | _ => functional parts

end Nesting

mutual
def Term.nesting : Term → Nesting
  | .compound functor args => .ofCompound functor (Term.nestingAll args)
  | .list items => .ofList (Term.nestingAll items)
  | _ => .leaf

def Term.nestingAll : List Term → List Nesting
  | [] => []
  | term :: terms => term.nesting :: Term.nestingAll terms
end

namespace Term

def height (term : Term) : Nat :=
  term.nesting.height

def tailHeight (term : Term) : Nat :=
  term.nesting.asTail

theorem nestingAll_eq_map (terms : List Term) : nestingAll terms = terms.map nesting := by
  induction terms with
  | nil => rfl
  | cons term terms induction => rw [nestingAll, induction, List.map_cons]

theorem deepest_le_iff {parts : List Nesting} {levels : Nat} :
    Nesting.deepest parts ≤ levels ↔ ∀ part ∈ parts, part.height ≤ levels := by
  induction parts with
  | nil => simp [Nesting.deepest]
  | cons part parts induction =>
      simp only [Nesting.deepest, List.foldr_cons] at induction ⊢
      simp [induction]

theorem deepest_nestingAll_le_iff {terms : List Term} {levels : Nat} :
    Nesting.deepest (nestingAll terms) ≤ levels ↔ ∀ term ∈ terms, term.height ≤ levels := by
  rw [nestingAll_eq_map, deepest_le_iff]
  simp [height]

theorem height_list_le_iff {items : List Term} {levels : Nat} :
    (Term.list items).height ≤ levels + 1 ↔ ∀ item ∈ items, item.height ≤ levels := by
  rw [← deepest_nestingAll_le_iff, height, nesting, Nesting.ofList, Nat.add_comm]
  exact Nat.add_le_add_iff_right

theorem nesting_functional {functor : String} {args : List Term}
    (noCell : ∀ item tail, functor = listCell → args ≠ [item, tail]) :
    (Term.compound functor args).nesting = .functional (nestingAll args) := by
  rw [nesting]
  rcases args with _ | ⟨first, _ | ⟨second, _ | ⟨third, more⟩⟩⟩
  · rfl
  · rfl
  · have other : functor ≠ listCell := fun same => noCell first second same rfl
    simp [nestingAll, Nesting.ofCompound, other]
  · rfl

theorem height_functional_le_iff {functor : String} {args : List Term} {levels : Nat}
    (noCell : ∀ item tail, functor = listCell → args ≠ [item, tail]) :
    (Term.compound functor args).height ≤ levels + 1 ↔ ∀ arg ∈ args, arg.height ≤ levels := by
  rw [← deepest_nestingAll_le_iff, height, nesting_functional noCell, Nesting.functional,
    Nat.add_comm]
  exact Nat.add_le_add_iff_right

theorem height_cell (item tail : Term) :
    (Term.compound listCell [item, tail]).height = 1 + max item.height tail.tailHeight := by
  simp [height, tailHeight, nesting, nestingAll, Nesting.ofCompound]

theorem tailHeight_cell (item tail : Term) :
    (Term.compound listCell [item, tail]).tailHeight = max item.height tail.tailHeight := by
  simp [height, tailHeight, nesting, nestingAll, Nesting.ofCompound]

theorem height_pos (term : Term) : 0 < term.height := by
  cases term with
  | atom name => exact Nat.one_pos
  | integer value => exact Nat.one_pos
  | float value => exact Nat.one_pos
  | var name => exact Nat.one_pos
  | list items => exact Nat.add_pos_left Nat.one_pos _
  | compound functor args =>
      cases compoundForm functor args with
      | cell item tail =>
          rw [height_cell]
          exact Nat.add_pos_left Nat.one_pos _
      | braces inner => exact Nat.add_pos_left Nat.one_pos _
      | functional plain =>
          rw [height, nesting_functional plain.noCell]
          exact Nat.add_pos_left Nat.one_pos _

theorem tailHeight_eq_height {term : Term} (noList : ∀ items, term ≠ .list items)
    (noCell : ∀ item tail, term ≠ .compound listCell [item, tail]) :
    term.tailHeight = term.height := by
  cases term with
  | atom name => rfl
  | integer value => rfl
  | float value => rfl
  | var name => rfl
  | list items => exact absurd rfl (noList items)
  | compound functor args =>
      have plain : ∀ item tail, functor = listCell → args ≠ [item, tail] := by
        intro item tail same pair
        exact noCell item tail (by rw [same, pair])
      rw [tailHeight, height, nesting_functional plain]
      rfl

end Term

end HornQuery
