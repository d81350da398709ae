import HornQuery.Proofs.Term.Derivation

namespace HornQuery.Term

open Token

/-- The terms that are put together in so many levels of reading. -/
inductive Layered : Nat → Term → Prop
  | atom {levels : Nat} (name : String) : Layered (levels + 1) (.atom name)
  | integer {levels : Nat} (value : Int64) : Layered (levels + 1) (.integer value)
  | float {levels : Nat} (value : Float) : Layered (levels + 1) (.float value)
  | var {levels : Nat} (name : String) : Layered (levels + 1) (.var name)
  | bracketed {levels : Nat} {term : Term} (inside : Layered levels term) :
      Layered (levels + 1) term
  | compound {levels : Nat} {functor : String} {args : List Term} (nonempty : args ≠ [])
      (all : ∀ arg ∈ args, Layered levels arg) : Layered (levels + 1) (.compound functor args)
  | list {levels : Nat} {items : List Term} (all : ∀ item ∈ items, Layered levels item) :
      Layered (levels + 1) (.list items)
  | joined {levels : Nat} {name : String} {left right : Term}
      (isInfix : (infixOperator? name).isSome = true) (first : Layered (levels + 1) left)
      (second : Layered levels right) : Layered (levels + 1) (.compound name [left, right])
  | cell {levels : Nat} {item next last : Term} (first : Layered levels item)
      (others : Layered (levels + 1) (.compound listCell [next, last])) :
      Layered (levels + 1) (.compound listCell [item, .compound listCell [next, last]])

theorem Layered.one {levels : Nat} (functor : String) {arg : Term} (inside : Layered levels arg) :
    Layered (levels + 1) (.compound functor [arg]) :=
  .compound (List.cons_ne_nil _ _) (List.forall_mem_singleton.mpr inside)

theorem Layered.two {levels : Nat} (functor : String) {left right : Term}
    (first : Layered levels left) (second : Layered levels right) :
    Layered (levels + 1) (.compound functor [left, right]) :=
  .compound (List.cons_ne_nil _ _)
    (List.forall_mem_cons.mpr ⟨first, List.forall_mem_singleton.mpr second⟩)

theorem Layered.items {levels : Nat} {items : List Term} (layered : Layered levels (.list items)) :
    ∀ item ∈ items, Layered levels item := by
  generalize same : Term.list items = term at layered
  induction layered with
  | bracketed _ induction => exact fun item among => .bracketed (induction same item among)
  | list all =>
      cases same
      exact fun item among => .bracketed (all item among)
  | atom => cases same
  | integer => cases same
  | float => cases same
  | var => cases same
  | compound => cases same
  | joined => cases same
  | cell => cases same

/-- The cell in front of the tail takes a level, and those in front of it take none. -/
theorem layered_cells {levels : Nat} {items : List Term} (nonempty : items ≠ [])
    (all : ∀ item ∈ items, Layered levels item) {tail : Term} (last : Layered levels tail) :
    Layered (levels + 1)
      (items.foldr (fun item rest => .compound listCell [item, rest]) tail) := by
  induction items with
  | nil => exact absurd rfl nonempty
  | cons item items induction =>
      obtain ⟨first, others⟩ := List.forall_mem_cons.mp all
      cases items with
      | nil => exact .two listCell first last
      | cons next items => exact .cell first (induction (List.cons_ne_nil _ _) others)

theorem layered_listWithTail {levels : Nat} {items : List Term} (nonempty : items ≠ [])
    (all : ∀ item ∈ items, Layered levels item) {tail : Term} (last : Layered levels tail) :
    Layered (levels + 1) (listWithTail items (some tail)) := by
  by_cases isList : ∃ rest, tail = .list rest
  · obtain ⟨rest, rfl⟩ := isList
    exact .list (List.forall_mem_append.mpr ⟨all, last.items⟩)
  · rw [listWithTail_of_noList (fun rest same => isList ⟨rest, same⟩)]
    exact layered_cells nonempty all last

theorem infixOperator?_of_joining? {bound : Nat} {left : Operand} {token : Token} {name : String}
    {operator : InfixOperator} (joins : joining? bound left token = some (name, operator)) :
    infixOperator? name = some operator := by
  obtain ⟨called, -, joins⟩ := Option.bind_eq_some_iff.mp joins
  obtain ⟨found, listed, joins⟩ := Option.bind_eq_some_iff.mp joins
  split at joins
  case isTrue => cases joins
  case isFalse =>
    cases joins
    exact listed

def ReadsLayered (levels : Nat) (operand : OperandReader) : Prop :=
  ∀ {bound tokens result taken}, operand bound tokens = .ok (result, taken) →
    Layered levels result.term

section

variable {levels taken bound : Nat} {operand : OperandReader} {tokens rest : List Token}
  {token : Token} {mark : Char} {term : Term} {result : Operand}

theorem ArgumentsRead.layered {args : List Term} (read : ArgumentsRead operand tokens args taken)
    (reads : ReadsLayered levels operand) : args ≠ [] ∧ ∀ arg ∈ args, Layered levels arg := by
  induction read with
  | last found => exact ⟨List.cons_ne_nil _ _, List.forall_mem_singleton.mpr (reads found)⟩
  | more found _ _ _ others =>
      exact ⟨List.cons_ne_nil _ _, List.forall_mem_cons.mpr ⟨reads found, others.2⟩⟩

theorem ListRead.layered (read : ListRead operand tokens term taken)
    (reads : ReadsLayered levels operand) : Layered (levels + 1) term := by
  cases read with
  | empty => exact .list nofun
  | items read => exact .list (read.layered reads).2
  | withTail read _ found =>
      obtain ⟨nonempty, all⟩ := read.layered reads
      exact layered_listWithTail nonempty all (reads found)

theorem BracketedRead.layered (read : BracketedRead mark operand tokens term taken)
    (reads : ReadsLayered levels operand) : Layered levels term := by
  cases read with
  | closed found => exact reads found

theorem NumberRead.layered (read : NumberRead token term) : Layered (levels + 1) term := by
  cases read with
  | integer _ value => exact .integer value
  | float _ value => exact .float value

theorem NameRead.layered {name : String} (read : NameRead operand name bound tokens result taken)
    (reads : ReadsLayered levels operand) : Layered (levels + 1) result.term := by
  cases read with
  | functional _ read =>
      obtain ⟨nonempty, all⟩ := read.layered reads
      exact .compound nonempty all
  | atom => exact .atom name
  | negative found =>
      obtain ⟨_, _, _, read⟩ := numberRead found
      exact read.layered
  | prefixed _ _ found => exact .one name (reads found)

theorem PrimaryRead.layered (read : PrimaryRead operand bound token rest result taken)
    (reads : ReadsLayered levels operand) : Layered (levels + 1) result.term := by
  cases read with
  | number read => exact read.layered
  | var => exact .var _
  | string => exact .atom _
  | name _ read => exact read.layered reads
  | bracketed _ read => exact .bracketed (read.layered reads)
  | list _ read => exact read.layered reads
  | noBraces => exact .atom _
  | braces _ read => exact .one _ (read.layered reads)

theorem InfixRead.layered {left : Operand} (read : InfixRead operand bound left tokens result taken)
    (reads : ReadsLayered levels operand) (first : Layered (levels + 1) left.term) :
    Layered (levels + 1) result.term := by
  induction read with
  | stop => exact first
  | join joins found _ induction =>
      have isInfix := Option.isSome_of_eq_some (infixOperator?_of_joining? joins)
      exact induction (.joined isInfix first (reads found))

end

theorem readsLayered_readOperand (size levels : Nat) :
    ReadsLayered levels (readOperand size levels) := by
  induction levels with
  | zero => exact nofun
  | succ levels reads =>
      intro bound tokens result taken read
      cases levelRead read with
      | read primary others => exact others.layered reads (primary.layered reads)

theorem layered_of_ofText {text : List Char} {term : Term} (read : ofText text = .ok term) :
    Layered maxDepth term := by
  obtain ⟨tokens, -, continued⟩ := bind_eq_ok.mp read
  obtain ⟨result, taken, found, rfl, -⟩ := ofTokens_eq_ok continued
  exact readsLayered_readOperand _ _ found

end HornQuery.Term
