import HornQuery.Engine.Dialect
import HornQuery.Proofs.Answer.Acceptance
import HornQuery.Proofs.Answer.Cursor
import HornQuery.Proofs.Conversion.Standard

namespace HornQuery

theorem mapM_eq_ok_map {ε α β : Type} {convert : α → Except ε β} {result : α → β}
    {wholes : List α} (all : ∀ whole ∈ wholes, convert whole = .ok (result whole)) :
    wholes.mapM convert = .ok (wholes.map result) := by
  induction wholes with
  | nil => rfl
  | cons whole wholes induction =>
      obtain ⟨first, others⟩ := List.forall_mem_cons.mp all
      rw [List.mapM_cons, first, induction others]
      rfl

/-! Every term has a value. -/

namespace Policy

def builtIn : List Policy := [standard, swi, problog]

variable {policy : Policy}

theorem functorOrder_of_mem_builtIn (member : policy ∈ builtIn) :
    policy.functorOrder = [] := by
  simp only [builtIn, List.mem_cons, List.not_mem_nil, or_false] at member
  rcases member with rfl | rfl | rfl <;> rfl

theorem classConverters_of_mem_builtIn (member : policy ∈ builtIn) :
    policy.classConverters = standard.classConverters := by
  simp only [builtIn, List.mem_cons, List.not_mem_nil, or_false] at member
  rcases member with rfl | rfl | rfl <;> rfl

theorem exists_toHost (member : policy ∈ builtIn) (term : Term) :
    ∃ value, policy.toHost term = .ok value := by
  have none := functorOrder_of_mem_builtIn member
  have registered : ∀ {termClass converter},
      standard.classConverters.lookup termClass = some converter →
        policy.classConverters.lookup termClass = some converter := by
    rw [classConverters_of_mem_builtIn member]
    exact id
  induction term using Term.induction with
  | atom name =>
      refine ⟨.string name, ?_⟩
      rw [toHost_eq_valueOf]
      exact valueOf_of_accepts rfl none (registered rfl) rfl
  | integer value =>
      refine ⟨.int value, ?_⟩
      rw [toHost_eq_valueOf]
      exact valueOf_of_accepts rfl none (registered rfl) rfl
  | float value =>
      refine ⟨.float value, ?_⟩
      rw [toHost_eq_valueOf]
      exact valueOf_of_accepts rfl none (registered rfl) rfl
  | var name => exact ⟨.null, rfl⟩
  | compound functor args each =>
      choose! value converted using each
      refine ⟨.compound functor (args.map value), ?_⟩
      rw [toHost_eq_valueOf, Term.parts, toHosts_eq_map]
      apply valueOf_of_accepts rfl none (registered rfl)
      rw [hostCompound, allParts_map converted]
      rfl
  | list items each =>
      choose! value converted using each
      refine ⟨.list (items.map value), ?_⟩
      rw [toHost_eq_valueOf, Term.parts, toHosts_eq_map]
      apply valueOf_of_accepts rfl none (registered rfl)
      rw [hostList, allParts_map converted]
      rfl

end Policy

/-! Every decoded row binds every variable. -/

theorem Row.exists_get? {row : Row} {name : String} (bound : name ∈ row.bindings.map Prod.fst) :
    ∃ term, row.get? name = some term := by
  obtain ⟨binding, member, rfl⟩ := List.mem_map.mp bound
  rw [← Option.isSome_iff_exists, Row.get?, List.lookup_isSome_iff]
  exact ⟨binding, member, beq_self_eq_true _⟩

namespace Weighted

variable {diagnostics : Diagnostics} {columns : List String} {output : List (List Char)}

theorem length_of_queryArgs? {head : Term} {arity : Nat} {args : List Term}
    (isQuery : queryArgs? head arity = some args) : args.length = arity := by
  rw [queryArgs?.eq_def] at isQuery
  split at isQuery
  case h_1 name =>
    split at isQuery
    case isTrue found =>
      cases isQuery
      simp only [Bool.and_eq_true, decide_eq_true_eq] at found
      exact found.1.symm
    case isFalse => cases isQuery
  case h_2 functor inner =>
    split at isQuery
    case isTrue found =>
      cases isQuery
      simp only [Bool.and_eq_true, decide_eq_true_eq] at found
      exact found.2
    case isFalse => cases isQuery
  case h_3 => cases isQuery

theorem names_of_row {line : List Char} {found : Row} (decoded : row columns line = .ok found) :
    found.bindings.map Prod.fst = columns := by
  rw [row] at decoded
  split at decoded
  case h_1 => cases decoded
  case h_2 head weight _ =>
    split at decoded
    case h_1 => cases decoded
    case h_2 p _ =>
      dsimp only at decoded
      split at decoded
      case h_1 => cases decoded
      case h_2 term _ =>
        split at decoded
        case h_1 => cases decoded
        case h_2 args isQuery =>
          cases decoded
          exact List.map_fst_zip (Nat.le_of_eq (length_of_queryArgs? isQuery).symm)

theorem names_of_rows {found : List Row} (decoded : rows diagnostics columns output = .ok found) :
    ∀ row ∈ found, row.bindings.map Prod.fst = columns := by
  induction output generalizing found with
  | nil =>
      cases decoded
      exact List.forall_mem_nil _
  | cons line rest induction =>
      rw [rows] at decoded
      split at decoded
      case isTrue => exact induction decoded
      case isFalse =>
        split at decoded
        case isTrue => cases decoded
        case isFalse =>
          obtain ⟨first, others, isRow, later, rfl⟩ := cons_eq_ok_iff.mp decoded
          exact List.forall_mem_cons.mpr ⟨names_of_row isRow, induction later⟩

end Weighted

theorem Plain.names_of_rows {diagnostics : Diagnostics} {columns : List String}
    {output : List (List Char)} {found : List Row}
    (decoded : rows diagnostics columns output = .ok found) :
    ∀ row ∈ found, row.bindings.map Prod.fst = columns := by
  intro row member
  obtain ⟨index, bound, rfl⟩ := List.getElem_of_mem member
  have rows := (rows_eq_ok_iff.mp decoded).rows
  exact (rows.get (rows.length_eq ▸ bound) bound).names

structure Solution.Fresh (columns : List String) (policy : Policy) (solution : Solution) : Prop where
  columns_eq : solution.columns = columns
  policy_eq : solution.policy = policy
  cursor?_eq_none : solution.cursor? = none
  names : ∀ row ∈ solution.rows, row.bindings.map Prod.fst = columns

theorem Plain.fresh_decode (output : String) (columns : List String) (diagnostics : Diagnostics)
    (policy : Policy) : (decode output columns diagnostics policy).Fresh columns policy := by
  rw [decode]
  split
  case h_1 found decoded => exact ⟨rfl, rfl, rfl, names_of_rows decoded⟩
  case h_2 => exact ⟨rfl, rfl, rfl, List.forall_mem_nil _⟩

theorem Weighted.fresh_decode (output : String) (columns : List String) (diagnostics : Diagnostics)
    (policy : Policy) : (decode output columns diagnostics policy).Fresh columns policy := by
  rw [decode]
  split
  case h_1 found decoded => exact ⟨rfl, rfl, rfl, names_of_rows decoded⟩
  case h_2 => exact ⟨rfl, rfl, rfl, List.forall_mem_nil _⟩

theorem Dialect.fresh_decode (dialect : Dialect) (output : String) (columns : List String)
    (policy : Policy) : (dialect.decode output columns policy).Fresh columns policy := by
  rw [decode]
  split
  case h_1 => exact Plain.fresh_decode output columns dialect.diagnostics policy
  case h_2 => exact Weighted.fresh_decode output columns dialect.diagnostics policy

/-! The three ways of reading. -/

namespace Solution

variable {policy : Policy} {solution : Solution} {name : String}

/-- Steps through the solution as long as there is a row and reads after each step. -/
def whileFetch {α : Type} (read : Solution → α) (solution : Solution) : List α :=
  if _ : solution.fetch.1 = true then
    read solution.fetch.2 :: whileFetch read solution.fetch.2
  else []
termination_by solution.remaining.length
decreasing_by
  rename_i fetched
  obtain ⟨row, rest, left⟩ :=
    List.exists_cons_of_ne_nil (solution.fetch_eq_true_iff_remaining.mp fetched)
  rw [(fetch_of_remaining left).2.2, left]
  exact Nat.lt_succ_self _

def collectValues (solution : Solution) (name : String) : Except SolutionError (List Value) :=
  solution.collectAs .value name

theorem collectValues_eq (solution : Solution) (name : String) :
    solution.collectValues name =
      solution.rows.mapM fun row => rowValue solution.policy row name := by
  refine congrArg (fun read => solution.rows.mapM read) (funext fun row => ?_)
  rw [rowValue]
  cases row.get? name with
  | none => rfl
  | some term =>
      dsimp only [Policy.toHostAs]
      cases solution.policy.toHost term <;> rfl

theorem get_of_current? {row : Row} (current : solution.current? = some row) (name : String) :
    solution.get name = rowValue solution.policy row name := by
  rw [get, term, current, rowValue, Option.bind_some]
  cases row.get? name <;> rfl

theorem whileFetch_get (solution : Solution) (name : String) :
    (solution.whileFetch fun moved => moved.get name) =
      solution.remaining.map fun row => rowValue solution.policy row name := by
  generalize ahead : solution.remaining = rows
  induction rows generalizing solution with
  | nil =>
      rw [whileFetch, dif_neg]
      · rfl
      · rw [fetch_eq_true_iff_remaining, ahead]
        exact not_not_intro rfl
  | cons row rest induction =>
      obtain ⟨fetched, current, after⟩ := fetch_of_remaining ahead
      rw [whileFetch, dif_pos fetched, get_of_current? current, induction _ after,
        solution.agrees_fetch.policy, List.map_cons]

theorem fillRow_columns {row : Row} {value : String → Value} {columns : List String}
    (values : ∀ name ∈ columns, rowValue policy row name = .ok (value name))
    (before : String → List Value) :
    fillRow policy row columns (columns.map before) =
      (columns.map fun name => before name ++ [value name], .ok ()) := by
  induction columns with
  | nil => rfl
  | cons name columns induction =>
      obtain ⟨first, others⟩ := List.forall_mem_cons.mp values
      rw [List.map_cons, fillRow, first]
      simp only [induction others, List.map_cons]

theorem fillRows_columns {rows : List Row} {value : Row → String → Value} {columns : List String}
    (values : ∀ row ∈ rows, ∀ name ∈ columns, rowValue policy row name = .ok (value row name))
    (before : String → List Value) :
    fillRows policy columns rows (columns.map before) =
      (columns.map fun name => before name ++ rows.map fun row => value row name, .ok ()) := by
  -- The lists that the other rows are put into end with the values of the first row.
  induction rows generalizing before with
  | nil => simp [fillRows]
  | cons row rows induction =>
      obtain ⟨first, others⟩ := List.forall_mem_cons.mp values
      simp only [fillRows, fillRow_columns first]
      rw [induction others]
      simp

theorem Fresh.exists_rowValue {columns : List String} (fresh : solution.Fresh columns policy)
    (builtIn : policy ∈ Policy.builtIn) :
    ∀ row ∈ solution.rows, ∀ name ∈ columns, ∃ value, rowValue policy row name = .ok value := by
  intro row isRow name isColumn
  obtain ⟨term, found⟩ := Row.exists_get? (fresh.names row isRow ▸ isColumn)
  obtain ⟨value, converted⟩ := Policy.exists_toHost builtIn term
  refine ⟨value, ?_⟩
  rw [rowValue, found]
  exact congrArg Solution.converted converted

theorem Fresh.toLists_eq {columns : List String} {value : Row → String → Value}
    (fresh : solution.Fresh columns policy)
    (values : ∀ row ∈ solution.rows, ∀ name ∈ columns,
      rowValue policy row name = .ok (value row name)) :
    solution.toLists.1 =
      .ok (columns.map fun name => solution.rows.map fun row => value row name) := by
  have all : solution.rows.drop solution.position = solution.rows := by
    rw [position, fresh.cursor?_eq_none]
    rfl
  have filled := fillRows_columns values fun _ => []
  simp only [List.nil_append] at filled
  rw [toLists, collect, fresh.columns_eq, fresh.policy_eq, List.length_map,
    if_neg (Nat.lt_irrefl _), all]
  simp only [filled]
  rfl

theorem Fresh.remaining_eq {columns : List String} (fresh : solution.Fresh columns policy) :
    solution.remaining = solution.rows := by
  rw [remaining, next, fresh.cursor?_eq_none]
  rfl

/-- A solution that a decoder returns has the same values for a variable, one for each row, whether
they are read in bulk, over all rows, or one by one after each step of the cursor. -/
theorem toLists_decode {policy : Policy} (builtIn : policy ∈ Policy.builtIn) (dialect : Dialect)
    (output : String) (columns : List String) :
    let solution := dialect.decode output columns policy
    ∃ lists, solution.toLists.1 = .ok lists ∧
      List.Forall₂ (fun name list =>
        list.length = solution.rows.length ∧ solution.collectValues name = .ok list ∧
          (solution.whileFetch fun moved => moved.get name) = list.map .ok) columns lists := by
  intro solution
  have fresh : solution.Fresh columns policy := dialect.fresh_decode output columns policy
  have values := fresh.exists_rowValue builtIn
  choose! value read using values
  refine ⟨_, fresh.toLists_eq read, ?_⟩
  rw [List.forall₂_map_right_iff, List.forall₂_same]
  intro name isColumn
  refine ⟨List.length_map _, ?_, ?_⟩
  · rw [collectValues_eq, fresh.policy_eq]
    exact mapM_eq_ok_map fun row isRow => read row isRow name isColumn
  · rw [whileFetch_get, fresh.remaining_eq, fresh.policy_eq, List.map_map]
    exact List.map_congr_left fun row isRow => read row isRow name isColumn

theorem toLists_decode_open :
    let solution := (Dialect.ofEngine .swi).decode
      "\n$sol\t1\tf(X)\n\n$sol\t'a b'\t[c|T]\n\n$end\n" ["X", "Y"] .swi
    Policy.swi ∈ Policy.builtIn ∧ solution.rows.length = 2 ∧
      ∃ lists, solution.toLists.1 = .ok lists ∧
        List.Forall₂ (fun name list =>
          list.length = solution.rows.length ∧ solution.collectValues name = .ok list ∧
            (solution.whileFetch fun moved => moved.get name) = list.map .ok) ["X", "Y"] lists := by
  have builtIn : Policy.swi ∈ Policy.builtIn := List.mem_cons_of_mem _ List.mem_cons_self
  exact ⟨builtIn, by decide +kernel, toLists_decode builtIn _ _ _⟩

end Solution

end HornQuery
