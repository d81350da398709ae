import HornQuery.Answer.Solution
import Mathlib.Data.List.Basic

namespace HornQuery.Solution

/-- What a caller can do with a solution. -/
inductive Operation where
  | fetch
  | on (name : String)
  | term (name : String)
  | get (name : String)
  | value
  | collect (outs : List (List Value))
  | toLists
  | collectAs (type : HostType) (name : String)
  | current
  | remaining
  | iter

def perform (solution : Solution) : Operation → Solution
  | .fetch => solution.fetch.2
  | .on name => solution.on name
  | .collect outs => (solution.collect outs).solution
  | .toLists => solution.toLists.2
  | .term _ | .get _ | .value | .collectAs _ _ | .current | .remaining | .iter => solution

def run (solution : Solution) (operations : List Operation) : Solution :=
  operations.foldl perform solution

def Drains (solution : Solution) : Operation → Prop
  | .collect outs => (solution.collect outs).result = .ok ()
  | .toLists => ∃ lists, solution.toLists.1 = .ok lists
  | _ => False

def Operation.isFetch : Operation → Bool
  | .fetch => true
  | _ => false

/-- What the fetches among some operations return, each with the row that is then the current one. -/
def fetches (solution : Solution) : List Operation → List (Bool × Option Row)
  | [] => []
  | .fetch :: later => (solution.fetch.1, solution.fetch.2.current?) :: fetches solution.fetch.2 later
  | operation :: later => fetches (solution.perform operation) later

def NeverDrains (solution : Solution) : List Operation → Prop
  | [] => True
  | operation :: later =>
      ¬solution.Drains operation ∧ NeverDrains (solution.perform operation) later

/-- What the fetch with a number shows: the row with that number, or after the last row a refusal
and still the last row. -/
def shown (rows : List Row) (number : Nat) : Bool × Option Row :=
  match rows[number]? with
  | some row => (true, some row)
  | none => (false, rows.getLast?)

/-! One operation. -/

def drained (solution : Solution) : Solution :=
  if solution.rows.isEmpty then solution
  else { solution with cursor? := some (solution.rows.length - 1) }

variable {solution start : Solution} {operation : Operation}

theorem collect_cases (solution : Solution) (outs : List (List Value)) :
    (solution.collect outs).result = .ok () ∧
        (solution.collect outs).solution = solution.drained ∨
      (∃ cause, (solution.collect outs).result = .error cause) ∧
        (solution.collect outs).solution = solution := by
  rw [collect]
  split
  case isTrue => exact .inr ⟨⟨_, rfl⟩, rfl⟩
  case isFalse =>
    dsimp only
    rcases fillRows solution.policy solution.columns (solution.rows.drop solution.position) outs
      with ⟨filled, cause | _⟩
    · exact .inr ⟨⟨cause, rfl⟩, rfl⟩
    · exact .inl ⟨rfl, rfl⟩

theorem perform_cases (solution : Solution) (operation : Operation) :
    solution.Drains operation ∧ solution.perform operation = solution.drained ∨
      ¬solution.Drains operation ∧
        (operation = .fetch ∨
          operation.isFetch = false ∧
            ∃ name?, solution.perform operation = { solution with defaultVariable? := name? }) := by
  cases operation with
  | collect outs =>
      rcases solution.collect_cases outs with ⟨filled, moved⟩ | ⟨⟨cause, failed⟩, same⟩
      · exact .inl ⟨filled, moved⟩
      · refine .inr ⟨?_, .inr ⟨rfl, solution.defaultVariable?, same⟩⟩
        rw [Drains, failed]
        nofun
  | toLists =>
      rcases solution.collect_cases (solution.columns.map fun _ => []) with
        ⟨filled, moved⟩ | ⟨⟨cause, failed⟩, same⟩
      · exact .inl ⟨⟨_, by rw [toLists, filled]; rfl⟩, moved⟩
      · refine .inr ⟨?_, .inr ⟨rfl, solution.defaultVariable?, same⟩⟩
        rintro ⟨lists, done⟩
        rw [toLists, failed] at done
        cases done
  | fetch => exact .inr ⟨id, .inl rfl⟩
  | on name => exact .inr ⟨id, .inr ⟨rfl, some name, rfl⟩⟩
  | _ => exact .inr ⟨id, .inr ⟨rfl, solution.defaultVariable?, rfl⟩⟩

/-! What no operation changes. -/

/-- Solutions that differ at most in their cursor and their default variable. -/
structure Agrees (first second : Solution) : Prop where
  rows : second.rows = first.rows
  columns : second.columns = first.columns
  criterion : second.criterion = first.criterion
  failure? : second.failure? = first.failure?
  policy : second.policy = first.policy

theorem Agrees.refl (solution : Solution) : Agrees solution solution :=
  ⟨rfl, rfl, rfl, rfl, rfl⟩

theorem Agrees.trans {first second third : Solution} (left : Agrees first second)
    (right : Agrees second third) : Agrees first third where
  rows := right.rows.trans left.rows
  columns := right.columns.trans left.columns
  criterion := right.criterion.trans left.criterion
  failure? := right.failure?.trans left.failure?
  policy := right.policy.trans left.policy

theorem Agrees.isSuccess {first second : Solution} (agrees : Agrees first second) :
    second.isSuccess = first.isSuccess := by
  rw [Solution.isSuccess, Solution.isSuccess, meanProbability?, meanProbability?, agrees.rows,
    agrees.failure?, agrees.criterion]

theorem agrees_fetch (solution : Solution) : Agrees solution solution.fetch.2 := by
  rw [fetch]
  split
  case isTrue => exact ⟨rfl, rfl, rfl, rfl, rfl⟩
  case isFalse => exact .refl solution

theorem agrees_drained (solution : Solution) : Agrees solution solution.drained := by
  rw [drained]
  split
  case isTrue => exact .refl solution
  case isFalse => exact ⟨rfl, rfl, rfl, rfl, rfl⟩

theorem agrees_perform (solution : Solution) (operation : Operation) :
    Agrees solution (solution.perform operation) := by
  rcases solution.perform_cases operation with
    ⟨-, moved⟩ | ⟨-, rfl | ⟨-, name?, moved⟩⟩
  · rw [moved]
    exact solution.agrees_drained
  · exact solution.agrees_fetch
  · rw [moved]
    exact ⟨rfl, rfl, rfl, rfl, rfl⟩

theorem agrees_run (solution : Solution) (operations : List Operation) :
    Agrees solution (solution.run operations) := by
  induction operations generalizing solution with
  | nil => exact .refl solution
  | cons operation later induction =>
      exact (solution.agrees_perform operation).trans (induction (solution.perform operation))

/-! The cursor, by the number of the row that it goes to next. -/

theorem cursor?_eq (solution : Solution) :
    solution.cursor? = if solution.next = 0 then none else some (solution.next - 1) := by
  rw [next]
  cases solution.cursor? <;> simp

theorem position_eq (solution : Solution) : solution.position = solution.next - 1 := by
  rw [position, next]
  cases solution.cursor? <;> rfl

theorem current?_eq (solution : Solution) :
    solution.current? = solution.rows[solution.next - 1]? := by
  rw [current?, position_eq]

theorem next_fetch (solution : Solution) :
    solution.fetch.2.next =
      if solution.next < solution.rows.length then solution.next + 1 else solution.next := by
  rw [fetch]
  split <;> rfl

theorem fetch_fst (solution : Solution) :
    solution.fetch.1 = decide (solution.next < solution.rows.length) := by
  rw [fetch]
  split <;> simp_all

def Placed (solution : Solution) : Prop :=
  solution.next ≤ solution.rows.length

theorem next_drained (placed : solution.Placed) : solution.drained.next = solution.rows.length := by
  rw [drained]
  split
  case isTrue empty =>
    have none : solution.rows.length = 0 := by simpa using empty
    rw [Placed, none, Nat.le_zero] at placed
    rw [placed, none]
  case isFalse some =>
    have positive : 0 < solution.rows.length := by
      rw [List.length_pos_iff]
      simpa using some
    change solution.rows.length - 1 + 1 = solution.rows.length
    omega

theorem next_perform (placed : solution.Placed) (operation : Operation) :
    solution.Drains operation ∧ (solution.perform operation).next = solution.rows.length ∨
      ¬solution.Drains operation ∧
        (operation = .fetch ∨
          operation.isFetch = false ∧ (solution.perform operation).next = solution.next) := by
  rcases solution.perform_cases operation with
    ⟨drains, moved⟩ | ⟨keeps, isFetch | ⟨other, name?, moved⟩⟩
  · exact .inl ⟨drains, by rw [moved, next_drained placed]⟩
  · exact .inr ⟨keeps, .inl isFetch⟩
  · exact .inr ⟨keeps, .inr ⟨other, by rw [moved]; rfl⟩⟩

theorem next_le_next_perform (placed : solution.Placed) (operation : Operation) :
    solution.next ≤ (solution.perform operation).next ∧
      (solution.perform operation).next ≤ solution.rows.length := by
  rcases next_perform placed operation with ⟨-, last⟩ | ⟨-, rfl | ⟨-, same⟩⟩
  · rw [last]
    exact ⟨placed, Nat.le_refl _⟩
  · rw [perform, next_fetch]
    split
    case isTrue more => exact ⟨Nat.le_succ _, more⟩
    case isFalse => exact ⟨Nat.le_refl _, placed⟩
  · rw [same]
    exact ⟨Nat.le_refl _, placed⟩

theorem cursor?_le_cursor?_perform (placed : solution.Placed) (operation : Operation) :
    solution.cursor? ≤ (solution.perform operation).cursor? := by
  have forward := (next_le_next_perform placed operation).1
  rw [cursor?_eq, cursor?_eq]
  split
  case isTrue => exact Option.none_le
  case isFalse some =>
    rw [if_neg (by omega)]
    exact Option.some_le_some.mpr (Nat.sub_le_sub_right forward 1)

theorem placed_perform (placed : solution.Placed) (operation : Operation) :
    (solution.perform operation).Placed := by
  rw [Placed, (solution.agrees_perform operation).rows]
  exact (next_le_next_perform placed operation).2

theorem placed_run (placed : solution.Placed) (operations : List Operation) :
    (solution.run operations).Placed := by
  induction operations generalizing solution with
  | nil => exact placed
  | cons operation later induction => exact induction (placed_perform placed operation)

theorem placed_of_fresh (fresh : start.cursor? = none) : start.Placed := by
  rw [Placed, next, fresh]
  exact Nat.zero_le _

/-! Fetching. -/

theorem fetch_eq_true_iff_remaining (solution : Solution) :
    solution.fetch.1 = true ↔ solution.remaining ≠ [] := by
  rw [fetch_eq_true_iff, remaining, ne_eq, List.drop_eq_nil_iff, Nat.not_le]

theorem fetch_of_remaining {row : Row} {rest : List Row}
    (left : solution.remaining = row :: rest) :
    solution.fetch.1 = true ∧ solution.fetch.2.current? = some row ∧
      solution.fetch.2.remaining = rest := by
  have fetched : solution.fetch.1 = true := by
    rw [fetch_eq_true_iff_remaining, left]
    exact List.cons_ne_nil row rest
  have more := solution.fetch_eq_true_iff.mp fetched
  rw [remaining, List.drop_eq_getElem_cons more, List.cons.injEq] at left
  refine ⟨fetched, ?_, ?_⟩
  · rw [current?_eq, next_fetch, if_pos more, rows_fetch, Nat.add_sub_cancel,
      List.getElem?_eq_getElem more, left.1]
  · rw [remaining, next_fetch, if_pos more, rows_fetch, left.2]

theorem current?_eq_none_iff (placed : solution.Placed) :
    solution.current? = none ↔ solution.rows = [] := by
  rw [current?_eq, List.getElem?_eq_none_iff, ← List.length_eq_zero_iff]
  rw [Placed] at placed
  omega

theorem shown_of_le {rows : List Row} {number : Nat} (after : rows.length ≤ number) :
    shown rows number = (false, rows.getLast?) := by
  rw [shown, List.getElem?_eq_none after]

theorem shown_next (placed : solution.Placed) :
    (solution.fetch.1, solution.fetch.2.current?) = shown solution.rows solution.next := by
  rw [fetch_fst, current?_eq, next_fetch, rows_fetch]
  split
  case isTrue more =>
    rw [shown, List.getElem?_eq_getElem more, Nat.add_sub_cancel, List.getElem?_eq_getElem more,
      decide_eq_true more]
  case isFalse last =>
    have all : solution.next = solution.rows.length := Nat.le_antisymm placed (Nat.not_lt.mp last)
    rw [shown_of_le (Nat.le_of_eq all.symm), List.getLast?_eq_getElem?, all, decide_eq_false]
    omega

theorem shown_next_fetch (solution : Solution) (number : Nat) :
    shown solution.rows (solution.fetch.2.next + number) =
      shown solution.rows (solution.next + (number + 1)) := by
  rw [next_fetch]
  split
  case isTrue => rw [Nat.add_right_comm, Nat.add_assoc]
  case isFalse last =>
    have after := Nat.not_lt.mp last
    rw [shown_of_le (Nat.le_add_right_of_le after), shown_of_le (Nat.le_add_right_of_le after)]

theorem fetches_cons_of_isFetch_eq_false (other : operation.isFetch = false)
    (later : List Operation) :
    solution.fetches (operation :: later) = (solution.perform operation).fetches later := by
  cases operation <;> first | rfl | cases other

theorem fetches_of_neverDrains {operations : List Operation} (placed : solution.Placed)
    (never : solution.NeverDrains operations) :
    solution.fetches operations =
      (List.range (operations.countP Operation.isFetch)).map fun number =>
        shown solution.rows (solution.next + number) := by
  -- Past the last row the cursor stays, and so does what further fetches show.
  induction operations generalizing solution with
  | nil => rfl
  | cons operation later induction =>
      obtain ⟨keeps, never⟩ := never
      have others := induction (placed_perform placed operation) never
      rw [(solution.agrees_perform operation).rows] at others
      rcases next_perform placed operation with ⟨drains, -⟩ | ⟨-, rfl | ⟨other, same⟩⟩
      · exact absurd drains keeps
      · rw [fetches, shown_next placed, List.countP_cons_of_pos rfl, List.range_succ_eq_map,
          List.map_cons, List.map_map]
        refine congrArg _ (others.trans (List.map_congr_left fun number _ => ?_))
        exact solution.shown_next_fetch number
      · rw [List.countP_cons_of_neg (by simp [other]), ← same, ← others,
          fetches_cons_of_isFetch_eq_false other]

theorem fetches_of_next_eq_length {operations : List Operation}
    (last : solution.next = solution.rows.length) :
    ∀ outcome ∈ solution.fetches operations, outcome.1 = false := by
  induction operations generalizing solution with
  | nil => exact List.forall_mem_nil _
  | cons operation later induction =>
      have others := @induction (solution.perform operation)
      rw [(solution.agrees_perform operation).rows] at others
      rcases next_perform (Nat.le_of_eq last) operation with ⟨drains, after⟩ | ⟨-, rfl | ⟨other, same⟩⟩
      · rw [fetches_cons_of_isFetch_eq_false]
        · exact others after
        · cases operation <;> first | rfl | cases drains
      · rw [fetches]
        refine List.forall_mem_cons.mpr ⟨?_, others ?_⟩
        · rw [fetch_fst, last, decide_eq_false (Nat.lt_irrefl _)]
        · rw [perform, next_fetch, last, if_neg (Nat.lt_irrefl _)]
      · rw [fetches_cons_of_isFetch_eq_false other]
        exact others (same.trans last)

theorem fetches_of_drains (placed : solution.Placed) (drains : solution.Drains operation)
    (later : List Operation) :
    ∀ outcome ∈ (solution.perform operation).fetches later, outcome.1 = false := by
  apply fetches_of_next_eq_length
  rw [(solution.agrees_perform operation).rows]
  rcases next_perform placed operation with ⟨-, last⟩ | ⟨keeps, -⟩
  · exact last
  · exact absurd drains keeps

/-- Whatever is done with a solution, its rows and its success stay as they are and its cursor
stays on them and never goes back. Fetching takes the first of the remaining rows. Without a
successful bulk read every row is fetched once and in order, after one none. -/
theorem cursor_run (fresh : start.cursor? = none) (operations : List Operation) :
    let solution := start.run operations
    (solution.rows = start.rows ∧ solution.columns = start.columns ∧
        solution.failure? = start.failure? ∧ solution.isSuccess = start.isSuccess) ∧
      (∀ index, solution.cursor? = some index → index < solution.rows.length) ∧
      (∀ operation, solution.cursor? ≤ (solution.perform operation).cursor?) ∧
      (solution.fetch.1 = true ↔ solution.remaining ≠ []) ∧
      (∀ row rest, solution.remaining = row :: rest →
        solution.fetch.2.current? = some row ∧ solution.fetch.2.remaining = rest) ∧
      (start.NeverDrains operations →
        start.fetches operations =
          (List.range (operations.countP Operation.isFetch)).map (shown start.rows)) ∧
      (∀ operation later, solution.Drains operation →
        ∀ outcome ∈ (solution.perform operation).fetches later, outcome.1 = false) ∧
      (solution.current? = none ↔ solution.rows = []) := by
  intro solution
  have placed : solution.Placed := placed_run (placed_of_fresh fresh) operations
  have agrees : Agrees start solution := start.agrees_run operations
  refine ⟨⟨agrees.rows, agrees.columns, agrees.failure?, agrees.isSuccess⟩, ?_, ?_,
    solution.fetch_eq_true_iff_remaining, fun row rest left => (fetch_of_remaining left).2, ?_, ?_,
    current?_eq_none_iff placed⟩
  · intro index on
    rwa [Placed, next, on] at placed
  · exact cursor?_le_cursor?_perform placed
  · intro never
    have first : start.next = 0 := by rw [next, fresh]
    rw [fetches_of_neverDrains (placed_of_fresh fresh) never, first]
    simp only [Nat.zero_add]
  · intro operation later drains
    exact fetches_of_drains placed drains later

def pair : Solution :=
  .ofRows ["X"] [⟨[("X", .integer 0)], none⟩, ⟨[("X", .integer 1)], none⟩] .anyRow .empty

theorem cursor_run_pair :
    let operations : List Operation :=
      [.current, .fetch, .collect [[], []], .get "Y", .fetch, .on "Y", .fetch]
    pair.cursor? = none ∧ pair.NeverDrains operations ∧
      pair.fetches operations =
        [(true, some ⟨[("X", .integer 0)], none⟩), (true, some ⟨[("X", .integer 1)], none⟩),
          (false, some ⟨[("X", .integer 1)], none⟩)] := by
  intro operations
  have never : pair.NeverDrains operations := by
    refine ⟨id, id, ?_, id, id, id, id, trivial⟩
    exact nofun
  have runs := (cursor_run (rfl : pair.cursor? = none) operations).2.2.2.2.2.1 never
  exact ⟨rfl, never, runs⟩

end HornQuery.Solution
