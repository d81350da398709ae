import HornQuery.Conversion.Standard
import HornQuery.Proofs.Answer.Cursor

namespace HornQuery.Solution

/-- Each destination keeps what it held, and then has the values of its variable in the first rows.
How many rows these are may differ between the destinations. -/
structure Received (policy : Policy) (names : List String) (rows : List Row) (count : Nat → Nat)
    (outs after : List (List Value)) : Prop where
  length : after.length = outs.length
  grown : ∀ index old, outs[index]? = some old → ∃ name new, names[index]? = some name ∧
    after[index]? = some (old ++ new) ∧
    new.map Except.ok = (rows.take (count index)).map fun row => rowValue policy row name

/-- Of how many rows a destination has the value when reading stops at a column of a row. -/
def rowsRead (place column index : Nat) : Nat :=
  if index < column then place + 1 else place

/-- Either all rows are read, or reading stops at a value in some row for some destination. Those in
front of it have the values of this row already, the others only those of the rows before. -/
inductive Filled (policy : Policy) (names : List String) (rows : List Row)
    (outs : List (List Value)) : List (List Value) × Except SolutionError Unit → Prop
  | full {after : List (List Value)}
      (received : Received policy names rows (fun _ => rows.length) outs after) :
      Filled policy names rows outs (after, .ok ())
  | stopped {place column : Nat} {row : Row} {name : String} {cause : SolutionError}
      {after : List (List Value)} (isRow : rows[place]? = some row) (inside : column < outs.length)
      (isName : names[column]? = some name) (failed : rowValue policy row name = .error cause)
      (received : Received policy names rows (rowsRead place column) outs after) :
      Filled policy names rows outs (after, .error cause)

theorem rowsRead_start (index : Nat) : rowsRead 0 0 index = 0 :=
  if_neg index.not_lt_zero

theorem rowsRead_next_column (column index : Nat) :
    rowsRead 0 (column + 1) (index + 1) = rowsRead 0 column index := by
  simp [rowsRead]

theorem rowsRead_next_row (place column index : Nat) :
    rowsRead (place + 1) column index = rowsRead place column index + 1 := by
  rw [rowsRead, rowsRead]
  split <;> rfl

theorem rowsRead_le (place column index : Nat) : rowsRead place column index ≤ place + 1 := by
  rw [rowsRead]
  split <;> omega

/-- The first destination gets nothing only if reading stops at it in the first row. -/
theorem eq_zero_of_rowsRead {place column : Nat} (none : rowsRead place column 0 = 0) :
    place = 0 ∧ column = 0 := by
  rw [rowsRead] at none
  split at none
  · cases none
  · omega

section

variable {policy : Policy} {name : String} {names : List String} {row : Row} {rows : List Row}
  {count : Nat → Nat} {outs between after : List (List Value)} {out : List Value} {value : Value}

theorem received_self (enough : outs.length ≤ names.length) (policy : Policy) (rows : List Row) :
    Received policy names rows (fun _ => 0) outs outs := by
  refine ⟨rfl, fun index old found => ?_⟩
  obtain ⟨inside, -⟩ := List.getElem?_eq_some_iff.mp found
  have isName := List.getElem?_eq_getElem (Nat.lt_of_lt_of_le inside enough)
  exact ⟨_, [], isName, by rw [found, List.append_nil], rfl⟩

theorem Received.exists_new (received : Received policy names rows count outs after) {index : Nat}
    {old : List Value} (found : outs[index]? = some old) :
    ∃ new : List Value, after[index]? = some (old ++ new) ∧
      new.length = (rows.take (count index)).length := by
  obtain ⟨name, new, _, isAfter, read⟩ := received.grown index old found
  have grown := congrArg List.length read
  rw [List.length_map, List.length_map] at grown
  exact ⟨new, isAfter, grown⟩

theorem Received.eq_of_zero (received : Received policy names rows count outs after)
    (zero : ∀ index, count index = 0) : after = outs := by
  apply List.ext_getElem?
  intro index
  cases found : outs[index]? with
  | none => rwa [List.getElem?_eq_none_iff, received.length, ← List.getElem?_eq_none_iff]
  | some old =>
      obtain ⟨new, isAfter, grown⟩ := received.exists_new found
      rw [zero, List.take_zero, List.length_nil, List.length_eq_zero_iff] at grown
      rw [isAfter, grown, List.append_nil]

theorem Received.cons_column (received : Received policy names [row] count outs after)
    (read : rowValue policy row name = .ok value) {counts : Nat → Nat} (first : counts 0 = 1)
    (others : ∀ index, counts (index + 1) = count index) :
    Received policy (name :: names) [row] counts (out :: outs) ((out ++ [value]) :: after) := by
  refine ⟨congrArg (· + 1) received.length, fun index old found => ?_⟩
  cases index with
  | zero =>
      obtain rfl : out = old := Option.some.inj found
      refine ⟨name, [value], rfl, rfl, ?_⟩
      rw [first, List.take_succ_cons, List.map_singleton, List.map_cons, read, List.take_nil,
        List.map_nil]
  | succ index =>
      rw [others]
      exact received.grown index old found

theorem Received.cons_row (first : Received policy names [row] (fun _ => 1) outs between)
    (others : Received policy names rows count between after) :
    Received policy names (row :: rows) (fun index => count index + 1) outs after := by
  refine ⟨others.length.trans first.length, fun index old found => ?_⟩
  obtain ⟨name, one, isName, isOne, readOne⟩ := first.grown index old found
  obtain ⟨other, more, isOther, isMore, readMore⟩ := others.grown index _ isOne
  obtain rfl : name = other := Option.some.inj (isName.symm.trans isOther)
  refine ⟨name, one ++ more, isName, by rw [isMore, List.append_assoc], ?_⟩
  rw [List.map_append, readOne, readMore]
  rfl

/-- Rows that are not read do not matter. -/
theorem Received.append_rows (received : Received policy names rows count outs after)
    (more : List Row) (enough : ∀ index, count index ≤ rows.length) :
    Received policy names (rows ++ more) count outs after := by
  refine ⟨received.length, fun index old found => ?_⟩
  rw [List.take_append_of_le_length (enough index)]
  exact received.grown index old found

theorem eq_of_getElem?_singleton {place : Nat} {other : Row} (isRow : [row][place]? = some other) :
    place = 0 ∧ row = other := by
  cases place with
  | zero => exact ⟨rfl, Option.some.inj isRow⟩
  | succ place => cases isRow

theorem filled_fillRow (enough : outs.length ≤ names.length) :
    Filled policy names [row] outs (fillRow policy row names outs) := by
  induction names generalizing outs with
  | nil =>
      obtain rfl := List.length_eq_zero_iff.mp (Nat.le_zero.mp enough)
      exact .full ⟨rfl, nofun⟩
  | cons name names induction =>
      cases outs with
      | nil => exact .full ⟨rfl, nofun⟩
      | cons out outs =>
          rw [fillRow]
          cases read : rowValue policy row name with
          | error cause =>
              have isFirst : [row][0]? = some row := rfl
              refine .stopped isFirst (Nat.zero_lt_succ _) rfl read ?_
              rw [funext rowsRead_start]
              exact received_self enough policy [row]
          | ok value =>
              have others := induction (Nat.le_of_succ_le_succ enough)
              generalize fillRow policy row names outs = result at others
              cases others with
              | full received => exact .full (received.cons_column read rfl fun _ => rfl)
              | @stopped place column other _ _ _ isRow inside isName failed received =>
                  obtain ⟨rfl, rfl⟩ := eq_of_getElem?_singleton isRow
                  refine .stopped isRow (Nat.succ_lt_succ inside) isName failed ?_
                  exact received.cons_column read (if_pos column.succ_pos)
                    (rowsRead_next_column column)

theorem filled_fillRows (enough : outs.length ≤ names.length) :
    Filled policy names rows outs (fillRows policy names rows outs) := by
  induction rows generalizing outs with
  | nil => exact .full (received_self enough policy [])
  | cons row rows induction =>
      have first : Filled policy names [row] outs (fillRow policy row names outs) :=
        filled_fillRow enough
      rw [fillRows]
      generalize fillRow policy row names outs = result at first
      cases first with
      | full received =>
          have others := induction (received.length ▸ enough)
          dsimp only
          generalize fillRows policy names rows _ = result at others
          cases others with
          | full others => exact .full (received.cons_row others)
          | @stopped place column other _ _ _ isRow inside isName failed others =>
              have isLater : (row :: rows)[place + 1]? = some other := isRow
              refine .stopped isLater (received.length ▸ inside) isName failed ?_
              rw [funext (rowsRead_next_row place column)]
              exact received.cons_row others
      | @stopped place column other _ _ _ isRow inside isName failed received =>
          obtain ⟨rfl, rfl⟩ := eq_of_getElem?_singleton isRow
          have isFirst : (row :: rows)[0]? = some row := rfl
          exact .stopped isFirst inside isName failed
            (received.append_rows rows (rowsRead_le 0 column))

/-- Nothing is left behind exactly if the very first value is the one that cannot be had. -/
theorem Filled.eq_iff {cause : SolutionError}
    (filled : Filled policy names rows outs (after, .error cause)) :
    after = outs ↔ ∃ row name, rows.head? = some row ∧ names.head? = some name ∧
      rowValue policy row name = .error cause := by
  cases filled with
  | @stopped place column row name _ _ isRow inside isName failed received =>
      have isFirst := List.getElem?_eq_getElem (Nat.zero_lt_of_lt inside)
      obtain ⟨firstName, new, isFirstName, isAfter, read⟩ := received.grown 0 _ isFirst
      constructor
      · rintro rfl
        have none : new = [] :=
          List.append_right_eq_self.mp (Option.some.inj (isAfter.symm.trans isFirst))
        have some : rows ≠ [] := List.ne_nil_of_mem (List.mem_of_getElem? isRow)
        have noRow : rowsRead place column 0 = 0 := by
          simpa [none, some, List.take_eq_nil_iff] using read.symm
        obtain ⟨rfl, rfl⟩ := eq_zero_of_rowsRead noRow
        exact ⟨row, name, by rw [List.head?_eq_getElem?, isRow],
          by rw [List.head?_eq_getElem?, isName], failed⟩
      · rintro ⟨firstRow, other, startsRows, startsNames, refused⟩
        obtain ⟨rest, rfl⟩ := List.head?_eq_some_iff.mp startsRows
        obtain rfl : firstName = other := by
          rw [List.head?_eq_getElem?, isFirstName] at startsNames
          exact Option.some.inj startsNames
        have noRow : rowsRead place column 0 = 0 := by
          cases count : rowsRead place column 0 with
          | zero => rfl
          | succ more =>
              rw [count, List.take_succ_cons, List.map_cons, refused] at read
              cases new with
              | nil => cases read
              | cons value new => cases (List.cons.inj read).1
        obtain ⟨rfl, rfl⟩ := eq_zero_of_rowsRead noRow
        exact received.eq_of_zero rowsRead_start

end

theorem filled_collect {solution : Solution} {outs : List (List Value)}
    (enough : outs.length ≤ solution.columns.length) :
    Filled solution.policy solution.columns (solution.rows.drop solution.position) outs
      ((solution.collect outs).outs, (solution.collect outs).result) := by
  have filled : Filled solution.policy solution.columns (solution.rows.drop solution.position) outs
      (fillRows solution.policy solution.columns (solution.rows.drop solution.position) outs) :=
    filled_fillRows enough
  rw [collect, if_neg (Nat.not_lt.mpr enough)]
  dsimp only
  generalize fillRows _ _ _ _ = result at filled ⊢
  rcases result with ⟨after, cause | _⟩
  · exact filled
  · exact filled

theorem enough_of_collect {solution : Solution} {outs : List (List Value)}
    (ended : (solution.collect outs).result = .ok ()) :
    outs.length ≤ solution.columns.length := by
  by_contra many
  rw [collect, if_pos (Nat.lt_of_not_le many)] at ended
  cases ended

/-- A bulk read that ends well adds one value for each row from the current one on. One that fails
leaves the cursor alone, and the destinations only if it was refused for their number or stopped
at the first value of all. -/
theorem collect_leaves (solution : Solution) (outs : List (List Value)) :
    let rows := solution.rows.drop solution.position
    let collected := solution.collect outs
    (collected.result = .ok () →
        collected.outs.length = outs.length ∧
          ∀ (index : Nat) (old : List Value), outs[index]? = some old →
            ∃ new : List Value, collected.outs[index]? = some (old ++ new) ∧
              new.length = solution.rows.length - solution.position) ∧
      (∀ cause, collected.result = .error cause →
        collected.solution = solution ∧
          (collected.outs = outs ↔ solution.columns.length < outs.length ∨
            ∃ row name, rows.head? = some row ∧ solution.columns.head? = some name ∧
              rowValue solution.policy row name = .error cause)) ∧
      (outs.length ≤ solution.columns.length →
        Filled solution.policy solution.columns rows outs (collected.outs, collected.result)) := by
  intro rows collected
  refine ⟨fun ended => ?_, fun cause failed => ⟨?_, ?_⟩, filled_collect⟩
  · have filled := filled_collect (enough_of_collect ended)
    rw [ended] at filled
    cases filled with
    | full received =>
        refine ⟨received.length, fun index old found => ?_⟩
        obtain ⟨new, isAfter, grown⟩ := received.exists_new found
        rw [List.take_length, List.length_drop] at grown
        exact ⟨new, isAfter, grown⟩
  · rcases collect_cases solution outs with ⟨ended, _⟩ | ⟨_, kept⟩
    · rw [ended] at failed
      cases failed
    · exact kept
  · by_cases many : solution.columns.length < outs.length
    · simp [collected, collect, many]
    · have filled := filled_collect (Nat.le_of_not_lt many)
      rw [failed] at filled
      rw [or_iff_right many]
      exact filled.eq_iff

def halfConvertible : Solution :=
  .ofRows ["X", "Y"]
    [⟨[("X", .integer 1), ("Y", .integer 2)], none⟩, ⟨[("X", .integer 3), ("Y", .atom "b")], none⟩]
    .anyRow (Policy.standard.registerClass .atom fun _ _ => .error (.noConverter "boom"))

theorem collect_leaves_half :
    (halfConvertible.collect [[.null]]).result = .ok () ∧
      (halfConvertible.collect [[.null]]).outs.length = 1 ∧
      (halfConvertible.collect [[], []]).result =
        .error (.conversion (.noConverter "boom")) ∧
      (halfConvertible.collect [[], []]).solution = halfConvertible ∧
      (halfConvertible.collect [[], []]).outs ≠ [[], []] := by
  have ended : (halfConvertible.collect [[.null]]).result = .ok () := rfl
  have failed : (halfConvertible.collect [[], []]).result =
      .error (.conversion (.noConverter "boom")) := rfl
  have left := (collect_leaves halfConvertible [[], []]).2.1 _ failed
  refine ⟨ended, ((collect_leaves halfConvertible [[.null]]).1 ended).1, failed, left.1, ?_⟩
  rw [Ne, left.2]
  rintro (many | ⟨row, name, isRow, isName, refused⟩)
  · exact absurd many (Nat.lt_irrefl 2)
  · cases isRow
    cases isName
    cases refused

theorem not_collect_leaves_all :
    ¬∀ (solution : Solution) (outs : List (List Value)) (cause : SolutionError),
      (solution.collect outs).result = .error cause →
      (solution.collect outs).solution = solution ∧ (solution.collect outs).outs = outs := by
  intro all
  have same := (all halfConvertible [[], []] _ rfl).2
  have left : (halfConvertible.collect [[], []]).outs = [[.int 1, .int 3], [.int 2]] := rfl
  rw [left] at same
  cases same

end HornQuery.Solution
