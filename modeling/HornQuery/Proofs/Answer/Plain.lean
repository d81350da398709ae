import HornQuery.Proofs.Engine.Diagnostics
import HornQuery.Proofs.Term.Printable
import HornQuery.Proofs.Term.RoundTrip
import HornQuery.Session.Basic

namespace HornQuery

namespace Plain

open Text

/-! What is printed. Every record and the end marker come after an empty line. -/

def record (fields : List (List Char)) : List Char :=
  recordMarker ++ fields.flatMap ('\t' :: ·)

def encode : List (List Term) → List Char
  | [] => '\n' :: (endMarker ++ ['\n'])
  | terms :: answers => '\n' :: (record (terms.map Term.write) ++ '\n' :: encode answers)

/-- An answer that gives each column a term that its text stands for. -/
structure Fits (columns : List String) (terms : List Term) : Prop where
  length : terms.length = columns.length
  readable : ∀ term ∈ terms, term.Readable
  shallow : ∀ term ∈ terms, term.height ≤ Term.maxDepth

def answer (columns : List String) (terms : List Term) : Row :=
  ⟨columns.zip terms, none⟩

variable {columns : List String} {terms : List Term} {answers : List (List Term)}
  {fields : List (List Char)} {line : List Char}

theorem Fits.printable (fits : Fits columns terms) :
    ∀ field ∈ terms.map Term.write, Printable field := by
  intro field member
  obtain ⟨term, isTerm, same⟩ := List.mem_map.mp member
  subst same
  exact (Term.printableWritten (fits.readable term isTerm)).text

/-! Lines. -/

theorem not_mem_record {c : Char} (control : isControl c = true) (noTab : c ≠ '\t')
    (printable : ∀ field ∈ fields, Printable field) : c ∉ record fields := by
  have marker : Printable recordMarker := printable_of_all (by decide)
  intro member
  rcases List.mem_append.mp member with inMarker | inFields
  · exact marker.not_mem control inMarker
  · obtain ⟨field, isField, inField⟩ := List.mem_flatMap.mp inFields
    rcases List.mem_cons.mp inField with tab | inside
    · exact noTab tab
    · exact (printable field isField).not_mem control inside

theorem lines_encode_cons (fits : Fits columns terms) :
    lines (encode (terms :: answers)) =
      [] :: record (terms.map Term.write) :: lines (encode answers) := by
  have noFeed := @not_mem_record _ '\n' (by decide) (by decide) fits.printable
  have noReturn := @not_mem_record _ '\r' (by decide) (by decide) fits.printable
  have blank : lines ([] ++ '\n' :: (record (terms.map Term.write) ++ '\n' :: encode answers)) =
      dropReturn [] :: lines (record (terms.map Term.write) ++ '\n' :: encode answers) :=
    lines_append List.not_mem_nil _
  rw [encode, ← List.nil_append ('\n' :: _), blank, lines_append noFeed,
    dropReturn_of_not_mem noReturn]
  rfl

theorem trimReturns_of_not_mem (free : '\r' ∉ line) : trimReturns line = line := by
  have kept : line.reverse.dropWhile (· = '\r') = line.reverse := by
    cases reversed : line.reverse with
    | nil => rfl
    | cons c rest =>
        have member : c ∈ line := List.mem_reverse.mp (reversed ▸ List.mem_cons_self)
        have other : c ≠ '\r' := fun same => free (same ▸ member)
        simp [other]
  rw [trimReturns, kept, List.reverse_reverse]

/-! Classification. -/

theorem isError_dollar (rest : List Char) :
    (Diagnostics.ofEngine .swi).isError ('$' :: rest) = false :=
  Diagnostics.startsWithAny_cons (by decide) (by decide) rest

theorem trim_record_ne_endMarker (fields : List (List Char)) :
    trim (record fields) ≠ endMarker := by
  have kept : trimStart (record fields) = record fields := by
    apply trimStart_eq_self
    intro c first
    rw [← Option.some.inj first]
    decide
  have starts := trimEnd_prefix (record fields)
  intro same
  rw [trim, kept] at same
  rw [same] at starts
  obtain ⟨rest, whole⟩ := starts
  simp [endMarker, record, recordMarker] at whole

theorem fields?_record (free : ∀ field ∈ fields, '\t' ∉ field) :
    fields? (record fields) = some fields := by
  have marked : recordMarker.isPrefixOf (record fields) = true := by
    rw [List.isPrefixOf_iff_prefix]
    exact List.prefix_append _ _
  have inside : (record fields).drop recordMarker.length = fields.flatMap ('\t' :: ·) :=
    List.drop_left
  rw [fields?, if_pos marked, inside]
  cases fields with
  | nil => rfl
  | cons field fields =>
      have freeField := free field List.mem_cons_self
      have freeOthers := fun other member => free other (List.mem_cons_of_mem field member)
      simp [pieces_flatMap freeField freeOthers]

theorem classify_record (free : ∀ field ∈ fields, '\t' ∉ field) :
    classify (.ofEngine .swi) (record fields) = .record fields := by
  have noError : (Diagnostics.ofEngine .swi).isError (record fields) = false :=
    isError_dollar _
  simp [classify, noError, trim_record_ne_endMarker, fields?_record free]

/-! Rows. -/

theorem bindings_write (readable : ∀ term ∈ terms, term.Readable)
    (shallow : ∀ term ∈ terms, term.height ≤ Term.maxDepth) :
    bindings columns (terms.map Term.write) = .ok (columns.zip terms) := by
  induction terms generalizing columns with
  | nil => cases columns <;> rfl
  | cons term terms induction =>
      cases columns with
      | nil => rfl
      | cons name names =>
          have read := Term.ofText_write (readable term List.mem_cons_self)
            (shallow term List.mem_cons_self)
          have remaining := @induction names
            (fun other member => readable other (List.mem_cons_of_mem term member))
            (fun other member => shallow other (List.mem_cons_of_mem term member))
          simp [bindings, read, remaining, Except.map]

theorem row_write (fits : Fits columns terms) :
    row columns (terms.map Term.write) = .ok (answer columns terms) := by
  rw [row, List.length_map, if_pos fits.length, bindings_write fits.readable fits.shallow]
  rfl

theorem rows_record (fits : Fits columns terms) (others : List (List Char)) :
    rows (.ofEngine .swi) columns ([] :: record (terms.map Term.write) :: others) =
      (rows (.ofEngine .swi) columns others).map (answer columns terms :: ·) := by
  have printable := fits.printable
  have free : ∀ field ∈ terms.map Term.write, '\t' ∉ field :=
    fun field member => (printable field member).not_mem (by decide)
  have noReturn := trimReturns_of_not_mem
    (not_mem_record (c := '\r') (by decide) (by decide) printable)
  have stray : classify (.ofEngine .swi) (trimReturns []) = .stray := rfl
  simp only [rows, stray, noReturn, classify_record free, row_write fits]
  cases rows (.ofEngine .swi) columns others <;> rfl

theorem rows_encode (fits : ∀ terms ∈ answers, Fits columns terms) :
    rows (.ofEngine .swi) columns (lines (encode answers)) =
      .ok (answers.map (answer columns)) := by
  induction answers with
  | nil => rfl
  | cons terms answers induction =>
      obtain ⟨first, others⟩ := List.forall_mem_cons.mp fits
      rw [lines_encode_cons first, rows_record first, induction others]
      rfl

theorem decode_encode (fits : ∀ terms ∈ answers, Fits columns terms) (policy : Policy) :
    decode (String.ofList (encode answers)) columns (.ofEngine .swi) policy =
      .ofRows columns (answers.map (answer columns)) .anyRow policy := by
  rw [decode, String.toList_ofList, rows_encode fits]

/-! Solving. -/

theorem isError_of_mem_lines (fits : ∀ terms ∈ answers, Fits columns terms) :
    ∀ line ∈ lines (encode answers), (Diagnostics.ofEngine .swi).isError line = false := by
  induction answers with
  | nil => exact forall_mem_of_all (by decide)
  | cons terms answers induction =>
      obtain ⟨first, others⟩ := List.forall_mem_cons.mp fits
      rw [lines_encode_cons first]
      intro line member
      rcases List.mem_cons.mp member with blank | member
      · subst blank
        rfl
      · rcases List.mem_cons.mp member with isRecord | later
        · subst isRecord
          exact isError_dollar _
        · exact induction others line later

theorem firstError?_encode (fits : ∀ terms ∈ answers, Fits columns terms) :
    (Diagnostics.ofEngine .swi).firstError? (encode answers) = none :=
  Diagnostics.firstError?_eq_none_iff.mpr (isError_of_mem_lines fits)

end Plain

theorem isSuccess_ofRows (columns : List String) (rows : List Row) (policy : Policy) :
    (Solution.ofRows columns rows .anyRow policy).isSuccess = true ↔ rows ≠ [] := by
  cases rows with
  | nil => simp [Solution.isSuccess, Solution.ofRows]
  | cons row rows => simp [Solution.isSuccess, Solution.ofRows]

/-- When the engine prints the records of some answers and ends well, solving gives exactly these
answers, and succeeds if there is one. -/
theorem Session.solveGoal_of_records {session : Session} {goal : String}
    {answers : List (List Term)} (engine : session.dialect = .ofEngine .swi)
    (fits : ∀ terms ∈ answers, Plain.Fits (Goal.freeVariables goal) terms)
    (printed : session.backend.run session.dialect (session.script goal) =
      .ok ⟨String.ofList (Plain.encode answers), some 0⟩) :
    ∃ solution, session.solveGoal goal = .ok solution ∧ solution.failure? = none ∧
      solution.columns = Goal.freeVariables goal ∧
      solution.rows = answers.map (Plain.answer (Goal.freeVariables goal)) ∧
      (solution.isSuccess = true ↔ answers ≠ []) := by
  have noError := Plain.firstError?_encode fits
  have decoded := Plain.decode_encode fits session.policy
  have solved : session.solveGoal goal = .ok (.ofRows (Goal.freeVariables goal)
      (answers.map (Plain.answer (Goal.freeVariables goal))) .anyRow session.policy) := by
    rw [Session.solveGoal, printed]
    change session.interpret goal _ = _
    simp only [Session.interpret, engine, Dialect.ofEngine, String.toList_ofList, noError,
      EngineOutput.isSuccess, decide_true, if_true, Dialect.decode, decoded]
  refine ⟨_, solved, rfl, rfl, rfl, ?_⟩
  rw [isSuccess_ofRows, ne_eq, List.map_eq_nil_iff]

def replayedAnswers : List (List Term) :=
  [[.atom "a\tb"], [.atom "a\tb"], [.list [.atom "\n$end\n", .atom "ERROR"]]]

def replayedSession : Session where
  dialect := .ofEngine .swi
  policy := .swi
  theory := .empty
  backend := .replay (String.ofList (Plain.encode replayedAnswers))

theorem Session.solveGoal_replayed :
    ∃ solution, replayedSession.solveGoal "p(X)" = .ok solution ∧ solution.failure? = none ∧
      solution.columns = ["X"] ∧
      solution.rows = replayedAnswers.map (Plain.answer ["X"]) ∧
      (solution.isSuccess = true ↔ replayedAnswers ≠ []) := by
  have columns : Goal.freeVariables "p(X)" = ["X"] := by decide +kernel
  have one : ∀ {term : Term}, term.Readable → term.height ≤ Term.maxDepth →
      Plain.Fits ["X"] [term] := by
    intro term readable shallow
    refine ⟨rfl, ?_, ?_⟩
    · intro other member
      rw [List.mem_singleton.mp member]
      exact readable
    · intro other member
      rw [List.mem_singleton.mp member]
      exact shallow
  have list : (Term.list [.atom "\n$end\n", .atom "ERROR"]).Readable := by
    apply Term.Readable.list
    intro item member
    rcases List.mem_pair.mp member with first | second
    · rw [first]
      exact .atom (by decide)
    · rw [second]
      exact .atom (by decide)
  have fits : ∀ terms ∈ replayedAnswers, Plain.Fits ["X"] terms := by
    intro terms member
    simp only [replayedAnswers, List.mem_cons, List.not_mem_nil, or_false] at member
    rcases member with first | second | third
    · rw [first]
      exact one (.atom (by decide)) (by decide)
    · rw [second]
      exact one (.atom (by decide)) (by decide)
    · rw [third]
      exact one list (by decide)
  rw [← columns] at fits ⊢
  exact Session.solveGoal_of_records rfl fits rfl

end HornQuery
