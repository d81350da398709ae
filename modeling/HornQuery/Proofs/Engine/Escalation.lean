import HornQuery.Proofs.Answer.Acceptance
import HornQuery.Proofs.Engine.Diagnostics
import HornQuery.Session.Basic

namespace HornQuery

open Text

/-! The reasons that decoders give. Only the one for an error line starts with its letter. -/

theorem head?_append {left : String} {c : Char} (starts : left.toList.head? = some c)
    (right : String) : (left ++ right).toList.head? = some c := by
  rw [String.toList_append, List.head?_append, starts]
  rfl

theorem ne_engineError {reason : String} {c : Char} (starts : reason.toList.head? = some c)
    (other : c ≠ 'e') (text : String) : reason ≠ "engine error: " ++ text := by
  intro same
  rw [same, head?_append (c := 'e') rfl] at starts
  exact other (Option.some.inj starts).symm

namespace Plain

variable {diagnostics : Diagnostics} {columns : List String} {output : List (List Char)}
  {reason : String}

theorem head?_of_bindings_error {fields : List (List Char)}
    (failed : bindings columns fields = .error reason) : reason.toList.head? = some 'u' := by
  induction columns generalizing fields with
  | nil => cases failed
  | cons name names induction =>
      cases fields with
      | nil => cases failed
      | cons field fields =>
          rw [bindings] at failed
          split at failed
          case h_1 term _ =>
            cases later : bindings names fields with
            | ok found =>
                rw [later] at failed
                cases failed
            | error cause =>
                rw [later] at failed
                cases failed
                exact induction later
          case h_2 cause _ =>
            cases failed
            exact head?_append (head?_append (head?_append rfl _) _) _

theorem ne_engineError_of_row {fields : List (List Char)}
    (failed : row columns fields = .error reason) (text : String) :
    reason ≠ "engine error: " ++ text := by
  rw [row] at failed
  split at failed
  case isTrue =>
    cases bound : bindings columns fields with
    | ok found =>
        rw [bound] at failed
        cases failed
    | error cause =>
        rw [bound] at failed
        cases failed
        exact ne_engineError (head?_of_bindings_error bound) (by decide) text
  case isFalse =>
    cases failed
    exact ne_engineError (c := 'r')
      (head?_append (head?_append (head?_append (head?_append rfl _) _) _) _) (by decide) text

theorem ne_engineError_of_rows
    (clean : ∀ line ∈ output, diagnostics.isError (trimReturns line) = false)
    (failed : rows diagnostics columns output = .error reason) (text : String) :
    reason ≠ "engine error: " ++ text := by
  induction output with
  | nil =>
      cases failed
      exact ne_engineError rfl (by decide) text
  | cons line rest induction =>
      obtain ⟨first, others⟩ := List.forall_mem_cons.mp clean
      rw [rows] at failed
      split at failed
      case h_1 found isError =>
        -- No other class of lines is taken for an error.
        rcases classify_cases diagnostics (trimReturns line) with
          ⟨error, -, -⟩ | ⟨-, -, seen⟩ | ⟨-, -, -, seen⟩ | ⟨-, -, -, seen⟩
        · rw [first] at error
          cases error
        all_goals
          rw [seen] at isError
          cases isError
      case h_2 => cases failed
      case h_3 => exact induction others failed
      case h_4 fields _ =>
        rcases cons_eq_error failed with refused | refused
        · exact ne_engineError_of_row refused text
        · exact induction others refused

theorem ne_engineError_of_decode {output : String}
    (clean : ∀ line ∈ lines output.toList, diagnostics.isError (trimReturns line) = false)
    (columns : List String) (policy : Policy) (text : String) :
    (decode output columns diagnostics policy).failure? ≠ some ("engine error: " ++ text) := by
  rw [decode]
  cases decoded : rows diagnostics columns (lines output.toList) with
  | ok found => exact (Option.some_ne_none _).symm
  | error reason => exact fun same => ne_engineError_of_rows clean decoded text (Option.some.inj same)

end Plain

namespace Weighted

variable {diagnostics : Diagnostics} {columns : List String} {output : List (List Char)}
  {line : List Char} {reason : String}

theorem ne_engineError_of_row (failed : row columns line = .error reason) (text : String) :
    reason ≠ "engine error: " ++ text := by
  rw [row] at failed
  split at failed
  case h_1 =>
    cases failed
    exact ne_engineError (head?_append rfl _) (by decide) text
  case h_2 head weight _ =>
    split at failed
    case h_1 =>
      cases failed
      exact ne_engineError (head?_append rfl _) (by decide) text
    case h_2 p _ =>
      simp only at failed
      split at failed
      case h_1 =>
        cases failed
        exact ne_engineError (c := 'u')
          (head?_append (head?_append (head?_append rfl _) _) _) (by decide) text
      case h_2 term _ =>
        split at failed
        case h_1 =>
          cases failed
          exact ne_engineError (head?_append rfl _) (by decide) text
        case h_2 => cases failed

theorem ne_engineError_of_rows
    (clean : ∀ line ∈ output, diagnostics.isError (trim line) = false)
    (failed : rows diagnostics columns output = .error reason) (text : String) :
    reason ≠ "engine error: " ++ text := by
  induction output with
  | nil => cases failed
  | cons line rest induction =>
      obtain ⟨first, others⟩ := List.forall_mem_cons.mp clean
      rw [rows, first] at failed
      simp only [Bool.false_eq_true, if_false] at failed
      split at failed
      case isTrue => exact induction others failed
      case isFalse =>
        rcases cons_eq_error failed with refused | refused
        · exact ne_engineError_of_row refused text
        · exact induction others refused

theorem ne_engineError_of_decode {output : String}
    (clean : ∀ line ∈ lines output.toList, diagnostics.isError (trim line) = false)
    (columns : List String) (policy : Policy) (text : String) :
    (decode output columns diagnostics policy).failure? ≠ some ("engine error: " ++ text) := by
  rw [decode]
  cases decoded : rows diagnostics columns (lines output.toList) with
  | ok found => exact (Option.some_ne_none _).symm
  | error reason => exact fun same => ne_engineError_of_rows clean decoded text (Option.some.inj same)

end Weighted

/-! Sessions. -/

theorem Diagnostics.isError_trimmed {diagnostics : Diagnostics} {line : List Char}
    (clean : diagnostics.isError line = false) :
    diagnostics.isError (Plain.trimReturns line) = false ∧ diagnostics.isError (trim line) = false :=
  ⟨isError_eq_false_of_isPrefix (trimStart_isPrefix (Plain.trimReturns_isPrefix line)) clean,
    isError_eq_false_of_isPrefix (trimStart_trim_isPrefix line) clean⟩

theorem Dialect.ne_engineError_of_decode {dialect : Dialect} {output : String}
    (clean : ∀ line ∈ lines output.toList, dialect.diagnostics.isError line = false)
    (columns : List String) (policy : Policy) (text : String) :
    (dialect.decode output columns policy).failure? ≠ some ("engine error: " ++ text) := by
  rw [decode]
  cases dialect.kind with
  | swi =>
      have trimmed := fun line member => (Diagnostics.isError_trimmed (clean line member)).1
      exact Plain.ne_engineError_of_decode trimmed columns policy text
  | problog =>
      have trimmed := fun line member => (Diagnostics.isError_trimmed (clean line member)).2
      exact Weighted.ne_engineError_of_decode trimmed columns policy text

namespace Session

variable {session : Session} {goal : String} {output : EngineOutput}

theorem interpret_of_error (goal : String)
    (error : ∃ line ∈ lines output.text.toList, session.dialect.diagnostics.isError line = true) :
    ∃ message, session.interpret goal output = .error (.reported goal message) := by
  obtain ⟨line, member, isError⟩ := error
  cases found : session.dialect.diagnostics.firstError? output.text.toList with
  | some message => exact ⟨String.ofList message, by rw [interpret, found]⟩
  | none =>
      rw [Diagnostics.firstError?_eq_none_iff.mp found line member] at isError
      cases isError

theorem interpret_of_clean (goal : String)
    (clean : ∀ line ∈ lines output.text.toList, session.dialect.diagnostics.isError line = false) :
    session.interpret goal output =
      if output.status? = some 0 then
        .ok (session.dialect.decode output.text (Goal.freeVariables goal) session.policy)
      else
        .error (.exitStatus session.backend.description (output.status?.getD (-1)) output.text) := by
  rw [interpret, Diagnostics.firstError?_eq_none_iff.mpr clean]
  simp only [EngineOutput.isSuccess, decide_eq_true_eq]

/-- Of what an engine printed, any error line is reported, wherever it is; without one, a status
other than zero is; and only otherwise there is a solution. No line is then an error to the decoder
either, so that the solution does not fail for one. -/
theorem solveGoal_escalates
    (ran : session.backend.run session.dialect (session.script goal) = .ok output) :
    let diagnostics := session.dialect.diagnostics
    let printed := lines output.text.toList
    ((∃ message, session.solveGoal goal = .error (.reported goal message)) ↔
        ∃ line ∈ printed, diagnostics.isError line = true) ∧
      (session.solveGoal goal =
          .error (.exitStatus session.backend.description (output.status?.getD (-1)) output.text) ↔
        (∀ line ∈ printed, diagnostics.isError line = false) ∧ output.status? ≠ some 0) ∧
      ((∃ solution, session.solveGoal goal = .ok solution) ↔
        (∀ line ∈ printed, diagnostics.isError line = false) ∧ output.status? = some 0) ∧
      ∀ solution, session.solveGoal goal = .ok solution →
        (∀ line ∈ printed, diagnostics.isError (Plain.trimReturns line) = false ∧
          diagnostics.isError (trim line) = false) ∧
        ∀ text, solution.failure? ≠ some ("engine error: " ++ text) := by
  intro diagnostics printed
  have solved : session.solveGoal goal = session.interpret goal output := by
    rw [solveGoal, ran]
    rfl
  have noError : (¬∃ line ∈ printed, diagnostics.isError line = true) ↔
      ∀ line ∈ printed, diagnostics.isError line = false := by
    simp
  rw [solved]
  by_cases clean : ∀ line ∈ printed, diagnostics.isError line = false
  · have none := noError.mpr clean
    rw [interpret_of_clean goal clean]
    by_cases ended : output.status? = some 0
    · rw [if_pos ended]
      refine ⟨iff_of_false nofun none, iff_of_false nofun fun both => both.2 ended,
        iff_of_true ⟨_, rfl⟩ ⟨clean, ended⟩, ?_⟩
      intro solution decoded
      cases decoded
      exact ⟨fun line member => Diagnostics.isError_trimmed (clean line member),
        Dialect.ne_engineError_of_decode clean _ _⟩
    · rw [if_neg ended]
      exact ⟨iff_of_false nofun none, iff_of_true rfl ⟨clean, ended⟩,
        iff_of_false nofun fun both => ended both.2, nofun⟩
  · have error := not_not.mp (mt noError.mp clean)
    obtain ⟨message, reported⟩ := interpret_of_error goal error
    rw [reported]
    exact ⟨iff_of_true ⟨message, rfl⟩ error, iff_of_false nofun fun both => clean both.1,
      iff_of_false nofun fun both => clean both.1, nofun⟩

/-- A session whose engine prints an error after the end, with a mark that trimming would cut off. -/
def lateErrorSession : Session where
  dialect := ⟨.swi, ⟨["E\r"], []⟩⟩
  policy := .swi
  theory := .empty
  backend := .replay "$sol\n$end\nE\r\r\n"

theorem solveGoal_escalates_late :
    lateErrorSession.backend.run lateErrorSession.dialect (lateErrorSession.script "true") =
        .ok (.ofText "$sol\n$end\nE\r\r\n") ∧
      ∃ message, lateErrorSession.solveGoal "true" = .error (.reported "true" message) := by
  have ran : lateErrorSession.backend.run lateErrorSession.dialect
      (lateErrorSession.script "true") = .ok (.ofText "$sol\n$end\nE\r\r\n") := rfl
  exact ⟨ran, (solveGoal_escalates ran).1.mpr ⟨"E\r".toList, by decide +kernel, by decide +kernel⟩⟩

end Session

end HornQuery
