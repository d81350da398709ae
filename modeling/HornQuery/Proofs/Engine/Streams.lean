import HornQuery.Proofs.Answer.Results
import HornQuery.Proofs.Engine.Escalation

namespace HornQuery

open Text

namespace EngineOutput

/-- In front of the lines of standard error stand those of standard output, to everyone who does not
see a carriage return at the end of a line. -/
theorem lines_joinStreams (out err : List Char) :
    ∃ kept, lines (joinStreams out err) = kept ++ lines err ∧
      ∀ {β : Type} (view : List Char → β), (∀ line, view (dropReturn line) = view line) →
        kept.map view = (lines out).map view := by
  obtain ⟨front, last, free, open?, cut⟩ := exists_lines out
  have alone : lines out = front ++ lines last := by simpa using cut []
  rw [joinStreams]
  split
  case isTrue none =>
    rw [List.isEmpty_iff.mp none]
    exact ⟨lines out, (List.append_nil _).symm, fun _ _ => rfl⟩
  case isFalse some =>
    split
    case isTrue closed =>
      have closed : last = [] := by simpa [open?] using closed
      rw [closed] at alone cut
      refine ⟨front, cut err, fun _ _ => ?_⟩
      rw [alone]
      exact congrArg _ (List.append_nil front).symm
    case isFalse isOpen =>
      have isOpen : last ≠ [] := by simpa [open?] using isOpen
      refine ⟨front ++ [dropReturn last], ?_, ?_⟩
      · rw [cut, lines_append free, List.append_assoc, List.singleton_append]
      · intro β view same
        rw [alone, lines_of_not_mem free isOpen, List.map_append, List.map_append,
          List.map_singleton, List.map_singleton, same]

end EngineOutput

/-! Decoding. -/

section

variable {diagnostics : Diagnostics} {columns : List String} {policy : Policy}
  {output other noise : List (List Char)} {out err : List Char}

theorem Plain.decode_joinStreams
    (stray : ∀ line ∈ lines err, isStray diagnostics (trimReturns line) = true) :
    decode (String.ofList (EngineOutput.joinStreams out err)) columns diagnostics policy =
      decode (String.ofList out) columns diagnostics policy := by
  obtain ⟨kept, whole, same⟩ := EngineOutput.lines_joinStreams out err
  have none :
      (((lines err).map trimReturns).filter fun line => !isStray diagnostics line) = [] := by
    simpa using stray
  apply decode_eq_of_filter_isStray
  rw [outputLines, outputLines, String.toList_ofList, String.toList_ofList, whole, List.map_append,
    List.filter_append, none, List.append_nil, same trimReturns trimReturns_dropReturn]

namespace Weighted

theorem rows_eq_of_map_trim (same : other.map trim = output.map trim) :
    rows diagnostics columns other = rows diagnostics columns output := by
  rw [← rows_significant, same, rows_significant]

theorem significant_eq_nil_iff :
    significant diagnostics (noise.map trim) = [] ↔
      ∀ line ∈ noise, isPassedOver diagnostics (trim line) = true := by
  simp [significant]

theorem rows_append_of_isPassedOver
    (passed : ∀ line ∈ noise, isPassedOver diagnostics (trim line) = true) :
    rows diagnostics columns (output ++ noise) = rows diagnostics columns output := by
  have none := significant_eq_nil_iff.mpr passed
  rw [significant] at none
  rw [← rows_significant, List.map_append, significant, List.filter_append, none,
    List.append_nil, ← significant, rows_significant]

theorem rows_append_of_error {reason : String}
    (failed : rows diagnostics columns output = .error reason) :
    rows diagnostics columns (output ++ noise) = .error reason := by
  induction output with
  | nil => cases failed
  | cons line output induction =>
      rw [rows] at failed
      rw [List.cons_append, rows]
      split at failed
      case isTrue passed =>
        rw [if_pos passed]
        exact induction failed
      case isFalse kept =>
        rw [if_neg kept]
        split at failed
        case isTrue error =>
          rw [if_pos error]
          exact failed
        case isFalse clean =>
          rw [if_neg clean]
          cases read : row columns (trim line) with
          | error cause =>
              rw [read] at failed
              exact failed
          | ok found =>
              rw [read] at failed
              cases later : rows diagnostics columns output with
              | ok others =>
                  rw [later] at failed
                  cases failed
              | error cause =>
                  rw [later] at failed
                  cases failed
                  rw [induction later]
                  rfl

/-- What changes no rows is passed over: any other line makes a row more or none at all. -/
theorem isPassedOver_of_rows_append {found : List Row}
    (decoded : rows diagnostics columns output = .ok found)
    (same : rows diagnostics columns (output ++ noise) = .ok found) :
    ∀ line ∈ noise, isPassedOver diagnostics (trim line) = true := by
  have first := (rows_eq_ok_iff.mp decoded).length_eq
  have second := (rows_eq_ok_iff.mp same).length_eq
  rw [List.map_append, significant, List.filter_append, List.length_append] at second
  rw [significant] at first
  apply significant_eq_nil_iff.mp
  rw [← List.length_eq_zero_iff, significant]
  omega

theorem decode_joinStreams_iff :
    decode (String.ofList (EngineOutput.joinStreams out err)) columns diagnostics policy =
        decode (String.ofList out) columns diagnostics policy ↔
      ((decode (String.ofList out) columns diagnostics policy).failure? = none →
        ∀ line ∈ lines err, isPassedOver diagnostics (trim line) = true) := by
  obtain ⟨kept, whole, same⟩ := EngineOutput.lines_joinStreams out err
  have front : rows diagnostics columns kept = rows diagnostics columns (lines out) :=
    rows_eq_of_map_trim (same trim trim_dropReturn)
  simp only [decode, String.toList_ofList, whole]
  cases decoded : rows diagnostics columns (lines out) with
  | error reason =>
      rw [rows_append_of_error (front.trans decoded)]
      exact iff_of_true rfl fun none => absurd none (Option.some_ne_none reason)
  | ok found =>
      constructor
      · intro alike _
        apply isPassedOver_of_rows_append (front.trans decoded)
        cases joined : rows diagnostics columns (kept ++ lines err) with
        | error reason =>
            rw [joined] at alike
            cases congrArg Solution.failure? alike
        | ok more =>
            rw [joined] at alike
            exact congrArg Except.ok (congrArg Solution.rows alike)
      · intro passed
        rw [rows_append_of_isPassedOver (passed rfl), front, decoded]

end Weighted

/-- A warning mark that ends in something visible is found again in the trimmed line. -/
theorem Weighted.isPassedOver_trim {line : List Char}
    (visible : ∀ mark ∈ diagnostics.warningMarks, ∀ c ∈ mark.toList.getLast?, isBlank c = false)
    (passed : trim line = [] ∨ diagnostics.isWarning line = true) :
    isPassedOver diagnostics (trim line) = true := by
  rw [isPassedOver, Bool.or_eq_true, List.isEmpty_iff]
  refine passed.imp_right fun warning => ?_
  rw [Diagnostics.isWarning, Diagnostics.startsWithAny, List.any_eq_true] at warning ⊢
  obtain ⟨mark, member, starts⟩ := warning
  rw [trimStart_eq_self fun c => isBlank_of_head?_trim]
  rw [List.isPrefixOf_iff_prefix] at starts
  exact ⟨mark, member, List.isPrefixOf_iff_prefix.mpr (isPrefix_trim starts (visible mark member))⟩

end

/-! Sessions. -/

/-- A line that is no error and that means nothing to the decoder. -/
structure Dialect.IsNoise (dialect : Dialect) (line : List Char) : Prop where
  noError : dialect.diagnostics.isError line = false
  plain : dialect.kind = .swi →
    Plain.isRecord dialect.diagnostics (Plain.trimReturns line) = false ∧
      Plain.isEnd dialect.diagnostics (Plain.trimReturns line) = false
  weighted : dialect.kind = .problog → trim line = [] ∨ dialect.diagnostics.isWarning line = true

instance (dialect : Dialect) (line : List Char) : Decidable (dialect.IsNoise line) :=
  decidable_of_iff (_ ∧ _ ∧ _)
    ⟨fun ⟨noError, plain, weighted⟩ => ⟨noError, plain, weighted⟩,
      fun ⟨noError, plain, weighted⟩ => ⟨noError, plain, weighted⟩⟩

theorem Dialect.decode_joinStreams_iff {out err : List Char} {columns : List String}
    {policy : Policy} (dialect : Dialect) (noise : ∀ line ∈ lines err, dialect.IsNoise line) :
    dialect.decode (String.ofList (EngineOutput.joinStreams out err)) columns policy =
        dialect.decode (String.ofList out) columns policy ↔
      (dialect.kind = .problog →
        (dialect.decode (String.ofList out) columns policy).failure? = none →
        ∀ line ∈ lines err, Weighted.isPassedOver dialect.diagnostics (trim line) = true) := by
  rw [decode, decode]
  cases isKind : dialect.kind with
  | swi =>
      refine iff_of_true (Plain.decode_joinStreams ?_) fun same => absurd same (by decide)
      intro line member
      obtain ⟨noRecord, noEnd⟩ := (noise line member).plain isKind
      have noError := (Diagnostics.isError_trimmed (noise line member).noError).1
      rw [Plain.isStray, noError, noRecord, noEnd]
      rfl
  | problog =>
      exact Weighted.decode_joinStreams_iff.trans
        ⟨fun passed _ => passed, fun passed => passed rfl⟩

/-- The same solution, or errors of the same kind. -/
inductive SameResult : Except EngineError Solution → Except EngineError Solution → Prop
  | ok (solution : Solution) : SameResult (.ok solution) (.ok solution)
  | error {first second : EngineError} (code : first.code = second.code) :
      SameResult (.error first) (.error second)

theorem SameResult.failure?_eq {first second : Except EngineError Solution}
    (same : SameResult first second) :
    first.toOption.map Solution.failure? = second.toOption.map Solution.failure? := by
  cases same with
  | ok => rfl
  | error => rfl

theorem sameResult_ok_iff {first second : Solution} :
    SameResult (.ok first) (.ok second) ↔ first = second := by
  constructor
  · rintro ⟨⟩
    rfl
  · rintro rfl
    exact .ok first

namespace Session

variable {session : Session} {goal : String} {err : List Char}

theorem interpret_joinStreams_iff
    (noReturn : ∀ mark ∈ session.dialect.diagnostics.errorMarks, '\r' ∉ mark.toList)
    (noise : ∀ line ∈ lines err, session.dialect.IsNoise line) (out : List Char) (goal : String)
    (other : Backend) :
    let joined := session.interpret goal
      (.ofText (String.ofList (EngineOutput.joinStreams out err)))
    let alone := { session with backend := other }.interpret goal (.ofText (String.ofList out))
    SameResult joined alone ↔
      (session.kind = .problog → ∀ solution, alone = .ok solution → solution.failure? = none →
        ∀ line ∈ lines err,
          Weighted.isPassedOver session.dialect.diagnostics (trim line) = true) := by
  intro joined alone
  obtain ⟨kept, whole, same⟩ := EngineOutput.lines_joinStreams out err
  have errors : (∃ line ∈ kept, session.dialect.diagnostics.isError line = true) ↔
      ∃ line ∈ lines out, session.dialect.diagnostics.isError line = true := by
    have seen := same session.dialect.diagnostics.isError
      (Diagnostics.startsWithAny_dropReturn noReturn)
    rw [← List.mem_map, seen, List.mem_map]
  have split : lines (String.ofList (EngineOutput.joinStreams out err)).toList =
      kept ++ lines err := by rw [String.toList_ofList, whole]
  have ofOut : lines (String.ofList out).toList = lines out := by rw [String.toList_ofList]
  by_cases error : ∃ line ∈ lines out, session.dialect.diagnostics.isError line = true
  case pos =>
    -- An error is reported in either case, with more lines behind it or not.
    obtain ⟨line, member, isError⟩ := errors.mpr error
    obtain ⟨first, isFirst⟩ : ∃ message, joined = .error (.reported goal message) :=
      interpret_of_error goal ⟨line, split ▸ List.mem_append_left _ member, isError⟩
    obtain ⟨second, isSecond⟩ : ∃ message, alone = .error (.reported goal message) :=
      interpret_of_error goal (ofOut.symm ▸ error)
    rw [isFirst, isSecond]
    exact iff_of_true (.error rfl) fun _ _ decoded => nomatch decoded
  case neg =>
    have clean : ∀ line ∈ lines out, session.dialect.diagnostics.isError line = false := by
      simpa using error
    have cleanKept : ∀ line ∈ kept, session.dialect.diagnostics.isError line = false := by
      simpa using errors.not.mpr error
    have isJoined : joined = .ok (session.dialect.decode
        (String.ofList (EngineOutput.joinStreams out err)) (Goal.freeVariables goal)
        session.policy) := by
      refine (interpret_of_clean goal ?_).trans (if_pos rfl)
      intro line member
      rw [EngineOutput.ofText, split] at member
      rcases List.mem_append.mp member with front | back
      · exact cleanKept line front
      · exact (noise line back).noError
    have isAlone : alone = .ok (session.dialect.decode (String.ofList out)
        (Goal.freeVariables goal) session.policy) :=
      (interpret_of_clean goal (ofOut.symm ▸ clean)).trans (if_pos rfl)
    rw [isJoined, isAlone, sameResult_ok_iff, session.dialect.decode_joinStreams_iff noise]
    constructor
    · rintro passed isProblog _ ⟨⟩
      exact passed isProblog
    · exact fun passed isProblog => passed isProblog _ rfl

theorem solveGoal_program {host : Host} {executable : Executable} {extraArgs : List String}
    {result : ProgramResult} (runs : session.backend = .program host executable extraArgs)
    (started : host.start? (Backend.scriptLaunch host executable extraArgs session.dialect
      (session.script goal)) = some result)
    (ended : result.status? = some 0) :
    session.solveGoal goal = session.interpret goal (.ofText (String.ofList
      (EngineOutput.joinStreams (Utf8.decode result.stdout) (Utf8.decode result.stderr)))) := by
  have ran : session.backend.run session.dialect (session.script goal) =
      .ok (.ofResult result) := by
    rw [runs]
    simp only [Backend.program, started]
  rw [solveGoal, ran, EngineOutput.ofResult, ended]
  rfl

/-- What a program says on standard error on the side makes no difference to the result, but where
the decoder takes a trimmed line for no warning. That cannot be if no warning mark ends in white
space. -/
theorem solveGoal_joinStreams {host : Host} {executable : Executable} {extraArgs : List String}
    {result : ProgramResult} (runs : session.backend = .program host executable extraArgs)
    (started : host.start? (Backend.scriptLaunch host executable extraArgs session.dialect
      (session.script goal)) = some result)
    (ended : result.status? = some 0)
    (noReturn : ∀ mark ∈ session.dialect.diagnostics.errorMarks, '\r' ∉ mark.toList)
    (noise : ∀ line ∈ lines (Utf8.decode result.stderr), session.dialect.IsNoise line) :
    let alone := { session with
      backend := .replay (String.ofList (Utf8.decode result.stdout)) }.solveGoal goal
    (SameResult (session.solveGoal goal) alone ↔
        (session.kind = .problog → ∀ solution, alone = .ok solution → solution.failure? = none →
          ∀ line ∈ lines (Utf8.decode result.stderr),
            Weighted.isPassedOver session.dialect.diagnostics (trim line) = true)) ∧
      ((∀ mark ∈ session.dialect.diagnostics.warningMarks, ∀ c ∈ mark.toList.getLast?,
          isBlank c = false) →
        SameResult (session.solveGoal goal) alone) := by
  intro alone
  have iff := interpret_joinStreams_iff noReturn noise (Utf8.decode result.stdout) goal
    (.replay (String.ofList (Utf8.decode result.stdout)))
  rw [solveGoal_program runs started ended]
  refine ⟨iff, fun visible => iff.mpr ?_⟩
  exact fun isProblog _ _ _ line member =>
    Weighted.isPassedOver_trim visible ((noise line member).weighted isProblog)

def ascii (text : String) : List UInt8 :=
  text.toList.map fun c => c.toNat.toUInt8

def printingHost (out err : String) : Host where
  tree := .empty
  environment? _ := none
  launch _ := some ⟨ascii out, ascii err, some 0⟩
  scriptPath suffix := "/tmp/script" ++ suffix

def problogSession (warningMarks : List String) (out err : String) : Session where
  dialect := ⟨.problog, ⟨["Error"], warningMarks⟩⟩
  policy := .problog
  theory := .empty
  backend := .program (printingHost out err) (.ofProgram "problog") []

theorem start?_problogSession (warningMarks : List String) (out err : String) :
    (printingHost out err).start? (Backend.scriptLaunch (printingHost out err)
        (.ofProgram "problog") [] (problogSession warningMarks out err).dialect
        ((problogSession warningMarks out err).script "true")) =
      some ⟨ascii out, ascii err, some 0⟩ := by
  have possible : (⟨"problog", ["/tmp/script.pl"], [], none⟩ : Launch).isPossible = true := by
    simp [Launch.isPossible]
  exact if_pos possible

/-- The last line of standard output is not ended, and loses a carriage return. -/
theorem solveGoal_joinStreams_warning :
    let session := problogSession ["Warning"] "pb_query:\t1\r" "Warning: slow\r\n \n"
    (∀ line ∈ lines (Utf8.decode (ascii "Warning: slow\r\n \n")), session.dialect.IsNoise line) ∧
      SameResult (session.solveGoal "true")
        ({ session with backend := .replay "pb_query:\t1\r" }.solveGoal "true") := by
  intro session
  have noise : ∀ line ∈ lines (Utf8.decode (ascii "Warning: slow\r\n \n")),
      session.dialect.IsNoise line := by decide +kernel
  have decoded : String.ofList (Utf8.decode (ascii "pb_query:\t1\r")) = "pb_query:\t1\r" := by
    decide +kernel
  have started := start?_problogSession ["Warning"] "pb_query:\t1\r" "Warning: slow\r\n \n"
  have noReturn : ∀ mark ∈ session.dialect.diagnostics.errorMarks, '\r' ∉ mark.toList := by decide
  have same := solveGoal_joinStreams rfl started rfl noReturn noise
  rw [decoded] at same
  have visible : ∀ mark ∈ ["Warning"], ∀ c ∈ mark.toList.getLast?, isBlank c = false := by
    intro mark member c last
    rw [List.mem_singleton.mp member] at last
    obtain rfl : 'g' = c := Option.some.inj last
    decide
  exact ⟨noise, same.2 visible⟩

/-- A warning of which the decoder sees less than the mark. -/
theorem not_solveGoal_joinStreams :
    ¬∀ (session : Session) (goal : String) (host : Host) (executable : Executable)
      (extraArgs : List String) (result : ProgramResult),
      session.backend = .program host executable extraArgs →
      host.start? (Backend.scriptLaunch host executable extraArgs session.dialect
        (session.script goal)) = some result →
      result.status? = some 0 →
      (∀ mark ∈ session.dialect.diagnostics.errorMarks ++ session.dialect.diagnostics.warningMarks,
        '\r' ∉ mark.toList) →
      (∀ line ∈ lines (Utf8.decode result.stderr), session.dialect.IsNoise line) →
      SameResult (session.solveGoal goal)
        ({ session with
          backend := .replay (String.ofList (Utf8.decode result.stdout)) }.solveGoal goal) := by
  intro all
  have started := start?_problogSession ["W "] "pb_query:\t1\n" "W \n"
  have same := all (problogSession ["W "] "pb_query:\t1\n" "W \n") "true" _ _ _ _ rfl started rfl
    (by decide) (by decide +kernel)
  rw [solveGoal_program rfl started rfl] at same
  have failures := same.failure?_eq
  exact absurd failures (by decide +kernel)

end Session

end HornQuery
