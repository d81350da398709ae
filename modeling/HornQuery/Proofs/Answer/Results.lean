import HornQuery.Proofs.Answer.Acceptance
import HornQuery.Proofs.Answer.Weighted
import HornQuery.Proofs.Term.Applied

namespace HornQuery.Weighted

open Text

variable {columns : List String} {diagnostics : Diagnostics} {line : List Char}

/-! One line. -/

structure Answer.IsReported (answer : Answer) (columns : List String) (line : List Char) :
    Prop where
  split : ∃ before, line = before ++ ':' :: answer.weight ∧
    Term.ofText (trim before) = .ok (headTerm answer.terms)
  last : ':' ∉ answer.weight
  length : answer.terms.length = columns.length
  weighs : Number.parse? (trim answer.weight) = some answer.probability
  unit : (0.0 : Float) ≤ answer.probability ∧ answer.probability ≤ (1.0 : Float)

theorem splitLast?_eq_some_iff {separator : Char} {text before after : List Char} :
    splitLast? separator text = some (before, after) ↔
      text = before ++ separator :: after ∧ separator ∉ after := by
  constructor
  · intro split
    by_cases occurs : separator ∈ text
    · -- The first occurrence from the end is the last one.
      obtain ⟨back, front, reversed, free⟩ :=
        List.eq_append_cons_of_mem (List.mem_reverse.mpr occurs)
      have whole : text = front.reverse ++ separator :: back.reverse := by
        rw [← List.reverse_reverse text, reversed]
        simp
      rw [← List.mem_reverse] at free
      rw [whole, splitLast?_append _ free] at split
      cases split
      exact ⟨whole, free⟩
    · have all : ∀ c ∈ text.reverse, decide (c ≠ separator) = true := by
        intro c member
        exact decide_eq_true fun same => occurs (same ▸ List.mem_reverse.mp member)
      rw [splitLast?, List.takeWhile_eq_self_iff.mpr all, List.reverse_reverse, if_pos rfl] at split
      cases split
  · rintro ⟨rfl, free⟩
    exact splitLast?_append before free

theorem probability?_eq_some_iff {text : List Char} {probability : Float} :
    probability? text = some probability ↔
      Number.parse? (trim text) = some probability ∧
        (0.0 : Float) ≤ probability ∧ probability ≤ (1.0 : Float) := by
  simp only [probability?, Option.filter_eq_some_iff, Bool.and_eq_true, decide_eq_true_eq]

theorem queryArgs?_eq_some_iff {head : Term} (applied : head.Applied) {arity : Nat}
    {terms : List Term} :
    queryArgs? head arity = some terms ↔ terms.length = arity ∧ head = headTerm terms := by
  constructor
  · intro args
    unfold queryArgs? at args
    split at args
    case h_1 name =>
      split at args
      case isTrue bare =>
        simp only [Bool.and_eq_true, decide_eq_true_eq] at bare
        cases args
        exact ⟨bare.1.symm, congrArg Term.atom bare.2⟩
      case isFalse => cases args
    case h_2 functor all =>
      split at args
      case isTrue fits =>
        simp only [Bool.and_eq_true, decide_eq_true_eq] at fits
        cases args
        exact ⟨fits.2, fits.1 ▸ applied.eq_apply⟩
      case isFalse => cases args
    case h_3 => cases args
  · rintro ⟨rfl, rfl⟩
    exact queryArgs?_headTerm terms

theorem row_eq_ok_iff {found : Row} :
    row columns line = .ok found ↔
      ∃ answer : Answer, answer.IsReported columns line ∧ answer.row columns = found := by
  constructor
  · intro decoded
    unfold row at decoded
    split at decoded
    case h_1 => cases decoded
    case h_2 before weight split =>
      split at decoded
      case h_1 => cases decoded
      case h_2 probability weighs =>
        simp only at decoded
        split at decoded
        case h_1 => cases decoded
        case h_2 term read =>
          split at decoded
          case h_1 => cases decoded
          case h_2 terms args =>
            cases decoded
            obtain ⟨whole, last⟩ := splitLast?_eq_some_iff.mp split
            obtain ⟨parsed, unit⟩ := probability?_eq_some_iff.mp weighs
            obtain ⟨length, rfl⟩ :=
              (queryArgs?_eq_some_iff (Term.applied_of_ofText read)).mp args
            exact ⟨⟨terms, weight, probability⟩, ⟨⟨before, whole, read⟩, last, length, parsed, unit⟩,
              rfl⟩
  · rintro ⟨answer, ⟨⟨before, whole, read⟩, last, length, parsed, unit⟩, rfl⟩
    have split := splitLast?_eq_some_iff.mpr ⟨whole, last⟩
    have weighs := probability?_eq_some_iff.mpr ⟨parsed, unit⟩
    have args := queryArgs?_headTerm answer.terms
    rw [length] at args
    simp only [row, split, weighs, read, args]
    rfl

/-! Whole output. -/

def outputLines (output : String) : List (List Char) :=
  (lines output.toList).map trim

def isPassedOver (diagnostics : Diagnostics) (line : List Char) : Bool :=
  line.isEmpty || diagnostics.isWarning line

def significant (diagnostics : Diagnostics) (output : List (List Char)) : List (List Char) :=
  output.filter fun line => !isPassedOver diagnostics line

structure Yields (diagnostics : Diagnostics) (columns : List String) (line : List Char)
    (found : Row) : Prop where
  noError : diagnostics.isError line = false
  reports : ∃ answer : Answer, answer.IsReported columns line ∧ answer.row columns = found

def IsResult (diagnostics : Diagnostics) (columns : List String) (line : List Char) : Prop :=
  diagnostics.isError line = false ∧ ∃ answer : Answer, answer.IsReported columns line

theorem exists_yields_iff :
    (∃ found, Yields diagnostics columns line found) ↔ IsResult diagnostics columns line := by
  constructor
  · rintro ⟨found, noError, answer, reported, -⟩
    exact ⟨noError, answer, reported⟩
  · rintro ⟨noError, answer, reported⟩
    exact ⟨answer.row columns, noError, answer, reported, rfl⟩

section

variable {output rest : List (List Char)}

theorem rows_cons_of_isPassedOver (passed : isPassedOver diagnostics (trim line) = true) :
    rows diagnostics columns (line :: rest) = rows diagnostics columns rest := by
  rw [rows]
  exact if_pos passed

theorem rows_cons_eq_ok_iff (kept : isPassedOver diagnostics (trim line) = false)
    {found : List Row} :
    rows diagnostics columns (line :: rest) = .ok found ↔
      ∃ first others, Yields diagnostics columns (trim line) first ∧
        rows diagnostics columns rest = .ok others ∧ found = first :: others := by
  have skipped : ¬((trim line).isEmpty || diagnostics.isWarning (trim line)) = true := by
    rw [← isPassedOver, kept]
    exact Bool.false_ne_true
  simp only [rows, if_neg skipped]
  cases error : diagnostics.isError (trim line) with
  | true =>
      have refused : ∀ first, ¬Yields diagnostics columns (trim line) first := by
        rintro first ⟨noError, -⟩
        rw [error] at noError
        cases noError
      simp [refused]
  | false =>
      rw [if_neg Bool.false_ne_true, cons_eq_ok_iff]
      have yields : ∀ {first}, row columns (trim line) = .ok first ↔
          Yields diagnostics columns (trim line) first :=
        fun {first} => row_eq_ok_iff.trans ⟨fun reports => ⟨error, reports⟩, Yields.reports⟩
      simp only [yields]

theorem rows_eq_ok_iff {found : List Row} :
    rows diagnostics columns output = .ok found ↔
      List.Forall₂ (Yields diagnostics columns) (significant diagnostics (output.map trim))
        found := by
  induction output generalizing found with
  | nil =>
      rw [rows, Except.ok.injEq]
      exact eq_comm.trans List.forall₂_nil_left_iff.symm
  | cons line rest induction =>
      rw [List.map_cons, significant]
      cases passed : isPassedOver diagnostics (trim line) with
      | true =>
          rw [List.filter_cons_of_neg (by simp [passed]), rows_cons_of_isPassedOver passed]
          exact induction
      | false =>
          rw [List.filter_cons_of_pos (by simp [passed]), rows_cons_eq_ok_iff passed,
            List.forall₂_cons_left_iff]
          simp only [induction, significant]

theorem rows_significant (output : List (List Char)) :
    rows diagnostics columns (significant diagnostics (output.map trim)) =
      rows diagnostics columns output := by
  induction output with
  | nil => rfl
  | cons line rest induction =>
      rw [List.map_cons, significant]
      cases passed : isPassedOver diagnostics (trim line) with
      | true =>
          rw [List.filter_cons_of_neg (by simp [passed]), rows_cons_of_isPassedOver passed]
          exact induction
      | false =>
          rw [List.filter_cons_of_pos (by simp [passed]), rows, rows, trim_trim, ← induction]
          rfl

theorem mem_significant_iff :
    line ∈ significant diagnostics output ↔
      line ∈ output ∧ isPassedOver diagnostics line = false := by
  rw [significant, List.mem_filter, Bool.not_eq_true']

theorem significant_insert (passed : isPassedOver diagnostics line = true)
    (front after : List (List Char)) :
    significant diagnostics (front ++ line :: after) = significant diagnostics (front ++ after) := by
  rw [significant, significant, List.filter_append, List.filter_append,
    List.filter_cons_of_neg (by simp [passed])]

end

section

variable {text other : String} {policy : Policy}

theorem yields_decode (text : String) (columns : List String) (diagnostics : Diagnostics)
    (policy : Policy) :
    let results := significant diagnostics (outputLines text)
    let solution := decode text columns diagnostics policy
    (solution.failure? = none ↔ ∀ line ∈ results, IsResult diagnostics columns line) ∧
      (solution.failure? = none →
        List.Forall₂ (Yields diagnostics columns) results solution.rows) ∧
      (solution.failure? ≠ none → solution.rows = []) := by
  simp only [← exists_yields_iff, ← exists_forall₂_iff]
  exact Solution.accepts_of_decoded (fun _ => rows_eq_ok_iff)
    (fun found same => by rw [decode, same]) (fun reason same => by rw [decode, same])

theorem decode_eq_of_significant
    (same : significant diagnostics (outputLines other) =
      significant diagnostics (outputLines text)) :
    decode other columns diagnostics policy = decode text columns diagnostics policy := by
  have kept : ∀ text : String,
      rows diagnostics columns (significant diagnostics (outputLines text)) =
        rows diagnostics columns (lines text.toList) :=
    fun text => rows_significant (lines text.toList)
  rw [decode, decode, ← kept other, ← kept text, same]

theorem decode_refused (member : line ∈ outputLines text)
    (kept : isPassedOver diagnostics line = false) (other : ¬IsResult diagnostics columns line) :
    (decode text columns diagnostics policy).failure? ≠ none ∧
      (decode text columns diagnostics policy).rows = [] := by
  obtain ⟨decoded, -, refused⟩ := yields_decode text columns diagnostics policy
  have failed : (decode text columns diagnostics policy).failure? ≠ none :=
    fun succeeds => other (decoded.mp succeeds line (mem_significant_iff.mpr ⟨member, kept⟩))
  exact ⟨failed, refused failed⟩

end

/-- Output is decoded exactly if each of its lines that is neither blank nor a warning reports an
answer. The rows are those of the answers, in order, and there is none if the output is refused. -/
theorem decode_by_results (output : String) (columns : List String) (diagnostics : Diagnostics)
    (policy : Policy) :
    let results := significant diagnostics (outputLines output)
    let solution := decode output columns diagnostics policy
    (solution.failure? = none ↔ ∀ line ∈ results, IsResult diagnostics columns line) ∧
      (solution.failure? = none →
        List.Forall₂ (Yields diagnostics columns) results solution.rows) ∧
      (solution.failure? ≠ none → solution.rows = []) ∧
      (∀ other, significant diagnostics (outputLines other) = results →
        decode other columns diagnostics policy = solution) ∧
      ∀ other front line after, outputLines other = front ++ line :: after →
        (isPassedOver diagnostics line = true → outputLines output = front ++ after →
          decode other columns diagnostics policy = solution) ∧
        (isPassedOver diagnostics line = false → ¬IsResult diagnostics columns line →
          (decode other columns diagnostics policy).failure? ≠ none ∧
            (decode other columns diagnostics policy).rows = []) := by
  intro results solution
  obtain ⟨decoded, found, refused⟩ := yields_decode output columns diagnostics policy
  refine ⟨decoded, found, refused, fun _ => decode_eq_of_significant, ?_⟩
  intro other front line after inserted
  constructor
  · intro passed without
    apply decode_eq_of_significant
    rw [inserted, without, significant_insert passed]
  · have member : line ∈ outputLines other := by simp [inserted]
    exact decode_refused member

end HornQuery.Weighted
