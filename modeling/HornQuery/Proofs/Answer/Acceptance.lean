import HornQuery.Answer.Plain
import HornQuery.Proofs.Text.Lines
import Mathlib.Data.List.Forall2

namespace HornQuery

/-! One result in front of others, all of which have to be there. -/

section

variable {ε α : Type} {result : Except ε α} {results : Except ε (List α)}

theorem cons_eq_ok_iff {found : List α} :
    (do
      let first ← result
      let others ← results
      Except.ok (first :: others)) = .ok found ↔
      ∃ first others, result = .ok first ∧ results = .ok others ∧ found = first :: others := by
  cases result with
  | error cause => exact ⟨nofun, nofun⟩
  | ok first =>
      cases results with
      | error cause => exact ⟨nofun, nofun⟩
      | ok others =>
          refine ⟨fun same => ⟨first, others, rfl, rfl, (Except.ok.inj same).symm⟩, ?_⟩
          rintro ⟨_, _, ⟨⟩, ⟨⟩, rfl⟩
          rfl

theorem cons_eq_error {cause : ε}
    (failed : (do
      let first ← result
      let others ← results
      Except.ok (first :: others)) = .error cause) :
    result = .error cause ∨ results = .error cause := by
  cases result with
  | error other =>
      cases failed
      exact .inl rfl
  | ok first =>
      cases results with
      | error other =>
          cases failed
          exact .inr rfl
      | ok others => cases failed

end

theorem exists_forall₂_iff {α β : Type} {relation : α → β → Prop} {items : List α} :
    (∃ results, List.Forall₂ relation items results) ↔
      ∀ item ∈ items, ∃ result, relation item result := by
  induction items with
  | nil => simp [List.forall₂_nil_left_iff]
  | cons item items induction =>
      rw [List.forall_mem_cons, ← induction]
      simp only [List.forall₂_cons_left_iff]
      constructor
      · rintro ⟨_, result, results, first, others, -⟩
        exact ⟨⟨result, first⟩, results, others⟩
      · rintro ⟨⟨result, first⟩, results, others⟩
        exact ⟨_, result, results, first, others, rfl⟩

/-- A solution made of what a decoder finds: it has these rows, or else it is failed. -/
theorem Solution.accepts_of_decoded {solution : Solution} {columns : List String}
    {criterion : Criterion} {policy : Policy} {result : Except String (List Row)}
    {accepts : List Row → Prop} (decides : ∀ found, result = .ok found ↔ accepts found)
    (decoded : ∀ found, result = .ok found → solution = ofRows columns found criterion policy)
    (refused : ∀ reason, result = .error reason →
      solution = failed columns reason criterion policy) :
    (solution.failure? = none ↔ ∃ found, accepts found) ∧
      (solution.failure? = none → accepts solution.rows) ∧
      (solution.failure? ≠ none → solution.rows = []) := by
  cases same : result with
  | ok found =>
      have accepted := (decides found).mp same
      rw [decoded found same]
      exact ⟨iff_of_true rfl ⟨found, accepted⟩, fun _ => accepted, absurd rfl⟩
  | error reason =>
      have none : ¬∃ found, accepts found := by
        rintro ⟨found, accepted⟩
        rw [(decides found).mpr accepted] at same
        cases same
      rw [refused reason same]
      refine ⟨iff_of_false (Option.some_ne_none reason) none, ?_, fun _ => rfl⟩
      exact fun succeeds => absurd succeeds (Option.some_ne_none reason)

namespace Plain

open Text

/-! The classes of lines. -/

section

variable (diagnostics : Diagnostics) (line : List Char)

def isEnd : Bool :=
  !diagnostics.isError line && trim line = endMarker

/-- The marker of a record alone or in front of a tab. -/
def isRecord : Bool :=
  !diagnostics.isError line && !isEnd diagnostics line &&
    (line = recordMarker || (recordMarker ++ ['\t']).isPrefixOf line)

def isStray : Bool :=
  !diagnostics.isError line && !isEnd diagnostics line && !isRecord diagnostics line

end

def tabbed (line : List Char) : List (List Char) :=
  (line.splitOn '\t').tail

variable {diagnostics : Diagnostics} {columns : List String} {line : List Char}
  {output : List (List Char)}

theorem fields?_eq_tabbed (marked : line = recordMarker ∨ recordMarker ++ ['\t'] <+: line) :
    fields? line = some (tabbed line) := by
  have noTab : '\t' ∉ recordMarker := by decide
  rcases marked with rfl | ⟨rest, rfl⟩
  · rw [tabbed, List.splitOn_eq_singleton noTab]
    rfl
  · rw [tabbed, List.append_assoc, List.singleton_append,
      List.splitOn_append_cons_self_of_not_mem noTab, List.tail_cons, ← pieces_eq_splitOn]
    rfl

theorem fields?_eq_none (unmarked : ¬(line = recordMarker ∨ recordMarker ++ ['\t'] <+: line)) :
    fields? line = none := by
  rw [fields?]
  split
  case isFalse => rfl
  case isTrue starts =>
    obtain ⟨rest, rfl⟩ := List.isPrefixOf_iff_prefix.mp starts
    rw [List.drop_left]
    split
    case h_1 =>
      rw [List.append_nil] at unmarked
      exact absurd (.inl rfl) unmarked
    case h_2 inside =>
      refine absurd (.inr ⟨inside, ?_⟩) unmarked
      rw [List.append_assoc, List.singleton_append]
    case h_3 => rfl

theorem isRecord_eq_true_iff :
    isRecord diagnostics line = true ↔
      diagnostics.isError line = false ∧ isEnd diagnostics line = false ∧
        (line = recordMarker ∨ recordMarker ++ ['\t'] <+: line) := by
  simp [isRecord, and_assoc]

theorem classify_cases (diagnostics : Diagnostics) (line : List Char) :
    (diagnostics.isError line = true ∧ isEnd diagnostics line = false ∧
        classify diagnostics line = .error line) ∨
      (diagnostics.isError line = false ∧ isEnd diagnostics line = true ∧
        classify diagnostics line = .finish) ∨
      (diagnostics.isError line = false ∧ isEnd diagnostics line = false ∧
        isRecord diagnostics line = true ∧ classify diagnostics line = .record (tabbed line)) ∨
      (diagnostics.isError line = false ∧ isEnd diagnostics line = false ∧
        isRecord diagnostics line = false ∧ classify diagnostics line = .stray) := by
  rw [classify]
  by_cases error : diagnostics.isError line = true
  · exact .inl ⟨error, by simp [isEnd, error], by rw [if_pos error]⟩
  · rw [if_neg error]
    rw [Bool.not_eq_true] at error
    by_cases finish : trim line = endMarker
    · exact .inr (.inl ⟨error, by simp [isEnd, error, finish], by rw [if_pos finish]⟩)
    · have noEnd : isEnd diagnostics line = false := by simp [isEnd, finish]
      rw [if_neg finish]
      by_cases marked : line = recordMarker ∨ recordMarker ++ ['\t'] <+: line
      · exact .inr (.inr (.inl ⟨error, noEnd, isRecord_eq_true_iff.mpr ⟨error, noEnd, marked⟩,
          by rw [fields?_eq_tabbed marked]⟩))
      · refine .inr (.inr (.inr ⟨error, noEnd, ?_, by rw [fields?_eq_none marked]⟩))
        rw [← Bool.not_eq_true, isRecord_eq_true_iff]
        exact fun isRecord => marked isRecord.2.2

theorem classify_of_isEnd (finish : isEnd diagnostics line = true) :
    classify diagnostics line = .finish := by
  simp only [isEnd, Bool.and_eq_true, Bool.not_eq_true', decide_eq_true_eq] at finish
  rw [classify, finish.1, if_neg Bool.false_ne_true, if_pos finish.2]

theorem classify_of_isStray (stray : isStray diagnostics line = true) :
    classify diagnostics line = .stray := by
  simp only [isStray, Bool.and_eq_true, Bool.not_eq_true'] at stray
  obtain ⟨⟨noError, noEnd⟩, noRecord⟩ := stray
  rcases classify_cases diagnostics line with
    ⟨error, -, -⟩ | ⟨-, finish, -⟩ | ⟨-, -, isRecord, -⟩ | ⟨-, -, -, seen⟩
  · rw [noError] at error
    cases error
  · rw [noEnd] at finish
    cases finish
  · rw [noRecord] at isRecord
    cases isRecord
  · exact seen

/-! Records. -/

/-- A row that binds each variable to the term that its field is read as. -/
structure Decodes (columns : List String) (fields : List (List Char)) (row : Row) : Prop where
  names : row.bindings.map Prod.fst = columns
  terms : List.Forall₂ (fun field binding => Term.ofText field = .ok binding.2) fields row.bindings
  unweighted : row.probability? = none

theorem bindings_eq_ok_iff {fields : List (List Char)} {found : List (String × Term)}
    (length : fields.length = columns.length) :
    bindings columns fields = .ok found ↔
      found.map Prod.fst = columns ∧
        List.Forall₂ (fun field binding => Term.ofText field = .ok binding.2) fields found := by
  induction columns generalizing fields found with
  | nil =>
      rw [List.length_nil, List.length_eq_zero_iff] at length
      subst length
      have none : bindings [] [] = .ok [] := rfl
      rw [none, List.forall₂_nil_left_iff]
      constructor
      · intro same
        cases same
        exact ⟨rfl, rfl⟩
      · rintro ⟨-, rfl⟩
        rfl
  | cons name names induction =>
      cases fields with
      | nil => cases length
      | cons field fields =>
          have shorter : fields.length = names.length := Nat.succ.inj length
          rw [bindings]
          cases read : Term.ofText field with
          | error cause =>
              refine iff_of_false nofun ?_
              rintro ⟨-, terms⟩
              obtain ⟨binding, -, isRead, -⟩ := List.forall₂_cons_left_iff.mp terms
              rw [read] at isRead
              cases isRead
          | ok term =>
              constructor
              · intro same
                cases later : bindings names fields with
                | error cause =>
                    rw [later] at same
                    cases same
                | ok others =>
                    rw [later] at same
                    cases same
                    obtain ⟨rest, terms⟩ := (induction shorter).mp later
                    exact ⟨congrArg _ rest, .cons read terms⟩
              · rintro ⟨same, terms⟩
                obtain ⟨binding, others, isRead, rest, rfl⟩ := List.forall₂_cons_left_iff.mp terms
                rw [read] at isRead
                rw [List.map_cons, List.cons.injEq] at same
                rw [(induction shorter).mpr ⟨same.2, rest⟩, Except.ok.inj isRead, ← same.1]
                rfl

theorem row_eq_ok_iff {fields : List (List Char)} {found : Row} :
    row columns fields = .ok found ↔ Decodes columns fields found := by
  have lengths : Decodes columns fields found → fields.length = columns.length := by
    intro decodes
    rw [decodes.terms.length_eq, ← decodes.names, List.length_map]
  rw [row]
  split
  case isFalse other => exact iff_of_false nofun fun decodes => other (lengths decodes)
  case isTrue length =>
    constructor
    · intro same
      cases bound : bindings columns fields with
      | error cause =>
          rw [bound] at same
          cases same
      | ok pairs =>
          rw [bound] at same
          cases same
          obtain ⟨names, terms⟩ := (bindings_eq_ok_iff length).mp bound
          exact ⟨names, terms, rfl⟩
    · intro decodes
      rw [(bindings_eq_ok_iff length).mpr ⟨decodes.names, decodes.terms⟩, Except.map,
        ← decodes.unweighted]

theorem exists_decodes_iff {fields : List (List Char)} :
    (∃ found, Decodes columns fields found) ↔
      fields.length = columns.length ∧ ∀ field ∈ fields, ∃ term, Term.ofText field = .ok term := by
  rw [← exists_forall₂_iff]
  constructor
  · rintro ⟨found, names, terms, -⟩
    have length : fields.length = columns.length := by
      rw [terms.length_eq, ← names, List.length_map]
    exact ⟨length, found.bindings.map Prod.snd, List.forall₂_map_right_iff.mpr terms⟩
  · rintro ⟨length, terms, read⟩
    have same : columns.length = terms.length := by rw [← read.length_eq, length]
    refine ⟨⟨columns.zip terms, none⟩, List.map_fst_zip same.le, ?_, rfl⟩
    rw [← List.map_snd_zip same.ge, List.forall₂_map_right_iff] at read
    exact read

/-! Whole output. -/

/-- The lines that the decoder looks at until it comes upon an end. -/
def beforeEnd (diagnostics : Diagnostics) (output : List (List Char)) : List (List Char) :=
  output.takeWhile fun line => !isEnd diagnostics line

def records (diagnostics : Diagnostics) (output : List (List Char)) : List (List (List Char)) :=
  ((beforeEnd diagnostics output).filter (isRecord diagnostics)).map tabbed

structure Accepted (diagnostics : Diagnostics) (columns : List String)
    (output : List (List Char)) (found : List Row) : Prop where
  ended : ∃ line ∈ output, isEnd diagnostics line = true
  clean : ∀ line ∈ beforeEnd diagnostics output, diagnostics.isError line = false
  rows : List.Forall₂ (Decodes columns) (records diagnostics output) found

theorem trimReturns_isPrefix (line : List Char) : trimReturns line <+: line := by
  rw [trimReturns, ← List.reverse_suffix, List.reverse_reverse]
  exact List.dropWhile_suffix _

theorem trimReturns_dropReturn (line : List Char) :
    trimReturns (dropReturn line) = trimReturns line := by
  rcases dropReturn_cases line with same | ⟨kept, rfl, same⟩
  · rw [same]
  · rw [same, trimReturns, trimReturns, List.reverse_append, List.reverse_singleton,
      List.singleton_append, List.dropWhile_cons_of_pos (by decide)]

theorem trimReturns_trimReturns (line : List Char) :
    trimReturns (trimReturns line) = trimReturns line := by
  rw [trimReturns, trimReturns, List.reverse_reverse, List.dropWhile_idempotent]

theorem rows_map_trimReturns (output : List (List Char)) :
    rows diagnostics columns (output.map trimReturns) = rows diagnostics columns output := by
  induction output with
  | nil => rfl
  | cons line rest induction =>
      rw [List.map_cons, rows, rows, trimReturns_trimReturns, induction]

section

variable {rest : List (List Char)} {found : List Row}

theorem beforeEnd_cons (noEnd : isEnd diagnostics line = false) :
    beforeEnd diagnostics (line :: rest) = line :: beforeEnd diagnostics rest :=
  List.takeWhile_cons_of_pos (by simpa using noEnd)

theorem not_accepted_error (error : diagnostics.isError line = true)
    (noEnd : isEnd diagnostics line = false) :
    ¬Accepted diagnostics columns (line :: rest) found := by
  rintro ⟨-, clean, -⟩
  rw [beforeEnd_cons noEnd] at clean
  rw [clean line List.mem_cons_self] at error
  cases error

theorem accepted_end_iff (finish : isEnd diagnostics line = true) :
    Accepted diagnostics columns (line :: rest) found ↔ found = [] := by
  have none : beforeEnd diagnostics (line :: rest) = [] := by simp [beforeEnd, finish]
  constructor
  · rintro ⟨-, -, rows⟩
    rw [records, none] at rows
    exact List.forall₂_nil_left_iff.mp rows
  · rintro rfl
    refine ⟨⟨line, List.mem_cons_self, finish⟩, ?_, ?_⟩
    · rw [none]
      exact List.forall_mem_nil _
    · rw [records, none]
      exact .nil

theorem accepted_cons_iff (noError : diagnostics.isError line = false)
    (noEnd : isEnd diagnostics line = false) :
    Accepted diagnostics columns (line :: rest) found ↔
      (∃ line ∈ rest, isEnd diagnostics line = true) ∧
        (∀ line ∈ beforeEnd diagnostics rest, diagnostics.isError line = false) ∧
        List.Forall₂ (Decodes columns) (records diagnostics (line :: rest)) found := by
  have ended : (∃ other ∈ line :: rest, isEnd diagnostics other = true) ↔
      ∃ other ∈ rest, isEnd diagnostics other = true := by simp [noEnd]
  have clean : (∀ other ∈ beforeEnd diagnostics (line :: rest), diagnostics.isError other = false) ↔
      ∀ other ∈ beforeEnd diagnostics rest, diagnostics.isError other = false := by
    simp [beforeEnd_cons noEnd, noError]
  rw [← ended, ← clean]
  exact ⟨fun ⟨one, two, three⟩ => ⟨one, two, three⟩, fun ⟨one, two, three⟩ => ⟨one, two, three⟩⟩

theorem accepted_stray_iff (noError : diagnostics.isError line = false)
    (noEnd : isEnd diagnostics line = false) (noRecord : isRecord diagnostics line = false) :
    Accepted diagnostics columns (line :: rest) found ↔
      Accepted diagnostics columns rest found := by
  have same : records diagnostics (line :: rest) = records diagnostics rest := by
    simp [records, beforeEnd_cons noEnd, noRecord]
  rw [accepted_cons_iff noError noEnd, same]
  exact ⟨fun ⟨one, two, three⟩ => ⟨one, two, three⟩, fun ⟨one, two, three⟩ => ⟨one, two, three⟩⟩

theorem accepted_record_iff (noError : diagnostics.isError line = false)
    (noEnd : isEnd diagnostics line = false) (isRecord : isRecord diagnostics line = true) :
    Accepted diagnostics columns (line :: rest) found ↔
      ∃ first others, Decodes columns (tabbed line) first ∧
        Accepted diagnostics columns rest others ∧ found = first :: others := by
  have more : records diagnostics (line :: rest) = tabbed line :: records diagnostics rest := by
    simp [records, beforeEnd_cons noEnd, isRecord]
  rw [accepted_cons_iff noError noEnd, more, List.forall₂_cons_left_iff]
  constructor
  · rintro ⟨ended, clean, first, others, decodes, rows, same⟩
    exact ⟨first, others, decodes, ⟨ended, clean, rows⟩, same⟩
  · rintro ⟨first, others, decodes, ⟨ended, clean, rows⟩, same⟩
    exact ⟨ended, clean, first, others, decodes, rows, same⟩

end

theorem rows_eq_ok_iff {found : List Row} :
    rows diagnostics columns output = .ok found ↔
      Accepted diagnostics columns (output.map trimReturns) found := by
  induction output generalizing found with
  | nil => exact iff_of_false nofun fun accepted => by simpa using accepted.ended
  | cons line rest induction =>
      rw [List.map_cons, rows]
      rcases classify_cases diagnostics (trimReturns line) with
        ⟨error, noEnd, seen⟩ | ⟨noError, finish, seen⟩ | ⟨noError, noEnd, isRecord, seen⟩ |
          ⟨noError, noEnd, noRecord, seen⟩
      · rw [seen]
        exact iff_of_false nofun (not_accepted_error error noEnd)
      · rw [seen, accepted_end_iff finish]
        exact ⟨fun same => (Except.ok.inj same).symm, fun same => same ▸ rfl⟩
      · rw [seen, accepted_record_iff noError noEnd isRecord]
        simp only [cons_eq_ok_iff, row_eq_ok_iff, induction]
      · rw [seen, accepted_stray_iff noError noEnd noRecord]
        exact induction

theorem rows_filter_isStray (output : List (List Char)) :
    rows diagnostics columns
        ((output.map trimReturns).filter fun line => !isStray diagnostics line) =
      rows diagnostics columns output := by
  induction output with
  | nil => rfl
  | cons line rest induction =>
      rw [List.map_cons]
      cases stray : isStray diagnostics (trimReturns line) with
      | true => rw [List.filter_cons_of_neg (by simp [stray]), induction, rows,
          classify_of_isStray stray]
      | false => rw [List.filter_cons_of_pos (by simp [stray]), rows, rows,
          trimReturns_trimReturns, induction]

theorem rows_append_end (finish : isEnd diagnostics (trimReturns line) = true)
    (front after later : List (List Char)) :
    rows diagnostics columns (front ++ line :: after) =
      rows diagnostics columns (front ++ line :: later) := by
  induction front with
  | nil => rw [List.nil_append, List.nil_append, rows, rows, classify_of_isEnd finish]
  | cons first others induction =>
      rw [List.cons_append, List.cons_append, rows, rows, induction]

/-! Decoding. -/

def outputLines (output : String) : List (List Char) :=
  (lines output.toList).map trimReturns

theorem trimReturns_of_mem_outputLines {output : String} (member : line ∈ outputLines output) :
    trimReturns line = line := by
  obtain ⟨raw, -, rfl⟩ := List.mem_map.mp member
  exact trimReturns_trimReturns raw

section

variable {text other : String} {policy : Policy}

theorem accepted_decode (text : String) (columns : List String) (diagnostics : Diagnostics)
    (policy : Policy) :
    let solution := decode text columns diagnostics policy
    (solution.failure? = none ↔
        ∃ found, Accepted diagnostics columns (outputLines text) found) ∧
      (solution.failure? = none →
        Accepted diagnostics columns (outputLines text) solution.rows) ∧
      (solution.failure? ≠ none → solution.rows = []) := by
  exact Solution.accepts_of_decoded (fun _ => rows_eq_ok_iff)
    (fun found same => by rw [decode, same]) (fun reason same => by rw [decode, same])

theorem decode_eq_of_filter_isStray
    (same : ((outputLines other).filter fun line => !isStray diagnostics line) =
      (outputLines text).filter fun line => !isStray diagnostics line) :
    decode other columns diagnostics policy = decode text columns diagnostics policy := by
  have significant : ∀ text : String,
      rows diagnostics columns ((outputLines text).filter fun line => !isStray diagnostics line) =
        rows diagnostics columns (lines text.toList) :=
    fun text => rows_filter_isStray (lines text.toList)
  rw [decode, decode, ← significant other, ← significant text, same]

theorem decode_eq_of_isEnd {front after later : List (List Char)}
    (finish : isEnd diagnostics line = true) (ofText : outputLines text = front ++ line :: after)
    (ofOther : outputLines other = front ++ line :: later) :
    decode other columns diagnostics policy = decode text columns diagnostics policy := by
  have trimmed : ∀ text : String,
      rows diagnostics columns (outputLines text) = rows diagnostics columns (lines text.toList) :=
    fun text => rows_map_trimReturns (lines text.toList)
  have member : line ∈ outputLines text := by simp [ofText]
  rw [← trimReturns_of_mem_outputLines member] at finish
  rw [decode, decode, ← trimmed other, ← trimmed text, ofText, ofOther,
    rows_append_end finish front later after]

end

theorem exists_accepted_iff :
    (∃ found, Accepted diagnostics columns output found) ↔
      (∃ line ∈ output, isEnd diagnostics line = true) ∧
        (∀ line ∈ beforeEnd diagnostics output, diagnostics.isError line = false) ∧
        ∀ fields ∈ records diagnostics output, fields.length = columns.length ∧
          ∀ field ∈ fields, ∃ term, Term.ofText field = .ok term := by
  simp only [← exists_decodes_iff]
  rw [← exists_forall₂_iff]
  constructor
  · rintro ⟨found, ended, clean, rows⟩
    exact ⟨ended, clean, found, rows⟩
  · rintro ⟨ended, clean, found, rows⟩
    exact ⟨found, ended, clean, rows⟩

/-- Output is decoded exactly if it has an end and no line before that is an error or a record
without a term for each variable. The rows are those of the records before the end, in order, and
there is none if the output is refused. Stray lines and lines after an end are of no account. -/
theorem decode_by_lines (output : String) (columns : List String) (diagnostics : Diagnostics)
    (policy : Policy) :
    let all := outputLines output
    let before := all.takeWhile fun line => !isEnd diagnostics line
    let records := (before.filter (isRecord diagnostics)).map tabbed
    let solution := decode output columns diagnostics policy
    (solution.failure? = none ↔
      (∃ line ∈ all, isEnd diagnostics line = true) ∧
        (∀ line ∈ before, diagnostics.isError line = false) ∧
        ∀ fields ∈ records, fields.length = columns.length ∧
          ∀ field ∈ fields, ∃ term, Term.ofText field = .ok term) ∧
      (solution.failure? = none → List.Forall₂ (Decodes columns) records solution.rows) ∧
      (solution.failure? ≠ none → solution.rows = []) ∧
      (∀ other, ((outputLines other).filter fun line => !isStray diagnostics line) =
          (all.filter fun line => !isStray diagnostics line) →
        decode other columns diagnostics policy = solution) ∧
      ∀ other front line after later, isEnd diagnostics line = true →
        all = front ++ line :: after → outputLines other = front ++ line :: later →
        decode other columns diagnostics policy = solution := by
  intro all before records solution
  obtain ⟨decoded, found, refused⟩ := accepted_decode output columns diagnostics policy
  exact ⟨decoded.trans exists_accepted_iff, fun succeeds => (found succeeds).rows, refused,
    fun _ same => decode_eq_of_filter_isStray same,
    fun _ _ _ _ _ finish => decode_eq_of_isEnd finish⟩

end Plain

end HornQuery
