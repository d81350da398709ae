import HornQuery.Answer.Weighted
import HornQuery.Proofs.Engine.Diagnostics
import HornQuery.Proofs.Number.Alphabet
import HornQuery.Proofs.Term.Printable
import HornQuery.Proofs.Term.RoundTrip

namespace HornQuery.Weighted

open Text

/-- The terms of an answer, the text of its weight and what that text denotes. -/
structure Answer where
  terms : List Term
  weight : List Char
  probability : Float

namespace Answer

def head (answer : Answer) : List Char :=
  if answer.terms.isEmpty then queryHead.toList
  else
    queryHead.toList ++ '(' :: (joinWith [','] (answer.terms.map Term.write) ++ [')'])

def line (answer : Answer) : List Char :=
  answer.head ++ ':' :: '\t' :: answer.weight

def row (columns : List String) (answer : Answer) : Row :=
  ⟨columns.zip answer.terms, some answer.probability⟩

structure Fits (columns : List String) (answer : Answer) : Prop where
  length : answer.terms.length = columns.length
  readable : ∀ term ∈ answer.terms, term.Readable
  shallow : ∀ term ∈ answer.terms, term.height ≤ 255
  weighs : Number.parse? answer.weight = some answer.probability
  unit : (0.0 : Float) ≤ answer.probability ∧ answer.probability ≤ (1.0 : Float)

end Answer

def encode (answers : List Answer) : List Char :=
  answers.flatMap fun answer => answer.line ++ ['\n']

/-! The head of a line is the text of a term. -/

def headTerm (terms : List Term) : Term :=
  .apply queryHead terms

theorem functional_queryHead (terms : List Term) : Term.Functional queryHead terms :=
  ⟨fun _ _ same => absurd same (by decide), fun _ same => absurd same (by decide)⟩

theorem write_headTerm (answer : Answer) : (headTerm answer.terms).write = answer.head := by
  have bare : Term.writeName queryHead = queryHead.toList := by decide
  rw [headTerm, Answer.head]
  cases terms : answer.terms with
  | nil => exact bare
  | cons term others =>
      have functor : Term.writeFunctor queryHead = queryHead.toList := by decide
      rw [Term.apply_cons, Term.write, Term.written_functional (functional_queryHead _),
        Written.functional, functor, Written.items, Term.writtenAll_eq_map, List.map_map]
      rfl

theorem readable_headTerm {terms : List Term} (readable : ∀ term ∈ terms, term.Readable) :
    (headTerm terms).Readable := by
  cases terms with
  | nil => exact .atom (by decide)
  | cons term others =>
      exact .compound (List.cons_ne_nil term others) (fun _ _ same => absurd same (by decide))
        readable

theorem height_headTerm {terms : List Term} (shallow : ∀ term ∈ terms, term.height ≤ 255) :
    (headTerm terms).height ≤ Term.maxDepth := by
  cases terms with
  | nil => decide
  | cons term others =>
      exact (Term.height_functional_le_iff (functional_queryHead _).noCell).mpr shallow

theorem queryArgs?_headTerm (terms : List Term) :
    queryArgs? (headTerm terms) terms.length = some terms := by
  cases terms with
  | nil => rfl
  | cons term others => simp [headTerm, queryArgs?]

variable {columns : List String} {answer : Answer} {answers : List Answer}

/-! Cutting a line. -/

theorem splitLast?_append {separator : Char} {after : List Char} (before : List Char)
    (free : separator ∉ after) :
    splitLast? separator (before ++ separator :: after) = some (before, after) := by
  have run : ((before ++ separator :: after).reverse.takeWhile (· ≠ separator)).reverse =
      after := by
    have others : ∀ c ∈ after.reverse, decide (c ≠ separator) = true := by
      intro c member
      exact decide_eq_true fun same => free (same ▸ List.mem_reverse.mp member)
    rw [List.reverse_append, List.reverse_cons, List.append_assoc,
      List.takeWhile_append_of_pos others]
    simp
  have longer : after.length ≠ (before ++ separator :: after).length := by
    rw [List.length_append, List.length_cons]
    omega
  have place : (before ++ separator :: after).length - after.length - 1 = before.length := by
    rw [List.length_append, List.length_cons]
    omega
  rw [splitLast?, run, if_neg longer, place, List.take_left]

theorem trim_tab {weight : List Char} (visible : ∀ c ∈ weight, isBlank c = false) :
    trim ('\t' :: weight) = weight := by
  have tab : trimStart ('\t' :: weight) = trimStart weight :=
    List.dropWhile_cons_of_pos (by decide)
  rw [trim, tab, ← trim]
  apply trim_eq_self
  · exact fun c first => visible c (List.mem_of_head? first)
  · exact fun c last => visible c (List.mem_of_getLast? last)

theorem Answer.exists_head_eq_cons (answer : Answer) : ∃ rest, answer.head = 'p' :: rest := by
  unfold head
  split
  · exact ⟨_, rfl⟩
  · exact ⟨_, rfl⟩

theorem Answer.exists_line_eq_cons (answer : Answer) : ∃ rest, answer.line = 'p' :: rest := by
  obtain ⟨rest, starts⟩ := answer.exists_head_eq_cons
  rw [line, starts]
  exact ⟨_, rfl⟩

theorem isBlank_of_head?_p {text rest : List Char} (starts : text = 'p' :: rest) :
    ∀ c, text.head? = some c → isBlank c = false := by
  intro c first
  rw [starts] at first
  rw [← Option.some.inj first]
  decide

theorem trim_head (answer : Answer) : trim answer.head = answer.head := by
  obtain ⟨rest, starts⟩ := answer.exists_head_eq_cons
  apply trim_eq_self (isBlank_of_head?_p starts)
  intro c last
  have closing : c = 'y' ∨ c = ')' := by
    unfold Answer.head at last
    split at last
    · exact Or.inl (Option.some.inj last).symm
    · rw [List.getLast?_append_of_ne_nil _ (List.cons_ne_nil _ _), ← List.cons_append,
        List.getLast?_concat] at last
      exact Or.inr (Option.some.inj last).symm
  rcases closing with atom | compound
  · subst atom
    decide
  · subst compound
    decide

namespace Answer.Fits

theorem visible (fits : answer.Fits columns) :
    ∀ c ∈ answer.weight, isBlank c = false ∧ c ≠ ':' :=
  fun c member =>
    Number.visible_of_mem_alphabet c (Number.overAlphabet_of_parse? fits.weighs c member)

theorem trim_line (fits : answer.Fits columns) : trim answer.line = answer.line := by
  obtain ⟨rest, starts⟩ := answer.exists_line_eq_cons
  apply trim_eq_self (isBlank_of_head?_p starts)
  intro c last
  have some := Number.ne_nil_of_parse? fits.weighs
  rw [line, List.getLast?_append_of_ne_nil _ (List.cons_ne_nil _ _),
    List.getLast?_cons_of_ne_nil (List.cons_ne_nil _ _),
    List.getLast?_cons_of_ne_nil some] at last
  exact (fits.visible c (List.mem_of_getLast? last)).1

theorem splitLast?_line (fits : answer.Fits columns) :
    splitLast? ':' answer.line = some (answer.head, '\t' :: answer.weight) := by
  apply splitLast?_append
  intro member
  rcases List.mem_cons.mp member with tab | inside
  · contradiction
  · exact (fits.visible ':' inside).2 rfl

theorem probability?_weight (fits : answer.Fits columns) :
    probability? ('\t' :: answer.weight) = some answer.probability := by
  rw [probability?, trim_tab fun c member => (fits.visible c member).1, fits.weighs]
  simp [fits.unit.1, fits.unit.2]

theorem row_line (fits : answer.Fits columns) :
    Weighted.row columns answer.line = .ok (answer.row columns) := by
  have read := Term.ofText_write (readable_headTerm fits.readable) (height_headTerm fits.shallow)
  have args := queryArgs?_headTerm answer.terms
  rw [write_headTerm] at read
  rw [fits.length] at args
  simp only [Weighted.row, fits.splitLast?_line, fits.probability?_weight, trim_head, read, args]
  rfl

theorem not_mem_line (fits : answer.Fits columns) {c : Char} (control : isControl c = true)
    (blank : isBlank c = true) (noTab : c ≠ '\t') : c ∉ answer.line := by
  have printable : Printable answer.head := by
    rw [← write_headTerm]
    exact (Term.printableWritten (readable_headTerm fits.readable)).text
  intro member
  rcases List.mem_append.mp member with inHead | member
  · exact printable.not_mem control inHead
  rcases List.mem_cons.mp member with colon | member
  · rw [colon] at control
    contradiction
  rcases List.mem_cons.mp member with tab | inWeight
  · exact noTab tab
  · rw [(fits.visible c inWeight).1] at blank
    contradiction

end Answer.Fits

/-! Rows. -/

theorem startsWithAny_problog {text rest : List Char} (starts : text = 'p' :: rest) :
    (Diagnostics.ofEngine .problog).isWarning text = false ∧
      (Diagnostics.ofEngine .problog).isError text = false := by
  subst starts
  exact ⟨Diagnostics.startsWithAny_cons (by decide) (by decide) rest,
    Diagnostics.startsWithAny_cons (by decide) (by decide) rest⟩

theorem lines_encode_cons (fits : answer.Fits columns) :
    lines (encode (answer :: answers)) = answer.line :: lines (encode answers) := by
  have noFeed := fits.not_mem_line (c := '\n') (by decide) (by decide) (by decide)
  have noReturn := fits.not_mem_line (c := '\r') (by decide) (by decide) (by decide)
  rw [encode, List.flatMap_cons, List.append_assoc, List.singleton_append, lines_append noFeed,
    dropReturn_of_not_mem noReturn]
  rfl

theorem rows_line (fits : answer.Fits columns) (others : List (List Char)) :
    rows (.ofEngine .problog) columns (answer.line :: others) =
      (rows (.ofEngine .problog) columns others).map (answer.row columns :: ·) := by
  obtain ⟨rest, starts⟩ := answer.exists_line_eq_cons
  obtain ⟨noWarning, noError⟩ := startsWithAny_problog starts
  have some : answer.line.isEmpty = false := by
    rw [starts]
    rfl
  simp only [rows, fits.trim_line, some, noWarning, noError, fits.row_line]
  cases rows (.ofEngine .problog) columns others <;> rfl

theorem rows_encode (fits : ∀ answer ∈ answers, answer.Fits columns) :
    rows (.ofEngine .problog) columns (lines (encode answers)) =
      .ok (answers.map (Answer.row columns)) := by
  induction answers with
  | nil => rfl
  | cons answer answers induction =>
      obtain ⟨first, others⟩ := List.forall_mem_cons.mp fits
      rw [lines_encode_cons first, rows_line first, induction others]
      rfl

theorem decode_encode (fits : ∀ answer ∈ answers, answer.Fits columns) (policy : Policy) :
    decode (String.ofList (encode answers)) columns (.ofEngine .problog) policy =
      .ofRows columns (answers.map (Answer.row columns)) .meanProbabilityOne policy := by
  rw [decode, String.toList_ofList, rows_encode fits]

/-- The lines of any answers are decoded as rows with the terms and probabilities of exactly
these answers. -/
theorem decode_answers (fits : ∀ answer ∈ answers, answer.Fits columns) (policy : Policy) :
    ∃ solution,
      decode (String.ofList (encode answers)) columns (.ofEngine .problog) policy = solution ∧
      solution.failure? = none ∧ solution.columns = columns ∧
      solution.rows = answers.map (Answer.row columns) :=
  ⟨_, decode_encode fits policy, rfl, rfl, rfl⟩

def colonAnswers : List Answer := [
  ⟨[.atom "a:\t1.0"], "0.5".toList, 0.5⟩,
  ⟨[.atom ":-"], "0.5".toList, 0.5⟩]

theorem decode_colonAnswers :
    ∃ solution,
      decode (String.ofList (encode colonAnswers)) ["X"] (.ofEngine .problog) .problog =
        solution ∧
      solution.failure? = none ∧ solution.columns = ["X"] ∧
      solution.rows = colonAnswers.map (Answer.row ["X"]) := by
  have half : Number.ofDecimal false ⟨5, -1⟩ = 0.5 := by decide +kernel
  have unit : (0.0 : Float) ≤ 0.5 ∧ (0.5 : Float) ≤ 1.0 := by decide +kernel
  have one : ∀ name, name ≠ "[]" →
      Answer.Fits ["X"] ⟨[.atom name], "0.5".toList, 0.5⟩ := by
    intro name proper
    refine ⟨rfl, ?_, ?_, congrArg some half, unit⟩
    · intro term member
      rw [List.mem_singleton.mp member]
      exact .atom proper
    · intro term member
      rw [List.mem_singleton.mp member]
      change 1 ≤ 255
      decide
  apply decode_answers
  intro answer member
  rcases List.mem_pair.mp member with first | second
  · rw [first]
    exact one _ (by decide)
  · rw [second]
    exact one _ (by decide)

end HornQuery.Weighted
