import HornQuery.Proofs.Goal.Brackets
import HornQuery.Proofs.Operator.Reading
import HornQuery.Proofs.Term.Nesting

namespace HornQuery

open Term Token Expression

/-- Tokens that are read as the term by a reader with the bound or a greater one. -/
structure Reads (depth bound : Nat) (term : Term) (tokens : List Token) : Prop where
  positive : 0 < depth
  starts : ∀ rest, operandFollows (tokens ++ rest) = true
  through : ∃ priority reach, priority ≤ bound ∧ reach ≤ bound ∧
    ∀ size, ReadsThrough size depth reach ⟨term, priority⟩ tokens

def ReadsArguments (depth : Nat) (args : List Term) (tokens : List Token) : Prop :=
  ∀ size levels rest, Ends argumentBound rest → startsWithMark ',' rest = false →
    ReadsIf (depth ≤ levels) (readArguments (readOperand size levels) (tokens ++ rest))
      (args, tokens.length)

section

variable {depth deeper bound : Nat} {term left right : Term} {tokens former latter : List Token}

theorem Reads.ne_nil (reads : Reads depth bound term tokens) : tokens ≠ [] := by
  rintro rfl
  cases reads.starts []

theorem Reads.mono (reads : Reads depth bound term tokens) {wider : Nat} (within : bound ≤ wider) :
    Reads depth wider term tokens := by
  obtain ⟨priority, reach, fits, reaches, through⟩ := reads.through
  exact ⟨reads.positive, reads.starts, priority, reach, Nat.le_trans fits within,
    Nat.le_trans reaches within, through⟩

theorem Reads.afterLayout (reads : Reads depth bound term tokens) :
    Reads depth bound term (Token.afterLayout tokens) := by
  obtain ⟨token, others, rfl⟩ := List.exists_cons_of_ne_nil reads.ne_nil
  obtain ⟨priority, reach, fits, reaches, through⟩ := reads.through
  refine ⟨reads.positive, reads.starts, priority, reach, fits, reaches, ?_⟩
  intro size levels bound rest strong stops
  exact (readOperand_afterLayout size (levels + 1) bound (token :: (others ++ rest))) ▸
    through size levels bound rest strong stops

theorem Reads.readsIf (reads : Reads depth bound term tokens) :
    ∃ priority, ∀ size levels rest, Stops bound rest →
      ReadsIf (depth ≤ levels) (readOperand size levels bound (tokens ++ rest))
        (⟨term, priority⟩, tokens.length) := by
  obtain ⟨priority, reach, fits, reaches, through⟩ := reads.through
  exact ⟨priority, fun size levels rest stops =>
    (through size).reads reads.positive fits reaches stops⟩

theorem reads_leaf (plain : OperandTerm term) (spelled : Spells tokens term) :
    Reads term.height 0 term tokens :=
  ⟨term.height_pos, @operandFollows_of_spelled (.leaf term plain) tokens spelled, 0, 0,
    Nat.le_refl 0, Nat.le_refl 0, fun _ => readsThrough_leaf plain spelled⟩

theorem Reads.comma {sign : Token} (first : Reads depth argumentBound left former)
    (second : Reads deeper 1000 right latter) (kind : sign.kind = .punctuation ',') :
    Reads (max depth (deeper + 1)) 1000 (.compound "," [left, right])
      (former ++ sign :: latter) := by
  have listed : infixOperator? "," = some ⟨1000, .xfy⟩ := by decide
  have isInfix : IsInfix "," sign := by
    simp [IsInfix, infixName?, Token.isMark, kind]
  obtain ⟨priority, reach, fits, reaches, through⟩ := first.through
  obtain ⟨otherPriority, otherReach, otherFits, otherReaches, otherThrough⟩ := second.through
  refine ⟨lt_max_of_lt_left first.positive, ?_, 1000, 1000, Nat.le_refl _, Nat.le_refl _, ?_⟩
  · intro rest
    rw [List.append_assoc]
    exact first.starts _
  · intro size
    exact (through size).joined (otherThrough size) listed isInfix fits (Nat.lt_succ_of_le reaches)
      second.positive otherFits otherReaches

theorem reads_enclosed {opening closing : Token} {priority : Nat}
    (inside : ∀ size levels rest, ReadsIf (depth ≤ levels)
      (readOperand size levels clauseBound (tokens ++ closing :: rest))
      (⟨term, priority⟩, tokens.length))
    (opens : opening.kind = .punctuation '(') (closes : closing.kind = .punctuation ')') :
    Reads (depth + 1) 0 term (opening :: (tokens ++ [closing])) := by
  refine ⟨Nat.succ_pos depth, ?_, 0, 0, Nat.le_refl 0, Nat.le_refl 0, ?_⟩
  · intro rest
    simp [operandFollows, opens]
  · intro size
    exact readsThrough_enclosed (inside size) opens closes

theorem Reads.bracketed {opening closing : Token} (reads : Reads depth clauseBound term tokens)
    (opens : opening.kind = .punctuation '(') (closes : closing.kind = .punctuation ')') :
    Reads (depth + 1) 0 term (opening :: (tokens ++ [closing])) := by
  obtain ⟨priority, inside⟩ := reads.readsIf
  exact reads_enclosed (fun size levels rest => inside size levels (closing :: rest)
    (stops_closing closes clauseBound rest)) opens closes

theorem Reads.prefixed {name : String} {operator : PrefixOperator} {sign : Token}
    (reads : Reads depth (operator.fixity.bound operator.priority) term tokens)
    (listed : prefixOperator? name = some operator) (isName : sign.kind = .name name) :
    Reads (depth + 1) operator.priority (.compound name [term])
      (sign :: Token.afterLayout tokens) := by
  obtain ⟨token, others, rfl⟩ := List.exists_cons_of_ne_nil reads.ne_nil
  obtain ⟨priority, reach, fits, reaches, through⟩ := reads.afterLayout.through
  have spaced : ∀ first ∈ (Token.afterLayout (token :: others)).head?,
      first.layoutBefore = true := by
    intro first found
    cases found
    rfl
  refine ⟨Nat.succ_pos depth, ?_, operator.priority, _, Nat.le_refl _,
    operator.fixity.bound_le operator.priority, ?_⟩
  · intro rest
    simp [operandFollows, isName, listed]
  · intro size
    exact (through size).prefixed listed isName spaced reads.afterLayout.starts reads.positive fits
      reaches

/-! Arguments. -/

theorem readsArguments_one (reads : Reads depth argumentBound term tokens) :
    ReadsArguments depth [term] tokens := by
  obtain ⟨priority, inside⟩ := reads.readsIf
  intro size levels rest ends last
  refine readsIf_arguments_last (inside size levels rest (stops_of_ends ends)) ?_
  rwa [List.drop_left]

theorem readsArguments_more {args : List Term} {sign : Token}
    (reads : Reads depth argumentBound term former) (kind : sign.kind = .punctuation ',')
    (others : ReadsArguments deeper args latter) :
    ReadsArguments (max depth deeper) (term :: args) (former ++ sign :: latter) := by
  obtain ⟨priority, inside⟩ := reads.readsIf
  intro size levels rest ends last
  have read := inside size levels (sign :: (latter ++ rest))
    (stops_of_ends (ends_separator kind (by decide) _))
  have whole : former ++ sign :: latter ++ rest = former ++ sign :: (latter ++ rest) := by simp
  have length : (former ++ sign :: latter).length = former.length + 1 + latter.length := by
    rw [List.length_append, List.length_cons]
    omega
  rw [whole, length]
  exact ReadsAs.congr (readsIf_arguments_more read List.drop_left
    (by simp [isMark_of_kind kind]) (others size levels rest ends last)) Nat.max_le.symm

theorem reads_functional {functor : String} {args : List Term} {head opening closing : Token}
    (arguments : ReadsArguments depth args tokens) (kind : head.kind = .name functor)
    (noInfix : infixOperator? functor = none) (opens : opening.kind = .punctuation '(')
    (touches : opening.layoutBefore = false) (closes : closing.kind = .punctuation ')') :
    Reads (depth + 1) 0 (.compound functor args) (head :: opening :: (tokens ++ [closing])) := by
  refine ⟨Nat.succ_pos depth, ?_, 0, 0, Nat.le_refl 0, Nat.le_refl 0, ?_⟩
  · intro rest
    simp [operandFollows, kind, noInfix]
  · intro size
    apply readsThrough_of_primary
    intro levels bound rest _ _
    have whole : opening :: (tokens ++ [closing]) ++ rest =
        opening :: (tokens ++ closing :: rest) := by
      simp
    have length : (opening :: (tokens ++ [closing])).length = 1 + tokens.length + 1 := by
      simp [Nat.add_comm 1]
    have follow : argumentsFollow (opening :: (tokens ++ closing :: rest)) = true := by
      simp [argumentsFollow, isMark_of_kind opens, touches]
    have inside : ReadsIf (depth ≤ levels) _ _ :=
      arguments size levels (closing :: rest) (ends_closing closes (by decide) argumentBound rest)
        (by simp [startsWithMark_of_kind closes])
    unfold readPrimary
    simp only [kind]
    rw [whole, length, readName, if_pos follow]
    refine ReadsAs.congr (inside.bind_ok ?_) Nat.add_le_add_iff_right.symm
    simp [Nat.add_comm 1, expectMark_of_kind size closes, bind, Except.bind]

end

/-! Texts. -/

/-- Text that is read as the term in front of every delimiter. -/
def Writes (depth bound : Nat) (term : Term) (text : List Char) : Prop :=
  ∀ rest, Delimited rest → Scans text rest (Reads depth bound term)

section

variable {depth deeper bound : Nat} {term left right : Term} {text latter rest : List Char}

theorem Writes.mono (writes : Writes depth bound term text) {wider : Nat} (within : bound ≤ wider) :
    Writes depth wider term text :=
  fun rest delimited => (writes rest delimited).imp fun _ reads => reads.mono within

theorem writes_leaf (plain : OperandTerm term) : Writes term.height 0 term term.write :=
  fun rest delimited => ((scans_written plain.readable).1 rest delimited).imp
    fun _ spelled => reads_leaf plain spelled

theorem scans_enclosed {spelled : List Token → Prop}
    (inside : Scans text (')' :: rest) spelled) :
    Scans ('(' :: (text ++ [')'])) rest fun tokens => ∃ opening inner closing,
      opening.kind = .punctuation '(' ∧ opening.layoutBefore = false ∧ spelled inner ∧
        closing.kind = .punctuation ')' ∧ tokens = opening :: (inner ++ [closing]) := by
  apply ((inside.beforeMark (by decide)).afterMark (by decide)).imp
  rintro tokens ⟨opening, _, opens, touches, ⟨inner, closing, isSpelled, closes, rfl⟩, rfl⟩
  exact ⟨opening, inner, closing, opens, touches, isSpelled, closes, rfl⟩

theorem Writes.bracketed (writes : Writes depth clauseBound term text) :
    Writes (depth + 1) 0 term ('(' :: (text ++ [')'])) := by
  intro rest delimited
  apply (scans_enclosed (writes (')' :: rest) (delimited_cons (by decide) rest))).imp
  rintro tokens ⟨opening, inner, closing, opens, _, reads, closes, rfl⟩
  exact reads.bracketed opens closes

/-- Tokens that are read as a term are read so between brackets. -/
theorem writes_between {inside : List Token} {priority : Nat}
    (reads : ReadsFrom (fun size levels => readOperand size levels clauseBound) depth inside
      ⟨term, priority⟩ inside.length)
    (scans : ∀ rest, Scans (text ++ [')']) rest
      (Goal.Followed (Shaped (inside.map shape)) (.punctuation ')'))) :
    Writes (depth + 1) 0 term ('(' :: (text ++ [')'])) := by
  intro rest _
  apply ((scans rest).afterMark (by decide)).imp
  rintro _ ⟨opening, _, opens, _, ⟨former, closing, shaped, closes, rfl⟩, rfl⟩
  have alike : Alike inside former := shaped
  have inner : ∀ size levels later, ReadsIf (depth ≤ levels)
      (readOperand size levels clauseBound (former ++ closing :: later))
      (⟨term, priority⟩, former.length) := by
    intro size levels later
    rw [alike.length_eq]
    apply reads.again size levels former _ alike
    intro token found
    cases found
    exact .inr closes
  exact reads_enclosed inner opens closes

theorem scans_applied {functor : String} {args : List Term} (bare : IsBare functor = true)
    (noInfix : infixOperator? functor = none)
    (inside : Scans text (')' :: rest) (ReadsArguments depth args)) :
    Scans (functor.toList ++ '(' :: (text ++ [')'])) rest
      (Reads (depth + 1) 0 (.compound functor args)) := by
  apply (scans_of_isBare bare (delimited_cons (by decide) _)).append (scans_enclosed inside)
  rintro _ _ ⟨head, kind, _, rfl⟩ ⟨opening, inner, closing, opens, touches, reads, closes, rfl⟩
  exact reads_functional reads kind noInfix opens touches closes

theorem writes_functional {functor : String} {args : List Term} (bare : IsBare functor = true)
    (noInfix : infixOperator? functor = none)
    (inside : ∀ rest, Scans text (')' :: rest) (ReadsArguments depth args)) :
    Writes (depth + 1) 0 (.compound functor args) (functor.toList ++ '(' :: (text ++ [')'])) :=
  fun rest _ => scans_applied bare noInfix (inside rest)

theorem scans_separated {first second : List Token → Prop}
    (before : Scans text (',' :: ' ' :: (latter ++ rest)) first) (after : Scans latter rest second)
    (some : ∀ tokens, second tokens → tokens ≠ []) :
    Scans (text ++ ',' :: ' ' :: latter) rest fun tokens => ∃ former sign others,
      first former ∧ sign.kind = .punctuation ',' ∧ second others ∧
        tokens = former ++ sign :: Token.afterLayout others := by
  have comma : ',' ∈ marks := by decide
  have parted : Scans text ((',' :: ' ' :: latter) ++ rest) first := before
  apply parted.append ((after.space some).afterMark comma)
  rintro former _ isFirst ⟨sign, _, kind, _, ⟨others, isSecond, rfl⟩, rfl⟩
  exact ⟨former, sign, others, isFirst, kind, isSecond, rfl⟩

theorem scans_comma (first : Writes depth argumentBound left text)
    (second : Scans latter rest (Reads deeper 1000 right)) :
    Scans (text ++ ',' :: ' ' :: latter) rest
      (Reads (max depth (deeper + 1)) 1000 (.compound "," [left, right])) := by
  apply (scans_separated (first _ (delimited_cons (by decide) _)) second
    fun _ reads => reads.ne_nil).imp
  rintro tokens ⟨former, sign, others, readsFirst, kind, readsSecond, rfl⟩
  exact readsFirst.comma readsSecond.afterLayout kind

theorem scans_prefixed {name : String} {operator : PrefixOperator}
    (listed : prefixOperator? name = some operator)
    (reads : Scans text rest (Reads depth (operator.fixity.bound operator.priority) term)) :
    Scans (name.toList ++ ' ' :: text) rest
      (Reads (depth + 1) operator.priority (.compound name [term])) := by
  apply (scans_prefixName listed (delimited_cons (by decide) _)).append
    (reads.space fun _ reads => reads.ne_nil)
  rintro _ _ ⟨sign, kind, _, rfl⟩ ⟨others, reads, rfl⟩
  exact reads.prefixed listed kind

theorem scans_arrowed {spelled : List Token → Prop} (body : Scans text rest spelled)
    (some : ∀ tokens, spelled tokens → tokens ≠ []) :
    Scans (' ' :: (":-".toList ++ ' ' :: text)) rest fun tokens => ∃ sign others,
      sign.kind = .name ":-" ∧ spelled others ∧ tokens = sign :: Token.afterLayout others := by
  have bare : IsBare ":-" = true := by decide +kernel
  have signed : Scans (":-".toList ++ ' ' :: text) rest fun tokens => ∃ sign others,
      sign.kind = .name ":-" ∧ spelled others ∧ tokens = sign :: Token.afterLayout others := by
    apply (scans_of_isBare bare (delimited_cons (by decide) _)).append (body.space some)
    rintro single latter ⟨sign, kind, _, rfl⟩ ⟨others, isBody, rfl⟩
    exact ⟨sign, others, kind, isBody, rfl⟩
  apply (signed.space fun tokens ⟨_, _, _, _, same⟩ => by simp [same]).imp
  rintro tokens ⟨_, ⟨sign, others, kind, isBody, rfl⟩, rfl⟩
  exact ⟨{ sign with layoutBefore := true }, others, kind, isBody, rfl⟩

theorem scans_argument (writes : Writes depth argumentBound term text) (rest : List Char) :
    Scans text (')' :: rest) (ReadsArguments depth [term]) :=
  (writes _ (delimited_cons (by decide) rest)).imp fun _ reads => readsArguments_one reads

theorem scans_arguments (first : Writes depth argumentBound left text)
    (second : Writes deeper argumentBound right latter) (rest : List Char) :
    Scans (text ++ ',' :: ' ' :: latter) (')' :: rest)
      (ReadsArguments (max depth deeper) [left, right]) := by
  apply (scans_separated (first _ (delimited_cons (by decide) _))
    (second _ (delimited_cons (by decide) rest)) fun _ reads => reads.ne_nil).imp
  rintro tokens ⟨former, sign, others, readsFirst, kind, readsSecond, rfl⟩
  exact readsArguments_more readsFirst kind (readsArguments_one readsSecond.afterLayout)

end

/-! Clauses. -/

section

variable {text after : List Char}

theorem Token.Scans.clause {spelled : List Token → Prop} (scans : Scans text ('.' :: after) spelled)
    (blank : ∀ c ∈ after, Text.isBlank c = true) :
    ∃ tokens token, spelled tokens ∧ token.kind = .clauseEnd ∧
      scan (text ++ '.' :: after) = .ok (tokens ++ [token]) := by
  have trail : Goal.Trail 1 ('.' :: after) :=
    @Goal.Trail.point [] after (List.forall_mem_nil _) blank
  obtain ⟨tokens, isSpelled, scanned⟩ := scans 0
  obtain ⟨ends, scannedEnds, onlyEnds, count⟩ :=
    trail.exists_ends skips_nil (0 + Text.byteLength text)
  obtain ⟨token, rfl⟩ := List.length_eq_one_iff.mp count
  rw [List.nil_append] at scannedEnds
  rw [scannedEnds] at scanned
  exact ⟨tokens, token, isSpelled, onlyEnds token List.mem_cons_self, scanned⟩

theorem readsIf_clause {term : Term} {depth : Nat} (blank : ∀ c ∈ after, Text.isBlank c = true)
    (scans : Scans text ('.' :: after) (Reads depth clauseBound term)) :
    ReadsIf (depth ≤ maxDepth) (parse (String.ofList (text ++ '.' :: after))) term := by
  obtain ⟨tokens, token, reads, isEnd, scanned⟩ := scans.clause blank
  rw [parse_ofList scanned]
  have final : Final [token] := by
    intro other found
    cases found
    exact isEnd
  obtain ⟨priority, readsIf⟩ := reads.readsIf
  exact readsIf_ofTokens_end isEnd
    (readsIf _ maxDepth [token] (stops_of_quiet final.quiet clauseBound))

end

/-! Conjunctions. -/

def conjunction (goals : List Term) (last : Term) : Term :=
  goals.foldr (fun goal rest => .compound "," [goal, rest]) last

def conjunctionText (goals : List Term) (last : List Char) : List Char :=
  goals.foldr (fun goal rest => goal.write ++ ',' :: ' ' :: rest) last

/-- A conjunction in which no goal nests deeper than the last one and the comma before it. -/
theorem scans_conjunction {depth : Nat} {goals : List Term} {last : Term} {text rest : List Char}
    (plain : ∀ goal ∈ goals, OperandTerm goal ∧ goal.height ≤ depth + 1)
    (ends : Scans text rest (Reads depth 1000 last)) :
    Scans (conjunctionText goals text) rest
      (Reads (depth + goals.length) 1000 (conjunction goals last)) := by
  induction goals with
  | nil => exact ends
  | cons goal goals induction =>
      obtain ⟨isPlain, low⟩ := plain goal List.mem_cons_self
      have others := induction fun other member => plain other (List.mem_cons_of_mem goal member)
      have both := scans_comma ((writes_leaf isPlain).mono (Nat.zero_le argumentBound)) others
      have deepest : max goal.height (depth + goals.length + 1) =
          depth + (goal :: goals).length := by
        rw [List.length_cons]
        omega
      rw [deepest] at both
      exact both

end HornQuery
