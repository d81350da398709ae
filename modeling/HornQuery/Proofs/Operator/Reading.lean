import HornQuery.Proofs.Operator.Expression
import HornQuery.Proofs.Term.RoundTrip

namespace HornQuery.Expression

open Term

/-- The bound up to which the last operand of an expression would go on taking in operators. -/
def reach : Expression → Nat
  | .leaf _ _ => 0
  | .joined _ operator _ _ _ => operator.rightBound
  | .prefixed _ operator _ _ => operator.fixity.bound operator.priority

def operandPriority (bound priority : Nat) : Nat :=
  if bound < priority then 0 else priority

def operandReach (bound priority reach : Nat) : Nat :=
  if bound < priority then 0 else reach

/-- The expression as an operand that was read, in brackets or not. -/
def asOperand (bound : Nat) (expression : Expression) : Operand :=
  ⟨expression.term, operandPriority bound expression.priority⟩

/-! Bounds. -/

theorem priority_le (expression : Expression) : expression.priority ≤ clauseBound := by
  cases expression with
  | leaf term plain => exact Nat.zero_le _
  | joined name operator listed left right => exact InfixOperator.priority_le listed
  | prefixed name operator listed operand => exact PrefixOperator.priority_le listed

theorem reach_le_priority (expression : Expression) :
    expression.reach ≤ expression.priority := by
  cases expression with
  | leaf term plain => exact Nat.le_refl _
  | joined name operator listed left right => exact operator.rightBound_le
  | prefixed name operator listed operand => exact operator.fixity.bound_le _

theorem depth_pos (expression : Expression) : 0 < expression.depth := by
  cases expression with
  | leaf term plain => exact term.height_pos
  | joined name operator listed left right =>
      rw [depth]
      omega
  | prefixed name operator listed operand =>
      rw [depth]
      omega

theorem operandPriority_le (bound priority : Nat) : operandPriority bound priority ≤ bound := by
  unfold operandPriority
  split <;> omega

theorem operandReach_le {bound priority reach : Nat} (within : reach ≤ priority) :
    operandReach bound priority reach ≤ bound := by
  unfold operandReach
  split <;> omega

theorem operandDepth_pos {bound priority depth : Nat} (positive : 0 < depth) :
    0 < operandDepth bound priority depth := by
  unfold operandDepth
  split <;> omega

/-- The operand on the left of an operator ends before it. -/
theorem operandReach_lt (left : Expression) {name : String} {operator : InfixOperator}
    (listed : infixOperator? name = some operator) :
    operandReach operator.leftBound left.priority left.reach < operator.priority := by
  have positive := InfixOperator.priority_pos listed
  unfold operandReach
  split
  case isTrue => exact positive
  case isFalse bare =>
    have fits := Nat.not_lt.mp bare
    cases left with
    | leaf term plain => exact positive
    | joined name inner found left right => exact InfixOperator.rightBound_lt found listed fits
    | prefixed name inner found operand => exact PrefixOperator.bound_lt found listed fits

/-! Reading through. -/

def countFrom (taken : Nat) (result : Except ReadError (Operand × Nat)) :
    Except ReadError (Operand × Nat) :=
  result.map fun found => (found.1, taken + found.2)

theorem countFrom_countFrom (first second : Nat) (result : Except ReadError (Operand × Nat)) :
    countFrom first (countFrom second result) = countFrom (first + second) result := by
  cases result with
  | error cause => rfl
  | ok found => simp [countFrom, Except.map, Nat.add_assoc]

theorem countFrom_cons (first : Token) (others : List Token)
    (result : Except ReadError (Operand × Nat)) :
    (do let found ← result
        .ok (found.1, 1 + others.length + found.2)) =
      countFrom (first :: others).length result := by
  cases result with
  | error cause => rfl
  | ok found => simp [countFrom, Except.map, bind, Except.bind, Nat.add_comm]

/-- Reading the tokens is continuing with the operand behind them. -/
def ReadsThrough (size depth reach : Nat) (operand : Operand) (tokens : List Token) : Prop :=
  ∀ levels bound rest, operand.priority ≤ bound → Stops reach rest →
    ReadsAs (depth ≤ levels + 1) (readOperand size (levels + 1) bound (tokens ++ rest))
      (countFrom tokens.length (readInfix (readOperand size levels) bound operand rest))

section

variable {size depth reach : Nat} {operand : Operand} {tokens : List Token}

theorem ReadsThrough.reads (through : ReadsThrough size depth reach operand tokens)
    (positive : 0 < depth) {levels bound : Nat} {rest : List Token}
    (fits : operand.priority ≤ bound) (within : reach ≤ bound) (stops : Stops bound rest) :
    ReadsIf (depth ≤ levels) (readOperand size levels bound (tokens ++ rest))
      (operand, tokens.length) := by
  cases levels with
  | zero =>
      constructor
      · intro shallow
        omega
      · intro _
        exact ⟨_, rfl⟩
  | succ levels =>
      have read := through levels bound rest fits (Stops.mono stops within)
      rw [readInfix_of_stops stops] at read
      exact read

theorem readsThrough_of_primary {first : Token} {others : List Token}
    (primary : ∀ levels bound rest, operand.priority ≤ bound → Stops reach rest →
      ReadsIf (depth ≤ levels + 1)
        (readPrimary size (readOperand size levels) bound first (others ++ rest))
        (operand, others.length)) :
    ReadsThrough size depth reach operand (first :: others) := by
  intro levels bound rest fits stops
  rw [readOperand, List.cons_append, readLevel]
  rw [← countFrom_cons]
  have read := (primary levels bound rest fits stops).bind fun found => do
    let result ← readInfix (readOperand size levels) bound found.1
      ((others ++ rest).drop found.2)
    .ok (result.1, 1 + found.2 + result.2)
  simp only [List.drop_left] at read
  exact read

/-! Operands. -/

theorem readsThrough_leaf {term : Term} (plain : OperandTerm term)
    (spelled : Spells tokens term) : ReadsThrough size term.height 0 ⟨term, 0⟩ tokens := by
  obtain ⟨first, others, nonempty⟩ := List.exists_cons_of_ne_nil spelled.ne_nil
  subst nonempty
  apply readsThrough_of_primary
  intro levels bound rest _ stops
  apply readPrimary_spelled size bound (readsTerms_readOperand size levels) spelled
    stops.noArguments
  intro name same
  exact Or.inl (plain.noPrefix name (by rw [same]; rfl))

theorem stops_closing {closing : Token} (closes : closing.kind = .punctuation ')')
    (bound : Nat) (rest : List Token) : Stops bound (closing :: rest) :=
  stops_of_ends (ends_closing closes (by decide) bound rest)

/-- A term in brackets is read at their level whatever is read of it inside. -/
theorem readsThrough_enclosed {opening closing : Token}
    (inside : ∀ levels rest, ReadsIf (depth ≤ levels)
      (readOperand size levels clauseBound (tokens ++ closing :: rest)) (operand, tokens.length))
    (opens : opening.kind = .punctuation '(') (closes : closing.kind = .punctuation ')') :
    ReadsThrough size (depth + 1) 0 ⟨operand.term, 0⟩ (opening :: (tokens ++ [closing])) := by
  apply readsThrough_of_primary
  intro levels bound rest _ _
  have whole : tokens ++ [closing] ++ rest = tokens ++ closing :: rest := by simp
  have bracketed : ReadsIf (depth ≤ levels)
      (readBracketed size ')' (readOperand size levels) (tokens ++ closing :: rest))
      (operand.term, tokens.length + 1) := by
    apply (inside levels rest).bind_ok
    simp [expectMark_of_kind size closes, bind, Except.bind]
  unfold readPrimary
  simp only [opens, whole, List.length_append, List.length_singleton]
  rw [if_pos trivial]
  refine ReadsAs.congr (bracketed.bind_ok ?_) Nat.add_le_add_iff_right.symm
  rfl

theorem readsThrough_bracketed {opening closing : Token}
    (through : ReadsThrough size depth reach operand tokens) (positive : 0 < depth)
    (fits : operand.priority ≤ clauseBound) (within : reach ≤ clauseBound)
    (opens : opening.kind = .punctuation '(') (closes : closing.kind = .punctuation ')') :
    ReadsThrough size (depth + 1) 0 ⟨operand.term, 0⟩ (opening :: (tokens ++ [closing])) :=
  readsThrough_enclosed
    (fun _ rest => through.reads positive fits within (stops_closing closes clauseBound rest))
    opens closes

theorem readsThrough_operand {expression : Expression} {bound : Nat}
    (through : ∀ {tokens}, expression.Spelled tokens →
      ReadsThrough size expression.depth expression.reach
        ⟨expression.term, expression.priority⟩ tokens)
    (isOperand : SpelledOperand bound expression.priority expression.Spelled tokens) :
    ReadsThrough size (operandDepth bound expression.priority expression.depth)
      (operandReach bound expression.priority expression.reach) (expression.asOperand bound)
      tokens := by
  unfold SpelledOperand at isOperand
  unfold operandDepth operandReach asOperand operandPriority
  split at isOperand
  case isTrue exceeds =>
    obtain ⟨opening, closing, inside, opens, isSpelled, closes, same⟩ := isOperand
    rw [if_pos exceeds, if_pos exceeds, if_pos exceeds, same]
    exact readsThrough_bracketed (through isSpelled) expression.depth_pos expression.priority_le
      (Nat.le_trans expression.reach_le_priority expression.priority_le) opens closes
  case isFalse bare =>
    rw [if_neg bare, if_neg bare, if_neg bare]
    exact through isOperand

end

/-! One operator with its operands. -/

theorem stops_sign {name : String} {operator : InfixOperator} {sign : Token} {bound : Nat}
    (listed : infixOperator? name = some operator) (isInfix : IsInfix name sign)
    (weaker : bound < operator.priority) (rest : List Token) : Stops bound (sign :: rest) := by
  constructor
  · simp [argumentsFollow, isInfix.2]
  · intro token found other next named found'
    cases found
    rw [isInfix.1] at named
    cases named
    rw [listed] at found'
    cases found'
    exact weaker

section

variable {name : String} {sign : Token} {latter rest : List Token} {fits : Prop} {bound : Nat}
  {reader : OperandReader}

theorem readInfix_sign {operator : InfixOperator} {left right : Operand}
    (listed : infixOperator? name = some operator) (isInfix : IsInfix name sign)
    (strong : operator.priority ≤ bound) (leftFits : left.priority ≤ operator.leftBound)
    (reads : ReadsIf fits (reader operator.rightBound (latter ++ rest)) (right, latter.length)) :
    ReadsAs fits (readInfix reader bound left (sign :: latter ++ rest))
      (countFrom (sign :: latter).length
        (readInfix reader bound ⟨.compound name [left.term, right.term], operator.priority⟩
          rest)) := by
  have joins : joining? bound left sign = some (name, operator) := by
    have fits : ¬(bound < operator.priority ∨ operator.leftBound < left.priority) := by omega
    simp [joining?, isInfix.1, listed, fits]
  have read := reads.bind fun found => do
    let result ← readInfix reader bound
      ⟨.compound name [left.term, found.1.term], operator.priority⟩
      ((latter ++ rest).drop found.2)
    .ok (result.1, 1 + found.2 + result.2)
  simp only [List.drop_left] at read
  rw [List.cons_append, readInfix_cons, joins, ← countFrom_cons]
  exact read

theorem readPrimary_prefixed {operator : PrefixOperator} {argument : Operand} (size : Nat)
    (listed : prefixOperator? name = some operator) (isName : sign.kind = .name name)
    (strong : operator.priority ≤ bound) (some : latter ≠ [])
    (spaced : ∀ first ∈ latter.head?, first.layoutBefore = true)
    (follows : operandFollows (latter ++ rest) = true)
    (reads : ReadsIf fits
      (reader (operator.fixity.bound operator.priority) (latter ++ rest))
      (argument, latter.length)) :
    ReadsIf fits (readPrimary size reader bound sign (latter ++ rest))
      (⟨.compound name [argument.term], operator.priority⟩, latter.length) := by
  obtain ⟨first, others, nonempty⟩ := List.exists_cons_of_ne_nil some
  have apart : first.layoutBefore = true := spaced first (by rw [nonempty]; rfl)
  have noArguments : argumentsFollow (latter ++ rest) = false := by
    simp [nonempty, argumentsFollow, apart]
  have noNegative : (if name = "-" then readNegative? (latter ++ rest) else none) = none := by
    simp [nonempty, readNegative?, apart]
  unfold readPrimary
  simp only [isName]
  rw [readName, noNegative, noArguments, follows]
  simp only [Bool.false_eq_true, if_false, if_true, listed, Nat.min_eq_left strong]
  exact reads.bind_ok rfl

end

section

variable {name : String} {sign : Token} {former latter : List Token} {left right : Operand}
  {size depth rightDepth reach rightReach : Nat}

theorem ReadsThrough.joined {operator : InfixOperator}
    (leftThrough : ReadsThrough size depth reach left former)
    (rightThrough : ReadsThrough size rightDepth rightReach right latter)
    (listed : infixOperator? name = some operator) (isInfix : IsInfix name sign)
    (leftFits : left.priority ≤ operator.leftBound) (leftWithin : reach < operator.priority)
    (positive : 0 < rightDepth) (rightFits : right.priority ≤ operator.rightBound)
    (rightWithin : rightReach ≤ operator.rightBound) :
    ReadsThrough size (max depth (rightDepth + 1)) operator.rightBound
      ⟨.compound name [left.term, right.term], operator.priority⟩ (former ++ sign :: latter) := by
  intro levels bound rest fits stops
  -- The read of the left operand goes on with the sign, which has to fit its bound.
  have leftRead := leftThrough levels bound (sign :: latter ++ rest)
    (Nat.le_trans leftFits (Nat.le_trans operator.leftBound_le fits))
    (stops_sign listed isInfix leftWithin _)
  have rightRead : ReadsIf (rightDepth ≤ levels) _ _ :=
    rightThrough.reads positive rightFits rightWithin stops
  have signRead := readInfix_sign listed isInfix fits leftFits rightRead
  rw [List.append_assoc, List.length_append, ← countFrom_countFrom]
  refine ReadsAs.congr (leftRead.trans fun _ => signRead.map _) ?_
  rw [Nat.max_le, Nat.add_le_add_iff_right]

theorem ReadsThrough.prefixed {operator : PrefixOperator}
    (through : ReadsThrough size rightDepth rightReach right latter)
    (listed : prefixOperator? name = some operator) (isName : sign.kind = .name name)
    (spaced : ∀ first ∈ latter.head?, first.layoutBefore = true)
    (follows : ∀ rest, operandFollows (latter ++ rest) = true)
    (positive : 0 < rightDepth)
    (rightFits : right.priority ≤ operator.fixity.bound operator.priority)
    (rightWithin : rightReach ≤ operator.fixity.bound operator.priority) :
    ReadsThrough size (rightDepth + 1) (operator.fixity.bound operator.priority)
      ⟨.compound name [right.term], operator.priority⟩ (sign :: latter) := by
  have some : latter ≠ [] := by
    rintro rfl
    have none := follows []
    cases none
  apply readsThrough_of_primary
  intro levels bound rest fits stops
  have read : ReadsIf (rightDepth ≤ levels) _ _ :=
    through.reads positive rightFits rightWithin stops
  have primary := readPrimary_prefixed size listed isName fits some spaced (follows rest) read
  exact ReadsAs.congr primary Nat.add_le_add_iff_right.symm

end

theorem operandFollows_of_operand {spelled : List Token → Prop} {bound priority : Nat}
    (bare : ∀ {tokens}, spelled tokens → ∀ rest, operandFollows (tokens ++ rest) = true)
    {tokens : List Token} (isOperand : SpelledOperand bound priority spelled tokens)
    (rest : List Token) : operandFollows (tokens ++ rest) = true := by
  unfold SpelledOperand at isOperand
  split at isOperand
  case isTrue =>
    obtain ⟨opening, closing, inside, opens, _, _, whole⟩ := isOperand
    rw [whole]
    simp [operandFollows, opens]
  case isFalse => exact bare isOperand rest

/-- What an expression starts with can be an operand of a prefix operator. -/
theorem operandFollows_of_spelled {expression : Expression} {tokens : List Token}
    (spelled : expression.Spelled tokens) (rest : List Token) :
    operandFollows (tokens ++ rest) = true := by
  induction expression generalizing tokens rest with
  | leaf term plain =>
      have starts : ∀ name, term.functor? = some name → infixOperator? name = none :=
        plain.noInfix
      have minus : (prefixOperator? "-").isSome = true := by decide
      cases spelled with
      | name kind => simp [operandFollows, kind, starts _ rfl]
      | functional plain kind =>
          rcases kind with named | quoted
          · simp [operandFollows, named, starts _ rfl]
          · simp [operandFollows, quoted]
      | negativeInteger sign => simp [operandFollows, sign, minus]
      | negativeFloat sign => simp [operandFollows, sign, minus]
      | quoted kind => simp [operandFollows, kind]
      | integer kind => simp [operandFollows, kind]
      | float kind => simp [operandFollows, kind]
      | var kind => simp [operandFollows, kind]
      | noBraces opens => simp [operandFollows, opens]
      | braces opens => simp [operandFollows, opens]
      | noItems opens => simp [operandFollows, opens]
      | list opens => simp [operandFollows, opens]
      | cells opens => simp [operandFollows, opens]
  | joined name operator listed left right induction _ =>
      obtain ⟨former, latter, isLeft, _, same⟩ := spelled
      rw [same, List.append_assoc]
      exact operandFollows_of_operand induction isLeft _
  | prefixed name operator listed operand _ =>
      obtain ⟨sign, others, isName, _, _, same⟩ := spelled
      rw [same]
      simp [operandFollows, isName, listed]

/-! Whole expressions. -/

theorem readsThrough (size : Nat) (expression : Expression) {tokens : List Token}
    (spelled : expression.Spelled tokens) :
    ReadsThrough size expression.depth expression.reach ⟨expression.term, expression.priority⟩
      tokens := by
  induction expression generalizing tokens with
  | leaf term plain => exact readsThrough_leaf plain spelled
  | joined name operator listed left right leftInduction rightInduction =>
      obtain ⟨former, latter, isLeft, signed, same⟩ := spelled
      obtain ⟨sign, others, isInfix, isRight, _, whole⟩ := signed
      rw [same, whole]
      exact (readsThrough_operand leftInduction isLeft).joined
        (readsThrough_operand rightInduction isRight) listed isInfix
        (operandPriority_le operator.leftBound left.priority) (left.operandReach_lt listed)
        (operandDepth_pos right.depth_pos) (operandPriority_le _ _)
        (operandReach_le right.reach_le_priority)
  | prefixed name operator listed operand induction =>
      obtain ⟨sign, others, isName, isOperand, spaced, same⟩ := spelled
      rw [same]
      exact (readsThrough_operand induction isOperand).prefixed listed isName spaced
        (operandFollows_of_operand operandFollows_of_spelled isOperand)
        (operandDepth_pos operand.depth_pos) (operandPriority_le _ _)
        (operandReach_le operand.reach_le_priority)

theorem readsIf_parse (expression : Expression) :
    ReadsIf (expression.depth ≤ maxDepth) (parse expression.text) expression.term := by
  obtain ⟨tokens, spelled, scanned⟩ :=
    (expression.scansAs_write [] Token.delimited_nil).scan_eq
  have letters : expression.text.toList = expression.write := String.toList_ofList
  rw [← letters] at scanned
  rw [parse_eq_ofTokens scanned]
  generalize Text.byteLength expression.text.toList = size
  have read : ReadsIf (expression.depth ≤ maxDepth)
      (readOperand size maxDepth clauseBound (tokens ++ [])) _ :=
    (expression.readsThrough size spelled).reads expression.depth_pos expression.priority_le
      (Nat.le_trans expression.reach_le_priority expression.priority_le)
      (stops_of_ends (ends_nil clauseBound))
  rw [List.append_nil] at read
  exact readsIf_ofTokens (expression.spelling.ne_nil tokens spelled) read

/-- The text of an expression is read as the expression, an operator being a compound of its
operands, as long as no more than `maxDepth` reads are nested. -/
theorem parse_expression (expression : Expression) :
    (expression.depth ≤ maxDepth → parse expression.text = .ok expression.term) ∧
      (maxDepth < expression.depth → ∃ position, parse expression.text =
        .error (.syntaxFault (SyntaxFault.nestedTooDeep maxDepth).reason position)) :=
  ⟨expression.readsIf_parse.same, fun deep =>
    expression.readsIf_parse.deep (Nat.not_le.mpr deep)⟩

def number (value : Int64) : Expression :=
  .leaf (.integer value) ⟨.integer value, nofun, nofun⟩

def difference (left right : Expression) : Expression :=
  .joined "-" ⟨500, .yfx⟩ (by decide) left right

/-- Brackets stand on the right of a difference only. -/
example : (difference (difference (number 1) (number 2))
    (difference (number 3) (number (-4)))).text = "1 - 2 - (3 - -4)" := by
  decide +kernel

end HornQuery.Expression
