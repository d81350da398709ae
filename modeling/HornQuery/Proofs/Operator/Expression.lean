import HornQuery.Proofs.Operator.Table
import HornQuery.Proofs.Term.Reading

namespace HornQuery

/-- The readable terms that start with no operator. -/
structure OperandTerm (term : Term) : Prop where
  readable : term.Readable
  noInfix : ∀ name, term.functor? = some name → infixOperator? name = none
  noPrefix : ∀ name, term.functor? = some name → prefixOperator? name = none

inductive Expression where
  | leaf (term : Term) (plain : OperandTerm term)
  | joined (name : String) (operator : InfixOperator)
      (listed : infixOperator? name = some operator) (left right : Expression)
  | prefixed (name : String) (operator : PrefixOperator)
      (listed : prefixOperator? name = some operator) (operand : Expression)

namespace Expression

def term : Expression → Term
  | .leaf term _ => term
  | .joined name _ _ left right => .compound name [left.term, right.term]
  | .prefixed name _ _ operand => .compound name [operand.term]

def priority : Expression → Nat
  | .leaf _ _ => 0
  | .joined _ operator _ _ _ => operator.priority
  | .prefixed _ operator _ _ => operator.priority

/-- An operand, in brackets exactly when its priority exceeds the bound. -/
def writeOperand (bound priority : Nat) (text : List Char) : List Char :=
  if bound < priority then '(' :: (text ++ [')']) else text

def write : Expression → List Char
  | .leaf term _ => term.write
  | .joined name operator _ left right =>
      writeOperand operator.leftBound left.priority left.write ++
        ' ' :: (name.toList ++
          ' ' :: writeOperand operator.rightBound right.priority right.write)
  | .prefixed name operator _ operand =>
      name.toList ++
        ' ' :: writeOperand (operator.fixity.bound operator.priority) operand.priority
          operand.write

def text (expression : Expression) : String :=
  String.ofList expression.write

/-! How many reads are nested: brackets and right operands are read by a read of their own, a
left operand by the read that goes on with its operator. -/

def operandDepth (bound priority depth : Nat) : Nat :=
  if bound < priority then depth + 1 else depth

def depth : Expression → Nat
  | .leaf term _ => term.height
  | .joined _ operator _ left right =>
      max (operandDepth operator.leftBound left.priority left.depth)
        (operandDepth operator.rightBound right.priority right.depth + 1)
  | .prefixed _ operator _ operand =>
      operandDepth (operator.fixity.bound operator.priority) operand.priority operand.depth + 1

/-! The tokens of an expression. -/

def SpelledOperand (bound priority : Nat) (spelled : List Token → Prop) (tokens : List Token) :
    Prop :=
  if bound < priority then
    ∃ (opening closing : Token) (inside : List Token), opening.kind = .punctuation '(' ∧
      spelled inside ∧ closing.kind = .punctuation ')' ∧ tokens = opening :: (inside ++ [closing])
  else spelled tokens

/-- An operator and then an operand that does not touch it. -/
def SpelledAfter (isSign : Token → Prop) (spelled : List Token → Prop) (tokens : List Token) :
    Prop :=
  ∃ (sign : Token) (others : List Token), isSign sign ∧ spelled others ∧
    (∀ first ∈ others.head?, first.layoutBefore = true) ∧ tokens = sign :: others

def Spelled : Expression → List Token → Prop
  | .leaf term _, tokens => Term.Spells tokens term
  | .joined name operator _ left right, tokens =>
      ∃ former latter : List Token,
        SpelledOperand operator.leftBound left.priority left.Spelled former ∧
        SpelledAfter (IsInfix name)
          (SpelledOperand operator.rightBound right.priority right.Spelled) latter ∧
        tokens = former ++ latter
  | .prefixed name operator _ operand, tokens =>
      SpelledAfter (fun sign => sign.kind = .name name)
        (SpelledOperand (operator.fixity.bound operator.priority) operand.priority
          operand.Spelled) tokens

end Expression

/-! White space before tokens does not change what they spell. -/

theorem Term.Spells.afterLayout {tokens : List Token} {term : Term}
    (spelled : Term.Spells tokens term) : Term.Spells (Token.afterLayout tokens) term := by
  cases spelled with
  | name kind => exact .name kind
  | quoted kind => exact .quoted kind
  | noBraces opens closes => exact .noBraces opens closes
  | integer kind small => exact .integer kind small
  | negativeInteger minus kind touches small => exact .negativeInteger minus kind touches small
  | float kind => exact .float kind
  | negativeFloat minus kind touches => exact .negativeFloat minus kind touches
  | var kind => exact .var kind
  | functional plain kind opens touches all closes =>
      exact .functional plain kind opens touches all closes
  | noItems opens closes => exact .noItems opens closes
  | list opens all closes => exact .list opens all closes
  | cells opens only continued closes => exact .cells opens only continued closes
  | braces opens only closes => exact .braces opens only closes

namespace Expression

/-- Tokens that spell something: at least one, and none the less for white space before them. -/
structure Spelling (spelled : List Token → Prop) : Prop where
  ne_nil : ∀ tokens, spelled tokens → tokens ≠ []
  afterLayout : ∀ tokens, spelled tokens → spelled (Token.afterLayout tokens)

theorem spelling_operand {spelled : List Token → Prop} (spelling : Spelling spelled)
    (bound priority : Nat) : Spelling (SpelledOperand bound priority spelled) := by
  unfold SpelledOperand
  split
  case isTrue =>
    constructor
    · intro tokens enclosed
      obtain ⟨opening, closing, inside, _, _, _, same⟩ := enclosed
      rw [same]
      exact List.cons_ne_nil _ _
    · intro tokens enclosed
      obtain ⟨opening, closing, inside, opens, isSpelled, closes, same⟩ := enclosed
      rw [same]
      exact ⟨{ opening with layoutBefore := true }, closing, inside, opens, isSpelled, closes, rfl⟩
  case isFalse => exact spelling

theorem spelling_after {isSign : Token → Prop}
    (regardless : ∀ sign, isSign sign → isSign { sign with layoutBefore := true })
    (spelled : List Token → Prop) : Spelling (SpelledAfter isSign spelled) := by
  constructor
  · intro tokens signed
    obtain ⟨sign, others, _, _, _, same⟩ := signed
    rw [same]
    exact List.cons_ne_nil _ _
  · intro tokens signed
    obtain ⟨sign, others, isName, isOperand, spaced, same⟩ := signed
    rw [same]
    exact ⟨{ sign with layoutBefore := true }, others, regardless sign isName, isOperand, spaced,
      rfl⟩

theorem spelling (expression : Expression) : Spelling expression.Spelled := by
  induction expression with
  | leaf term plain =>
      exact ⟨fun tokens spelled => spelled.ne_nil, fun tokens spelled => spelled.afterLayout⟩
  | joined name operator listed left right induction _ =>
      have former := spelling_operand induction operator.leftBound left.priority
      constructor
      · intro tokens spelled
        obtain ⟨before, after, isLeft, _, same⟩ := spelled
        rw [same]
        exact List.append_ne_nil_of_left_ne_nil (former.ne_nil before isLeft) after
      · intro tokens spelled
        obtain ⟨before, after, isLeft, isRight, same⟩ := spelled
        obtain ⟨token, others, nonempty⟩ :=
          List.exists_cons_of_ne_nil (former.ne_nil before isLeft)
        refine ⟨Token.afterLayout before, after, former.afterLayout before isLeft, isRight, ?_⟩
        rw [same, nonempty]
        rfl
  | prefixed name operator listed operand _ =>
      exact spelling_after (fun _ kind => kind) _

/-! Scanning what is written. -/

def ScansAs (text : List Char) (spelled : List Token → Prop) : Prop :=
  ∀ rest, Token.Delimited rest → Token.Scans text rest spelled

theorem scansAs_operand {text : List Char} {spelled : List Token → Prop}
    (scans : ScansAs text spelled) (bound priority : Nat) :
    ScansAs (writeOperand bound priority text) (SpelledOperand bound priority spelled) := by
  unfold writeOperand SpelledOperand
  split
  case isTrue =>
    intro rest _
    have inside := scans (')' :: rest) (Token.delimited_cons (by decide) rest)
    apply ((inside.beforeMark (by decide)).afterMark (by decide)).imp
    intro tokens marked
    obtain ⟨opening, others, opens, _, ⟨inner, closing, isSpelled, closes, same⟩, whole⟩ := marked
    exact ⟨opening, closing, inner, opens, isSpelled, closes, by rw [whole, same]⟩
  case isFalse => exact scans

theorem scans_after {name right rest : List Char} {isSign : Token → Prop}
    {spelled : List Token → Prop} (spelling : Spelling spelled)
    (sign : ∀ rest, Token.Delimited rest →
      Token.Scans name rest fun tokens => ∃ token, isSign token ∧ tokens = [token])
    (operand : Token.Scans right rest spelled) :
    Token.Scans (name ++ ' ' :: right) rest (SpelledAfter isSign spelled) := by
  apply (sign _ (Token.delimited_cons (by decide) _)).append (operand.space spelling.ne_nil)
  intro former latter isToken isSpelled
  obtain ⟨token, isSign, single⟩ := isToken
  obtain ⟨others, isOthers, same⟩ := isSpelled
  refine ⟨token, latter, isSign, ?_, ?_, ?_⟩
  · rw [same]
    exact spelling.afterLayout others isOthers
  · rw [same]
    obtain ⟨head, tail, nonempty⟩ := List.exists_cons_of_ne_nil (spelling.ne_nil others isOthers)
    rw [nonempty]
    intro first found
    cases found
    rfl
  · rw [single]
    rfl

theorem scansAs_write (expression : Expression) :
    ScansAs expression.write expression.Spelled := by
  induction expression with
  | leaf term plain => exact (Term.scans_written plain.readable).1
  | joined name operator listed left right leftInduction rightInduction =>
      intro rest delimited
      have before := scansAs_operand leftInduction operator.leftBound left.priority
      have after := scansAs_operand rightInduction operator.rightBound right.priority
      have spelled := spelling_operand right.spelling operator.rightBound right.priority
      have signed := scans_after spelled (fun rest => scans_infixName listed)
        (after rest delimited)
      have regardless := @spelling_after (IsInfix name) (fun _ isInfix => isInfix)
        (SpelledOperand operator.rightBound right.priority right.Spelled)
      apply (before _ (Token.delimited_cons (by decide) _)).append (signed.space regardless.ne_nil)
      intro former latter isLeft isRight
      obtain ⟨tokens, isSigned, spaced⟩ := isRight
      rw [spaced]
      exact ⟨former, Token.afterLayout tokens, isLeft, regardless.afterLayout tokens isSigned, rfl⟩
  | prefixed name operator listed operand induction =>
      intro rest delimited
      have after := scansAs_operand induction (operator.fixity.bound operator.priority)
        operand.priority
      have spelled := spelling_operand operand.spelling
        (operator.fixity.bound operator.priority) operand.priority
      have sign : ∀ rest, Token.Delimited rest → Token.Scans name.toList rest
          fun tokens => ∃ token : Token, token.kind = .name name ∧ tokens = [token] := by
        intro rest delimited
        apply (scans_prefixName listed delimited).imp
        intro tokens isToken
        obtain ⟨token, kind, _, same⟩ := isToken
        exact ⟨token, kind, same⟩
      exact scans_after spelled sign (after rest delimited)

end Expression

end HornQuery
