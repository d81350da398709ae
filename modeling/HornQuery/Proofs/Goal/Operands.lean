import HornQuery.Proofs.Conversion.Standard
import HornQuery.Proofs.Goal.Pieces
import HornQuery.Proofs.Operator.Reading
import HornQuery.Proofs.Term.Equality

namespace HornQuery

namespace Term

open Token

/-- A term and what is read after an infix operator are its operands, unless the term takes the
operator for an operand of its own. -/
theorem readsIf_joined {name : String} {operator : InfixOperator} {sign : Token}
    {former latter rest : List Token} {left : Term} {right : Operand} {levels bound : Nat}
    {fits : Prop} (size : Nat) (listed : infixOperator? name = some operator)
    (isInfix : IsInfix name sign) (spelled : Spells former left)
    (strong : operator.priority ≤ bound) (stops : Stops bound rest)
    (noOperand : ∀ text, left = .atom text →
      prefixOperator? text = none ∨ operandFollows (sign :: (latter ++ rest)) = false)
    (readRight : ReadsIf fits (readOperand size levels operator.rightBound (latter ++ rest))
      (right, latter.length)) :
    ReadsIf (left.height ≤ levels + 1 ∧ fits)
      (readOperand size (levels + 1) bound (former ++ sign :: (latter ++ rest)))
      (⟨.compound name [left, right.term], operator.priority⟩,
        (former ++ sign :: latter).length) := by
  obtain ⟨first, others, rfl⟩ := List.exists_cons_of_ne_nil spelled.ne_nil
  have noArguments : argumentsFollow (sign :: (latter ++ rest)) = false := by
    simp [argumentsFollow, isInfix.2]
  have readLeft := readPrimary_spelled size bound (readsTerms_readOperand size levels)
    spelled noArguments noOperand
  have readSign : ReadsAs _ (readInfix (readOperand size levels) bound ⟨left, 0⟩
      (sign :: (latter ++ rest))) _ :=
    Expression.readInfix_sign listed isInfix strong (Nat.zero_le _) readRight
  rw [readInfix_of_stops stops] at readSign
  have read := readLeft.bind fun found => do
    let result ← readInfix (readOperand size levels) bound found.1
      ((others ++ sign :: (latter ++ rest)).drop found.2)
    .ok (result.1, 1 + found.2 + result.2)
  simp only [List.drop_left] at read
  rw [Expression.countFrom_cons] at read
  rw [readOperand, List.cons_append, readLevel, List.length_append]
  exact read.trans fun _ => readSign.map _

theorem readsIf_infix {name : String} {operator : InfixOperator} {sign : Token}
    {former latter rest : List Token} {left right : Term} {levels bound : Nat} (size : Nat)
    (listed : infixOperator? name = some operator) (isInfix : IsInfix name sign)
    (leftSpelled : Spells former left) (rightSpelled : Spells latter right)
    (strong : operator.priority ≤ bound) (ends : Ends bound rest)
    (noOperand : ∀ text, left = .atom text →
      prefixOperator? text = none ∨ operandFollows (sign :: (latter ++ rest)) = false) :
    ReadsIf (max left.height (right.height + 1) ≤ levels)
      (readOperand size levels bound (former ++ sign :: (latter ++ rest)))
      (⟨.compound name [left, right], operator.priority⟩, (former ++ sign :: latter).length) := by
  cases levels with
  | zero =>
      constructor
      · intro shallow
        omega
      · intro _
        exact ⟨_, rfl⟩
  | succ levels =>
      have readRight := readsTerms_readOperand size levels rightSpelled
        (ends.mono (Nat.le_trans operator.rightBound_le strong))
      refine ReadsAs.congr (readsIf_joined size listed isInfix leftSpelled strong
        (stops_of_ends ends) noOperand readRight) ?_
      omega

theorem readOperand_infix {name : String} {operator : InfixOperator} {sign : Token}
    {former latter : List Token} {left right : Term} {levels : Nat} (size : Nat)
    (listed : infixOperator? name = some operator) (isInfix : IsInfix name sign)
    (leftSpelled : Spells former left) (rightSpelled : Spells latter right)
    (leftFits : left.height ≤ levels + 1) (rightFits : right.height ≤ levels)
    (noOperand : ∀ text, left = .atom text →
      prefixOperator? text = none ∨ operandFollows (sign :: latter) = false) :
    readOperand size (levels + 1) clauseBound (former ++ sign :: latter) =
      .ok (⟨.compound name [left, right], operator.priority⟩,
        (former ++ sign :: latter).length) := by
  have whole : latter ++ [] = latter := List.append_nil latter
  have reads : ReadsIf (max left.height (right.height + 1) ≤ levels + 1) _ _ :=
    readsIf_infix size listed isInfix leftSpelled rightSpelled (InfixOperator.priority_le listed)
      (ends_nil clauseBound) (by rwa [whole])
  rw [whole] at reads
  exact reads.same (Nat.max_le.mpr ⟨leftFits, Nat.succ_le_succ rightFits⟩)

theorem scans_operands {name : String} {operator : InfixOperator} {left right : Term}
    {rest : List Char} (listed : infixOperator? name = some operator)
    (symbols : ∀ c ∈ name.toList, Text.isSymbol c = true)
    (before : Scans left.write (name.toList ++ (right.write ++ rest)) (Spells · left))
    (stops : ∀ c ∈ (right.write ++ rest).head?, Text.isSymbol c = false)
    (after : Scans right.write rest (Spells · right)) :
    Scans (left.write ++ (name.toList ++ right.write)) rest fun tokens =>
      ∃ former sign latter, Spells former left ∧ IsInfix name sign ∧ Spells latter right ∧
        tokens = former ++ sign :: latter := by
  have signed : Scans (name.toList ++ right.write) rest fun tokens =>
      ∃ sign latter, IsInfix name sign ∧ Spells latter right ∧ tokens = sign :: latter := by
    apply (scans_symbolInfix listed symbols stops).append after
    rintro single latter ⟨sign, isInfix, rfl⟩ spelled
    exact ⟨sign, latter, isInfix, spelled, rfl⟩
  rw [← List.append_assoc] at before
  apply before.append signed
  rintro former others leftSpelled ⟨sign, latter, isInfix, rightSpelled, rfl⟩
  exact ⟨former, sign, latter, leftSpelled, isInfix, rightSpelled, rfl⟩

theorem operandFollows_of_isInfix {name : String} {operator : InfixOperator} {sign : Token}
    (listed : infixOperator? name = some operator) (isInfix : IsInfix name sign)
    (noPrefix : prefixOperator? name = none) (rest : List Token) :
    operandFollows (sign :: rest) = false := by
  obtain ⟨named, _⟩ := isInfix
  unfold infixName? at named
  split at named
  case h_1 other kind =>
    cases named
    simp [operandFollows, kind, listed, noPrefix]
  case h_2 mark kind =>
    have separator : mark = ',' ∨ mark = '|' := by
      by_contra other
      simp only [not_or] at other
      simp [other] at named
    rcases separator with comma | bar
    · simp [operandFollows, kind, comma]
    · simp [operandFollows, kind, bar]
  case h_3 => cases named

end Term

inductive Scalar : Value → Term → Prop
  | int (number : Int64) : Scalar (.int number) (.integer number)
  | float {number : Float} (isNumber : number.isNaN = false) :
      Scalar (.float number) (.float number)
  | string (text : String) : Scalar (.string text) (.atom text)

namespace Scalar

open Term

variable {value : Value} {term : Term} (scalar : Scalar value term)
include scalar

theorem toTerm_eq : Policy.standard.toTerm value = .ok term := by
  cases scalar with
  | int number => exact Policy.standard_toTerm_int number
  | float isNumber => exact Policy.standard_toTerm_float _
  | string text => exact Policy.standard_toTerm_string text

theorem height_eq : term.height = 1 := by
  cases scalar <;> rfl

theorem scans {rest : List Char} (proper : term ≠ .atom "[]")
    (parted : Token.Parted term.write rest) : Token.Scans term.write rest (Spells · term) := by
  cases scalar with
  | int number => exact scans_writeInteger number parted.ended
  | float isNumber => exact scans_writeFloat isNumber parted.ended
  | string text =>
      have other : text ≠ "[]" := fun same => proper (by rw [same])
      exact scans_writeName other parted

end Scalar

/-- What keeps two terms apart from the operator between their texts. The name of the empty list
is left out because it is read as that list. -/
structure KeptApart (name : String) (left right : Term) : Prop where
  leftProper : left ≠ .atom "[]"
  rightProper : right ≠ .atom "[]"
  before : left.write.getLast?.any Text.isSymbol = false
  after : right.write.head?.any Text.isSymbol = false
  noPrefix : ∀ text, left = .atom text → prefixOperator? text = none ∨ prefixOperator? name = none

namespace Goal

open Piece Term

/-- The goal made by filling both sides of an operator is read as the operator applied to the
terms of the values. -/
def StayOperands (name : String) (a b : Value) : Prop :=
  ∃ left right goal, Policy.standard.toTerm a = .ok left ∧ Policy.standard.toTerm b = .ok right ∧
    (Binding.ofPattern ("?" ++ name ++ "?")).goalText Policy.standard [a, b] = .ok goal ∧
    parseGoal goal = .ok (.compound name [left, right])

def between (name : String) : List (Piece Bool) :=
  .slot false :: (literal name.toList ++ [.slot true])

section

variable {name : String} {operator : InfixOperator} {a b : Value} {left right : Term}
  (listed : infixOperator? name = some operator)
include listed

theorem patternText_between : String.ofList (patternText (between name)) = "?" ++ name ++ "?" := by
  obtain ⟨first, more, text, _, noMark, _⟩ := exists_infixText listed
  rw [← text] at noMark
  have inner : patternText (between name) = '?' :: (name.toList ++ ['?']) := by
    rw [between, patternText, List.flatMap_cons, List.flatMap_append]
    exact congrArg (fun inner => '?' :: (inner ++ ['?'])) (patternText_literal noMark)
  rw [← String.toList_inj, String.toList_ofList, inner, String.toList_append, String.toList_append]
  rfl

theorem separated_between (symbols : ∀ c ∈ name.toList, Text.isSymbol c = true) :
    Separated (between name) := by
  obtain ⟨first, more, text, noPoint, noMark, _⟩ := exists_infixText listed
  rw [text] at symbols
  rw [between, text]
  have ends := Token.mem_enders_of_isSymbol (symbols first List.mem_cons_self) noPoint
  refine ⟨⟨fun mark => noMark (mark ▸ List.mem_cons_self), ?_⟩, ?_⟩
  · exact Token.isNameCharacter_of_mem_enders first ends
  · exact separated_literal_append (first :: more) ⟨trivial, trivial⟩

theorem goalText_between (symbols : ∀ c ∈ name.toList, Text.isSymbol c = true)
    (isLeft : Scalar a left) (isRight : Scalar b right) :
    (Binding.ofPattern ("?" ++ name ++ "?")).goalText Policy.standard [a, b] =
      .ok (String.ofList (left.write ++ (name.toList ++ right.write))) := by
  have labels : labels (between name) = [false, true] := by
    rw [between, labels_slot, labels_append, labels_literal]
    rfl
  have converted : ∀ label ∈ Piece.labels (between name),
      Policy.standard.toTerm (if label then b else a) = .ok (if label then right else left) := by
    intro label _
    cases label with
    | false => exact isLeft.toTerm_eq
    | true => exact isRight.toTerm_eq
  have goal := Binding.goalText_pieces (separated_between listed symbols) converted
  rw [labels, patternText_between listed] at goal
  rw [between, fill_slot, fill_append, fill_literal, fill_slot, fill_nil, List.append_nil] at goal
  exact goal

theorem scan_between (symbols : ∀ c ∈ name.toList, Text.isSymbol c = true)
    (isLeft : Scalar a left) (isRight : Scalar b right) (apart : KeptApart name left right) :
    ∃ former sign latter, Spells former left ∧ IsInfix name sign ∧ Spells latter right ∧
      Token.scan (left.write ++ (name.toList ++ right.write)) =
        .ok (former ++ sign :: latter) := by
  obtain ⟨first, more, text, noPoint, _, _⟩ := exists_infixText listed
  have parted : Token.Parted left.write (name.toList ++ right.write) := by
    rw [text] at symbols ⊢
    constructor
    · intro c found
      cases found
      exact Token.mem_enders_of_isSymbol (symbols first List.mem_cons_self) noPoint
    · rintro ⟨c, last, symbol⟩
      have noSymbol := apart.before
      rw [last, Option.any_some, symbol] at noSymbol
      exact Bool.noConfusion noSymbol
  have whole : right.write ++ [] = right.write := List.append_nil _
  have before : Token.Scans left.write (name.toList ++ (right.write ++ [])) (Spells · left) := by
    rw [whole]
    exact isLeft.scans apart.leftProper parted
  have stops : ∀ c ∈ (right.write ++ []).head?, Text.isSymbol c = false := by
    rw [whole]
    intro c found
    have noSymbol := apart.after
    rwa [found, Option.any_some] at noSymbol
  have after := isRight.scans apart.rightProper (Token.delimited_nil.parted right.write)
  obtain ⟨tokens, ⟨former, sign, latter, leftSpelled, isInfix, rightSpelled, rfl⟩, scanned⟩ :=
    (scans_operands listed symbols before stops after).scan_eq
  exact ⟨former, sign, latter, leftSpelled, isInfix, rightSpelled, scanned⟩

theorem parse_between (symbols : ∀ c ∈ name.toList, Text.isSymbol c = true)
    (isLeft : Scalar a left) (isRight : Scalar b right) (apart : KeptApart name left right) :
    parse (String.ofList (left.write ++ (name.toList ++ right.write))) =
      .ok (.compound name [left, right]) := by
  obtain ⟨former, sign, latter, leftSpelled, isInfix, rightSpelled, scanned⟩ :=
    scan_between listed symbols isLeft isRight apart
  -- An infix operator that is no prefix operator is never taken for an operand.
  have noOperand : ∀ text, left = .atom text →
      prefixOperator? text = none ∨ operandFollows (sign :: latter) = false := by
    intro text isAtom
    exact (apart.noPrefix text isAtom).imp_right fun noPrefix =>
      operandFollows_of_isInfix listed isInfix noPrefix latter
  rw [parse_ofList scanned]
  generalize Text.byteLength _ = size
  have leftFits : left.height ≤ 255 + 1 := by
    rw [isLeft.height_eq]
    decide
  have rightFits : right.height ≤ 255 := by
    rw [isRight.height_eq]
    decide
  have read := readOperand_infix size listed isInfix leftSpelled rightSpelled leftFits rightFits
    noOperand
  have reads : ReadsIf True (readOperand size maxDepth clauseBound (former ++ sign :: latter)) _ :=
    .of_eq trivial read
  exact (readsIf_ofTokens (List.append_ne_nil_of_right_ne_nil former
    (List.cons_ne_nil sign latter)) reads).same trivial

/-- Two scalars that are kept apart stay the operands of the operator between their places. -/
theorem stayOperands_of_keptApart (symbols : ∀ c ∈ name.toList, Text.isSymbol c = true)
    (isLeft : Scalar a left) (isRight : Scalar b right) (apart : KeptApart name left right) :
    StayOperands name a b := by
  refine ⟨left, right, _, isLeft.toTerm_eq, isRight.toTerm_eq,
    goalText_between listed symbols isLeft isRight, ?_⟩
  rw [parseGoal, parse_between listed symbols isLeft isRight apart]
  rfl

end

theorem stayOperands_module : StayOperands ":" (.int (-1)) (.string "mod") := by
  have listed : infixOperator? ":" = some ⟨200, .xfy⟩ := by decide
  have symbols : ∀ c ∈ ":".toList, Text.isSymbol c = true := Text.forall_mem_of_all (by decide)
  have apart : KeptApart ":" (.integer (-1)) (.atom "mod") := by
    refine ⟨nofun, fun same => absurd (Term.atom.inj same) (by decide), ?_, ?_, nofun⟩
    · decide +kernel
    · decide +kernel
  exact stayOperands_of_keptApart listed symbols (.int (-1)) (.string "mod") apart

theorem not_stayOperands {name text : String} {operator : InfixOperator} {a b : Value}
    {left right : Term} (listed : infixOperator? name = some operator)
    (symbols : ∀ c ∈ name.toList, Text.isSymbol c = true)
    (isLeft : Scalar a left) (isRight : Scalar b right)
    (goal : left.write ++ (name.toList ++ right.write) = text.toList)
    (differs : parseGoal text ≠ .ok (.compound name [left, right])) : ¬StayOperands name a b := by
  rintro ⟨otherLeft, otherRight, filled, leftTerm, rightTerm, isFilled, read⟩
  rw [isLeft.toTerm_eq] at leftTerm
  rw [isRight.toTerm_eq] at rightTerm
  rw [goalText_between listed symbols isLeft isRight, goal, String.ofList_toList] at isFilled
  cases leftTerm
  cases rightTerm
  cases isFilled
  exact differs read

/-- Each condition is needed: a sign or a symbol runs into the operator from either side, the
name of the empty list is read as a list, and a prefix operator takes in what follows it. -/
theorem not_stayOperands_all :
    ¬StayOperands "=" (.int 1) (.int (-1)) ∧ ¬StayOperands "=" (.string "+") (.int 1) ∧
      ¬StayOperands "=" (.string "[]") (.int 1) ∧ ¬StayOperands "=" (.int 1) (.string "[]") ∧
      ¬StayOperands "-" (.string "dynamic") (.int 1) := by
  have equals : infixOperator? "=" = some ⟨700, .xfx⟩ := by decide
  have minus : infixOperator? "-" = some ⟨500, .yfx⟩ := by decide
  have symbols : ∀ c ∈ "=".toList, Text.isSymbol c = true := Text.forall_mem_of_all (by decide)
  have sign : ∀ c ∈ "-".toList, Text.isSymbol c = true := Text.forall_mem_of_all (by decide)
  refine ⟨?_, ?_, ?_, ?_, ?_⟩
  · have read : parseGoal "1=-1" ≠ .ok (.compound "=" [.integer 1, .integer (-1)]) :=
      mt (givesTerm_iff (by decide) _).mpr (by decide +kernel)
    exact not_stayOperands equals symbols (.int 1) (.int (-1)) (by decide +kernel) read
  · have read : parseGoal "+=1" ≠ .ok (.compound "=" [.atom "+", .integer 1]) :=
      mt (givesTerm_iff (by decide) _).mpr (by decide +kernel)
    exact not_stayOperands equals symbols (.string "+") (.int 1) (by decide +kernel) read
  · have read : parseGoal "[]=1" ≠ .ok (.compound "=" [.atom "[]", .integer 1]) :=
      mt (givesTerm_iff (by decide) _).mpr (by decide +kernel)
    exact not_stayOperands equals symbols (.string "[]") (.int 1) (by decide +kernel) read
  · have read : parseGoal "1=[]" ≠ .ok (.compound "=" [.integer 1, .atom "[]"]) :=
      mt (givesTerm_iff (by decide) _).mpr (by decide +kernel)
    exact not_stayOperands equals symbols (.int 1) (.string "[]") (by decide +kernel) read
  · have read : parseGoal "dynamic-1" ≠ .ok (.compound "-" [.atom "dynamic", .integer 1]) :=
      mt (givesTerm_iff (by decide) _).mpr (by decide +kernel)
    exact not_stayOperands minus sign (.string "dynamic") (.int 1) (by decide +kernel) read

end Goal

end HornQuery
