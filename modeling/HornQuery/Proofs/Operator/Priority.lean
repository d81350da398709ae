import HornQuery.Proofs.Operator.Table
import HornQuery.Proofs.Term.Nesting

namespace HornQuery.Term

open Token

variable {operand : OperandReader} {bound narrower size taken : Nat} {left result : Operand}
  {tokens : List Token}

theorem joining?_eq_some {token : Token} {name : String} {operator : InfixOperator}
    (joins : joining? bound left token = some (name, operator)) :
    operator.priority ≤ bound ∧ left.priority ≤ operator.leftBound ∧
      ∀ other, operator.priority ≤ other → joining? other left token = some (name, operator) := by
  obtain ⟨called, named, joins⟩ := Option.bind_eq_some_iff.mp joins
  obtain ⟨found, listed, joins⟩ := Option.bind_eq_some_iff.mp joins
  split at joins
  case isTrue => cases joins
  case isFalse fits =>
    cases joins
    simp only [Bool.or_eq_true, decide_eq_true_eq, not_or, Nat.not_lt] at fits
    refine ⟨fits.1, fits.2, ?_⟩
    intro other strong
    simp [joining?, named, listed, Nat.not_lt.mpr strong, Nat.not_lt.mpr fits.2]

/-- No operator joins below a smaller bound that does not join below the greater one. -/
theorem joining?_eq_none {token : Token} (smaller : narrower ≤ bound)
    (none : joining? bound left token = none) : joining? narrower left token = .none := by
  cases joins : joining? narrower left token with
  | none => rfl
  | some sign =>
      obtain ⟨strong, _, again⟩ := joining?_eq_some joins
      rw [again bound (Nat.le_trans strong smaller)] at none
      cases none

/-- What follows an operand joins with it under operators that are no stronger, and those that are
no weaker than a smaller bound join below it, too. -/
theorem readInfix_narrower (read : readInfix operand bound left tokens = .ok (result, taken)) :
    left.priority ≤ result.priority ∧ (result.priority ≤ narrower → narrower ≤ bound →
      readInfix operand narrower left tokens = .ok (result, taken)) := by
  replace read := infixRead read
  induction read with
  | @stop left tokens ends =>
      refine ⟨Nat.le_refl _, fun _ smaller => ?_⟩
      cases tokens with
      | nil => rw [readInfix]
      | cons token rest => rw [readInfix_cons, joining?_eq_none smaller (ends token rfl)]
  | join joins found read induction =>
      obtain ⟨_, fits, again⟩ := joining?_eq_some joins
      obtain ⟨weaker, narrow⟩ := induction
      have wide := Nat.le_trans fits (InfixOperator.leftBound_le _)
      refine ⟨Nat.le_trans wide weaker, ?_⟩
      intro strong smaller
      rw [readInfix_cons, again narrower (Nat.le_trans weaker strong)]
      simp only [found, narrow strong smaller, bind, Except.bind]

theorem readName_narrower {name : String} {isQuoted : Bool}
    (read : readName size operand name isQuoted bound tokens = .ok (result, taken))
    (strong : result.priority ≤ narrower) (smaller : narrower ≤ bound) :
    readName size operand name isQuoted narrower tokens = .ok (result, taken) := by
  have wide := readName_of_use size operand name isQuoted bound tokens
  have narrow := readName_of_use size operand name isQuoted narrower tokens
  cases use : nameUse name isQuoted tokens with
  | functional =>
      simp only [use] at wide narrow
      rw [narrow, ← wide, read]
  | leaf term count =>
      simp only [use] at wide narrow
      rw [narrow, ← wide, read]
  | applied operator =>
      simp only [use] at wide narrow
      -- The operator is used below the bound, at its own priority if it is strong enough.
      have same : min operator.priority narrower = min operator.priority bound := by
        rw [wide] at read
        obtain ⟨_, _, done⟩ := bind_eq_ok.mp read
        cases done
        simp only at strong
        omega
      rw [narrow, same, ← wide, read]
  | refused =>
      simp only [use] at wide
      obtain ⟨cause, refused⟩ := wide
      rw [refused] at read
      cases read

theorem readPrimary_narrower {token : Token}
    (read : readPrimary size operand bound token tokens = .ok (result, taken))
    (strong : result.priority ≤ narrower) (smaller : narrower ≤ bound) :
    readPrimary size operand narrower token tokens = .ok (result, taken) := by
  cases kind : token.kind with
  | name name =>
      simp only [readPrimary, kind] at read ⊢
      exact readName_narrower read strong smaller
  | quoted name =>
      simp only [readPrimary, kind] at read ⊢
      exact readName_narrower read strong smaller
  | _ =>
      simp only [readPrimary, kind] at read ⊢
      exact read

theorem readOperand_narrower {levels : Nat}
    (read : readOperand size levels bound tokens = .ok (result, taken))
    (strong : result.priority ≤ narrower) (smaller : narrower ≤ bound) :
    readOperand size levels narrower tokens = .ok (result, taken) := by
  cases levels with
  | zero => cases read
  | succ levels =>
      cases tokens with
      | nil => cases read
      | cons token rest =>
          rw [readOperand, readLevel] at read ⊢
          obtain ⟨⟨first, count⟩, foundFirst, continued⟩ := bind_eq_ok.mp read
          obtain ⟨⟨last, more⟩, foundLast, done⟩ := bind_eq_ok.mp continued
          cases done
          obtain ⟨weaker, narrow⟩ := readInfix_narrower foundLast
          have primary := readPrimary_narrower foundFirst (Nat.le_trans weaker strong) smaller
          have remaining : readInfix (readOperand size levels) narrower first (rest.drop count) =
              .ok (result, more) := narrow strong smaller
          simp only [primary, remaining, bind, Except.bind]

end HornQuery.Term
