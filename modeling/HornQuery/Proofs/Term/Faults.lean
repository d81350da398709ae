import HornQuery.Proofs.Term.Reading
import HornQuery.Proofs.Token.Faults
import HornQuery.Proofs.Token.ScanPositions
import HornQuery.Proofs.Token.Spans

namespace HornQuery.Term

open Text

def StartAt (places : Nat → Prop) (tokens : List Token) : Prop :=
  ∀ token ∈ tokens, places token.start

def FailsAt (places : Nat → Prop) (operand : OperandReader) : Prop :=
  ∀ bound tokens, StartAt places tokens → FaultsAt places (operand bound tokens)

section

variable {places : Nat → Prop} {operand : OperandReader} {token : Token} {tokens : List Token}
  {size : Nat}

theorem StartAt.drop (starts : StartAt places tokens) (count : Nat) :
    StartAt places (tokens.drop count) :=
  fun token member => starts token (List.mem_of_mem_drop member)

theorem StartAt.tail (starts : StartAt places (token :: tokens)) : StartAt places tokens :=
  (List.forall_mem_cons.mp starts).2

theorem faultsAt_readNegative? {result : Except ReadError Term}
    (starts : StartAt places tokens) (found : readNegative? tokens = some result) :
    FaultsAt places result := by
  unfold readNegative? at found
  split at found
  case h_1 => cases found
  case h_2 token rest =>
    split at found
    case isTrue => cases found
    case isFalse =>
      split at found
      case h_1 =>
        split at found
        case isTrue =>
          cases found
          exact faultsAt_ok _
        case isFalse =>
          cases found
          exact faultsAt_error (starts token List.mem_cons_self)
      case h_2 =>
        cases found
        exact faultsAt_ok _
      case h_3 => cases found

section

variable (fails : FailsAt places operand) (starts : StartAt places tokens)
include fails starts

theorem faultsAt_readArguments : FaultsAt places (readArguments operand tokens) := by
  -- The arguments after a comma are read from fewer tokens.
  induction counted : tokens.length using Nat.strongRecOn generalizing tokens with
  | ind length induction =>
      rw [readArguments]
      refine (fails argumentBound tokens starts).bind fun first _ => ?_
      simp only
      split
      case h_1 comma rest remains =>
        split
        case isTrue =>
          have shorter : rest.length < length := by
            have := congrArg List.length remains
            simp only [List.length_drop, List.length_cons] at this
            omega
          have later : StartAt places rest := (remains ▸ starts.drop first.2).tail
          exact (induction rest.length shorter later rfl).bind fun _ _ => faultsAt_ok _
        case isFalse => exact faultsAt_ok _
      case h_2 => exact faultsAt_ok _

theorem faultsAt_readInfix (bound : Nat) (left : Operand) :
    FaultsAt places (readInfix operand bound left tokens) := by
  fun_induction readInfix operand bound left tokens with
  | case1 | case2 | case3 | case4 => exact faultsAt_ok _
  | case5 left token rest name named operator listed fits induction =>
      refine (fails operator.rightBound rest starts.tail).bind fun right _ => ?_
      exact (induction right.1 right.2 (starts.tail.drop right.2)).bind fun _ _ => faultsAt_ok _

end

section

variable (ends : places size)
include ends

theorem faultsAt_expectMark (starts : StartAt places tokens) (mark : Char) :
    FaultsAt places (expectMark size mark tokens) := by
  unfold expectMark
  split
  case h_1 => exact faultsAt_error ends
  case h_2 token rest =>
    split
    case isTrue => exact faultsAt_ok _
    case isFalse => exact faultsAt_error (starts token List.mem_cons_self)

variable (fails : FailsAt places operand) (starts : StartAt places tokens)
include fails starts

theorem faultsAt_readBracketed (close : Char) :
    FaultsAt places (readBracketed size close operand tokens) := by
  refine (fails clauseBound tokens starts).bind fun inner _ => ?_
  exact (faultsAt_expectMark ends (starts.drop inner.2) close).bind fun _ _ => faultsAt_ok _

theorem faultsAt_readList : FaultsAt places (readList size operand tokens) := by
  unfold readList
  split
  case isTrue => exact faultsAt_ok _
  case isFalse =>
    refine (faultsAt_readArguments fails starts).bind fun items _ => ?_
    have rest := starts.drop items.2
    simp only
    split
    case isTrue =>
      refine (fails argumentBound _ (rest.drop 1)).bind fun tail _ => ?_
      exact (faultsAt_expectMark ends (rest.drop (1 + tail.2)) ']').bind fun _ _ => faultsAt_ok _
    case isFalse => exact (faultsAt_expectMark ends rest ']').bind fun _ _ => faultsAt_ok _

theorem faultsAt_readName (name : String) (isQuoted : Bool) (bound : Nat) :
    FaultsAt places (readName size operand name isQuoted bound tokens) := by
  unfold readName
  split
  case isTrue =>
    refine (faultsAt_readArguments fails (starts.drop 1)).bind fun args _ => ?_
    exact (faultsAt_expectMark ends (starts.drop (1 + args.2)) ')').bind fun _ _ => faultsAt_ok _
  split
  case isTrue => exact faultsAt_ok _
  split
  case h_1 negative found =>
    have signed : FaultsAt places negative := by
      split at found
      case isTrue => exact faultsAt_readNegative? starts found
      case isFalse => cases found
    exact signed.bind fun _ _ => faultsAt_ok _
  case h_2 =>
    split
    case h_1 operator _ => exact (fails _ tokens starts).bind fun _ _ => faultsAt_ok _
    case h_2 => exact faultsAt_ok _

theorem faultsAt_readPrimary (start : places token.start) (bound : Nat) :
    FaultsAt places (readPrimary size operand bound token tokens) := by
  unfold readPrimary
  split
  case h_1 =>
    split
    case isTrue => exact faultsAt_ok _
    case isFalse => exact faultsAt_error start
  case h_2 | h_3 | h_4 => exact faultsAt_ok _
  case h_5 | h_6 => exact faultsAt_readName ends fails starts _ _ bound
  case h_7 => exact faultsAt_error start
  case h_8 mark _ =>
    split
    case isTrue => exact (faultsAt_readBracketed ends fails starts ')').bind fun _ _ => faultsAt_ok _
    split
    case isTrue => exact (faultsAt_readList ends fails starts).bind fun _ _ => faultsAt_ok _
    split
    case isTrue =>
      split
      case isTrue => exact faultsAt_ok _
      case isFalse =>
        exact (faultsAt_readBracketed ends fails starts '\x7d').bind fun _ _ => faultsAt_ok _
    case isFalse => exact faultsAt_error start

end

theorem failsAt_readOperand (ends : places size) (levels : Nat) :
    FailsAt places (readOperand size levels) := by
  induction levels with
  | zero =>
      intro bound tokens starts
      apply faultsAt_error
      cases tokens with
      | nil => exact ends
      | cons token rest => exact starts token List.mem_cons_self
  | succ levels induction =>
      intro bound tokens starts
      cases tokens with
      | nil => exact faultsAt_error ends
      | cons token rest =>
          have start := starts token List.mem_cons_self
          refine (faultsAt_readPrimary ends induction starts.tail start bound).bind fun first _ => ?_
          exact (faultsAt_readInfix induction (starts.tail.drop first.2) bound first.1).bind
            fun _ _ => faultsAt_ok _

theorem faultsAt_ofTokens (zero : places 0) (ends : places size)
    (starts : StartAt places tokens) : FaultsAt places (ofTokens size tokens) := by
  unfold ofTokens
  split
  case isTrue => exact faultsAt_error zero
  case isFalse =>
    refine (failsAt_readOperand ends maxDepth clauseBound tokens starts).bind fun read _ => ?_
    have rest := starts.drop read.2
    simp only
    split
    case h_1 => exact faultsAt_ok _
    case h_2 token more remains =>
      apply faultsAt_error
      have left : StartAt places (token :: more) := by
        split at remains
        case h_1 ended =>
          rw [ended, remains] at rest
          exact rest.tail
        case h_2 => exact remains ▸ rest
      exact left token List.mem_cons_self

end

theorem faultsAt_parse (text : String) : FaultsAt (IsBoundary text.toList) (parse text) := by
  refine (Token.faultsAt_scan text.toList).bind fun tokens scanned => ?_
  have spans := Token.spans_of_scan scanned
  exact faultsAt_ofTokens (goesOn_zero _).isBoundary (goesOn_byteLength _).isBoundary
    fun token member => (spans.boundaries token member).1

/-- Tokens and layout make up the text, errors are at boundaries of it, and scanning by byte
positions comes to the same end, so no stretch is missing and no loop goes on for ever. -/
theorem spans_and_faults (text : String) :
    (∀ tokens, Token.scan text.toList = .ok tokens → Token.Spans text.toList 0 tokens) ∧
      (∀ cause, parse text = .error cause →
        IsBoundary text.toList cause.position ∧ cause.position ≤ text.utf8ByteSize) ∧
      Token.Sliced.scan text.toList =
        match Token.scan text.toList with
        | .ok tokens => pure tokens
        | .error cause => throw (.fault cause) := by
  refine ⟨fun tokens => Token.spans_of_scan, fun cause refused => ?_, ?_⟩
  · have boundary := faultsAt_parse text cause refused
    refine ⟨boundary, ?_⟩
    rw [← String.ofList_toList (s := text), utf8ByteSize_ofList]
    exact boundary.le
  · rw [Token.Sliced.scan_eq]
    cases Token.scan text.toList <;> rfl

theorem spans_and_faults_closed :
    let tokens : List Token := [⟨.name "b", 0, 1, false⟩, ⟨.punctuation '(', 2, 3, true⟩,
      ⟨.var "X", 8, 9, true⟩, ⟨.punctuation ')', 9, 10, false⟩]
    Token.scan "b (% ü\nX)".toList = .ok tokens ∧ Token.Spans "b (% ü\nX)".toList 0 tokens ∧
      parse "% ü\n 'ü" = .error (.unexpectedEnd 6) ∧ IsBoundary "% ü\n 'ü".toList 6 ∧
        6 ≤ "% ü\n 'ü".utf8ByteSize := by
  have unclosed : Token.scan "% ü\n 'ü".toList = .error (.unexpectedEnd 6) := by
    cbv
  have refused : parse "% ü\n 'ü" = .error (.unexpectedEnd 6) := by
    rw [parse, ofText, unclosed]
    rfl
  intro tokens
  have scanned : Token.scan "b (% ü\nX)".toList = .ok tokens := by
    cbv
  exact ⟨scanned, (spans_and_faults _).1 tokens scanned, refused,
    (spans_and_faults _).2.1 _ refused⟩

end HornQuery.Term
