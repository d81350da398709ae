import HornQuery.Proofs.Token.NumberPositions

namespace HornQuery

def ReadError.position : ReadError → Nat
  | .syntaxFault _ position => position
  | .unexpectedEnd position => position
  | .trailingInput position => position

def FaultsAt {α : Type} (places : Nat → Prop) (result : Except ReadError α) : Prop :=
  ∀ cause, result = .error cause → places cause.position

section

variable {α β : Type} {places : Nat → Prop} {cause : ReadError} {result : Except ReadError α}
  {next : α → Except ReadError β}

theorem faultsAt_ok (value : α) : FaultsAt places (.ok value) :=
  nofun

theorem faultsAt_error (place : places cause.position) :
    FaultsAt places (.error cause : Except ReadError α) := by
  rintro other ⟨⟩
  exact place

theorem FaultsAt.bind (first : FaultsAt places result)
    (second : ∀ value, result = .ok value → FaultsAt places (next value)) :
    FaultsAt places (result >>= next) := by
  cases result with
  | error cause => exact faultsAt_error (first cause rfl)
  | ok value => exact second value rfl

end

namespace Token

open Text

variable {text rest : List Char} {c : Char} {position : Nat}

theorem faultsAt_character {code : Nat} (boundary : IsBoundary text position) :
    FaultsAt (IsBoundary text) (character code position) := by
  unfold character
  split
  case isTrue => exact faultsAt_ok _
  case isFalse => exact faultsAt_error boundary

theorem faultsAt_escape (goesOn : GoesOn text position rest) :
    FaultsAt (IsBoundary text) (escape position rest) := by
  have octal : ∀ d, isOctalDigit d = true → isHexDigit d = true :=
    fun _ => isHexDigit_of_isOctalDigit
  cases rest with
  | nil => exact faultsAt_error goesOn.isBoundary
  | cons c rest =>
      have after := goesOn.next
      simp only [escape]
      split
      case h_1 => exact faultsAt_ok _
      split
      case isTrue => exact faultsAt_ok _
      split
      case isTrue =>
        have digits := Sliced.goesOn_digits (fun _ => id) after
        split
        case isTrue => exact faultsAt_error digits.isBoundary
        case isFalse =>
          exact (faultsAt_character (Sliced.goesOn_closing digits).isBoundary).bind
            fun _ _ => faultsAt_ok _
      split
      case isTrue =>
        split
        case h_1 => exact faultsAt_error after.isBoundary
        case h_2 digits window =>
          split
          case h_1 => exact faultsAt_error after.isBoundary
          case h_2 =>
            obtain ⟨more, rfl, _⟩ := window?_eq_some_iff.mp window
            exact (faultsAt_character after.after.isBoundary).bind fun _ _ => faultsAt_ok _
      split
      case isTrue =>
        have closed := Sliced.goesOn_closing (Sliced.goesOn_digits octal after)
        exact (faultsAt_character closed.isBoundary).bind fun _ _ => faultsAt_ok _
      case isFalse => exact faultsAt_error after.isBoundary

theorem faultsAt_quotedText {opening : Nat} {quote : Char} (boundary : IsBoundary text opening)
    (goesOn : GoesOn text position rest) :
    FaultsAt (IsBoundary text) (quotedText opening quote position rest) := by
  fun_induction quotedText opening quote position rest with
  | case1 => exact faultsAt_error boundary
  | case2 | case4 => exact faultsAt_ok _
  | case3 position more induction =>
      exact (induction goesOn.next.next).bind fun _ _ => faultsAt_ok _
  | case5 position rest apart induction =>
      refine (faultsAt_escape goesOn.next).bind fun escaped _ => ?_
      exact (induction _ (goesOn.next.drop _)).bind fun _ _ => faultsAt_ok _
  | case6 position c rest noQuote noEscape induction =>
      exact (induction goesOn.next).bind fun _ _ => faultsAt_ok _

/-! Numbers. -/

theorem faultsAt_characterCode (goesOn : GoesOn text position rest) :
    FaultsAt (IsBoundary text) (characterCode position rest) := by
  cases rest with
  | nil => exact faultsAt_error goesOn.isBoundary
  | cons c rest =>
      simp only [characterCode]
      split
      case isTrue =>
        refine (faultsAt_escape goesOn.next).bind fun escaped _ => ?_
        split
        case h_1 => exact faultsAt_ok _
        case h_2 => exact faultsAt_error (goesOn.next.drop _).isBoundary
      case isFalse => split <;> exact faultsAt_ok _

theorem faultsAt_decimalNumber (goesOn : GoesOn text position rest) :
    FaultsAt (IsBoundary text) (decimalNumber position rest) := by
  have digits := Sliced.goesOn_digits (fun _ => isHexDigit_of_isDigit) goesOn
  unfold decimalNumber
  extract_lets whole fraction pointed exponent? magnitude stop
  split
  case isTrue =>
    split
    case isTrue => exact faultsAt_ok _
    case isFalse => exact faultsAt_error digits.isBoundary
  case isFalse =>
    simp only
    repeat' split
    all_goals exact faultsAt_ok _

theorem faultsAt_radixNumber? {result : Except ReadError (TokenKind × Nat)}
    (goesOn : GoesOn text position (c :: rest))
    (found : radixNumber? position (c :: rest) = some result) :
    FaultsAt (IsBoundary text) result := by
  by_cases zero : c = '0'
  · subst zero
    cases rest with
    | nil => cases found
    | cons letter rest =>
        rw [radixNumber?_cons] at found
        split at found
        case h_1 => cases found
        case h_2 radix isDigitOf named =>
          have after := Sliced.goesOn_radix named goesOn
          split at found
          case isTrue => cases found
          case isFalse =>
            split at found
            case isTrue =>
              cases found
              exact faultsAt_ok _
            case isFalse =>
              cases found
              exact faultsAt_error
                (Sliced.goesOn_digits (Sliced.ascii_of_radix? named).2 after).isBoundary
  · rw [radixNumber?_of_notZero zero] at found
    cases found

theorem faultsAt_number (goesOn : GoesOn text position (c :: rest)) :
    FaultsAt (IsBoundary text) (number position (c :: rest)) := by
  by_cases code : c = '0' ∧ rest.head? = some '\x27'
  · obtain ⟨rfl, quoted⟩ := code
    obtain ⟨rest, rfl⟩ := List.head?_eq_some_iff.mp quoted
    have after : GoesOn text (position + 2) rest := goesOn.next.next
    exact (faultsAt_characterCode after).bind fun _ _ => faultsAt_ok _
  · rw [number_eq code]
    cases radix : radixNumber? position (c :: rest) with
    | none => exact faultsAt_decimalNumber goesOn
    | some result => exact faultsAt_radixNumber? goesOn radix

theorem faultsAt_scanOne (goesOn : GoesOn text position (c :: rest)) :
    FaultsAt (IsBoundary text) (scanOne position c rest) := by
  have boundary := goesOn.isBoundary
  unfold scanOne
  split
  case isTrue => exact (faultsAt_number goesOn).bind fun _ _ => faultsAt_ok _
  split
  case isTrue => exact faultsAt_ok _
  split
  case isTrue => exact faultsAt_ok _
  split
  case isTrue quote =>
    subst quote
    exact (faultsAt_quotedText boundary goesOn.next).bind fun _ _ => faultsAt_ok _
  split
  case isTrue quote =>
    rw [Bool.or_eq_true, decide_eq_true_eq, decide_eq_true_eq] at quote
    have after : GoesOn text (position + 1) rest := by
      rcases quote with rfl | rfl <;> exact goesOn.next
    exact (faultsAt_quotedText boundary after).bind fun _ _ => faultsAt_ok _
  repeat' split
  all_goals first | exact faultsAt_ok _ | exact faultsAt_error boundary

theorem faultsAt_layoutLength (goesOn : GoesOn text position rest) :
    FaultsAt (IsBoundary text) (layoutLength position rest) := by
  fun_induction layoutLength position rest with
  | case1 | case6 => exact faultsAt_ok _
  | case2 position c rest blank induction =>
      exact (induction goesOn.next).bind fun _ _ => faultsAt_ok _
  | case3 position rest comment visible =>
      rename_i induction
      have after := goesOn.next.drop comment.length
      rw [take_length_takeWhile] at after
      exact (induction after).bind fun _ _ => faultsAt_ok _
  | case4 position c rest =>
      apply faultsAt_error
      rw [goesOn.add_byteLength]
      exact (goesOn_byteLength text).isBoundary
  | case5 position c rest visible noLine opens width isBlock comment =>
      rename_i induction
      exact (induction (goesOn.next.drop _)).bind fun _ _ => faultsAt_ok _

theorem faultsAt_scanFrom (goesOn : GoesOn text position rest) :
    FaultsAt (IsBoundary text) (scanFrom position rest) := by
  induction position, rest using scanFrom.induct with
  | case1 position rest induction =>
      cases layout : layoutLength position rest with
      | error cause =>
          have place := faultsAt_layoutLength goesOn cause layout
          rw [scanFrom, layout]
          exact faultsAt_error place
      | ok skipped =>
          have found := goesOn.drop skipped
          cases remains : rest.drop skipped with
          | nil =>
              rw [scanFrom_of_layout layout remains]
              exact faultsAt_ok _
          | cons c after =>
              rw [remains] at found
              rw [scanFrom_of_token layout remains rfl]
              refine (faultsAt_scanOne found).bind fun token _ => ?_
              exact (induction skipped c after remains token.2 (found.next.drop token.2)).bind
                fun _ _ => faultsAt_ok _

theorem faultsAt_scan (text : List Char) : FaultsAt (IsBoundary text) (scan text) :=
  faultsAt_scanFrom (goesOn_zero text)

end Token

end HornQuery
