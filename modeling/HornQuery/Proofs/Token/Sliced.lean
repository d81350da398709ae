import HornQuery.Proofs.Text.Boundary
import HornQuery.Proofs.Token.Lexemes

namespace HornQuery.Token

open Text

/-- A text of which nothing is seen but the stretch between two positions. -/
abbrev Sliced := List Char

namespace Sliced

/-- Why a scan stops: the text has no such stretch, or it has no more tokens. -/
inductive Halt where
  | noSlice (start stop : Nat)
  | fault (cause : ReadError)

/-- What a scan gives; none if it goes on for ever. -/
abbrev Scan := ExceptT Halt Option

def fail {α : Type} (cause : ReadError) : Scan α :=
  throw (.fault cause)

def slice (text : Sliced) (start stop : Nat) : Scan (List Char) :=
  match slice? text start stop with
  | some part => pure part
  | none => throw (.noSlice start stop)

def peekAt (text : Sliced) (ahead position : Nat) : Scan (Option Char) := do
  let rest ← slice text position (byteLength text)
  return rest[ahead]?

def peek (text : Sliced) (position : Nat) : Scan (Option Char) :=
  peekAt text 0 position

def bump (text : Sliced) (position : Nat) : Scan (Option Char × Nat) := do
  match ← peek text position with
  | some c => return (some c, position + c.utf8Size)
  | none => return (none, position)

def skipWhile (text : Sliced) (p : Char → Bool) (position : Nat) : Scan Nat := do
  match ← peek text position with
  | some c => if p c then text |>.skipWhile p (position + c.utf8Size) else return position
  | none => return position
partial_fixpoint

def takeWhile (text : Sliced) (p : Char → Bool) (start : Nat) : Scan (List Char × Nat) := do
  let stop ← skipWhile text p start
  return (← slice text start stop, stop)

def find? (needle : List Char) : List Char → Option Nat
  | [] => if needle.isEmpty then some 0 else none
  | c :: rest =>
      if needle.isPrefixOf (c :: rest) then some 0 else (find? needle rest).map (c.utf8Size + ·)

def skipLayout (text : Sliced) (position : Nat) : Scan Nat := do
  match ← peek text position with
  | none => return position
  | some c =>
      if isBlank c then
        let (_, next) ← bump text position
        text |>.skipLayout next
      else if c = '%' then
        let (_, next) ← takeWhile text (· ≠ '\n') position
        text |>.skipLayout next
      else if c = '/' then
        if (← peekAt text 1 position) = some '*' then
          match find? ['*', '/'] (← slice text (position + 2) (byteLength text)) with
          | some inside => text |>.skipLayout (position + (2 + inside + 2))
          | none => fail (.unexpectedEnd (byteLength text))
        else return position
      else return position
partial_fixpoint

/-! Escapes and quoted text. -/

def skipClosing (text : Sliced) (position : Nat) : Scan Nat := do
  if (← peek text position) = some '\\' then
    let (_, next) ← bump text position
    return next
  else return position

def character (code position : Nat) : Scan Char :=
  if code.isValidChar then pure (Char.ofNat code)
  else fail (SyntaxFault.characterCode.foundAt position)

def octalNumber (text : Sliced) (code : UInt32) (position : Nat) : Scan (UInt32 × Nat) := do
  match ← peek text position with
  | some c =>
      if isOctalDigit c then
        let (_, next) ← bump text position
        text |>.octalNumber (code * 8 + UInt32.ofNat (hexValue c)) next
      else return (code, position)
  | none => return (code, position)
partial_fixpoint

def escape (text : Sliced) (position : Nat) : Scan (Option Char × Nat) := do
  match ← bump text position with
  | (none, _) => fail (.unexpectedEnd position)
  | (some c, after) =>
      match letterEscape? c with
      | some decoded => return (some decoded, after)
      | none =>
          if c = '\n' then return (none, after)
          else if c = 'x' then
            let (digits, stop) ← takeWhile text isHexDigit after
            let code := ofRadix 16 digits
            if digits.isEmpty || UInt32.size ≤ code then
              fail (SyntaxFault.hexEscape.foundAt stop)
            else
              let next ← skipClosing text stop
              return (some (← character code next), next)
          else if c = 'u' || c = 'U' then
            let stop := min (after + if c = 'u' then 4 else 8) (byteLength text)
            -- This stretch may be missing: then there are no digits.
            match hexNumber? ((slice? text after stop).getD []) with
            | none => fail (SyntaxFault.unicodeEscape.foundAt after)
            | some code => return (some (← character code stop), stop)
          else if isOctalDigit c then
            let (code, stop) ← octalNumber text (UInt32.ofNat (hexValue c)) after
            let next ← skipClosing text stop
            return (some (← character code.toNat next), next)
          else fail ((SyntaxFault.unknownEscape c).foundAt after)

def quotedFrom (text : Sliced) (opening : Nat) (quote : Char) (position : Nat) :
    Scan (List Char × Nat) := do
  match ← bump text position with
  | (none, _) => fail (.unexpectedEnd opening)
  | (some c, next) =>
      if c = quote then
        if (← peek text next) = some quote then
          let (_, after) ← bump text next
          let (content, stop) ← text |>.quotedFrom opening quote after
          return (quote :: content, stop)
        else return ([], next)
      else if c = '\\' then
        let (decoded?, after) ← escape text next
        let (content, stop) ← text |>.quotedFrom opening quote after
        return (decoded?.toList ++ content, stop)
      else
        let (content, stop) ← text |>.quotedFrom opening quote next
        return (c :: content, stop)
partial_fixpoint

def quotedText (text : Sliced) (quote : Char) (opening : Nat) : Scan (List Char × Nat) := do
  let (_, position) ← bump text opening
  quotedFrom text opening quote position

/-! Numbers. -/

def characterCode (text : Sliced) (position : Nat) : Scan (TokenKind × Nat) := do
  match ← bump text position with
  | (none, _) => fail (.unexpectedEnd position)
  | (some c, next) =>
      if c = '\\' then
        match ← escape text next with
        | (some decoded, stop) => return (.integer decoded.toNat, stop)
        | (none, stop) => fail (SyntaxFault.lineEndInCharacterCode.foundAt stop)
      else if c = '\x27' then
        if (← peek text next) = some '\x27' then
          let (_, stop) ← bump text next
          return (.integer c.toNat, stop)
        else return (.integer c.toNat, next)
      else return (.integer c.toNat, next)

def radixNumber (text : Sliced) (radix : Nat) (isDigitOf : Char → Bool) (start : Nat) :
    Scan (TokenKind × Nat) := do
  let (digits, stop) ← takeWhile text isDigitOf start
  if ofRadix radix digits < integerLimit then return (.integer (ofRadix radix digits), stop)
  else fail (SyntaxFault.radixIntegerOutOfRange.foundAt stop)

def fraction (text : Sliced) (position : Nat) : Scan (Bool × Nat) := do
  if (← peek text position) = some '.' then
    if (← peekAt text 1 position).any Number.isDigit then
      let (_, next) ← bump text position
      let (_, stop) ← takeWhile text Number.isDigit next
      return (true, stop)
    else return (false, position)
  else return (false, position)

def digitsFollow (text : Sliced) (position : Nat) : Scan Bool := do
  match ← peekAt text 1 position with
  | some c =>
      if Number.isDigit c then return true
      else if c = '+' || c = '-' then return (← peekAt text 2 position).any Number.isDigit
      else return false
  | none => return false

def exponent (text : Sliced) (position : Nat) : Scan (Bool × Nat) := do
  if (← peek text position).any (fun c => c = 'e' || c = 'E') then
    if ← digitsFollow text position then
      let (_, next) ← bump text position
      if (← peek text next).any (fun c => c = '+' || c = '-') then
        let (_, signed) ← bump text next
        let (_, stop) ← takeWhile text Number.isDigit signed
        return (true, stop)
      else
        let (_, stop) ← takeWhile text Number.isDigit next
        return (true, stop)
    else return (false, position)
  else return (false, position)

def decimalNumber (text : Sliced) (start : Nat) : Scan (TokenKind × Nat) := do
  let (_, whole) ← takeWhile text Number.isDigit start
  let (pointed, point) ← fraction text whole
  let (marked, stop) ← exponent text point
  let spelled ← slice text start stop
  if pointed || marked then
    let rest ← slice text stop (byteLength text)
    if "Inf".toList.isPrefixOf rest then return (.float Number.infinity, stop + 3)
    else if "NaN".toList.isPrefixOf rest then return (.float Number.notANumber, stop + 3)
    else
      match Number.parse? spelled with
      | some value => return (.float value, stop)
      | none => fail (.syntaxFault s!"invalid float `{String.ofList spelled}`" stop)
  else if Number.ofDigits spelled < integerLimit then
    return (.integer (Number.ofDigits spelled), stop)
  else fail ((SyntaxFault.integerOutOfRange (String.ofList spelled)).foundAt stop)

def number (text : Sliced) (start : Nat) : Scan (TokenKind × Nat) := do
  if (← peek text start) = some '0' then
    match ← peekAt text 1 start with
    | some letter =>
        if letter = '\x27' then characterCode text (start + 2)
        else
          match radix? letter with
          | some (radix, isDigitOf) =>
              if (← peekAt text 2 start).any isDigitOf then
                radixNumber text radix isDigitOf (start + 2)
              else decimalNumber text start
          | none => decimalNumber text start
    | none => decimalNumber text start
  else decimalNumber text start

/-! Tokens. -/

def endsClause (text : Sliced) (start : Nat) (c : Char) : Scan Bool := do
  if c = '.' then return (← peekAt text 1 start).all fun next => isBlank next || next = '%'
  else return false

def token (text : Sliced) (start : Nat) (c : Char) : Scan (TokenKind × Nat) := do
  if Number.isDigit c then number text start
  else if c = '_' || isUppercase c then
    let (name, stop) ← takeWhile text isNameCharacter start
    return (.var (String.ofList name), stop)
  else if isAlphabetic c then
    let (name, stop) ← takeWhile text isNameCharacter start
    return (.name (String.ofList name), stop)
  else if c = '\x27' then
    let (content, stop) ← quotedText text c start
    return (.quoted (String.ofList content), stop)
  else if c = '\x22' || c = '\x60' then
    let (content, stop) ← quotedText text c start
    return (.string (String.ofList content), stop)
  else if marks.contains c then
    let (_, stop) ← bump text start
    return (.punctuation c, stop)
  else if c = '!' || c = ';' then
    let (_, stop) ← bump text start
    return (.name (String.ofList [c]), stop)
  else if ← endsClause text start c then
    let (_, stop) ← bump text start
    return (.clauseEnd, stop)
  else if isSymbol c then
    let (name, stop) ← takeWhile text isSymbol start
    return (.name (String.ofList name), stop)
  else fail ((SyntaxFault.unexpectedCharacter c).foundAt start)

def scanFrom (text : Sliced) (position : Nat) : Scan (List Token) := do
  let start ← skipLayout text position
  match ← peek text start with
  | none => return []
  | some c =>
      let (kind, stop) ← token text start c
      let others ← text |>.scanFrom stop
      return ⟨kind, start, stop, position < start⟩ :: others
partial_fixpoint

def scan (text : Sliced) : Scan (List Token) :=
  scanFrom text 0

/-! What the text holds at a position. -/

section

variable {text rest part : List Char} {c : Char} {position : Nat} {p : Char → Bool}

theorem slice_part (goesOn : GoesOn text position (part ++ rest)) :
    slice text position (position + byteLength part) = pure part := by
  rw [slice, goesOn.slice?_part]

theorem slice_rest (goesOn : GoesOn text position rest) :
    slice text position (byteLength text) = pure rest := by
  rw [slice, goesOn.slice?_rest]

theorem peekAt_eq (goesOn : GoesOn text position rest) (ahead : Nat) :
    peekAt text ahead position = pure rest[ahead]? := by
  rw [peekAt, slice_rest goesOn, pure_bind]

theorem peek_eq (goesOn : GoesOn text position rest) : peek text position = pure rest.head? := by
  rw [peek, peekAt_eq goesOn, List.head?_eq_getElem?]

theorem bump_cons (goesOn : GoesOn text position (c :: rest)) :
    bump text position = pure (some c, position + c.utf8Size) := by
  rw [bump, peek_eq goesOn, pure_bind]
  rfl

theorem bump_nil (goesOn : GoesOn text position []) : bump text position = pure (none, position) := by
  rw [bump, peek_eq goesOn, pure_bind]
  rfl

theorem skipWhile_eq (goesOn : GoesOn text position rest) (p : Char → Bool) :
    skipWhile text p position = pure (position + byteLength (rest.takeWhile p)) := by
  induction rest generalizing position with
  | nil =>
      rw [skipWhile, peek_eq goesOn, pure_bind]
      rfl
  | cons c rest induction =>
      rw [skipWhile, peek_eq goesOn, pure_bind]
      simp only [List.head?_cons]
      by_cases holds : p c = true
      · rw [if_pos holds, induction goesOn.next, List.takeWhile_cons_of_pos holds, byteLength_cons,
          Nat.add_assoc]
      · rw [if_neg holds, List.takeWhile_cons_of_neg holds]
        rfl

theorem takeWhile_eq (goesOn : GoesOn text position rest) (p : Char → Bool) :
    takeWhile text p position =
      pure (rest.takeWhile p, position + byteLength (rest.takeWhile p)) := by
  have parts : GoesOn text position (rest.takeWhile p ++ rest.dropWhile p) := by
    rwa [List.takeWhile_append_dropWhile]
  rw [takeWhile, skipWhile_eq goesOn, pure_bind, slice_part parts, pure_bind]

end

end Sliced

end HornQuery.Token
