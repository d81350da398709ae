import HornQuery.Term.Token.Escape
import HornQuery.Text.Characters

namespace HornQuery.Token

open Text

def blockLength? : List Char → Option Nat
  | [] => none
  | '*' :: '/' :: _ => some 2
  | _ :: rest => (blockLength? rest).map (· + 1)

def layoutLength (position : Nat) : List Char → Except ReadError Nat
  | [] => .ok 0
  | c :: rest =>
      if isBlank c then do
        let more ← layoutLength (position + c.utf8Size) rest
        .ok (1 + more)
      else if c = '%' then do
        let comment := rest.takeWhile (· ≠ '\n')
        let more ←
          layoutLength (position + c.utf8Size + byteLength comment) (rest.drop comment.length)
        .ok (1 + comment.length + more)
      else if c = '/' && rest.head? = some '*' then
        match blockLength? (rest.drop 1) with
        | none => .error (.unexpectedEnd (position + byteLength (c :: rest)))
        | some width => do
            let comment := rest.take (1 + width)
            let more ←
              layoutLength (position + c.utf8Size + byteLength comment) (rest.drop (1 + width))
            .ok (2 + width + more)
      else .ok 0
termination_by text => text.length
decreasing_by
  all_goals simp only [List.length_drop, List.length_cons]
  all_goals omega

/-- The character code after `0` and an apostrophe. The apostrophe itself may be written once
or twice. -/
def characterCode (position : Nat) : List Char → Except ReadError (TokenKind × Nat)
  | [] => .error (.unexpectedEnd position)
  | c :: rest =>
      if c = '\\' then do
        let (decoded?, width) ← escape (position + c.utf8Size) rest
        match decoded? with
        | some decoded => .ok (.integer decoded.toNat, 1 + width)
        | none =>
            let stop := position + c.utf8Size + byteLength (rest.take width)
            .error (SyntaxFault.lineEndInCharacterCode.foundAt stop)
      else if c = '\x27' then
        .ok (.integer c.toNat, if rest.head? = some '\x27' then 2 else 1)
      else .ok (.integer c.toNat, 1)

/-- Integers take 64 bits before their sign is known. -/
def integerLimit : Nat := UInt64.size

def fractionDigits (text : List Char) : List Char :=
  match text with
  | '.' :: rest => rest.takeWhile Number.isDigit
  | _ => []

def exponentPart? (text : List Char) : Option (Int × Nat) :=
  match text with
  | mark :: rest =>
      if mark = 'e' || mark = 'E' then
        let sign := rest.takeWhile fun c => c = '+' || c = '-'
        let digits := (rest.drop sign.length).takeWhile Number.isDigit
        if digits.isEmpty || 1 < sign.length then none
        else
          let size : Int := Number.ofDigits digits
          some (if sign = ['-'] then -size else size, 1 + sign.length + digits.length)
      else none
  | [] => none

/-- A decimal integer, or a number with a fraction or an exponent. After the latter `Inf` and
`NaN` name the values that are not finite. -/
def decimalNumber (position : Nat) (text : List Char) : Except ReadError (TokenKind × Nat) :=
  let whole := text.takeWhile Number.isDigit
  let fraction := fractionDigits (text.drop whole.length)
  let pointed := if fraction.isEmpty then 0 else 1 + fraction.length
  let exponent? := exponentPart? (text.drop (whole.length + pointed))
  if fraction.isEmpty && exponent?.isNone then
    let magnitude := Number.ofDigits whole
    if magnitude < integerLimit then .ok (.integer magnitude, whole.length)
    else
      let stop := position + whole.length
      .error ((SyntaxFault.integerOutOfRange (String.ofList whole)).foundAt stop)
  else
    let (exponent, marked) := exponent?.getD (0, 0)
    let width := whole.length + pointed + marked
    let rest := text.drop width
    if "Inf".toList.isPrefixOf rest then .ok (.float Number.infinity, width + 3)
    else if "NaN".toList.isPrefixOf rest then .ok (.float Number.notANumber, width + 3)
    else
      let number : Number.Decimal :=
        ⟨Number.ofDigits (whole ++ fraction), exponent - fraction.length⟩
      .ok (.float (Number.ofDecimal false number), width)

def radix? (letter : Char) : Option (Nat × (Char → Bool)) :=
  match letter with
  | 'x' => some (16, isHexDigit)
  | 'o' => some (8, isOctalDigit)
  | 'b' => some (2, isBinaryDigit)
  | _ => none

def radixNumber? (position : Nat) (text : List Char) :
    Option (Except ReadError (TokenKind × Nat)) :=
  match text with
  | '0' :: letter :: rest => do
      let (radix, isDigitOf) ← radix? letter
      let digits := rest.takeWhile isDigitOf
      guard (!digits.isEmpty)
      let magnitude := ofRadix radix digits
      if magnitude < integerLimit then some (.ok (.integer magnitude, 2 + digits.length))
      else
        let stop := position + 2 + digits.length
        some (.error (SyntaxFault.radixIntegerOutOfRange.foundAt stop))
  | _ => none

def number (position : Nat) (text : List Char) : Except ReadError (TokenKind × Nat) :=
  match text with
  | '0' :: '\x27' :: rest => do
      let (kind, width) ← characterCode (position + 2) rest
      .ok (kind, 2 + width)
  | _ => (radixNumber? position text).getD (decimalNumber position text)

def marks : List Char :=
  ['(', ')', '[', ']', '\x7b', '\x7d', ',', '|']

/-- Whether a point ends a clause: nothing, white space or a comment follows it. -/
def endsClause (rest : List Char) : Bool :=
  match rest with
  | [] => true
  | c :: _ => isBlank c || c = '%'

def scanOne (position : Nat) (c : Char) (rest : List Char) :
    Except ReadError (TokenKind × Nat) :=
  if Number.isDigit c then do
    let (kind, width) ← number position (c :: rest)
    .ok (kind, width - 1)
  else if c = '_' || isUppercase c then
    let more := rest.takeWhile isNameCharacter
    .ok (.var (String.ofList (c :: more)), more.length)
  else if isAlphabetic c then
    let more := rest.takeWhile isNameCharacter
    .ok (.name (String.ofList (c :: more)), more.length)
  else if c = '\x27' then do
    let (content, width) ← quotedText position c (position + 1) rest
    .ok (.quoted (String.ofList content), width)
  else if c = '\x22' || c = '\x60' then do
    let (content, width) ← quotedText position c (position + 1) rest
    .ok (.string (String.ofList content), width)
  else if marks.contains c then .ok (.punctuation c, 0)
  else if c = '!' || c = ';' then .ok (.name (String.ofList [c]), 0)
  else if c = '.' && endsClause rest then .ok (.clauseEnd, 0)
  else if isSymbol c then
    let more := rest.takeWhile isSymbol
    .ok (.name (String.ofList (c :: more)), more.length)
  else .error ((SyntaxFault.unexpectedCharacter c).foundAt position)

def scanFrom (position : Nat) (text : List Char) : Except ReadError (List Token) := do
  let skipped ← layoutLength position text
  match _h : text.drop skipped with
  | [] => .ok []
  | c :: rest =>
      let start := position + byteLength (text.take skipped)
      let (kind, more) ← scanOne start c rest
      let stop := start + c.utf8Size + byteLength (rest.take more)
      let others ← scanFrom stop (rest.drop more)
      .ok (⟨kind, start, stop, 0 < skipped⟩ :: others)
termination_by text.length
decreasing_by
  have shorter := congrArg List.length _h
  simp only [List.length_drop, List.length_cons] at shorter ⊢
  omega

def scan (text : List Char) : Except ReadError (List Token) :=
  scanFrom 0 text

end HornQuery.Token
