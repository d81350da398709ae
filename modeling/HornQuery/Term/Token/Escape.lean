import HornQuery.Number.Numeral
import HornQuery.Term.Token
import HornQuery.Text.Lines

namespace HornQuery.Token

open Text

def isHexDigit (c : Char) : Bool :=
  Number.isDigit c || ('a' ≤ c && c ≤ 'f') || ('A' ≤ c && c ≤ 'F')

def isOctalDigit (c : Char) : Bool :=
  '0' ≤ c && c ≤ '7'

def isBinaryDigit (c : Char) : Bool :=
  c = '0' || c = '1'

def hexValue (c : Char) : Nat :=
  if Number.isDigit c then Number.digitValue c
  else if 'a' ≤ c then c.toNat - 'a'.toNat + 10
  else c.toNat - 'A'.toNat + 10

def ofRadix (radix : Nat) (digits : List Char) : Nat :=
  digits.foldl (fun n c => n * radix + hexValue c) 0

/-- The number of an octal escape. It is kept in 32 bits, where a longer one wraps around. -/
def octalNumber (digits : List Char) : UInt32 :=
  digits.foldl (fun n c => n * 8 + UInt32.ofNat (hexValue c)) 0

def letterEscape? (c : Char) : Option Char :=
  match c with
  | 'n' => some '\n'
  | 't' => some '\t'
  | 'r' => some '\r'
  | 'a' => some '\x07'
  | 'b' => some '\x08'
  | 'f' => some '\x0c'
  | 'v' => some '\x0b'
  | 'e' => some '\x1b'
  | 's' => some ' '
  | '\\' => some c
  | '\x27' => some c
  | '\x22' => some c
  | '\x60' => some c
  | _ => none

/-- The characters that fill exactly the given number of bytes, or fewer at the end of the
text; none if a character straddles the boundary. -/
def window? : Nat → List Char → Option (List Char)
  | 0, _ => some []
  | _ + 1, [] => some []
  | bytes + 1, c :: rest =>
      if c.utf8Size ≤ bytes + 1 then
        (window? (bytes + 1 - c.utf8Size) rest).map (c :: ·)
      else none
termination_by _ text => text.length

/-- A hexadecimal number of up to eight digits, with an optional plus sign. -/
def hexNumber? (text : List Char) : Option Nat :=
  let digits :=
    match text with
    | '+' :: rest => rest
    | rest => rest
  if digits.isEmpty || !digits.all isHexDigit then none else some (ofRadix 16 digits)

def character (code position : Nat) : Except ReadError Char :=
  if code.isValidChar then .ok (Char.ofNat code)
  else .error (SyntaxFault.characterCode.foundAt position)

def closing (text : List Char) : Nat :=
  if text.head? = some '\\' then 1 else 0

/-- The escape after a backslash; a line end stands for no character. -/
def escape (position : Nat) : List Char → Except ReadError (Option Char × Nat)
  | [] => .error (.unexpectedEnd position)
  | c :: rest =>
      let after := position + c.utf8Size
      match letterEscape? c with
      | some decoded => .ok (some decoded, 1)
      | none =>
          if c = '\n' then .ok (none, 1)
          else if c = 'x' then do
            let digits := rest.takeWhile isHexDigit
            let stop := after + digits.length
            let code := ofRadix 16 digits
            if digits.isEmpty || UInt32.size ≤ code then
              .error (SyntaxFault.hexEscape.foundAt stop)
            else
              let close := closing (rest.drop digits.length)
              let decoded ← character code (stop + close)
              .ok (some decoded, 1 + digits.length + close)
          else if c = 'u' || c = 'U' then
            match window? (if c = 'u' then 4 else 8) rest with
            | none => .error (SyntaxFault.unicodeEscape.foundAt after)
            | some digits =>
                match hexNumber? digits with
                | none => .error (SyntaxFault.unicodeEscape.foundAt after)
                | some code => do
                    let decoded ← character code (after + byteLength digits)
                    .ok (some decoded, 1 + digits.length)
          else if isOctalDigit c then do
            let digits := rest.takeWhile isOctalDigit
            let close := closing (rest.drop digits.length)
            let decoded ← character (octalNumber (c :: digits)).toNat (after + digits.length + close)
            .ok (some decoded, 1 + digits.length + close)
          else .error ((SyntaxFault.unknownEscape c).foundAt after)

/-- The text between quotes, read from after the opening quote at byte `opening` through the
closing one. A quote written twice stands for itself. -/
def quotedText (opening : Nat) (quote : Char) (position : Nat) :
    List Char → Except ReadError (List Char × Nat)
  | [] => .error (.unexpectedEnd opening)
  | c :: rest =>
      if c = quote then
        match rest with
        | [] => .ok ([], 1)
        | next :: more =>
            if next = quote then do
              let (content, taken) ←
                quotedText opening quote (position + c.utf8Size + next.utf8Size) more
              .ok (quote :: content, taken + 2)
            else .ok ([], 1)
      else if c = '\\' then do
        let (decoded?, width) ← escape (position + c.utf8Size) rest
        let (content, taken) ←
          quotedText opening quote
            (position + c.utf8Size + byteLength (rest.take width)) (rest.drop width)
        .ok (decoded?.toList ++ content, 1 + width + taken)
      else do
        let (content, taken) ← quotedText opening quote (position + c.utf8Size) rest
        .ok (c :: content, taken + 1)
termination_by text => text.length
decreasing_by
  all_goals simp only [List.length_drop, List.length_cons]
  all_goals omega

end HornQuery.Token
