import HornQuery.Toml.Text

namespace HornQuery.Toml

def longestRun (mark : Char) (text : List Char) : Nat :=
  (text.foldl
    (fun (best, run) c => if c = mark then (max best (run + 1), run + 1) else (best, 0))
    (0, 0)).1

def isControl (c : Char) : Bool :=
  c.toNat < 0x20 || c.toNat = 0x7f

/-! Escapes -/

def hexadecimal4 (n : Nat) : List Char :=
  let digits := (Nat.toDigits 16 n).map Char.toUpper
  List.replicate (4 - digits.length) '0' ++ digits

def escapeCharacter (multiline : Bool) (c : Char) : List Char :=
  if c = '\x08' then ['\\', 'b']
  else if c = '\t' then ['\\', 't']
  else if c = '\n' then if multiline then [c] else ['\\', 'n']
  else if c = '\x0c' then ['\\', 'f']
  else if c = '\r' then ['\\', 'r']
  else if c = '\\' then ['\\', '\\']
  else if isControl c then '\\' :: 'u' :: hexadecimal4 c.toNat
  else [c]

/-- A text with escapes, after so many quotes that stand bare. Over several lines two quotes in
a row stay bare, on one line none does. -/
def escapeFrom (multiline : Bool) (bare : Nat) : List Char → List Char
  | [] => []
  | c :: rest =>
      if c = '\x22' then
        if multiline && bare < 2 then c :: escapeFrom multiline (bare + 1) rest
        else '\\' :: c :: escapeFrom multiline 0 rest
      else escapeCharacter multiline c ++ escapeFrom multiline 0 rest

/-! Strings -/

inductive Quoting where
  | basic
  | literal
  | longBasic
  | longLiteral
deriving DecidableEq, Inhabited

def quoting (text : List Char) : Quoting :=
  let coded := text.any fun c => isControl c && c ≠ '\t' && c ≠ '\n'
  let escaped := coded || text.contains '\\'
  let isLong := text.contains '\n'
  if !escaped && !isLong && longestRun '\x22' text = 0 then .basic
  else if !coded && !isLong && longestRun '\x27' text = 0 then .literal
  else if !escaped && longestRun '\x22' text ≤ 2 then .longBasic
  else if !coded && longestRun '\x27' text ≤ 2 then .longLiteral
  else if isLong then .longBasic
  else .basic

/-- A text of several lines starts on a line of its own. -/
def writeQuoted (quoting : Quoting) (text : List Char) : List Char :=
  let start := if text.contains '\n' then ['\n'] else []
  match quoting with
  | .basic => '\x22' :: (escapeFrom false 0 text ++ ['\x22'])
  | .literal => '\x27' :: (text ++ ['\x27'])
  | .longBasic => "\"\"\"".toList ++ start ++ escapeFrom true 0 text ++ "\"\"\"".toList
  | .longLiteral => "'''".toList ++ start ++ text ++ "'''".toList

def writeString (text : String) : String :=
  String.ofList (writeQuoted (quoting text.toList) text.toList)

/-! Keys -/

/-- A key stays on one line, so a line feed in it is escaped like other controls. -/
def keyQuoting (key : List Char) : Quoting :=
  let coded := key.any fun c => isControl c && c ≠ '\t'
  let escaped := coded || key.contains '\\'
  if !escaped && !key.contains '\x22' then .basic
  else if !coded && !key.contains '\x27' then .literal
  else .basic

def writeKey (key : String) : String :=
  if !key.isEmpty && key.toList.all isBareKeyCharacter then key
  else String.ofList (writeQuoted (keyQuoting key.toList) key.toList)

end HornQuery.Toml
