import HornQuery.Text.Unprintable

/-! Text in double quotes, as summaries show it: the quote and the backslash are escaped, four
controls have letters of their own, and a character that cannot be printed is given by its number in
braces. -/

namespace HornQuery.Text

def hexadecimal (n : Nat) : List Char :=
  Nat.toDigits 16 n

def showCharacter (c : Char) : List Char :=
  if c = '\x22' then ['\\', '\x22']
  else if c = '\\' then ['\\', '\\']
  else if c = '\n' then ['\\', 'n']
  else if c = '\r' then ['\\', 'r']
  else if c = '\t' then ['\\', 't']
  else if c = '\x00' then ['\\', '0']
  else if isUnprintable c then
    ['\\', 'u', '\x7b'] ++ hexadecimal c.toNat ++ ['\x7d']
  else [c]

def quoted (text : String) : String :=
  String.ofList ('\x22' :: (text.toList.flatMap showCharacter ++ ['\x22']))

/-- A path in double quotes also escapes the apostrophe. -/
def quotedPath (path : String) : String :=
  let shown := path.toList.flatMap fun c =>
    if c = '\x27' then ['\\', c] else showCharacter c
  String.ofList ('\x22' :: (shown ++ ['\x22']))

end HornQuery.Text
