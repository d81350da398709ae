import HornQuery.Text.Alphabetic
import HornQuery.Text.Blank
import HornQuery.Text.Lowercase
import HornQuery.Text.Numeric
import HornQuery.Text.Uppercase

namespace HornQuery.Text

def isAlphanumeric (c : Char) : Bool :=
  isAlphabetic c || isNumeric c

def isNameCharacter (c : Char) : Bool :=
  isAlphanumeric c || c = '_'

def isControl (c : Char) : Bool :=
  c.toNat < 0x20 || (0x7f ≤ c.toNat && c.toNat < 0xa0)

def symbolCharacters : List Char :=
  "+-*/\\^<>=~:.?@#&$".toList

def isSymbol (c : Char) : Bool :=
  symbolCharacters.contains c

end HornQuery.Text
