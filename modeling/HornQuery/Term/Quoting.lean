import HornQuery.Text.Characters
import HornQuery.Text.Quoted

namespace HornQuery.Term

open Text

def bareNames : List String := ["[]", "\x7b\x7d", "!", ";"]

/-- Whether a name has to be quoted to be read back as itself. A lone point would end the
clause and `/*` would begin a comment. -/
def needsQuotes (name : String) : Bool :=
  if bareNames.contains name then false
  else
    match name.toList with
    | [] => true
    | first :: rest =>
        if isLowercase first then !rest.all isNameCharacter
        else if isSymbol first then
          !(first :: rest).all isSymbol || name = "."
            || (first = '/' && rest.head? = some '*')
        else true

def escapeCharacter (c : Char) : List Char :=
  if c = '\x27' then ['\\', '\x27']
  else if c = '\\' then ['\\', '\\']
  else if c = '\n' then ['\\', 'n']
  else if c = '\t' then ['\\', 't']
  else if c = '\r' then ['\\', 'r']
  else if isControl c then '\\' :: 'x' :: (hexadecimal c.toNat ++ ['\\'])
  else [c]

def quoteName (name : String) : List Char :=
  '\x27' :: (name.toList.flatMap escapeCharacter ++ ['\x27'])

def writeName (name : String) : List Char :=
  if needsQuotes name then quoteName name else name.toList

/-- In front of an argument list the two bracket names are quoted as well. -/
def writeFunctor (name : String) : List Char :=
  if name = "[]" || name = "\x7b\x7d" then quoteName name else writeName name

end HornQuery.Term
