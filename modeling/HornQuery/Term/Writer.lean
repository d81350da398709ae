import HornQuery.Number.Layout
import HornQuery.Term.Basic
import HornQuery.Term.Quoting
import HornQuery.Text.Lines

namespace HornQuery

/-- Numbers always carry a point, so that they are read back as numbers with a fraction. -/
def Term.floatLayout : Number.Layout where
  positional exponent := -4 ≤ exponent && exponent < 16
  pointAfterWhole := true
  pointAfterMantissa := true
  plusSign := false
  tie := .up
  infinity := "1.0Inf"
  notANumber := "1.5NaN"

/-- The text of a term, and its text after the items of a list of which it is the tail. -/
structure Written where
  text : List Char
  asTail : List Char

namespace Written

def leaf (text : List Char) : Written :=
  ⟨text, '|' :: text⟩

def items (parts : List Written) : List Char :=
  Text.joinWith [','] (parts.map Written.text)

def ofList (parts : List Written) : Written where
  text := '[' :: (items parts ++ [']'])
  asTail := parts.flatMap fun part => ',' :: part.text

def functional (functor : String) (parts : List Written) : Written :=
  leaf (Term.writeFunctor functor ++ '(' :: (items parts ++ [')']))

def ofCompound (functor : String) (parts : List Written) : Written :=
  match parts with
  | [item, tail] =>
      if functor = Term.listCell then
        ⟨'[' :: (item.text ++ tail.asTail ++ [']']), ',' :: (item.text ++ tail.asTail)⟩
      else functional functor parts
  | [inner] =>
      if functor = "\x7b\x7d" then leaf ('\x7b' :: (inner.text ++ ['\x7d']))
      else functional functor parts
  | _ => functional functor parts

end Written

def writeInteger (n : Int) : List Char :=
  if n < 0 then '-' :: Nat.toDigits 10 n.natAbs else Nat.toDigits 10 n.natAbs

mutual
def Term.written : Term → Written
  | .atom name => .leaf (Term.writeName name)
  | .integer value => .leaf (writeInteger value.toInt)
  | .float value => .leaf (Term.floatLayout.write value)
  | .var name => .leaf name.toList
  | .list items => .ofList (Term.writtenAll items)
  | .compound functor args => .ofCompound functor (Term.writtenAll args)

def Term.writtenAll : List Term → List Written
  | [] => []
  | term :: terms => term.written :: Term.writtenAll terms
end

theorem Term.writtenAll_eq_map (terms : List Term) :
    Term.writtenAll terms = terms.map Term.written := by
  induction terms with
  | nil => simp [Term.writtenAll]
  | cons term terms induction => simp [Term.writtenAll, induction]

namespace Term

def write (term : Term) : List Char :=
  term.written.text

def text (term : Term) : String :=
  String.ofList term.write

/-- Clause text: a rule is written with its arrow between head and body. -/
def clauseText (term : Term) : String :=
  match term.rule? with
  | some (head, body) => head.text ++ " :- " ++ body.text
  | none => term.text

end Term

end HornQuery
