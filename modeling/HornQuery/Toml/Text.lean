import HornQuery.Number.Numeral
import HornQuery.Term.Token.Escape
import HornQuery.Text.Lines

/-! Reading the smallest parts of TOML: blanks, comments, strings of all four kinds, and keys. -/

namespace HornQuery.Toml

abbrev Step (α : Type) := Option (α × Nat)

/-! Blanks and comments -/

def isSpace (c : Char) : Bool := c = ' ' || c = '\t'

def spaceLength (text : List Char) : Nat :=
  (text.takeWhile isSpace).length

/-- Controls other than the tab may not stand in comments and strings. -/
def isPlain (c : Char) : Bool :=
  c = '\t' || (0x20 ≤ c.toNat && c.toNat ≠ 0x7f)

def commentLength (text : List Char) : Nat :=
  match text with
  | '#' :: rest => 1 + (rest.takeWhile isPlain).length
  | _ => 0

def newLineLength (text : List Char) : Nat :=
  match text with
  | '\n' :: _ => 1
  | '\r' :: '\n' :: _ => 2
  | _ => 0

def lineGapLength (text : List Char) : Nat :=
  let blanks := spaceLength text
  let comment := commentLength (text.drop blanks)
  blanks + comment + newLineLength (text.drop (blanks + comment))

/-- Blanks, line ends and comments over any number of lines. -/
def gapLength (text : List Char) : Nat :=
  if _h : 0 < lineGapLength text ∧ 0 < text.length then
    lineGapLength text + gapLength (text.drop (lineGapLength text))
  else 0
termination_by text.length
decreasing_by
  simp only [List.length_drop]
  omega

/-! Strings -/

def escape? (text : List Char) : Step Char :=
  match text with
  | 'b' :: _ => some ('\x08', 1)
  | 't' :: _ => some ('\t', 1)
  | 'n' :: _ => some ('\n', 1)
  | 'f' :: _ => some ('\x0c', 1)
  | 'r' :: _ => some ('\r', 1)
  | '\x22' :: _ => some ('\x22', 1)
  | '\\' :: _ => some ('\\', 1)
  | letter :: rest =>
      let width := if letter = 'u' then 4 else if letter = 'U' then 8 else 0
      let digits := rest.take width
      let code := Token.ofRadix 16 digits
      if width = 0 || digits.length < width || !digits.all Token.isHexDigit then none
      else if code.isValidChar then some (Char.ofNat code, 1 + width)
      else none
  | [] => none

def basicString? (text : List Char) : Step (List Char) :=
  match text with
  | [] => none
  | c :: rest =>
      if c = '\x22' then some ([], 1)
      else if c = '\\' then
        match escape? rest with
        | some (decoded, width) =>
            (basicString? (rest.drop width)).map fun (content, taken) =>
              (decoded :: content, 1 + width + taken)
        | none => none
      else if isPlain c then
        (basicString? rest).map fun (content, taken) => (c :: content, 1 + taken)
      else none
termination_by text.length
decreasing_by
  all_goals simp only [List.length_drop, List.length_cons]
  all_goals omega

def literalString? (text : List Char) : Step (List Char) :=
  let content := text.takeWhile fun c => isPlain c && c ≠ '\x27'
  match text.drop content.length with
  | '\x27' :: _ => some (content, content.length + 1)
  | _ => none

/-- How many quotes, of at most five, a text starts with. -/
def quoteRun (quote : Char) (text : List Char) : Nat :=
  ((text.take 5).takeWhile (· = quote)).length

def whiteLength : List Char → Nat
  | '\n' :: rest => 1 + whiteLength rest
  | '\r' :: '\n' :: rest => 2 + whiteLength rest
  | c :: rest => if isSpace c then 1 + whiteLength rest else 0
  | [] => 0

/-- A string over several lines, after its opening quotes. A backslash at the end of a line
skips the blanks and line ends after it; up to two quotes may stand before the closing ones. -/
def longString? (quote : Char) (text : List Char) : Step (List Char) :=
  match text with
  | [] => none
  | c :: rest =>
      let run := quoteRun quote (c :: rest)
      if 3 ≤ run then some (List.replicate (run - 3) quote, run)
      else if c = '\\' && quote = '\x22' then
        let blanks := spaceLength rest
        if 0 < newLineLength (rest.drop blanks) then
          let skipped := whiteLength rest
          (longString? quote (rest.drop skipped)).map fun (content, taken) =>
            (content, 1 + skipped + taken)
        else
          match escape? rest with
          | some (decoded, width) =>
              (longString? quote (rest.drop width)).map fun (content, taken) =>
                (decoded :: content, 1 + width + taken)
          | none => none
      else if c = '\r' then
        if rest.head? = some '\n' then
          (longString? quote rest).map fun (content, taken) => (content, 1 + taken)
        else none
      else if isPlain c || c = '\n' then
        (longString? quote rest).map fun (content, taken) => (c :: content, 1 + taken)
      else none
termination_by text.length
decreasing_by
  all_goals simp only [List.length_drop, List.length_cons]
  all_goals omega

def string? (text : List Char) : Step (List Char) :=
  match text with
  | quote :: rest =>
      if quote = '\x22' || quote = '\x27' then
        if rest.take 2 = [quote, quote] then
          let first := newLineLength (rest.drop 2)
          (longString? quote (rest.drop (2 + first))).map fun (content, taken) =>
            (content, 3 + first + taken)
        else
          let content? := if quote = '\x22' then basicString? rest else literalString? rest
          content?.map fun (content, taken) => (content, 1 + taken)
      else none
  | [] => none

/-! Keys -/

def isBareKeyCharacter (c : Char) : Bool :=
  ('a' ≤ c && c ≤ 'z') || ('A' ≤ c && c ≤ 'Z') || Number.isDigit c || c = '_' || c = '-'

def simpleKey? (text : List Char) : Step String :=
  match text with
  | '\x22' :: rest =>
      (basicString? rest).map fun (content, taken) => (String.ofList content, 1 + taken)
  | '\x27' :: rest =>
      (literalString? rest).map fun (content, taken) => (String.ofList content, 1 + taken)
  | _ =>
      let bare := text.takeWhile isBareKeyCharacter
      if bare.isEmpty then none else some (String.ofList bare, bare.length)

def names? (text : List Char) : Step (List String) :=
  let before := spaceLength text
  match simpleKey? (text.drop before) with
  | none => none
  | some (name, width) =>
      let after := spaceLength (text.drop (before + width))
      let taken := before + width + after
      match _h : text.drop taken with
      | '.' :: rest =>
          (names? rest).map fun (names, more) => (name :: names, taken + 1 + more)
      | _ => some ([name], taken)
termination_by text.length
decreasing_by
  have shorter := congrArg List.length _h
  simp only [List.length_drop, List.length_cons] at shorter
  omega

/-- How deep arrays and inline tables may lie in each other, and how many names a key has at
most. -/
def depthLimit : Nat := 79

def key? (text : List Char) : Step (List String) :=
  (names? text).filter fun (names, _) => names.length ≤ depthLimit

end HornQuery.Toml
