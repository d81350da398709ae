import HornQuery.Toml.Basic
import HornQuery.Toml.Number

namespace HornQuery.Toml

def isWordCharacter (c : Char) : Bool :=
  Token.isHexDigit c || ('a' ≤ c && c ≤ 'z') || ('A' ≤ c && c ≤ 'Z')
    || c = '_' || c = '-' || c = '+' || c = '.'

def word? (text : List Char) : Step Toml :=
  let word := text.takeWhile isWordCharacter
  let value? :=
    if word = "true".toList then some (Toml.bool true)
    else if word = "false".toList then some (Toml.bool false)
    else
      match integer? word with
      | some value => some (Toml.integer value)
      | none => (float? word).map Toml.float
  value?.map fun value => (value, word.length)

def scalar? (text : List Char) : Step Toml :=
  match text.head? with
  | none => none
  | some c =>
      if c = '\x22' || c = '\x27' then
        (string? text).map fun (content, taken) => (.string (String.ofList content), taken)
      else if startsDate text || startsTime text then
        (moment? text).map fun (value, taken) => (.moment value, taken)
      else word? text

mutual
def value? (levels : Nat) (text : List Char) : Step Toml :=
  match text with
  | [] => none
  | c :: rest =>
      if c = '[' then
        if levels = 0 then none
        else
          (items? (levels - 1) rest).map fun (items, taken) => (.array items, 1 + taken)
      else if c = '\x7b' then
        let blanks := spaceLength rest
        if levels = 0 then none
        else if (rest.drop blanks).head? = some '\x7d' then
          some (.table .inline [], 2 + blanks)
        else
          (entries? (levels - 1) [] rest).map fun (entries, taken) =>
            (.table .inline entries, 1 + taken)
      else scalar? (c :: rest)
termination_by (text.length, 0)
decreasing_by
  all_goals simp only [List.length_cons]
  all_goals exact Prod.Lex.left _ _ (by omega)

def items? (levels : Nat) (text : List Char) : Step (List Toml) :=
  let gap := gapLength text
  if (text.drop gap).head? = some ']' then some ([], gap + 1)
  else
    match value? levels (text.drop gap) with
    | none => none
    | some (value, width) =>
        let after := gap + width
        let taken := after + gapLength (text.drop after)
        match _h : text.drop taken with
        | mark :: rest =>
            if mark = ',' then
              (items? levels rest).map fun (values, more) => (value :: values, taken + 1 + more)
            else if mark = ']' then some ([value], taken + 1)
            else none
        | [] => none
termination_by (text.length, 1)
decreasing_by
  · simp only [List.length_drop]
    by_cases h : gapLength text = 0 ∨ text.length = 0
    · exact (by
        have same : text.length - gapLength text = text.length := by omega
        rw [same]
        exact Prod.Lex.right _ (by decide))
    · exact Prod.Lex.left _ _ (by omega)
  · have shorter := congrArg List.length _h
    simp only [List.length_drop, List.length_cons] at shorter
    exact Prod.Lex.left _ _ (by omega)

def entries? (levels : Nat) (found : Entries) (text : List Char) : Step Entries :=
  match key? text with
  | none => none
  | some (names, width) =>
      match _h : text.drop width with
      | '=' :: rest =>
          let blanks := spaceLength rest
          match value? levels (rest.drop blanks) with
          | none => none
          | some (value, taken) =>
              match insert? value names found with
              | none => none
              | some found =>
                  let after := blanks + taken
                  let all := after + spaceLength (rest.drop after)
                  match _h' : rest.drop all with
                  | mark :: more =>
                      if mark = ',' then
                        (entries? levels found more).map fun (entries, further) =>
                          (entries, width + 1 + all + 1 + further)
                      else if mark = '\x7d' then some (found, width + 1 + all + 1)
                      else none
                  | [] => none
      | _ => none
termination_by (text.length, 1)
decreasing_by
  · have shorter := congrArg List.length _h
    simp only [List.length_drop, List.length_cons] at shorter ⊢
    exact Prod.Lex.left _ _ (by omega)
  · have shorter := congrArg List.length _h
    have shorter' := congrArg List.length _h'
    simp only [List.length_drop, List.length_cons] at shorter shorter'
    exact Prod.Lex.left _ _ (by omega)
end

/-! Documents -/

/-- Whether nothing but blanks and a comment stands before the end of the line, and how long
that is with the end. -/
def lineEnd? (text : List Char) : Option Nat :=
  let blanks := spaceLength text
  let width := blanks + commentLength (text.drop blanks)
  match text.drop width with
  | [] => some width
  | rest =>
      let newLine := newLineLength rest
      if 0 < newLine then some (width + newLine) else none

def header? (text : List Char) : Step Header :=
  let brackets := if text.take 2 = ['[', '['] then 2 else 1
  match key? (text.drop brackets) with
  | some (path, width) =>
      if (text.drop (brackets + width)).take brackets = List.replicate brackets ']' then
        some (⟨path, brackets = 2⟩, width + 2 * brackets)
      else none
  | none => none

def entry? (text : List Char) : Step (List String × Toml) :=
  match key? text with
  | none => none
  | some (names, width) =>
      match text.drop width with
      | '=' :: rest =>
          let blanks := spaceLength rest
          (value? depthLimit (rest.drop blanks)).map fun (value, taken) =>
            ((names, value), width + 1 + blanks + taken)
      | _ => none

def lines? (path : List String) (entries : Entries) (text : List Char) : Option Entries :=
  let gap := gapLength text
  match _h : text.drop gap with
  | [] => some entries
  | '[' :: rest =>
      match header? ('[' :: rest) with
      | none => none
      | some (header, width) =>
          match header.open? entries, lineEnd? (rest.drop (width - 1)) with
          | some opened, some ending =>
              lines? header.path opened (rest.drop (width - 1 + ending))
          | _, _ => none
  | c :: rest =>
      match entry? (c :: rest) with
      | none => none
      | some ((names, value), width) =>
          match changeAt? (insert? value names) path entries,
              lineEnd? (rest.drop (width - 1)) with
          | some changed, some ending => lines? path changed (rest.drop (width - 1 + ending))
          | _, _ => none
termination_by text.length
decreasing_by
  all_goals have shorter := congrArg List.length _h
  all_goals simp only [List.length_drop, List.length_cons] at shorter ⊢
  all_goals omega

def dropMark (text : List Char) : List Char :=
  match text with
  | '\ufeff' :: rest => rest
  | _ => text

def parse? (text : String) : Option Entries :=
  lines? [] [] (dropMark text.toList)

end HornQuery.Toml
