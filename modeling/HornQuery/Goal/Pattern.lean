import HornQuery.Text.Characters
import HornQuery.Text.Lines

namespace HornQuery

inductive Segment where
  | literal (text : List Char)
  | placeholder (name : String)
deriving DecidableEq, Inhabited

structure GoalPattern where
  source : String
  segments : List Segment
deriving DecidableEq, Inhabited

def Text.occursIn (needle : List Char) : List Char → Bool
  | [] => needle.isEmpty
  | c :: rest => needle.isPrefixOf (c :: rest) || occursIn needle rest

namespace GoalPattern

def numberedStem (n : Nat) : List Char :=
  'P' :: (Nat.toDigits 10 n ++ ['_'])

/-- A stem that the pattern does not contain. A text cannot contain more numbered stems than
it has characters, so one of the first ones is free. -/
def freshStem (pattern : List Char) : List Char :=
  let plainStem := ['P', '_']
  if !Text.occursIn plainStem pattern then plainStem
  else
    let numbered := (List.range (pattern.length + 1)).map numberedStem
    (numbered.find? fun stem => !Text.occursIn stem pattern).getD plainStem

/-- A character in front of segments; neighbouring literal characters make one segment. -/
def consLiteral (c : Char) : List Segment → List Segment
  | .literal text :: rest => .literal (c :: text) :: rest
  | segments => .literal [c] :: segments

def segmentsFrom (stem : List Char) (count : Nat) : List Char → List Segment
  | [] => []
  | '?' :: '?' :: rest => consLiteral '?' (segmentsFrom stem count rest)
  | '?' :: rest =>
      let name := rest.takeWhile Text.isNameCharacter
      let name' := if name.isEmpty then stem ++ Nat.toDigits 10 count else name
      .placeholder (String.ofList name')
        :: segmentsFrom stem (count + 1) (rest.drop name.length)
  | c :: rest => consLiteral c (segmentsFrom stem count rest)
termination_by text => text.length
decreasing_by
  all_goals simp only [List.length_drop, List.length_cons]
  all_goals omega

def compile (source : String) : GoalPattern where
  source := source
  segments := segmentsFrom (freshStem source.toList) 0 source.toList

def segmentNames (segments : List Segment) : List String :=
  segments.filterMap fun segment =>
    match segment with
    | .placeholder name => some name
    | .literal _ => none

def firstOccurrences (names : List String) : List String :=
  names.foldl (fun found name => if found.contains name then found else found ++ [name]) []

def placeholders (pattern : GoalPattern) : List String :=
  firstOccurrences (segmentNames pattern.segments)

def indexOf? (pattern : GoalPattern) (name : String) : Option Nat :=
  pattern.placeholders.findIdx? (· = name)

/-- Writes segments, the first occurrence of each name as its replacement if it has one and
has not been written yet, any other as the name itself. -/
def renderSegments (replacement? : String → Option (List Char)) (written : List String) :
    List Segment → List Char
  | [] => []
  | .literal text :: rest => text ++ renderSegments replacement? written rest
  | .placeholder name :: rest =>
      match if written.contains name then none else replacement? name with
      | some text => text ++ renderSegments replacement? (name :: written) rest
      | none => name.toList ++ renderSegments replacement? written rest

def render (pattern : GoalPattern) (replacements : List (String × String)) : String :=
  let replacement? := fun name => (replacements.lookup name).map String.toList
  String.ofList (renderSegments replacement? [] pattern.segments)

def canonical (pattern : GoalPattern) : String :=
  pattern.render []

end GoalPattern

end HornQuery
