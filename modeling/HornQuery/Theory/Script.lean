import HornQuery.Answer.Plain
import HornQuery.Answer.Weighted
import HornQuery.Term.Matching
import HornQuery.Theory.Basic

namespace HornQuery.Theory

def libraryDirective (name : String) : String :=
  s!":- use_module(library({(Term.atom name).text}))."

def swiLine : Entry → String
  | .clause text => text
  | .library name => libraryDirective name
  | .asserted fact => s!":- assertz(({fact.clauseText}))."
  | .retracted fact => s!":- retract(({fact}))."

def dynamicDirective (indicator : Indicator) : String :=
  s!":- dynamic({indicator.text})."

def ofLines (lines : List String) : String :=
  String.join (lines.map fun line => line ++ "\n")

def swiScript (theory : Theory) : String :=
  ofLines (theory.dynamic.map dynamicDirective ++ theory.entries.map swiLine)

/-- A script under construction: its lines, where a retracted fact leaves a gap, and the facts
that are still there with the numbers of their lines. -/
structure Draft where
  lines : List (Option String)
  facts : List (Nat × Term)

namespace Draft

def addLine (draft : Draft) (line : String) : Draft :=
  { draft with lines := draft.lines ++ [some line] }

def addFact (draft : Draft) (fact : Term) : Draft where
  lines := draft.lines ++ [some (fact.clauseText ++ ".")]
  facts := draft.facts ++ [(draft.lines.length, fact)]

/-- Removes the earliest fact that a pattern matches. -/
def removeFact (draft : Draft) (pattern : Term) : Draft :=
  match draft.facts.findIdx? fun fact => pattern.matches fact.2 with
  | none => draft
  | some index =>
      match draft.facts[index]? with
      | none => draft
      | some (line, _) => ⟨draft.lines.set line none, draft.facts.eraseIdx index⟩

/-- The draft after one more entry; a retraction that cannot be read changes nothing. -/
def step (draft : Draft) : Entry → Draft
  | .clause text => draft.addLine text
  | .library name => draft.addLine (libraryDirective name)
  | .asserted fact => draft.addFact fact
  | .retracted text =>
      match Term.parse text with
      | .ok pattern => draft.removeFact pattern
      | .error _ => draft

end Draft

def problogLines (theory : Theory) : List String :=
  (theory.entries.foldl Draft.step ⟨[], []⟩).lines.filterMap id

def problogScript (theory : Theory) : String :=
  ofLines theory.problogLines

end HornQuery.Theory
