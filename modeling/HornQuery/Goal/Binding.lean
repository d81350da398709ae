import HornQuery.Conversion.Template

namespace HornQuery

structure Binding where
  pattern : GoalPattern
  bound : List (String × String)

namespace Binding

def ofPattern (pattern : String) : Binding :=
  ⟨GoalPattern.compile pattern, []⟩

def placeholders (binding : Binding) : List String :=
  binding.pattern.placeholders

def isBound (binding : Binding) (name : String) : Bool :=
  (binding.bound.lookup name).isSome

def unbound (binding : Binding) : List String :=
  binding.placeholders.filter fun name => !binding.isBound name

/-- Binds a name known to be a placeholder. -/
def bindPlaceholder (policy : Policy) (name : String) (value : Value) :
    EStateM QueryError Binding Unit := do
  if (← get).isBound name then throw (.alreadyBound name)
  match policy.toTerm value with
  | .ok term =>
      modify fun binding => { binding with bound := (name, term.text) :: binding.bound }
  | .error cause => throw (.conversion cause)

/-- Binds the placeholder at an index in order of first introduction. -/
def bindAt (policy : Policy) (index : Nat) (value : Value) : EStateM QueryError Binding Unit := do
  let placeholders := (← get).placeholders
  match placeholders[index]? with
  | some name => bindPlaceholder policy name value
  | none => throw (.placeholderIndex index placeholders.length)

def bindNamed (policy : Policy) (name : String) (value : Value) :
    EStateM QueryError Binding Unit := do
  match (← get).pattern.indexOf? name with
  | some _ => bindPlaceholder policy name value
  | none => throw (.unknownPlaceholder name)

/-! Requests to a copy, for a caller that keeps the binding as it was. -/

def onCopy (binding : Binding) (request : EStateM QueryError Binding Unit) :
    Except QueryError Binding :=
  match request binding with
  | .ok _ next => .ok next
  | .error cause _ => .error cause

def bindIndex (binding : Binding) (policy : Policy) (index : Nat) (value : Value) :
    Except QueryError Binding :=
  binding.onCopy (bindAt policy index value)

def bindName (binding : Binding) (policy : Policy) (name : String) (value : Value) :
    Except QueryError Binding :=
  binding.onCopy (bindNamed policy name value)

/-- The goal with the remaining placeholders filled from values, in order. -/
def goalText (binding : Binding) (policy : Policy) (args : List Value) :
    Except QueryError String :=
  let expected := binding.placeholders.length - binding.bound.length
  if args.length ≠ expected then .error (.placeholderCount expected args.length)
  else
    match policy.replacements binding.unbound args with
    | .ok filled => .ok (binding.pattern.render (filled ++ binding.bound))
    | .error cause => .error (.conversion cause)

end Binding

end HornQuery
