import HornQuery.Conversion.Policy

namespace HornQuery

section

variable {α β : Type} {whole : α} {parts : List (Except ConversionError β)}

def declines : Except ConversionError (Option β) → Bool
  | .ok none => true
  | _ => false

/-- The result of a search for a converter, with what it was for. -/
def settled (subject : String) : Except ConversionError (Option β) → Except ConversionError β
  | .error cause => .error cause
  | .ok (some result) => .ok result
  | .ok none => .error (.noConverter subject)

theorem declines_iff {answer : Except ConversionError (Option β)} :
    declines answer = true ↔ answer = .ok none := by
  cases answer with
  | error cause => exact iff_of_false nofun nofun
  | ok result =>
      cases result with
      | none => exact iff_of_true rfl rfl
      | some value => exact iff_of_false nofun nofun

theorem askConverters_cons (converter : Converter α β) (others : List (Converter α β)) :
    askConverters whole parts (converter :: others) =
      if declines (converter whole parts) then askConverters whole parts others
      else converter whole parts := by
  rw [askConverters]
  cases answered : converter whole parts with
  | error cause => rfl
  | ok result => cases result <;> rfl

theorem askConverters_eq_find? (converters : List (Converter α β)) :
    askConverters whole parts converters =
      ((converters.map fun converter => converter whole parts).find? (!declines ·)).getD
        (.ok none) := by
  induction converters with
  | nil => rfl
  | cons converter others induction =>
      rw [askConverters_cons, induction, List.map_cons, List.find?_cons]
      cases declines (converter whole parts) <;> rfl

theorem askConverters_append (former latter : List (Converter α β)) :
    askConverters whole parts (former ++ latter) =
      if declines (askConverters whole parts former) then askConverters whole parts latter
      else askConverters whole parts former := by
  induction former with
  | nil => rfl
  | cons converter former induction =>
      rw [List.cons_append, askConverters_cons, askConverters_cons, induction]
      cases declined : declines (converter whole parts) with
      | true => rfl
      | false => simp [declined]

end

def Value.parts : Value → List Value
  | .list items => items
  | .array items => items
  | .compound _ args => args
  | _ => []

namespace Policy

variable {policy : Policy} {value : Value} {term : Term}

theorem toTerm_eq_termOf (some : value ≠ .null) :
    policy.toTerm value = policy.termOf value (policy.toTerms value.parts) := by
  cases value with
  | null => exact absurd rfl some
  | int number => rfl
  | float number => rfl
  | string text => rfl
  | list items => rfl
  | array items => rfl
  | compound functor args => rfl
  | term inner => rfl
  | object host => rfl

theorem toHost_eq_valueOf (policy : Policy) (term : Term) :
    policy.toHost term = policy.valueOf term (policy.toHosts term.parts) := by
  cases term with
  | atom name => rfl
  | integer value => rfl
  | float value => rfl
  | compound functor args => rfl
  | list items => rfl
  | var name => rfl

theorem toTerm_eq_settled (some : value ≠ .null) :
    policy.toTerm value =
      settled s!"value of type `{value.typeTag.name}`"
        (askConverters value (policy.toTerms value.parts)
          ((policy.candidates value).filterMap fun tag => policy.objectConverters.lookup tag)) := by
  rw [toTerm_eq_termOf some, termOf]
  generalize askConverters value _ _ = answer
  rcases answer with cause | (_ | result) <;> rfl

theorem toHost_eq_settled (bound : term.isVariable = false) :
    policy.toHost term =
      settled s!"{term.termClass.label} term `{term.text}`"
        (askConverters term (policy.toHosts term.parts) (policy.convertersFor term)) := by
  rw [toHost_eq_valueOf, valueOf, bound, if_neg Bool.false_ne_true]
  generalize askConverters term _ _ = answer
  rcases answer with cause | (_ | result) <;> rfl

end Policy

end HornQuery
