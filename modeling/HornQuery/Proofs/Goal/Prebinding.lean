import HornQuery.Proofs.Conversion.Standard
import HornQuery.Proofs.Goal.Pieces

namespace HornQuery

namespace GoalPattern

theorem nodup_foldl_firstOccurrences {names found : List String} (distinct : found.Nodup) :
    (names.foldl (fun found name => if found.contains name then found else found ++ [name])
      found).Nodup := by
  induction names generalizing found with
  | nil => exact distinct
  | cons name names induction =>
      rw [List.foldl_cons]
      apply induction
      split
      case isTrue => exact distinct
      case isFalse new =>
        have absent : name ∉ found := by simpa using new
        exact List.nodup_append.mpr ⟨distinct, List.nodup_singleton name, by
          intro other member last isLast same
          rw [List.mem_singleton.mp isLast] at same
          exact absent (same ▸ member)⟩

theorem nodup_placeholders (pattern : GoalPattern) : pattern.placeholders.Nodup :=
  nodup_foldl_firstOccurrences List.nodup_nil

theorem render_congr (pattern : GoalPattern) {former latter : List (String × String)}
    (same : ∀ name, former.lookup name = latter.lookup name) :
    pattern.render former = pattern.render latter := by
  have replacements : (fun name => (former.lookup name).map String.toList) =
      fun name => (latter.lookup name).map String.toList := by
    funext name
    rw [same name]
  rw [render, render, replacements]

variable (pattern : GoalPattern) (text : Fin pattern.placeholders.length → String)

def name (index : Fin pattern.placeholders.length) : String :=
  pattern.placeholders.get index

def entry (index : Fin pattern.placeholders.length) : String × String :=
  (pattern.name index, text index)

theorem name_inj {index other : Fin pattern.placeholders.length} :
    pattern.name index = pattern.name other ↔ index = other :=
  List.nodup_iff_injective_get.mp pattern.nodup_placeholders |>.eq_iff

theorem map_name_finRange :
    (List.finRange pattern.placeholders.length).map pattern.name = pattern.placeholders :=
  List.map_get_finRange pattern.placeholders

theorem exists_name_of_mem {name : String} (member : name ∈ pattern.placeholders) :
    ∃ index, pattern.name index = name :=
  List.mem_iff_get.mp member

theorem lookup_entries (indices : List (Fin pattern.placeholders.length))
    (index : Fin pattern.placeholders.length) :
    (indices.map (pattern.entry text)).lookup (pattern.name index) =
      if index ∈ indices then some (text index) else none := by
  induction indices with
  | nil => rfl
  | cons first others induction =>
      rw [List.map_cons, entry, List.lookup_cons]
      by_cases same : index = first
      · subst same
        simp
      · have other : (pattern.name index == pattern.name first) = false :=
          beq_false_of_ne fun equal => same (pattern.name_inj.mp equal)
        rw [other, induction]
        simp [same]

theorem lookup_entries_of_notMem (indices : List (Fin pattern.placeholders.length))
    {name : String} (stranger : name ∉ pattern.placeholders) :
    (indices.map (pattern.entry text)).lookup name = none := by
  rw [List.lookup_eq_none_iff]
  intro found member
  obtain ⟨index, _, same⟩ := List.mem_map.mp member
  have own : pattern.name index ∈ pattern.placeholders := List.get_mem _ _
  rw [← same]
  exact bne_iff_ne.mpr fun equal => stranger (equal ▸ own)

theorem render_entries_congr {former latter : List (Fin pattern.placeholders.length)}
    (whole : ∀ index, index ∈ former) (all : ∀ index, index ∈ latter) :
    pattern.render (former.map (pattern.entry text)) =
      pattern.render (latter.map (pattern.entry text)) := by
  apply pattern.render_congr
  intro name
  by_cases own : name ∈ pattern.placeholders
  · obtain ⟨index, same⟩ := pattern.exists_name_of_mem own
    rw [← same, lookup_entries, lookup_entries, if_pos (whole index), if_pos (all index)]
  · rw [lookup_entries_of_notMem _ _ _ own, lookup_entries_of_notMem _ _ _ own]

end GoalPattern

namespace Binding

open GoalPattern

/-- What is done with a binding before the last arguments are passed: a placeholder is bound to
its value, by number or by name, or the goal is asked for with arguments of any kind. -/
inductive Action (count : Nat) where
  | bindIndex (index : Fin count)
  | bindName (index : Fin count)
  | goalText (args : List Value)

def Action.bound? {count : Nat} : Action count → Option (Fin count)
  | .bindIndex index => some index
  | .bindName index => some index
  | .goalText _ => none

def extend (binding : Binding) (name text : String) : Binding :=
  { binding with bound := (name, text) :: binding.bound }

section

variable {binding : Binding} {policy : Policy} {name : String} {value : Value}

theorem get_bind (next : Binding → EStateM QueryError Binding Unit) (binding : Binding) :
    (get >>= next) binding = next binding binding :=
  rfl

theorem bindPlaceholder_of_free {term : Term} (free : binding.isBound name = false)
    (converted : policy.toTerm value = .ok term) :
    bindPlaceholder policy name value binding = .ok () (binding.extend name term.text) := by
  rw [bindPlaceholder, get_bind, free, converted]
  rfl

theorem bindPlaceholder_of_isBound (bound : binding.isBound name = true) :
    bindPlaceholder policy name value binding = .error (.alreadyBound name) binding := by
  rw [bindPlaceholder, get_bind, bound]
  rfl

theorem bindPlaceholder_of_error {cause : ConversionError} (free : binding.isBound name = false)
    (refused : policy.toTerm value = .error cause) :
    bindPlaceholder policy name value binding = .error (.conversion cause) binding := by
  rw [bindPlaceholder, get_bind, free, refused]
  rfl

theorem bindAt_of_getElem? {index : Nat} (found : binding.placeholders[index]? = some name) :
    bindAt policy index value binding = bindPlaceholder policy name value binding := by
  rw [bindAt, get_bind, found]

theorem bindNamed_of_mem (member : name ∈ binding.placeholders) :
    bindNamed policy name value binding = bindPlaceholder policy name value binding := by
  have listed : (binding.pattern.indexOf? name).isSome = true := by
    rw [indexOf?, List.findIdx?_isSome, List.any_eq_true]
    exact ⟨name, member, decide_eq_true rfl⟩
  obtain ⟨place, isPlace⟩ := Option.isSome_iff_exists.mp listed
  rw [bindNamed, get_bind, isPlace]

end

section

variable {pattern : GoalPattern} (policy : Policy)
  (value : Fin pattern.placeholders.length → Value)

/-- A goal that is asked for may be refused, and the actions go on. -/
def perform : Action pattern.placeholders.length → EStateM QueryError Binding Unit
  | .bindIndex index => bindAt policy index (value index)
  | .bindName index => bindNamed policy (pattern.name index) (value index)
  | .goalText args => do
      match (← get).goalText policy args with
      | .ok _ => pure ()
      | .error _ => pure ()

def run (actions : List (Action pattern.placeholders.length)) : EStateM QueryError Binding Unit :=
  forM actions (perform policy value)

/-- The placeholders that the actions bind, the last one first. -/
def boundBy (actions : List (Action pattern.placeholders.length)) :
    List (Fin pattern.placeholders.length) :=
  (actions.filterMap Action.bound?).reverse

def remaining (bound : List (Fin pattern.placeholders.length)) :
    List (Fin pattern.placeholders.length) :=
  (List.finRange pattern.placeholders.length).filter (· ∉ bound)

end

section

variable {pattern : GoalPattern} {policy : Policy}
  {value : Fin pattern.placeholders.length → Value}
  {term : Fin pattern.placeholders.length → Term}
  {bound : List (Fin pattern.placeholders.length)}

/-- The pattern with some of its placeholders bound to the texts of their terms. -/
def partially (pattern : GoalPattern) (term : Fin pattern.placeholders.length → Term)
    (bound : List (Fin pattern.placeholders.length)) : Binding :=
  ⟨pattern, bound.map (pattern.entry fun index => (term index).text)⟩

theorem isBound_partially (index : Fin pattern.placeholders.length) :
    (partially pattern term bound).isBound (pattern.name index) = decide (index ∈ bound) := by
  rw [isBound, partially, lookup_entries]
  by_cases member : index ∈ bound
  · simp [member]
  · simp [member]

theorem unbound_partially :
    (partially pattern term bound).unbound = (remaining bound).map pattern.name := by
  have all : (partially pattern term bound).placeholders =
      (List.finRange pattern.placeholders.length).map pattern.name :=
    pattern.map_name_finRange.symm
  rw [unbound, all, List.filter_map, remaining]
  congr 1
  apply List.filter_congr
  intro index _
  rw [Function.comp_apply, isBound_partially]
  simp

theorem length_remaining (once : bound.Nodup) :
    (remaining bound).length = pattern.placeholders.length - bound.length := by
  have chosen : ((List.finRange pattern.placeholders.length).filter (· ∈ bound)).Perm bound := by
    rw [List.perm_ext_iff_of_nodup ((List.nodup_finRange _).filter _) once]
    simp
  have split := List.length_eq_length_filter_add (l := List.finRange pattern.placeholders.length)
    (fun index => decide (index ∈ bound))
  rw [List.length_finRange, chosen.length_eq] at split
  simp only [remaining, decide_not]
  omega

section

variable (converted : ∀ index, policy.toTerm (value index) = .ok (term index))
include converted

theorem bindPlaceholder_partially {index : Fin pattern.placeholders.length}
    (free : index ∉ bound) :
    bindPlaceholder policy (pattern.name index) (value index) (partially pattern term bound) =
      .ok () (partially pattern term (index :: bound)) := by
  have unbound : (partially pattern term bound).isBound (pattern.name index) = false := by
    rw [isBound_partially, decide_eq_false free]
  exact bindPlaceholder_of_free unbound (converted index)

theorem perform_partially {action : Action pattern.placeholders.length}
    (free : ∀ index ∈ action.bound?, index ∉ bound) :
    perform policy value action (partially pattern term bound) =
      .ok () (partially pattern term (action.bound?.toList ++ bound)) := by
  cases action with
  | bindIndex index =>
      have found : (partially pattern term bound).placeholders[(index : Nat)]? =
          some (pattern.name index) := List.getElem?_eq_getElem index.isLt
      rw [perform, bindAt_of_getElem? found]
      exact bindPlaceholder_partially converted (free index rfl)
  | bindName index =>
      have member : pattern.name index ∈ (partially pattern term bound).placeholders :=
        List.get_mem _ _
      rw [perform, bindNamed_of_mem member]
      exact bindPlaceholder_partially converted (free index rfl)
  | goalText args =>
      rw [perform, get_bind]
      cases (partially pattern term bound).goalText policy args <;> rfl

omit converted in
theorem run_cons {action : Action pattern.placeholders.length}
    {actions : List (Action pattern.placeholders.length)} {binding next : Binding}
    (done : perform policy value action binding = .ok () next) :
    run policy value (action :: actions) binding = run policy value actions next := by
  rw [run, List.forM_cons]
  simp only [bind, EStateM.bind, done, run]

theorem run_partially {actions : List (Action pattern.placeholders.length)}
    (once : (boundBy actions ++ bound).Nodup) :
    run policy value actions (partially pattern term bound) =
      .ok () (partially pattern term (boundBy actions ++ bound)) := by
  induction actions generalizing bound with
  | nil => rfl
  | cons action actions induction =>
      have split : boundBy (action :: actions) ++ bound =
          boundBy actions ++ (action.bound?.toList ++ bound) := by
        rw [boundBy, boundBy, List.filterMap_cons]
        cases action with
        | bindIndex index => simp [Action.bound?]
        | bindName index => simp [Action.bound?]
        | goalText args => rfl
      rw [split] at once ⊢
      have free : ∀ index ∈ action.bound?, index ∉ bound := by
        intro index member inBound
        have latter := (List.nodup_append.mp once).2.1
        rw [member] at latter
        exact (List.nodup_cons.mp latter).1 inBound
      rw [run_cons (perform_partially converted free)]
      exact induction once

/-- Arguments for the placeholders that are left give the goal that all values give. -/
theorem goalText_partially (once : bound.Nodup) :
    (partially pattern term bound).goalText policy ((remaining bound).map value) =
      .ok (pattern.render ((List.finRange pattern.placeholders.length).map
        (pattern.entry fun index => (term index).text))) := by
  have expected : (partially pattern term bound).placeholders.length -
      (partially pattern term bound).bound.length = (remaining bound).length := by
    rw [length_remaining once, partially, List.length_map]
    rfl
  have filled : policy.replacements ((remaining bound).map pattern.name)
      ((remaining bound).map value) =
        .ok ((remaining bound).map fun index => (pattern.name index, (term index).text)) :=
    Policy.replacements_map pattern.name fun index _ => converted index
  rw [goalText, unbound_partially, expected, List.length_map, filled]
  simp only [ne_eq, not_true, if_false, partially]
  have joined : (remaining bound).map (fun index => (pattern.name index, (term index).text)) ++
      bound.map (pattern.entry fun index => (term index).text) =
        (remaining bound ++ bound).map (pattern.entry fun index => (term index).text) :=
    List.map_append.symm
  rw [joined]
  congr 1
  apply pattern.render_entries_congr
  · intro index
    by_cases member : index ∈ bound
    · exact List.mem_append_right _ member
    · exact List.mem_append_left _ (by simp [remaining, member])
  · exact List.mem_finRange

end

end

/-- Binding some placeholders ahead, each once, in any order and by number or by name, and passing
the values of the others gives the goal that all values give on a fresh binding. Goals that are
asked for in between change nothing. -/
theorem goalText_run {policy : Policy} (source : String)
    {value : Fin (compile source).placeholders.length → Value}
    (converts : ∀ index, ∃ term, policy.toTerm (value index) = .ok term)
    {actions : List (Action (compile source).placeholders.length)}
    (once : (boundBy actions).Nodup) :
    ∃ binding goal, run policy value actions (ofPattern source) = .ok () binding ∧
      (ofPattern source).goalText policy (List.ofFn value) = .ok goal ∧
      binding.goalText policy ((remaining (boundBy actions)).map value) = .ok goal := by
  choose term converted using converts
  have fresh : ofPattern source = partially (compile source) term [] := rfl
  have none : remaining [] = List.finRange (compile source).placeholders.length := by
    simp [remaining]
  have all := goalText_partially converted List.nodup_nil
  rw [none, ← List.ofFn_eq_map] at all
  have fromFresh : (boundBy actions ++ []).Nodup := by rwa [List.append_nil]
  have ran := run_partially converted fromFresh
  rw [List.append_nil] at ran
  rw [fresh]
  exact ⟨_, _, ran, all, goalText_partially converted once⟩

/-- The last of three placeholders is bound by name and the first, which is replaced at the first of
its two places only, by number, after a goal has been asked for with too few arguments. -/
theorem goalText_run_outer :
    let pattern := GoalPattern.compile "f(?X, ?, ?Y, ?X)"
    let value : Fin pattern.placeholders.length → Value := fun index => .int (.ofNat index)
    let actions : List (Action pattern.placeholders.length) :=
      [.bindName ⟨2, by decide +kernel⟩, .goalText [.null], .bindIndex ⟨0, by decide +kernel⟩]
    (boundBy actions).Nodup ∧
      ∃ binding, run Policy.standard value actions (ofPattern "f(?X, ?, ?Y, ?X)") =
          .ok () binding ∧
        (ofPattern "f(?X, ?, ?Y, ?X)").goalText Policy.standard (List.ofFn value) =
          .ok "f(0, 1, 2, X)" ∧
        binding.goalText Policy.standard ((remaining (boundBy actions)).map value) =
          .ok "f(0, 1, 2, X)" := by
  intro pattern value actions
  have once : (boundBy actions).Nodup := by decide +kernel
  obtain ⟨binding, goal, ran, all, rest⟩ := goalText_run "f(?X, ?, ?Y, ?X)"
    (fun index => ⟨_, Policy.standard_toTerm_int (.ofNat index)⟩) once
  have text : (ofPattern "f(?X, ?, ?Y, ?X)").goalText Policy.standard (List.ofFn value) =
      .ok "f(0, 1, 2, X)" := by
    cbv
  cases text.symm.trans all
  exact ⟨once, binding, ran, text, rest⟩

end Binding

end HornQuery
