import HornQuery.Conversion.Standard
import HornQuery.Proofs.Conversion.Answers
import Mathlib.Data.List.Basic

namespace HornQuery

namespace TypeHierarchy

theorem ascend_nil (types : TypeHierarchy) (tag : TypeTag) :
    ∃ above, types.ascend [] tag = tag :: above := by
  rw [ascend, dif_neg (by simp)]
  split
  case h_1 => exact ⟨[], rfl⟩
  case h_2 above _ => exact ⟨_, rfl⟩

theorem foldl_ascend (types : TypeHierarchy) (interfaces order : List TypeTag) :
    ∃ more, interfaces.foldl (fun order interface => order ++ types.ascend order interface) order =
      order ++ more := by
  induction interfaces generalizing order with
  | nil => exact ⟨[], (List.append_nil order).symm⟩
  | cons interface interfaces induction =>
      obtain ⟨more, same⟩ := induction (order ++ types.ascend order interface)
      exact ⟨types.ascend order interface ++ more, by rw [List.foldl_cons, same, List.append_assoc]⟩

theorem precedence_eq_cons (types : TypeHierarchy) (tag : TypeTag) :
    ∃ others, types.precedence tag = tag :: others := by
  obtain ⟨above, chain⟩ := types.ascend_nil tag
  obtain ⟨more, order⟩ :=
    types.foldl_ascend ((types.ascend [] tag).flatMap types.interfaces) (types.ascend [] tag)
  rw [precedence, order, chain]
  split
  case isTrue => exact ⟨above ++ more, rfl⟩
  case isFalse => exact ⟨above ++ more ++ [.any], rfl⟩

end TypeHierarchy

namespace Policy

variable {policy : Policy} {value : Value}

theorem candidates_eq_cons (policy : Policy) (value : Value) :
    ∃ others, policy.candidates value = value.typeTag :: others := by
  cases value with
  | array items => exact ⟨[], rfl⟩
  | null => exact policy.types.precedence_eq_cons _
  | int number => exact policy.types.precedence_eq_cons _
  | float number => exact policy.types.precedence_eq_cons _
  | string text => exact policy.types.precedence_eq_cons _
  | list items => exact policy.types.precedence_eq_cons _
  | compound functor args => exact policy.types.precedence_eq_cons _
  | term inner => exact policy.types.precedence_eq_cons _
  | object host => exact policy.types.precedence_eq_cons _

theorem termOf_of_accepts {parts : List (Except ConversionError Term)}
    {converter : ObjectConverter} {term : Term}
    (registered : policy.objectConverters.lookup value.typeTag = some converter)
    (accepts : converter value parts = .ok (some term)) :
    policy.termOf value parts = .ok term := by
  obtain ⟨others, candidates⟩ := policy.candidates_eq_cons value
  simp only [termOf, candidates, List.filterMap_cons, registered, askConverters, accepts]

theorem lineage_eq_cons (termClass : TermClass) :
    ∃ above, termClass.lineage = termClass :: above := by
  cases termClass <;> exact ⟨_, rfl⟩

theorem convertersFor_of_functorOrder_eq_nil {term : Term}
    (none : policy.functorOrder = []) :
    policy.convertersFor term =
      term.termClass.lineage.filterMap fun termClass =>
        policy.classConverters.lookup termClass := by
  unfold convertersFor
  rw [none]
  split <;> rfl

theorem valueOf_of_accepts {term : Term} {parts : List (Except ConversionError Value)}
    {converter : TermConverter} (bound : term.isVariable = false)
    (none : policy.functorOrder = [])
    (registered : policy.classConverters.lookup term.termClass = some converter)
    (accepts : converter term parts = .ok (some value)) :
    policy.valueOf term parts = .ok value := by
  obtain ⟨above, lineage⟩ := lineage_eq_cons term.termClass
  simp only [valueOf, bound, convertersFor_of_functorOrder_eq_nil none, lineage,
    List.filterMap_cons, registered, askConverters, accepts, Bool.false_eq_true, if_false]

theorem toTerms_eq_map (policy : Policy) (values : List Value) :
    policy.toTerms values = values.map policy.toTerm := by
  induction values with
  | nil => rfl
  | cons value values induction => rw [toTerms, induction, List.map_cons]

theorem toHosts_eq_map (policy : Policy) (terms : List Term) :
    policy.toHosts terms = terms.map policy.toHost := by
  induction terms with
  | nil => rfl
  | cons term terms induction => rw [toHosts, induction, List.map_cons]

theorem allParts_map {α β : Type} {convert : α → Except ConversionError β} {result : α → β}
    {wholes : List α} (all : ∀ whole ∈ wholes, convert whole = .ok (result whole)) :
    allParts (wholes.map convert) = .ok (wholes.map result) := by
  induction wholes with
  | nil => rfl
  | cons whole wholes induction =>
      have others := induction fun other member => all other (List.mem_cons_of_mem whole member)
      rw [allParts] at others ⊢
      rw [List.map_cons, List.mapM_cons, id, all whole List.mem_cons_self, others]
      rfl

section

variable {term : Value → Term} {items args : List Value}

theorem standard_toTerm_int (number : Int64) :
    standard.toTerm (.int number) = .ok (.integer number) :=
  termOf_of_accepts rfl rfl

theorem standard_toTerm_float (number : Float) :
    standard.toTerm (.float number) = .ok (.float number) :=
  termOf_of_accepts rfl rfl

theorem standard_toTerm_string (text : String) :
    standard.toTerm (.string text) = .ok (.atom text) :=
  termOf_of_accepts rfl rfl

theorem standard_toTerm_list (all : ∀ item ∈ items, standard.toTerm item = .ok (term item)) :
    standard.toTerm (.list items) = .ok (.list (items.map term)) := by
  have some : Value.list items ≠ .null := nofun
  rw [toTerm_eq_termOf some, Value.parts, toTerms_eq_map]
  apply termOf_of_accepts rfl
  rw [convertSequence, allParts_map all]
  rfl

theorem standard_toTerm_array (all : ∀ item ∈ items, standard.toTerm item = .ok (term item)) :
    standard.toTerm (.array items) = .ok (.list (items.map term)) := by
  have some : Value.array items ≠ .null := nofun
  rw [toTerm_eq_termOf some, Value.parts, toTerms_eq_map]
  apply termOf_of_accepts rfl
  rw [convertSequence, allParts_map all]
  rfl

theorem standard_toTerm_compound (functor : String)
    (all : ∀ arg ∈ args, standard.toTerm arg = .ok (term arg)) :
    standard.toTerm (.compound functor args) = .ok (Term.apply functor (args.map term)) := by
  have some : Value.compound functor args ≠ .null := nofun
  rw [toTerm_eq_termOf some, Value.parts, toTerms_eq_map]
  apply termOf_of_accepts rfl
  rw [convertCompound, allParts_map all]
  rfl

end

section

variable {α : Type} {wholes : List α} {term : α → Term} {host : α → Value}

theorem standard_toHost_integer (value : Int64) :
    standard.toHost (.integer value) = .ok (.int value) := by
  rw [toHost_eq_valueOf]
  exact valueOf_of_accepts rfl rfl rfl rfl

theorem standard_toHost_float (value : Float) :
    standard.toHost (.float value) = .ok (.float value) := by
  rw [toHost_eq_valueOf]
  exact valueOf_of_accepts rfl rfl rfl rfl

theorem standard_toHost_atom (name : String) :
    standard.toHost (.atom name) = .ok (.string name) := by
  rw [toHost_eq_valueOf]
  exact valueOf_of_accepts rfl rfl rfl rfl

theorem standard_toHost_noItems : standard.toHost (.list []) = .ok (.list []) := by
  rw [toHost_eq_valueOf]
  exact valueOf_of_accepts rfl rfl rfl rfl

theorem standard_toHost_list
    (all : ∀ whole ∈ wholes, standard.toHost (term whole) = .ok (host whole)) :
    standard.toHost (.list (wholes.map term)) = .ok (.list (wholes.map host)) := by
  have parts : allParts (wholes.map (standard.toHost ∘ term)) = .ok (wholes.map host) :=
    allParts_map all
  rw [toHost_eq_valueOf, Term.parts, toHosts_eq_map, List.map_map]
  apply valueOf_of_accepts rfl rfl rfl
  rw [hostList, parts]
  rfl

theorem standard_toHost_compound (functor : String)
    (all : ∀ whole ∈ wholes, standard.toHost (term whole) = .ok (host whole)) :
    standard.toHost (.compound functor (wholes.map term)) =
      .ok (.compound functor (wholes.map host)) := by
  have parts : allParts (wholes.map (standard.toHost ∘ term)) = .ok (wholes.map host) :=
    allParts_map all
  rw [toHost_eq_valueOf, Term.parts, toHosts_eq_map, List.map_map]
  apply valueOf_of_accepts rfl rfl rfl
  rw [hostCompound, parts]
  rfl

end

end Policy

end HornQuery
