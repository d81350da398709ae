import HornQuery.Proofs.Conversion.Answers
import Mathlib.Data.List.Basic
import Mathlib.Data.List.Induction

namespace HornQuery

section

variable {κ γ : Type} [DecidableEq κ]

def lastOfEachKey : List (κ × γ) → List (κ × γ)
  | [] => []
  | entry :: later =>
      if entry.1 ∈ later.map Prod.fst then lastOfEachKey later else entry :: lastOfEachKey later

theorem mem_keys_lastOfEachKey {entries : List (κ × γ)} {key : κ} :
    key ∈ (lastOfEachKey entries).map Prod.fst ↔ key ∈ entries.map Prod.fst := by
  induction entries with
  | nil => exact Iff.rfl
  | cons entry later induction =>
      rw [lastOfEachKey, List.map_cons, List.mem_cons]
      split
      case isTrue again =>
        rw [induction]
        exact ⟨.inr, fun found => found.elim (fun same => same ▸ again) id⟩
      case isFalse => rw [List.map_cons, List.mem_cons, induction]

theorem nodup_keys_lastOfEachKey (entries : List (κ × γ)) :
    ((lastOfEachKey entries).map Prod.fst).Nodup := by
  induction entries with
  | nil => exact List.nodup_nil
  | cons entry later induction =>
      rw [lastOfEachKey]
      split
      case isTrue => exact induction
      case isFalse fresh =>
        exact List.nodup_cons.mpr ⟨fun again => fresh (mem_keys_lastOfEachKey.mp again), induction⟩

theorem lastOfEachKey_concat (entries : List (κ × γ)) (key : κ) (value : γ) :
    lastOfEachKey (entries ++ [(key, value)]) =
      (lastOfEachKey entries).filter (fun entry => entry.1 ≠ key) ++ [(key, value)] := by
  induction entries with
  | nil => rfl
  | cons entry later induction =>
      have keys : entry.1 ∈ (later ++ [(key, value)]).map Prod.fst ↔
          entry.1 ∈ later.map Prod.fst ∨ entry.1 = key := by
        rw [List.map_append, List.mem_append, List.map_singleton, List.mem_singleton]
      rw [List.cons_append, lastOfEachKey, lastOfEachKey, induction]
      by_cases again : entry.1 ∈ later.map Prod.fst
      · rw [if_pos (keys.mpr (.inl again)), if_pos again]
      · rw [if_neg again]
        by_cases same : entry.1 = key
        · rw [if_pos (keys.mpr (.inr same)), List.filter_cons_of_neg (by simpa using same)]
        · rw [if_neg fun found => (keys.mp found).elim again same,
            List.filter_cons_of_pos (by simpa using same), List.cons_append]

theorem lookup_reverse_concat (entries : List (κ × γ)) (key other : κ) (value : γ) :
    (entries ++ [(key, value)]).reverse.lookup other =
      if other = key then some value else entries.reverse.lookup other := by
  rw [List.reverse_concat, List.lookup_cons]
  by_cases same : other = key
  · simp [same]
  · rw [if_neg same, beq_false_of_ne same]

theorem lookup_of_mem_lastOfEachKey {entries : List (κ × γ)} {entry : κ × γ}
    (member : entry ∈ lastOfEachKey entries) :
    entries.reverse.lookup entry.1 = some entry.2 := by
  induction entries using List.reverseRecOn with
  | nil => cases member
  | append_singleton entries last induction =>
      rw [lastOfEachKey_concat, List.mem_append, List.mem_filter] at member
      rw [lookup_reverse_concat]
      rcases member with ⟨former, different⟩ | isLast
      · rw [if_neg (by simpa using different)]
        exact induction former
      · rw [List.mem_singleton.mp isLast, if_pos rfl]

theorem lookup_reverse_isSome_iff {entries : List (κ × γ)} {key : κ} :
    (entries.reverse.lookup key).isSome = true ↔ key ∈ entries.map Prod.fst := by
  rw [List.lookup_isSome_iff, List.mem_map]
  simp only [List.mem_reverse, beq_iff_eq, @eq_comm _ key]

end

/-! A policy and its history. -/

inductive Registration where
  | byFunctor (key : FunctorKey) (converter : TermConverter)
  | byClass (termClass : TermClass) (converter : TermConverter)

namespace Registration

def functor? : Registration → Option (FunctorKey × TermConverter)
  | .byFunctor key converter => some (key, converter)
  | .byClass _ _ => none

def class? : Registration → Option (TermClass × TermConverter)
  | .byFunctor _ _ => none
  | .byClass termClass converter => some (termClass, converter)

end Registration

namespace Policy

def register (policy : Policy) : Registration → Policy
  | .byFunctor key converter => policy.registerFunctor key converter
  | .byClass termClass converter => policy.registerClass termClass converter

def registerAll (history : List Registration) : Policy :=
  history.foldl register empty

/-- The converters that a term is offered to after a history of registrations: those of the functor
keys that match it, the newest first, then those of its classes. Of several registrations of one key
or class the last one counts. -/
def offeredTo (history : List Registration) (term : Term) : List TermConverter :=
  let newest := (lastOfEachKey (history.filterMap Registration.functor?)).reverse
  let matching : List (FunctorKey × TermConverter) :=
    match term.functor?, term.arity? with
    | some functor, some arity => newest.filter fun entry => keyMatches entry.1 functor arity
    | _, _ => []
  let classes := (history.filterMap Registration.class?).reverse
  matching.map Prod.snd
    ++ term.termClass.lineage.filterMap fun termClass => classes.lookup termClass

structure Records (history : List Registration) (policy : Policy) : Prop where
  order : policy.functorOrder =
    (lastOfEachKey (history.filterMap Registration.functor?)).map Prod.fst
  functors : ∀ key, policy.functorConverters.lookup key =
    (history.filterMap Registration.functor?).reverse.lookup key
  classes : ∀ termClass, policy.classConverters.lookup termClass =
    (history.filterMap Registration.class?).reverse.lookup termClass

variable {history : List Registration} {policy : Policy}

theorem Records.registerFunctor (records : Records history policy) (key : FunctorKey)
    (converter : TermConverter) :
    Records (history ++ [.byFunctor key converter]) (policy.registerFunctor key converter) := by
  have functors : (history ++ [Registration.byFunctor key converter]).filterMap
      Registration.functor? = history.filterMap Registration.functor? ++ [(key, converter)] :=
    List.filterMap_append
  have classes : (history ++ [Registration.byFunctor key converter]).filterMap
      Registration.class? = history.filterMap Registration.class? :=
    List.filterMap_append.trans (List.append_nil _)
  constructor
  · rw [functors, lastOfEachKey_concat, List.map_append, Policy.registerFunctor, records.order,
      List.filter_map]
    rfl
  · intro other
    rw [functors, lookup_reverse_concat, Policy.registerFunctor, lookup_registerConverter,
      records.functors]
  · rw [classes]
    exact records.classes

theorem Records.registerClass (records : Records history policy) (termClass : TermClass)
    (converter : TermConverter) :
    Records (history ++ [.byClass termClass converter])
      (policy.registerClass termClass converter) := by
  have functors : (history ++ [Registration.byClass termClass converter]).filterMap
      Registration.functor? = history.filterMap Registration.functor? :=
    List.filterMap_append.trans (List.append_nil _)
  have classes : (history ++ [Registration.byClass termClass converter]).filterMap
      Registration.class? = history.filterMap Registration.class? ++ [(termClass, converter)] :=
    List.filterMap_append
  constructor
  · rw [functors]
    exact records.order
  · rw [functors]
    exact records.functors
  · intro other
    rw [classes, lookup_reverse_concat, Policy.registerClass, lookup_registerConverter,
      records.classes]

theorem records_registerAll (history : List Registration) :
    Records history (registerAll history) := by
  induction history using List.reverseRecOn with
  | nil => exact ⟨rfl, fun _ => rfl, fun _ => rfl⟩
  | append_singleton history last induction =>
      rw [registerAll, List.foldl_concat]
      cases last with
      | byFunctor key converter => exact induction.registerFunctor key converter
      | byClass termClass converter => exact induction.registerClass termClass converter

theorem Records.filterMap_order (records : Records history policy) (keep : FunctorKey → Bool) :
    (policy.functorOrder.reverse.filter keep).filterMap
        (fun key => policy.functorConverters.lookup key) =
      ((lastOfEachKey (history.filterMap Registration.functor?)).reverse.filter
        fun entry => keep entry.1).map Prod.snd := by
  rw [records.order, ← List.map_reverse, List.filter_map, List.filterMap_map,
    ← List.filterMap_eq_map]
  apply List.filterMap_congr
  intro entry member
  have found : entry ∈ lastOfEachKey (history.filterMap Registration.functor?) :=
    List.mem_reverse.mp (List.mem_filter.mp member).1
  rw [Function.comp_apply, records.functors, lookup_of_mem_lastOfEachKey found]
  rfl

theorem Records.convertersFor_eq (records : Records history policy) (term : Term) :
    policy.convertersFor term = offeredTo history term := by
  have classes : (fun termClass => policy.classConverters.lookup termClass) =
      fun termClass => (history.filterMap Registration.class?).reverse.lookup termClass :=
    funext records.classes
  rw [convertersFor, offeredTo, classes]
  cases term with
  | integer | float | list | var => rfl
  | atom name =>
      exact congrArg (· ++ _) (records.filterMap_order fun key => keyMatches key name 0)
  | compound functor args =>
      exact congrArg (· ++ _) (records.filterMap_order fun key => keyMatches key functor args.length)

theorem Records.nodup_order (records : Records history policy) : policy.functorOrder.Nodup :=
  records.order ▸ nodup_keys_lastOfEachKey _

theorem Records.mem_order_iff (records : Records history policy) (key : FunctorKey) :
    key ∈ policy.functorOrder ↔ (policy.functorConverters.lookup key).isSome = true := by
  rw [records.order, mem_keys_lastOfEachKey, records.functors, lookup_reverse_isSome_iff]

/-- After any registrations the first converter that a term is offered to and that does not decline
decides, whether it accepts or fails. No converter is found exactly if all decline, unless that one
fails with these words. The keys kept in order are those of the table, each once. -/
theorem toHost_registerAll (history : List Registration) {term : Term}
    (bound : term.isVariable = false) :
    let policy := registerAll history
    let answers := (offeredTo history term).map fun converter =>
      converter term (policy.toHosts term.parts)
    let decided := answers.find? fun answer => !declines answer
    (policy.toHost term =
      match decided with
      | some (.ok (some value)) => .ok value
      | some (.error cause) => .error cause
      | _ => .error (.noConverter s!"{term.termClass.label} term `{term.text}`")) ∧
    ((∃ subject, policy.toHost term = .error (.noConverter subject)) ↔
      (∀ answer ∈ answers, answer = .ok none) ∨
        ∃ subject, decided = some (.error (.noConverter subject))) ∧
    policy.functorOrder.Nodup ∧
    ∀ key, key ∈ policy.functorOrder ↔ (policy.functorConverters.lookup key).isSome = true := by
  intro policy answers decided
  have records : Records history policy := records_registerAll history
  have converted : policy.toHost term =
      settled s!"{term.termClass.label} term `{term.text}`" (decided.getD (.ok none)) := by
    rw [toHost_eq_settled bound, askConverters_eq_find?, records.convertersFor_eq]
  have undecided : decided = none ↔ ∀ answer ∈ answers, answer = .ok none := by
    simp [decided, List.find?_eq_none, declines_iff]
  refine ⟨?_, ?_, records.nodup_order, records.mem_order_iff⟩
  · rw [converted]
    rcases decided with _ | cause | (_ | value) <;> rfl
  · rw [converted, ← undecided]
    have answered : ∀ answer, decided = some answer → declines answer = false := by
      intro answer found
      simpa using List.find?_some found
    rcases decided with _ | cause | (_ | value)
    · simp [settled]
    · simp [settled]
    · exact absurd (answered _ rfl) nofun
    · simp [settled]

theorem toHost_registerAll_renewed :
    let history : List Registration := [
      .byFunctor "tag" fun _ _ => .ok (some (.int 1)),
      .byFunctor "other" fun _ _ => .error (.noConverter "other"),
      .byFunctor "tag" fun _ _ => .ok (some (.int 2)),
      .byFunctor "tag/1" fun _ _ => .ok none]
    let term := Term.compound "tag" [.atom "x"]
    term.isVariable = false ∧ (registerAll history).toHost term = .ok (.int 2) ∧
      (registerAll history).functorOrder = ["other", "tag", "tag/1"] := by
  intro history term
  exact ⟨rfl, (toHost_registerAll history rfl).1, rfl⟩

end Policy

end HornQuery
