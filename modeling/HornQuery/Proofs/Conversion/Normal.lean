import HornQuery.Proofs.Conversion.Standard
import HornQuery.Proofs.Number.Comparison

namespace HornQuery

namespace Value

/-- Values that hold no term and no object of the application. -/
inductive Data : Value → Prop
  | null : Data .null
  | int (number : Int64) : Data (.int number)
  | float {number : Float} (isNumber : number.isNaN = false) : Data (.float number)
  | string (text : String) : Data (.string text)
  | list {items : List Value} (all : ∀ item ∈ items, Data item) : Data (.list items)
  | array {items : List Value} (all : ∀ item ∈ items, Data item) : Data (.array items)
  | compound (functor : String) {args : List Value} (all : ∀ arg ∈ args, Data arg) :
      Data (.compound functor args)

mutual
/-- The value with a list for every array and a string for every compound without arguments. -/
def normalised : Value → Value
  | .list items => .list (normalisedAll items)
  | .array items => .list (normalisedAll items)
  | .compound functor args =>
      if args.isEmpty then .string functor else .compound functor (normalisedAll args)
  | other => other

def normalisedAll : List Value → List Value
  | [] => []
  | value :: values => value.normalised :: normalisedAll values
end

mutual
def isNormal : Value → Bool
  | .list items => allNormal items
  | .array _ => false
  | .compound _ args => !args.isEmpty && allNormal args
  | _ => true

def allNormal : List Value → Bool
  | [] => true
  | value :: values => value.isNormal && allNormal values
end

section

variable {value : Value} {values : List Value}

theorem normalisedAll_eq_map (values : List Value) :
    normalisedAll values = values.map normalised := by
  induction values with
  | nil => rfl
  | cons value values induction => rw [normalisedAll, induction, List.map_cons]

theorem allNormal_iff : allNormal values = true ↔ ∀ value ∈ values, value.isNormal = true := by
  induction values with
  | nil => simp [allNormal]
  | cons value values induction => simp [allNormal, induction]

theorem beqAll_map_iff {change : Value → Value} :
    beqAll (values.map change) values = true ↔
      ∀ value ∈ values, (change value).beq value = true := by
  induction values with
  | nil => simp [beqAll]
  | cons value values induction => simp [beqAll, induction]

theorem normalisedAll_eq_self (each : ∀ value ∈ values, value.isNormal = true →
    value.normalised = value) (normal : allNormal values = true) :
    normalisedAll values = values := by
  have unchanged : ∀ value ∈ values, value.normalised = id value := fun value member =>
    each value member (allNormal_iff.mp normal value member)
  rw [normalisedAll_eq_map, List.map_congr_left unchanged, List.map_id]

theorem normalised_eq_self (normal : value.isNormal = true) : value.normalised = value := by
  induction value using Value.induction with
  | null | int | float | string | term | object => rfl
  | list items induction =>
      exact congrArg Value.list (normalisedAll_eq_self induction normal)
  | array items => cases normal
  | compound functor args induction =>
      rw [isNormal, Bool.and_eq_true, Bool.not_eq_true'] at normal
      rw [normalised, if_neg (by simp [normal.1]), normalisedAll_eq_self induction normal.2]

theorem beq_self (data : value.Data) : value.beq value = true := by
  have all : ∀ values : List Value, (∀ value ∈ values, value.beq value = true) →
      beqAll values values = true := by
    intro values each
    have same : beqAll (values.map id) values = true := beqAll_map_iff.mpr each
    rwa [List.map_id] at same
  induction data with
  | null => rfl
  | int number => simp [beq]
  | float isNumber => exact Number.beq_self isNumber
  | string text => simp [beq]
  | list _ induction => exact all _ induction
  | array _ induction => exact all _ induction
  | compound functor _ induction => simp [beq, all _ induction]

theorem allNormal_of_beqAll (each : ∀ value ∈ values, value.normalised.beq value = true →
    value.isNormal = true) (same : beqAll (normalisedAll values) values = true) :
    allNormal values = true := by
  rw [normalisedAll_eq_map, beqAll_map_iff] at same
  exact allNormal_iff.mpr fun value member => each value member (same value member)

theorem isNormal_of_beq (same : value.normalised.beq value = true) : value.isNormal = true := by
  induction value using Value.induction with
  | null | int | float | string | term | object => rfl
  | list items induction => exact allNormal_of_beqAll induction same
  | array items => cases same
  | compound functor args induction =>
      rw [normalised] at same
      split at same
      case isTrue => cases same
      case isFalse some =>
        rw [beq, Bool.and_eq_true] at same
        rw [isNormal, allNormal_of_beqAll induction same.2]
        simpa using some

theorem normalised_beq_iff (data : value.Data) :
    (value.normalised == value) = true ↔ value.isNormal = true := by
  constructor
  · exact isNormal_of_beq
  · intro normal
    rw [normalised_eq_self normal]
    exact beq_self data

end

open Policy Term

theorem exists_toTerm {value : Value} (data : value.Data) :
    ∃ term, standard.toTerm value = .ok term ∧ standard.toHost term = .ok value.normalised := by
  induction data with
  | null => exact ⟨.anonymous, rfl, rfl⟩
  | int number => exact ⟨_, standard_toTerm_int number, standard_toHost_integer number⟩
  | @float number _ => exact ⟨_, standard_toTerm_float number, standard_toHost_float number⟩
  | string text => exact ⟨_, standard_toTerm_string text, standard_toHost_atom text⟩
  | @list items _ induction =>
      choose! term converted returned using induction
      refine ⟨_, standard_toTerm_list converted, ?_⟩
      rw [normalised, normalisedAll_eq_map]
      exact standard_toHost_list returned
  | @array items _ induction =>
      choose! term converted returned using induction
      refine ⟨_, standard_toTerm_array converted, ?_⟩
      rw [normalised, normalisedAll_eq_map]
      exact standard_toHost_list returned
  | @compound functor args _ induction =>
      choose! term converted returned using induction
      refine ⟨_, standard_toTerm_compound functor converted, ?_⟩
      cases args with
      | nil => exact standard_toHost_atom functor
      | cons arg args =>
          rw [normalised, normalisedAll_eq_map]
          exact standard_toHost_compound functor returned

/-- A value that holds no term and no object is converted to a term, and that term to the value
with lists for its arrays and strings for its compounds without arguments. So it comes back equal
exactly if it holds neither. -/
theorem toHost_toTerm {value : Value} (data : value.Data) :
    ∃ term, standard.toTerm value = .ok term ∧
      standard.toHost term = .ok value.normalised ∧
      (value.isNormal = true → value.normalised = value) ∧
      ((value.normalised == value) = true ↔ value.isNormal = true) := by
  obtain ⟨term, converted, returned⟩ := exists_toTerm data
  exact ⟨term, converted, returned, normalised_eq_self, normalised_beq_iff data⟩

theorem toHost_toTerm_array :
    let value := Value.compound "f" [.array [.null, .compound "[]" []], .list [.int (-1)]]
    value.Data ∧ ∃ term, standard.toTerm value = .ok term ∧
      standard.toHost term =
        .ok (.compound "f" [.list [.null, .string "[]"], .list [.int (-1)]]) := by
  intro value
  have data : value.Data := by
    refine .compound "f" ?_
    simp only [List.mem_cons, List.not_mem_nil, or_false, forall_eq_or_imp, forall_eq]
    refine ⟨.array ?_, .list ?_⟩
    · simp only [List.mem_cons, List.not_mem_nil, or_false, forall_eq_or_imp, forall_eq]
      exact ⟨.null, .compound "[]" nofun⟩
    · simp only [List.mem_singleton, forall_eq]
      exact .int (-1)
  obtain ⟨term, converted, returned, _⟩ := toHost_toTerm data
  exact ⟨data, term, converted, returned⟩

end Value

end HornQuery
