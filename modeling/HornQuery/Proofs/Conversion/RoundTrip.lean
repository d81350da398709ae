import HornQuery.Proofs.Conversion.Standard
import HornQuery.Proofs.Term.RoundTrip

namespace HornQuery

namespace Value

/-- The values that have a term of their own kind which keeps its parts apart in text. -/
inductive Plain : Value → Prop
  | int (number : Int64) : Plain (.int number)
  | float {number : Float} (isNumber : number.isNaN = false) : Plain (.float number)
  | string (text : String) : Plain (.string text)
  | list {items : List Value} (all : ∀ item ∈ items, Plain item) : Plain (.list items)
  | compound {functor : String} {args : List Value} (noCell : functor ≠ Term.listCell)
      (some : args ≠ []) (all : ∀ arg ∈ args, Plain arg) : Plain (.compound functor args)

mutual
/-- How many steps lead from a value down to its deepest part. -/
def nesting : Value → Nat
  | .list items => nestingAll items
  | .array items => nestingAll items
  | .compound _ args => nestingAll args
  | _ => 0

def nestingAll : List Value → Nat
  | [] => 0
  | value :: values => max (value.nesting + 1) (nestingAll values)
end

mutual
def strings : Value → List String
  | .string text => [text]
  | .list items => stringsAll items
  | .array items => stringsAll items
  | .compound _ args => stringsAll args
  | _ => []

def stringsAll : List Value → List String
  | [] => []
  | value :: values => value.strings ++ stringsAll values
end

mutual
/-- The value with the empty list in place of every string that names it. -/
def echoed : Value → Value
  | .string text => if text = "[]" then .list [] else .string text
  | .list items => .list (echoedAll items)
  | .compound functor args => .compound functor (echoedAll args)
  | other => other

def echoedAll : List Value → List Value
  | [] => []
  | value :: values => value.echoed :: echoedAll values
end

theorem nestingAll_le_iff {values : List Value} {levels : Nat} :
    nestingAll values ≤ levels ↔ ∀ value ∈ values, value.nesting + 1 ≤ levels := by
  induction values with
  | nil => simp [nestingAll]
  | cons value values induction => simp [nestingAll, induction]

theorem echoedAll_eq_map (values : List Value) : echoedAll values = values.map echoed := by
  induction values with
  | nil => rfl
  | cons value values induction => rw [echoedAll, induction, List.map_cons]

theorem mem_stringsAll {values : List Value} {text : String} :
    text ∈ stringsAll values ↔ ∃ value ∈ values, text ∈ value.strings := by
  induction values with
  | nil => simp [stringsAll]
  | cons value values induction => simp [stringsAll, induction]

theorem map_echoed_eq_self_iff {values : List Value}
    (each : ∀ value ∈ values, value.echoed = value ↔ "[]" ∉ value.strings) :
    values.map echoed = values ↔ "[]" ∉ stringsAll values := by
  have pointwise : values.map echoed = values.map id ↔ ∀ value ∈ values, value.echoed = value :=
    List.map_inj_left
  rw [List.map_id] at pointwise
  rw [pointwise, mem_stringsAll]
  constructor
  · rintro unchanged ⟨value, member, isString⟩
    exact (each value member).mp (unchanged value member) isString
  · intro none value member
    exact (each value member).mpr fun isString => none ⟨value, member, isString⟩

theorem echoed_eq_self_iff {value : Value} (plain : value.Plain) :
    value.echoed = value ↔ "[]" ∉ value.strings := by
  induction plain with
  | int number => simp [echoed, strings]
  | float isNumber => simp [echoed, strings]
  | string text =>
      by_cases empty : text = "[]"
      · simp [echoed, strings, empty]
      · simp [echoed, strings, empty, Ne.symm empty]
  | list all induction =>
      rw [echoed, strings, echoedAll_eq_map, Value.list.injEq]
      exact map_echoed_eq_self_iff induction
  | compound noCell some all induction =>
      rw [echoed, strings, echoedAll_eq_map, Value.compound.injEq]
      simp only [true_and]
      exact map_echoed_eq_self_iff induction

end Value

/-- A value, the term that stands for it, and the term that the text of that term spells. -/
structure Echo (value : Value) (term spelled : Term) : Prop where
  converted : Policy.standard.toTerm value = .ok term
  sameText : term.write = spelled.write
  readable : spelled.Readable
  shallow : spelled.height ≤ value.nesting + 1
  returned : Policy.standard.toHost spelled = .ok value.echoed

namespace Value

open Policy Term

theorem exists_echo_string (text : String) :
    ∃ term spelled, Echo (.string text) term spelled := by
  by_cases empty : text = "[]"
  · subst empty
    exact ⟨.atom "[]", .list [], standard_toTerm_string "[]", rfl, .list nofun, Nat.le_refl 1,
      standard_toHost_noItems⟩
  · refine ⟨.atom text, .atom text, standard_toTerm_string text, rfl, .atom empty,
      Nat.le_refl 1, ?_⟩
    rw [echoed, if_neg empty]
    exact standard_toHost_atom text

section

variable {values : List Value} {term spelled : Value → Term}
  (echo : ∀ value ∈ values, Echo value (term value) (spelled value))
include echo

theorem write_list_of_echo :
    (Term.list (values.map term)).write = (Term.list (values.map spelled)).write := by
  rw [write, write, written_list_map, written_list_map]
  exact congrArg Written.text (ofList_map_congr fun value member => (echo value member).sameText)

theorem write_compound_of_echo {functor : String} (noCell : functor ≠ listCell) :
    (Term.compound functor (values.map term)).write =
      (Term.compound functor (values.map spelled)).write := by
  rw [write, write, written_compound_map, written_compound_map]
  exact congrArg Written.text (ofCompound_map_congr
    (fun value member => (echo value member).sameText) fun cell => absurd cell noCell)

theorem readable_of_echo : ∀ part ∈ values.map spelled, part.Readable := by
  intro part member
  obtain ⟨value, isValue, same⟩ := List.mem_map.mp member
  rw [← same]
  exact (echo value isValue).readable

theorem height_le_of_echo : ∀ part ∈ values.map spelled, part.height ≤ nestingAll values := by
  intro part member
  obtain ⟨value, isValue, same⟩ := List.mem_map.mp member
  rw [← same]
  exact Nat.le_trans (echo value isValue).shallow
    (nestingAll_le_iff.mp (Nat.le_refl _) value isValue)

end

theorem exists_echo {value : Value} (plain : value.Plain) :
    ∃ term spelled, Echo value term spelled := by
  induction plain with
  | int number =>
      exact ⟨.integer number, .integer number, standard_toTerm_int number, rfl, .integer number,
        Nat.le_refl 1, standard_toHost_integer number⟩
  | @float number isNumber =>
      exact ⟨.float number, .float number, standard_toTerm_float number, rfl, .float isNumber,
        Nat.le_refl 1, standard_toHost_float number⟩
  | string text => exact exists_echo_string text
  | @list items all induction =>
      choose! term spelled echo using induction
      refine ⟨.list (items.map term), .list (items.map spelled), ?_, ?_, ?_, ?_, ?_⟩
      · exact standard_toTerm_list fun item member => (echo item member).converted
      · exact write_list_of_echo echo
      · exact .list (readable_of_echo echo)
      · exact height_list_le_iff.mpr (height_le_of_echo echo)
      · rw [echoed, echoedAll_eq_map]
        exact standard_toHost_list fun item member => (echo item member).returned
  | @compound functor args noCell some all induction =>
      choose! term spelled echo using induction
      have compound : ∀ part : Value → Term,
          Term.apply functor (args.map part) = .compound functor (args.map part) := by
        intro part
        rw [Term.apply, if_neg (by simpa using some)]
      refine ⟨.compound functor (args.map term), .compound functor (args.map spelled),
        ?_, ?_, ?_, ?_, ?_⟩
      · rw [← compound]
        exact standard_toTerm_compound functor fun arg member => (echo arg member).converted
      · exact write_compound_of_echo echo noCell
      · exact .compound (by simpa using some) (fun _ _ same => absurd same noCell)
          (readable_of_echo echo)
      · exact (height_functional_le_iff fun _ _ same => absurd same noCell).mpr
          (height_le_of_echo echo)
      · rw [echoed, echoedAll_eq_map]
        exact standard_toHost_compound functor fun arg member => (echo arg member).returned

/-- The text of the term of a value is read as a term, and that term becomes the value again,
but for strings that name the empty list. -/
theorem toHost_parse_text {value : Value} (plain : value.Plain)
    (shallow : value.nesting < maxDepth) :
    ∃ term read, standard.toTerm value = .ok term ∧ parse term.text = .ok read ∧
      standard.toHost read = .ok value.echoed ∧
      (value.echoed = value ↔ "[]" ∉ value.strings) := by
  obtain ⟨term, spelled, echo⟩ := exists_echo plain
  refine ⟨term, spelled, echo.converted, ?_, echo.returned, echoed_eq_self_iff plain⟩
  rw [text, echo.sameText]
  exact (readsIf_parse_text echo.readable).same (Nat.le_trans echo.shallow shallow)

theorem toHost_parse_text_nested :
    ∃ term read,
      standard.toTerm (.compound "\x7b\x7d" [.list [.string "it's", .string "[]"]]) = .ok term ∧
      parse term.text = .ok read ∧
      standard.toHost read = .ok (.compound "\x7b\x7d" [.list [.string "it's", .list []]]) := by
  have plain : (Value.compound "\x7b\x7d" [.list [.string "it's", .string "[]"]]).Plain := by
    refine .compound (by decide) (by simp) ?_
    simp only [List.mem_singleton, forall_eq]
    refine .list ?_
    simp only [List.mem_cons, List.not_mem_nil, or_false, forall_eq_or_imp, forall_eq]
    exact ⟨.string "it's", .string "[]"⟩
  obtain ⟨term, read, converted, parsed, returned, _⟩ := toHost_parse_text plain (by decide)
  exact ⟨term, read, converted, parsed, returned⟩

theorem parse_text_emptyListName : parse (Term.atom "[]").text = .ok (.list []) := by
  have readable : (Term.list []).Readable := .list nofun
  have same : (Term.atom "[]").text = (Term.list []).text := rfl
  rw [same]
  exact (readsIf_parse_text readable).same (by decide)

/-- A string that names the empty list does not come back as a string. -/
theorem not_toHost_parse_text_eq :
    ¬∀ value : Value, value.Plain → value.nesting < maxDepth →
      ∃ term read returned, standard.toTerm value = .ok term ∧ parse term.text = .ok read ∧
        standard.toHost read = .ok returned ∧ (returned == value) = true := by
  intro all
  obtain ⟨term, read, returned, converted, parsed, isReturned, same⟩ :=
    all (.string "[]") (.string "[]") (by decide)
  rw [standard_toTerm_string] at converted
  cases converted
  rw [parse_text_emptyListName] at parsed
  cases parsed
  rw [standard_toHost_noItems] at isReturned
  cases isReturned
  exact absurd same (by decide)

end Value

end HornQuery
