import HornQuery.Goal.Variables
import HornQuery.Proofs.Operator.Reading
import HornQuery.Proofs.Term.Tally

namespace HornQuery.Term

open Token

/-! The variables of terms and of tokens, as one tally. -/

theorem occurrencesAll_pair (left right : Term) :
    occurrencesAll [left, right] = left.occurrences ++ right.occurrences := by
  simp [occurrencesAll]

theorem occurrencesAll_singleton (term : Term) :
    occurrencesAll [term] = term.occurrences :=
  List.append_nil _

theorem occurrencesAll_eq_flatMap (terms : List Term) :
    occurrencesAll terms = terms.flatMap occurrences := by
  induction terms with
  | nil => rfl
  | cons term terms induction => rw [occurrencesAll, induction, List.flatMap_cons]

def variableTally : Tally String where
  ofKind
    | .var name => [name]
    | _ => []
  ofTerm := occurrences
  mark _ := rfl
  magnitude _ := rfl
  fraction _ := rfl
  quoted _ := rfl
  string _ := rfl
  silent _ _ := rfl
  commutes _ found := (List.append_nil found).symm
  integer _ := rfl
  float _ := rfl
  var _ := rfl
  atom _ := rfl
  list := occurrencesAll_eq_flatMap
  compound _ := occurrencesAll_eq_flatMap

theorem variableNames_eq_ofTokens (tokens : List Token) :
    variableNames tokens = variableTally.ofTokens tokens := by
  induction tokens with
  | nil => rfl
  | cons token rest induction =>
      rw [Tally.ofTokens_cons, ← induction, variableNames, List.filterMap_cons]
      cases token.kind <;> rfl

/-! Reported names. -/

theorem mem_or_mem_of_mem_foldl {names found : List String} {name : String}
    (member : name ∈ names.foldl (fun found name =>
      if name.toList.head? = some '_' || found.contains name then found
      else found ++ [name]) found) : name ∈ found ∨ name ∈ names := by
  induction names generalizing found with
  | nil => exact .inl member
  | cons first names induction =>
      rw [List.foldl_cons] at member
      rcases induction member with kept | later
      · split at kept
        case isTrue => exact .inl kept
        case isFalse =>
          refine (List.mem_append.mp kept).imp_right fun isFirst => ?_
          rw [List.mem_singleton.mp isFirst]
          exact List.mem_cons_self
      · exact .inr (List.mem_cons_of_mem first later)

theorem mem_of_mem_reportedNames {names : List String} {name : String}
    (member : name ∈ reportedNames names) : name ∈ names :=
  (mem_or_mem_of_mem_foldl member).resolve_left List.not_mem_nil

/-! Whole texts. -/

theorem ofTokens_occurrences {size : Nat} {tokens : List Token} {term : Term}
    (read : ofTokens size tokens = .ok term) : term.occurrences = variableNames tokens := by
  rw [variableNames_eq_ofTokens]
  exact variableTally.ofTerm_of_ofTokens rfl read

/-- The names of the variables of a text that can be read are those of its variable tokens. -/
theorem parse_occurrences {text : String} {term : Term} (read : parse text = .ok term) :
    ∃ tokens, scan text.toList = .ok tokens ∧ term.occurrences = variableNames tokens := by
  obtain ⟨tokens, scanned, continued⟩ := bind_eq_ok.mp read
  exact ⟨tokens, scanned, ofTokens_occurrences continued⟩

theorem parseGoal_occurrences {text : String} {term : Term} (read : parseGoal text = .ok term) :
    ∃ tokens, scan text.toList = .ok tokens ∧ term.occurrences = variableNames tokens := by
  obtain ⟨whole, foundWhole, continued⟩ := bind_eq_ok.mp read
  obtain ⟨tokens, scanned, kept⟩ := parse_occurrences foundWhole
  refine ⟨tokens, scanned, ?_⟩
  rw [← kept]
  split at continued
  case h_1 functor goal =>
    split at continued
    case isTrue =>
      -- The goal is all that the arrow of a query has for arguments.
      cases continued
      exact (occurrencesAll_singleton term).symm
    case isFalse =>
      cases continued
      rfl
  case h_2 =>
    cases continued
    rfl

end HornQuery.Term

namespace HornQuery.Goal

open Term Token

/-- The free variables of a goal are the named variables among its tokens, whether it can be
read as a term or not. -/
theorem freeVariables_eq_scanned (goal : String) :
    (∀ term, parseGoal goal = .ok term → scanVariables goal = .ok term.freeVariables) ∧
      freeVariables goal = (scanVariables goal).toOption.getD [] := by
  have agree : ∀ term, parseGoal goal = .ok term →
      scanVariables goal = .ok term.freeVariables := by
    intro term read
    obtain ⟨tokens, scanned, same⟩ := parseGoal_occurrences read
    rw [scanVariables, scanned, Term.freeVariables, same]
    rfl
  refine ⟨agree, ?_⟩
  cases read : parseGoal goal with
  | ok term =>
      rw [freeVariables, read, agree term read]
      rfl
  | error cause =>
      rw [freeVariables, read]
      cases scanVariables goal <;> rfl

def named (name : String) (spelled : IsVariableName name) : Expression :=
  .leaf (.var name) ⟨.var spelled, nofun, nofun⟩

def sharing : Expression :=
  let shared := named "Y" ⟨'Y', [], rfl, Or.inr (by decide), nofun⟩
  .joined "=" ⟨700, .xfx⟩ (by decide)
    (.difference shared (named "_" ⟨'_', [], rfl, Or.inl rfl, nofun⟩))
    (.difference (named "X" ⟨'X', [], rfl, Or.inr (by decide), nofun⟩) shared)

theorem scanVariables_sharing :
    parseGoal "?- Y - _ = X - Y" = .ok sharing.term ∧
      scanVariables "?- Y - _ = X - Y" = .ok ["Y", "X"] := by
  let query : Expression := .prefixed "?-" ⟨1200, .fx⟩ (by decide) sharing
  have text : query.text = "?- Y - _ = X - Y" := by decide +kernel
  have read := query.readsIf_parse.same (by decide)
  rw [text] at read
  have goal : parseGoal "?- Y - _ = X - Y" = .ok sharing.term := by
    rw [parseGoal, read]
    rfl
  exact ⟨goal, (freeVariables_eq_scanned _).1 _ goal⟩

end HornQuery.Goal
