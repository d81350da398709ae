import HornQuery.Proofs.Term.Instances

namespace HornQuery.Term

inductive Numeric : Term → Prop
  | atom (name : String) : Numeric (.atom name)
  | integer (value : Int64) : Numeric (.integer value)
  | float {value : Float} (number : value.isNaN = false) : Numeric (.float value)
  | var (name : String) : Numeric (.var name)
  | compound {functor : String} {args : List Term} (all : ∀ arg ∈ args, Numeric arg) :
      Numeric (.compound functor args)
  | list {items : List Term} (all : ∀ item ∈ items, Numeric item) : Numeric (.list items)

/-- What may be put in the place of a variable, whatever its name. -/
def Ground (_name : String) (term : Term) : Prop :=
  term.occurrences = [] ∧ term.Numeric

def IsGroundInstance (pattern term : Term) : Prop :=
  Fills Ground pattern term

/-- A term in which one part of another is replaced by a variable. -/
inductive Hides : Term → Term → Prop
  | whole (name : String) (term : Term) : Hides (.var name) term
  | argument {functor : String} {before after : List Term} {hidden arg : Term}
      (inside : Hides hidden arg) :
      Hides (.compound functor (before ++ hidden :: after))
        (.compound functor (before ++ arg :: after))
  | item {before after : List Term} {hidden item : Term} (inside : Hides hidden item) :
      Hides (.list (before ++ hidden :: after)) (.list (before ++ item :: after))

/-! Filling each place with the term chosen for its name. -/

mutual
def filledBy (choice : String → Term) : Term → Term
  | .var name => choice name
  | .compound functor args => .compound functor (filledAllBy choice args)
  | .list items => .list (filledAllBy choice items)
  | .atom name => .atom name
  | .integer value => .integer value
  | .float value => .float value

def filledAllBy (choice : String → Term) : List Term → List Term
  | [] => []
  | term :: terms => term.filledBy choice :: filledAllBy choice terms
end

section

variable {choice : String → Term} {mayBe : String → Term → Prop}

mutual
theorem fills_filledBy (fits : ∀ name, mayBe name (choice name)) :
    ∀ term : Term, Fills mayBe term (term.filledBy choice)
  | .var name => fits name
  | .compound _ args => ⟨rfl, fillsAll_filledAllBy fits args⟩
  | .list items => fillsAll_filledAllBy fits items
  | .atom _ | .integer _ | .float _ => rfl

theorem fillsAll_filledAllBy (fits : ∀ name, mayBe name (choice name)) :
    ∀ terms : List Term, FillsAll mayBe terms (filledAllBy choice terms)
  | [] => trivial
  | term :: terms => ⟨fills_filledBy fits term, fillsAll_filledAllBy fits terms⟩
end

mutual
theorem occurrences_filledBy (ground : ∀ name, (choice name).occurrences = []) :
    ∀ term : Term, (term.filledBy choice).occurrences = []
  | .var name => ground name
  | .compound _ args => occurrencesAll_filledAllBy ground args
  | .list items => occurrencesAll_filledAllBy ground items
  | .atom _ | .integer _ | .float _ => rfl

theorem occurrencesAll_filledAllBy (ground : ∀ name, (choice name).occurrences = []) :
    ∀ terms : List Term, occurrencesAll (filledAllBy choice terms) = []
  | [] => rfl
  | term :: terms => by
      rw [filledAllBy, occurrencesAll, occurrences_filledBy ground term,
        occurrencesAll_filledAllBy ground terms]
      rfl
end

theorem filledAllBy_eq_map (choice : String → Term) (terms : List Term) :
    filledAllBy choice terms = terms.map (filledBy choice) := by
  induction terms with
  | nil => rfl
  | cons term terms induction => rw [filledAllBy, induction, List.map_cons]

theorem Numeric.filledBy (numeric : ∀ name, (choice name).Numeric) {term : Term}
    (numbers : term.Numeric) : (term.filledBy choice).Numeric := by
  induction numbers with
  | var name => exact numeric name
  | atom name => exact .atom name
  | integer value => exact .integer value
  | float number => exact .float number
  | compound all induction =>
      rw [Term.filledBy, filledAllBy_eq_map]
      exact .compound (List.forall_mem_map.mpr induction)
  | list all induction =>
      rw [Term.filledBy, filledAllBy_eq_map]
      exact .list (List.forall_mem_map.mpr induction)

end

theorem beqAll_self {terms : List Term} (each : ∀ term ∈ terms, term.beq term = true) :
    beqAll terms terms = true := by
  induction terms with
  | nil => rfl
  | cons term terms induction =>
      obtain ⟨first, others⟩ := List.forall_mem_cons.mp each
      rw [beqAll, first, induction others]
      rfl

theorem Numeric.beq_self {term : Term} (numbers : term.Numeric) : term.beq term = true := by
  induction numbers with
  | float number => exact Number.beq_self number
  | compound all induction => simp [beq, beqAll_self induction]
  | list all induction => exact beqAll_self induction
  | _ => simp [beq]

/-- A numeric term has a ground instance, which is equal to itself and may stand for a variable. -/
theorem Numeric.exists_ground {term : Term} (numbers : term.Numeric) (name : String) :
    ∃ filled, IsGroundInstance term filled ∧ Ground name filled ∧ filled.beq filled = true := by
  have nothing : ∀ name, Ground name (.list []) := fun _ => ⟨rfl, .list (List.forall_mem_nil _)⟩
  have numeric := Numeric.filledBy (fun name => (nothing name).2) numbers
  exact ⟨term.filledBy fun _ => .list [], fills_filledBy nothing term,
    ⟨occurrences_filledBy (fun _ => rfl) term, numeric⟩, numeric.beq_self⟩

/-! Instances by the shape of the pattern. -/

section

variable {mayBe : String → Term → Prop} {term : Term}

theorem fills_atom_iff {name : String} : Fills mayBe (.atom name) term ↔ term = .atom name := by
  cases term <;> simp [Fills, eq_comm]

theorem fills_integer_iff {value : Int64} :
    Fills mayBe (.integer value) term ↔ term = .integer value := by
  cases term <;> simp [Fills, eq_comm]

theorem fills_float_iff {value : Float} :
    Fills mayBe (.float value) term ↔ term = .float value := by
  cases term <;> simp [Fills, eq_comm]

theorem fills_compound_iff {functor : String} {args : List Term} :
    Fills mayBe (.compound functor args) term ↔
      ∃ others, term = .compound functor others ∧ FillsAll mayBe args others := by
  cases term <;> simp [Fills, eq_comm]

theorem fills_list_iff {items : List Term} :
    Fills mayBe (.list items) term ↔
      ∃ others, term = .list others ∧ FillsAll mayBe items others := by
  cases term <;> simp [Fills]

end

/-! Matching. -/

theorem Numeric.exists_common_var {term : Term} (numbers : term.Numeric) (name : String) :
    ∃ first second, IsGroundInstance term first ∧ IsGroundInstance (.var name) second ∧
      first.beq second = true := by
  obtain ⟨filled, isInstance, ground, same⟩ := numbers.exists_ground name
  exact ⟨filled, filled, isInstance, ground, same⟩

-- A variable faces a term: any ground instance of that term may be put in its place, also where the
-- term has variables itself.
mutual
theorem exists_common : ∀ {left right : Term}, left.Numeric → right.Numeric →
    left.matches right = true →
    ∃ first second, IsGroundInstance left first ∧ IsGroundInstance right second ∧
      first.beq second = true
  | .var name, _, _, others, _ => by
      obtain ⟨filled, isInstance, ground, same⟩ := others.exists_ground name
      exact ⟨filled, filled, ground, isInstance, same⟩
  | .atom name, right, numbers, _, matched => by
      cases right with
      | atom other => exact ⟨.atom name, .atom other, rfl, rfl, matched⟩
      | var other => exact numbers.exists_common_var other
      | _ => cases matched
  | .integer value, right, numbers, _, matched => by
      cases right with
      | integer other => exact ⟨.integer value, .integer other, rfl, rfl, matched⟩
      | var other => exact numbers.exists_common_var other
      | _ => cases matched
  | .float value, right, numbers, _, matched => by
      cases right with
      | float other => exact ⟨.float value, .float other, rfl, rfl, matched⟩
      | var other => exact numbers.exists_common_var other
      | _ => cases matched
  | .compound functor args, right, numbers, others, matched => by
      cases right with
      | compound other rights =>
          obtain ⟨same, all⟩ := Bool.and_eq_true_iff.mp matched
          cases numbers with
          | compound lefts =>
              cases others with
              | compound rights =>
                  obtain ⟨firsts, seconds, areFirsts, areSeconds, equal⟩ :=
                    exists_commonAll lefts rights all
                  exact ⟨.compound functor firsts, .compound other seconds, ⟨rfl, areFirsts⟩,
                    ⟨rfl, areSeconds⟩, Bool.and_eq_true_iff.mpr ⟨same, equal⟩⟩
      | var other => exact numbers.exists_common_var other
      | _ => cases matched
  | .list items, right, numbers, others, matched => by
      cases right with
      | list rights =>
          cases numbers with
          | list lefts =>
              cases others with
              | list rights =>
                  obtain ⟨firsts, seconds, areFirsts, areSeconds, equal⟩ :=
                    exists_commonAll lefts rights matched
                  exact ⟨.list firsts, .list seconds, areFirsts, areSeconds, equal⟩
      | var other => exact numbers.exists_common_var other
      | _ => cases matched

theorem exists_commonAll : ∀ {lefts rights : List Term}, (∀ left ∈ lefts, left.Numeric) →
    (∀ right ∈ rights, right.Numeric) → matchesAll lefts rights = true →
    ∃ firsts seconds, FillsAll Ground lefts firsts ∧ FillsAll Ground rights seconds ∧
      beqAll firsts seconds = true
  | [], [], _, _, _ => ⟨[], [], trivial, trivial, rfl⟩
  | left :: lefts, right :: rights, numbers, others, matched => by
      obtain ⟨one, more⟩ := Bool.and_eq_true_iff.mp matched
      rw [List.forall_mem_cons] at numbers others
      obtain ⟨first, second, isFirst, isSecond, same⟩ := exists_common numbers.1 others.1 one
      obtain ⟨firsts, seconds, areFirsts, areSeconds, all⟩ :=
        exists_commonAll numbers.2 others.2 more
      exact ⟨first :: firsts, second :: seconds, ⟨isFirst, areFirsts⟩, ⟨isSecond, areSeconds⟩,
        Bool.and_eq_true_iff.mpr ⟨same, all⟩⟩
end

section

variable {mayBe other : String → Term → Prop}

mutual
/-- Whatever is put in the place of variables, terms with equal instances match. -/
theorem matches_of_common : ∀ {left right first second : Term}, Fills mayBe left first →
    Fills other right second → first.beq second = true → left.matches right = true
  | .var _, right, _, _, _, _, _ => by cases right <;> rfl
  | .atom name, right, _, second, isFirst, isSecond, same => by
      obtain rfl := fills_atom_iff.mp isFirst
      cases right with
      | var _ => rfl
      | atom _ =>
          obtain rfl := fills_atom_iff.mp isSecond
          exact same
      | _ => cases second <;> first | cases same | cases isSecond
  | .integer value, right, _, second, isFirst, isSecond, same => by
      obtain rfl := fills_integer_iff.mp isFirst
      cases right with
      | var _ => rfl
      | integer _ =>
          obtain rfl := fills_integer_iff.mp isSecond
          exact same
      | _ => cases second <;> first | cases same | cases isSecond
  | .float value, right, _, second, isFirst, isSecond, same => by
      obtain rfl := fills_float_iff.mp isFirst
      cases right with
      | var _ => rfl
      | float _ =>
          obtain rfl := fills_float_iff.mp isSecond
          exact same
      | _ => cases second <;> first | cases same | cases isSecond
  | .compound functor args, right, _, second, isFirst, isSecond, same => by
      obtain ⟨firsts, rfl, areFirsts⟩ := fills_compound_iff.mp isFirst
      cases right with
      | var _ => rfl
      | compound _ rights =>
          obtain ⟨seconds, rfl, areSeconds⟩ := fills_compound_iff.mp isSecond
          obtain ⟨equal, all⟩ := Bool.and_eq_true_iff.mp same
          exact Bool.and_eq_true_iff.mpr ⟨equal, matchesAll_of_common areFirsts areSeconds all⟩
      | _ => cases second <;> first | cases same | cases isSecond
  | .list items, right, _, second, isFirst, isSecond, same => by
      obtain ⟨firsts, rfl, areFirsts⟩ := fills_list_iff.mp isFirst
      cases right with
      | var _ => rfl
      | list rights =>
          obtain ⟨seconds, rfl, areSeconds⟩ := fills_list_iff.mp isSecond
          exact matchesAll_of_common areFirsts areSeconds same
      | _ => cases second <;> first | cases same | cases isSecond

theorem matchesAll_of_common : ∀ {lefts rights firsts seconds : List Term},
    FillsAll mayBe lefts firsts → FillsAll other rights seconds → beqAll firsts seconds = true →
    matchesAll lefts rights = true
  | [], [], [], [], _, _, _ => rfl
  | [], _ :: _, [], _ :: _, _, _, same => nomatch same
  | _ :: _, [], _ :: _, [], _, _, same => nomatch same
  | _ :: _, _ :: _, _ :: _, _ :: _, areFirsts, areSeconds, same => by
      obtain ⟨one, more⟩ := Bool.and_eq_true_iff.mp same
      exact Bool.and_eq_true_iff.mpr ⟨matches_of_common areFirsts.1 areSeconds.1 one,
        matchesAll_of_common areFirsts.2 areSeconds.2 more⟩
end

end

mutual
theorem matches_comm : ∀ left right : Term, left.matches right = right.matches left
  | .compound functor args, right => by
      cases right with
      | compound other others =>
          rw [Term.matches, Term.matches, matchesAll_comm args others, BEq.comm]
      | _ => rfl
  | .list items, right => by
      cases right with
      | list others => exact matchesAll_comm items others
      | _ => rfl
  | .float value, right => by
      cases right with
      | float other => exact Number.beq_comm value other
      | _ => rfl
  | .atom name, right => by
      cases right with
      | atom other => exact BEq.comm
      | _ => rfl
  | .integer value, right => by
      cases right with
      | integer other => exact BEq.comm
      | _ => rfl
  | .var _, right => by cases right <;> rfl

theorem matchesAll_comm : ∀ lefts rights : List Term,
    matchesAll lefts rights = matchesAll rights lefts
  | [], [] => rfl
  | [], _ :: _ => rfl
  | _ :: _, [] => rfl
  | left :: lefts, right :: rights => by
      rw [matchesAll, matchesAll, matches_comm left right, matchesAll_comm lefts rights]
end

mutual
theorem matches_eq_beq : ∀ {left right : Term}, left.occurrences = [] → right.occurrences = [] →
    left.matches right = left.beq right
  | .var _, _, ground, _ => nomatch ground
  | .compound functor args, right, ground, others => by
      cases right with
      | compound other rights => rw [Term.matches, beq, matchesAll_eq_beqAll ground others]
      | var _ => cases others
      | _ => rfl
  | .list items, right, ground, others => by
      cases right with
      | list rights => exact matchesAll_eq_beqAll ground others
      | var _ => cases others
      | _ => rfl
  | .atom _, right, _, others | .integer _, right, _, others | .float _, right, _, others => by
      cases right with
      | var _ => cases others
      | _ => rfl

theorem matchesAll_eq_beqAll : ∀ {lefts rights : List Term}, occurrencesAll lefts = [] →
    occurrencesAll rights = [] → matchesAll lefts rights = beqAll lefts rights
  | [], [], _, _ => rfl
  | [], _ :: _, _, _ => rfl
  | _ :: _, [], _, _ => rfl
  | left :: lefts, right :: rights, ground, others => by
      obtain ⟨first, more⟩ := List.append_eq_nil_iff.mp ground
      obtain ⟨second, later⟩ := List.append_eq_nil_iff.mp others
      rw [matchesAll, beqAll, matches_eq_beq first second, matchesAll_eq_beqAll more later]
end

theorem matchesAll_replace {hidden arg : Term}
    (wider : ∀ other, arg.matches other = true → hidden.matches other = true)
    (before after others : List Term)
    (matched : matchesAll (before ++ arg :: after) others = true) :
    matchesAll (before ++ hidden :: after) others = true := by
  induction before generalizing others with
  | nil =>
      cases others with
      | nil => cases matched
      | cons other others =>
          obtain ⟨one, more⟩ := Bool.and_eq_true_iff.mp matched
          exact Bool.and_eq_true_iff.mpr ⟨wider other one, more⟩
  | cons first before induction =>
      cases others with
      | nil => cases matched
      | cons other others =>
          obtain ⟨one, more⟩ := Bool.and_eq_true_iff.mp matched
          exact Bool.and_eq_true_iff.mpr ⟨one, induction others more⟩

theorem Hides.matches {hidden term : Term} (hides : Hides hidden term) {other : Term}
    (matched : term.matches other = true) : hidden.matches other = true := by
  induction hides generalizing other with
  | whole name term => cases other <;> rfl
  | argument inside induction =>
      cases other with
      | compound functor others =>
          obtain ⟨same, all⟩ := Bool.and_eq_true_iff.mp matched
          exact Bool.and_eq_true_iff.mpr ⟨same, matchesAll_replace (fun _ => induction) _ _ _ all⟩
      | var name => rfl
      | _ => cases matched
  | item inside induction =>
      cases other with
      | list others => exact matchesAll_replace (fun _ => induction) _ _ _ matched
      | var name => rfl
      | _ => cases matched

/-- Numeric terms match exactly if the occurrences of variables in both can be replaced one by one
so that equal terms come out. -/
theorem matches_iff_common (left right : Term) :
    (left.Numeric → right.Numeric →
      (left.matches right = true ↔ ∃ first second, IsGroundInstance left first ∧
        IsGroundInstance right second ∧ (first == second) = true)) ∧
      left.matches right = right.matches left ∧
      (left.occurrences = [] → right.occurrences = [] →
        left.matches right = (left == right)) ∧
      ∀ hidden, (Hides hidden left → left.matches right = true → hidden.matches right = true) ∧
        (Hides hidden right → left.matches right = true → left.matches hidden = true) := by
  refine ⟨fun numbers others => ⟨exists_common numbers others, ?_⟩, matches_comm left right,
    matches_eq_beq, ?_⟩
  · rintro ⟨first, second, isFirst, isSecond, same⟩
    exact matches_of_common isFirst isSecond same
  · intro hidden
    refine ⟨fun hides => hides.matches, fun hides matched => ?_⟩
    rw [matches_comm] at matched ⊢
    exact hides.matches matched

def openPair : Term :=
  .compound "f" [.var "X", .list [.var "X", .float 0.0]]

def otherPair : Term :=
  .compound "f" [.compound "g" [.var "Y"], .list [.atom "a", .float Number.negativeZero]]

/-- Two occurrences of one name that stand for different terms, and zeros of different sign. -/
theorem matches_iff_common_pair :
    (openPair.Numeric ∧ otherPair.Numeric ∧ ∃ first second, IsGroundInstance openPair first ∧
        IsGroundInstance otherPair second ∧ (first == second) = true) ∧
      ((Term.list []).occurrences = [] ∧ (Term.atom "[]").occurrences = [] ∧
        (Term.list []).matches (.atom "[]") = ((Term.list []) == (.atom "[]"))) ∧
      Hides (.compound "f" [.var "X", .var "Z"]) openPair ∧
        (Term.compound "f" [.var "X", .var "Z"]).matches otherPair = true := by
  have zero : (Term.float 0.0).Numeric := .float rfl
  have otherZero : (Term.float Number.negativeZero).Numeric := .float rfl
  have numbers : openPair.Numeric := by
    refine .compound (List.forall_mem_cons.mpr ⟨.var _, List.forall_mem_singleton.mpr (.list ?_)⟩)
    exact List.forall_mem_cons.mpr ⟨.var _, List.forall_mem_singleton.mpr zero⟩
  have others : otherPair.Numeric := by
    refine .compound (List.forall_mem_cons.mpr
      ⟨.compound ?_, List.forall_mem_singleton.mpr (.list ?_)⟩)
    · exact List.forall_mem_singleton.mpr (.var _)
    · exact List.forall_mem_cons.mpr ⟨.atom _, List.forall_mem_singleton.mpr otherZero⟩
  have matched : openPair.matches otherPair = true := by decide
  have hides : Hides (.compound "f" [.var "X", .var "Z"]) openPair :=
    @Hides.argument "f" [.var "X"] [] _ _ (.whole "Z" _)
  exact ⟨⟨numbers, others, ((matches_iff_common _ _).1 numbers others).mp matched⟩,
    ⟨rfl, rfl, (matches_iff_common _ _).2.2.1 rfl rfl⟩,
    hides, ((matches_iff_common openPair otherPair).2.2.2 _).1 hides matched⟩

end HornQuery.Term
