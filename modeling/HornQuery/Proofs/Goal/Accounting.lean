import HornQuery.Proofs.Goal.Prebinding

namespace HornQuery

theorem Policy.exists_replacements_iff {policy : Policy} {names : List String}
    {args : List Value} (lengths : args.length = names.length) :
    (∃ filled, policy.replacements names args = .ok filled) ↔
      ∀ arg ∈ args, ∃ term, policy.toTerm arg = .ok term := by
  induction names generalizing args with
  | nil =>
      rw [List.length_nil, List.length_eq_zero_iff] at lengths
      subst lengths
      exact iff_of_true ⟨[], rfl⟩ (List.forall_mem_nil _)
  | cons name names induction =>
      cases args with
      | nil => cases lengths
      | cons arg args =>
          have others := induction (Nat.succ.inj lengths)
          rw [List.forall_mem_cons, ← others, replacements]
          cases converted : policy.toTerm arg with
          | error cause => simp [bind, Except.bind]
          | ok term =>
              cases filled : policy.replacements names args with
              | error cause => simp [bind, Except.bind]
              | ok more => exact iff_of_true ⟨_, rfl⟩ ⟨⟨term, rfl⟩, more, rfl⟩

namespace Binding

/-- What a request says about the placeholder that it is to bind. There may be none such. -/
inductive Target where
  | index (index : Nat)
  | name (name : String)

structure Request where
  target : Target
  value : Value
  policy : Policy

def attempt (request : Request) : EStateM QueryError Binding Unit :=
  match request.target with
  | .index index => bindAt request.policy index request.value
  | .name name => bindNamed request.policy name request.value

/-- The binding as it is left by a request. -/
def handle (binding : Binding) (request : Request) : Binding :=
  match attempt request binding with
  | .ok _ next => next
  | .error _ left => left

def handleAll (binding : Binding) (requests : List Request) : Binding :=
  requests.foldl handle binding

def placeholder? (binding : Binding) : Target → Option String
  | .index index => binding.placeholders[index]?
  | .name name => if name ∈ binding.placeholders then some name else none

/-- What is bound are placeholders, each of them once. -/
structure Accounted (binding : Binding) : Prop where
  known : ∀ name, binding.isBound name = true → name ∈ binding.placeholders
  distinct : (binding.bound.map Prod.fst).Nodup

variable {binding next : Binding} {request : Request} {name text : String} {policy : Policy}
  {args : List Value}

theorem isBound_iff : binding.isBound name = true ↔ name ∈ binding.bound.map Prod.fst := by
  rw [isBound, Option.isSome_iff_ne_none, ne_eq, List.lookup_eq_none_iff]
  simp

/-! One request. -/

theorem bindPlaceholder_eq_ok_iff {value : Value} :
    bindPlaceholder policy name value binding = .ok () next ↔
      ∃ term, binding.isBound name = false ∧ policy.toTerm value = .ok term ∧
        next = binding.extend name term.text := by
  cases bound : binding.isBound name with
  | true => simp [bindPlaceholder_of_isBound bound]
  | false =>
      cases converted : policy.toTerm value with
      | error cause => simp [bindPlaceholder_of_error bound converted]
      | ok term => simp [bindPlaceholder_of_free bound converted, eq_comm]

theorem bindPlaceholder_error {value : Value} {cause : QueryError} {left : Binding}
    (refused : bindPlaceholder policy name value binding = .error cause left) :
    left = binding := by
  cases bound : binding.isBound name with
  | true =>
      rw [bindPlaceholder_of_isBound bound] at refused
      cases refused
      rfl
  | false =>
      cases converted : policy.toTerm value with
      | error cause =>
          rw [bindPlaceholder_of_error bound converted] at refused
          cases refused
          rfl
      | ok term =>
          rw [bindPlaceholder_of_free bound converted] at refused
          cases refused

theorem bindAt_of_getElem?_eq_none {index : Nat}
    (missing : binding.placeholders[index]? = none) (value : Value) :
    bindAt policy index value binding =
      .error (.placeholderIndex index binding.placeholders.length) binding := by
  rw [bindAt, get_bind, missing]
  rfl

theorem bindNamed_of_not_mem (stranger : name ∉ binding.placeholders) (value : Value) :
    bindNamed policy name value binding = .error (.unknownPlaceholder name) binding := by
  have unlisted : binding.pattern.indexOf? name = none := by
    rw [GoalPattern.indexOf?, List.findIdx?_eq_none_iff]
    intro other member
    exact decide_eq_false fun same => stranger (same ▸ member)
  rw [bindNamed, get_bind, unlisted]
  rfl

theorem bindAt_eq_bindNamed {index : Nat} (found : binding.placeholders[index]? = some name)
    (value : Value) :
    bindAt policy index value binding = bindNamed policy name value binding := by
  rw [bindAt_of_getElem? found, bindNamed_of_mem (List.mem_of_getElem? found)]

theorem attempt_of_placeholder? (found : binding.placeholder? request.target = some name) :
    attempt request binding = bindPlaceholder request.policy name request.value binding := by
  rw [attempt]
  cases target : request.target with
  | index index =>
      rw [target, placeholder?] at found
      exact bindAt_of_getElem? found
  | name other =>
      rw [target, placeholder?] at found
      split at found
      case isTrue member =>
        cases found
        exact bindNamed_of_mem member
      case isFalse => cases found

theorem exists_attempt_eq_error (missing : binding.placeholder? request.target = none) :
    ∃ cause, attempt request binding = .error cause binding := by
  rw [attempt]
  cases target : request.target with
  | index index =>
      rw [target, placeholder?] at missing
      exact ⟨_, bindAt_of_getElem?_eq_none missing request.value⟩
  | name other =>
      rw [target, placeholder?] at missing
      split at missing
      case isTrue => cases missing
      case isFalse stranger => exact ⟨_, bindNamed_of_not_mem stranger request.value⟩

theorem attempt_eq_ok_iff :
    attempt request binding = .ok () next ↔
      ∃ name term, binding.placeholder? request.target = some name ∧
        binding.isBound name = false ∧ request.policy.toTerm request.value = .ok term ∧
        next = binding.extend name term.text := by
  cases found : binding.placeholder? request.target with
  | some name =>
      rw [attempt_of_placeholder? found, bindPlaceholder_eq_ok_iff]
      constructor
      · rintro ⟨term, done⟩
        exact ⟨name, term, rfl, done⟩
      · rintro ⟨_, term, ⟨⟩, done⟩
        exact ⟨term, done⟩
  | none =>
      obtain ⟨cause, refused⟩ := exists_attempt_eq_error found
      simp [refused]

theorem attempt_error {cause : QueryError} {left : Binding}
    (refused : attempt request binding = .error cause left) : left = binding := by
  cases found : binding.placeholder? request.target with
  | some name =>
      rw [attempt_of_placeholder? found] at refused
      exact bindPlaceholder_error refused
  | none =>
      obtain ⟨other, failed⟩ := exists_attempt_eq_error found
      rw [failed] at refused
      cases refused
      rfl

/-- A copy becomes what the binding itself would become. -/
theorem onCopy_eq_ok_iff {request : EStateM QueryError Binding Unit} :
    binding.onCopy request = .ok next ↔ request binding = .ok () next := by
  rw [onCopy]
  cases request binding with
  | ok _ other => simp
  | error cause left => simp

theorem bindIndex_eq_ok_iff {index : Nat} {value : Value} :
    binding.bindIndex policy index value = .ok next ↔
      attempt ⟨.index index, value, policy⟩ binding = .ok () next :=
  onCopy_eq_ok_iff

theorem bindName_eq_ok_iff {value : Value} :
    binding.bindName policy name value = .ok next ↔
      attempt ⟨.name name, value, policy⟩ binding = .ok () next :=
  onCopy_eq_ok_iff

theorem mem_of_placeholder? {target : Target} (found : binding.placeholder? target = some name) :
    name ∈ binding.placeholders := by
  cases target with
  | index index => exact List.mem_of_getElem? found
  | name other =>
      rw [placeholder?] at found
      split at found
      case isTrue member =>
        cases found
        exact member
      case isFalse => cases found

theorem handle_of_error {cause : QueryError} {left : Binding}
    (refused : attempt request binding = .error cause left) :
    binding.handle request = binding := by
  rw [handle, refused]
  exact attempt_error refused

theorem handle_cases (binding : Binding) (request : Request) :
    binding.handle request = binding ∨
      ∃ name text, name ∈ binding.placeholders ∧ binding.isBound name = false ∧
        binding.handle request = binding.extend name text := by
  cases attempted : attempt request binding with
  | error cause left => exact .inl (handle_of_error attempted)
  | ok _ next =>
      obtain ⟨name, term, found, free, -, rfl⟩ := attempt_eq_ok_iff.mp attempted
      refine .inr ⟨name, term.text, mem_of_placeholder? found, free, ?_⟩
      rw [handle, attempted]

/-! Any number of requests. -/

theorem placeholders_handleAll (binding : Binding) (requests : List Request) :
    (binding.handleAll requests).placeholders = binding.placeholders := by
  induction requests generalizing binding with
  | nil => rfl
  | cons request requests induction =>
      rw [handleAll, List.foldl_cons, ← handleAll, induction]
      rcases binding.handle_cases request with same | ⟨name, text, -, -, same⟩
      · rw [same]
      · rw [same]
        rfl

theorem lookup_extend (free : binding.isBound name = false) {other : String}
    (found : binding.bound.lookup other = some text) (added : String) :
    (binding.extend name added).bound.lookup other = some text := by
  have different : (other == name) = false := by
    apply beq_false_of_ne
    rintro rfl
    rw [isBound, found] at free
    cases free
  rw [extend, List.lookup_cons, different]
  exact found

theorem lookup_handleAll (found : binding.bound.lookup name = some text)
    (requests : List Request) :
    (binding.handleAll requests).bound.lookup name = some text := by
  induction requests generalizing binding with
  | nil => exact found
  | cons request requests induction =>
      apply induction
      rcases binding.handle_cases request with same | ⟨other, added, -, free, same⟩
      · rwa [same]
      · rw [same]
        exact lookup_extend free found added

theorem accounted_ofPattern (source : String) : Accounted (ofPattern source) where
  known := nofun
  distinct := List.nodup_nil

theorem Accounted.extend (accounted : Accounted binding) (own : name ∈ binding.placeholders)
    (free : binding.isBound name = false) (text : String) :
    Accounted (binding.extend name text) where
  known := by
    intro other bound
    rw [isBound_iff, Binding.extend, List.map_cons, List.mem_cons] at bound
    rcases bound with rfl | before
    · exact own
    · exact accounted.known other (isBound_iff.mpr before)
  distinct := by
    rw [Binding.extend, List.map_cons, List.nodup_cons]
    refine ⟨?_, accounted.distinct⟩
    intro bound
    rw [isBound_iff.mpr bound] at free
    cases free

theorem accounted_handleAll (accounted : Accounted binding) (requests : List Request) :
    Accounted (binding.handleAll requests) := by
  induction requests generalizing binding with
  | nil => exact accounted
  | cons request requests induction =>
      apply induction
      rcases binding.handle_cases request with same | ⟨name, text, own, free, same⟩
      · rwa [same]
      · rw [same]
        exact accounted.extend own free text

theorem Accounted.length_add_length (accounted : Accounted binding) :
    binding.bound.length + binding.unbound.length = binding.placeholders.length := by
  have once : binding.placeholders.Nodup := binding.pattern.nodup_placeholders
  -- The bound names are the placeholders that are bound, in another order.
  have chosen : (binding.placeholders.filter binding.isBound).Perm
      (binding.bound.map Prod.fst) := by
    rw [List.perm_ext_iff_of_nodup (once.filter _) accounted.distinct]
    intro name
    rw [List.mem_filter, ← isBound_iff]
    exact ⟨And.right, fun bound => ⟨accounted.known name bound, bound⟩⟩
  have split := List.length_eq_length_filter_add (l := binding.placeholders) binding.isBound
  rw [chosen.length_eq, List.length_map] at split
  exact split.symm

theorem Accounted.length_sub_length (accounted : Accounted binding) :
    binding.placeholders.length - binding.bound.length = binding.unbound.length := by
  rw [← accounted.length_add_length, Nat.add_sub_cancel_left]

/-! The goal of a binding. -/

theorem exists_goalText_iff (accounted : Accounted binding) :
    (∃ goal, binding.goalText policy args = .ok goal) ↔
      args.length = binding.unbound.length ∧
        ∀ arg ∈ args, ∃ term, policy.toTerm arg = .ok term := by
  rw [goalText, accounted.length_sub_length]
  by_cases count : args.length = binding.unbound.length
  · rw [← Policy.exists_replacements_iff count]
    simp only [count, ne_eq, not_true, if_false, true_and]
    cases policy.replacements binding.unbound args with
    | error cause => simp
    | ok filled => exact iff_of_true ⟨_, rfl⟩ ⟨_, rfl⟩
  · simp [count]

theorem goalText_of_count (accounted : Accounted binding)
    (other : args.length ≠ binding.unbound.length) :
    binding.goalText policy args =
      .error (.placeholderCount binding.unbound.length args.length) := by
  rw [goalText, accounted.length_sub_length, if_pos other]

/-- After any requests to bind placeholders, bound names are placeholders, each bound once, and
the others are as many as arguments are still wanted. A request succeeds exactly if it is about a
placeholder that is free, and its value can be converted; it then binds that one, and if it is
refused it binds nothing. What is bound stays so. A goal can be had exactly for arguments of the
right number that can all be converted, and their number is looked at first. -/
theorem accounted_requests (source : String) (requests : List Request) :
    let binding := (ofPattern source).handleAll requests
    binding.placeholders = (GoalPattern.compile source).placeholders ∧
      (∀ name, binding.isBound name = true → name ∈ binding.placeholders) ∧
      (binding.bound.map Prod.fst).Nodup ∧
      binding.bound.length ≤ binding.placeholders.length ∧
      binding.placeholders.length - binding.bound.length = binding.unbound.length ∧
      (∀ request next, attempt request binding = .ok () next ↔
        ∃ name term, binding.placeholder? request.target = some name ∧
          binding.isBound name = false ∧ request.policy.toTerm request.value = .ok term ∧
          next = binding.extend name term.text) ∧
      (∀ request cause left, attempt request binding = .error cause left →
        left = binding ∧ binding.handle request = binding) ∧
      (∀ more name text, binding.bound.lookup name = some text →
        (binding.handleAll more).bound.lookup name = some text) ∧
      (∀ policy index name value, binding.placeholders[index]? = some name →
        bindAt policy index value binding = bindNamed policy name value binding) ∧
      (∀ policy args, (∃ goal, binding.goalText policy args = .ok goal) ↔
        args.length = binding.unbound.length ∧
          ∀ arg ∈ args, ∃ term, policy.toTerm arg = .ok term) ∧
      ∀ policy args, args.length ≠ binding.unbound.length →
        binding.goalText policy args =
          .error (.placeholderCount binding.unbound.length args.length) := by
  intro binding
  have accounted : Accounted binding := accounted_handleAll (accounted_ofPattern source) requests
  refine ⟨placeholders_handleAll _ _, accounted.known, accounted.distinct, ?_,
    accounted.length_sub_length, ?_, ?_, ?_, ?_, ?_, ?_⟩
  · exact Nat.le.intro accounted.length_add_length
  · exact fun _ _ => attempt_eq_ok_iff
  · exact fun _ _ _ refused => ⟨attempt_error refused, handle_of_error refused⟩
  · exact fun more _ _ found => lookup_handleAll found more
  · exact fun _ _ _ value found => bindAt_eq_bindNamed found value
  · exact fun _ _ => exists_goalText_iff accounted
  · exact fun _ _ => goalText_of_count accounted

end Binding

end HornQuery
