import HornQuery.Proofs.Operator.Reading
import HornQuery.Proofs.Term.Equality

namespace HornQuery.Term

open Token Expression

/-- A functor that the reader takes for an infix operator when it comes after another one. -/
def TakenForInfix (functor : String) : Prop :=
  needsQuotes functor = false ∧ (infixOperator? functor).isSome = true
    ∧ prefixOperator? functor = none

section

variable {name functor : String} {operator : PrefixOperator} {args : List Term}

theorem functorKind_of_takenForInfix (taken : TakenForInfix functor) :
    functorKind functor = .name functor := by
  obtain ⟨bare, isInfix, -⟩ := taken
  have noList : functor ≠ "[]" := by
    rintro rfl
    exact absurd isInfix (by decide)
  have noBraces : functor ≠ "\x7b\x7d" := by
    rintro rfl
    exact absurd isInfix (by decide)
  simp [functorKind, bare, noList, noBraces]

theorem functional_of_takenForInfix (taken : TakenForInfix functor) (args : List Term) :
    Functional functor args := by
  refine ⟨fun _ _ same => ?_, fun _ same => ?_⟩
  · subst same
    exact absurd taken.2.1 (by decide)
  · subst same
    exact absurd taken.2.1 (by decide)

theorem operandFollows_of_functor {head : Token} {more : List Token}
    (kind : head.kind = functorKind functor) (free : ¬ TakenForInfix functor) :
    operandFollows (head :: more) = true := by
  unfold functorKind at kind
  split at kind
  case isTrue => simp [operandFollows, kind]
  case isFalse bare =>
    simp only [Bool.or_eq_true, not_or, Bool.not_eq_true] at bare
    cases infixed : infixOperator? functor with
    | none => simp [operandFollows, kind, infixed]
    | some operator =>
        cases prefixed : prefixOperator? functor with
        | none => exact absurd ⟨bare.2, by rw [infixed]; rfl, prefixed⟩ free
        | some other => simp [operandFollows, kind, prefixed]

/-! The text of an operator and a compound, scanned. -/

theorem toList_prefixed (term : Term) :
    (name ++ " " ++ term.text).toList = name.toList ++ ' ' :: term.write := by
  have space : " ".toList = [' '] := by decide
  rw [String.toList_append, String.toList_append, space, toList_text]
  simp

theorem scan_prefixed {term : Term} {spelled : List Token → Prop}
    (listed : prefixOperator? name = some operator) (some : ∀ tokens, spelled tokens → tokens ≠ [])
    (scans : Scans term.write [] spelled) :
    ∃ sign tokens, sign.kind = .name name ∧ spelled tokens
      ∧ scan (name ++ " " ++ term.text).toList = .ok (sign :: afterLayout tokens) := by
  have whole : Scans (name.toList ++ ' ' :: term.write) [] fun tokens =>
      ∃ sign others, sign.kind = .name name ∧ spelled others
        ∧ tokens = sign :: afterLayout others := by
    apply (scans_prefixName listed (delimited_cons (by decide) _)).append (scans.space some)
    rintro former latter ⟨sign, kind, _, rfl⟩ ⟨others, isSpelled, rfl⟩
    exact ⟨sign, others, kind, isSpelled, rfl⟩
  obtain ⟨tokens, ⟨sign, others, kind, isSpelled, rfl⟩, scanned⟩ := whole.scan_eq
  rw [toList_prefixed]
  exact ⟨sign, others, kind, isSpelled, scanned⟩

theorem functional_or_operandFollows {tokens : List Token}
    (spelled : Spells tokens (.compound functor args)) :
    Functional functor args ∨ operandFollows tokens = true := by
  cases spelled with
  | functional plain => exact .inl plain
  | cells opens => exact .inr (by simp [operandFollows, opens])
  | braces opens => exact .inr (by simp [operandFollows, opens])

/-- What a written compound starts with can be an operand, unless its functor is taken for an
infix operator. -/
theorem scans_operand (readable : Readable (.compound functor args))
    (free : ¬ TakenForInfix functor) :
    Scans (Term.compound functor args).write [] fun tokens =>
      Spells tokens (.compound functor args) ∧ operandFollows tokens = true := by
  cases compoundForm functor args with
  | cell item tail =>
      apply ((scans_written readable).1 [] delimited_nil).imp
      exact fun tokens spelled => ⟨spelled, (functional_or_operandFollows spelled).resolve_left
        fun plain => plain.noCell item tail rfl rfl⟩
  | braces inner =>
      apply ((scans_written readable).1 [] delimited_nil).imp
      exact fun tokens spelled => ⟨spelled, (functional_or_operandFollows spelled).resolve_left
        fun plain => plain.noBraces inner rfl rfl⟩
  | functional plain =>
      cases readable with
      | compound nonempty _ all =>
          apply (scans_functional plain nonempty (fun arg member => (scans_written
            (all arg member)).1) []).imp
          rintro tokens ⟨spelled, head, more, kind, rfl⟩
          exact ⟨spelled, operandFollows_of_functor kind free⟩

/-! Reading it. -/

theorem readsThrough_compound (size : Nat) {tokens : List Token}
    (spelled : Spells tokens (.compound functor args)) :
    ReadsThrough size (Term.compound functor args).height 0 ⟨.compound functor args, 0⟩ tokens := by
  obtain ⟨first, others, rfl⟩ := List.exists_cons_of_ne_nil spelled.ne_nil
  apply readsThrough_of_primary
  intro levels bound rest _ stops
  exact readPrimary_spelled size bound (readsTerms_readOperand size levels) spelled
    stops.noArguments nofun

theorem parse_prefixed (listed : prefixOperator? name = some operator)
    (readable : Readable (.compound functor args))
    (shallow : (Term.compound functor args).height < maxDepth) (free : ¬ TakenForInfix functor) :
    parse (name ++ " " ++ (Term.compound functor args).text)
      = .ok (.compound name [.compound functor args]) := by
  obtain ⟨sign, tokens, isName, ⟨spelled, follows⟩, scanned⟩ :=
    scan_prefixed listed (fun _ both => both.1.ne_nil) (scans_operand readable free)
  obtain ⟨first, others, rfl⟩ := List.exists_cons_of_ne_nil spelled.ne_nil
  rw [parse_eq_ofTokens scanned]
  generalize Text.byteLength _ = size
  have through := (readsThrough_compound size spelled.afterLayout).prefixed listed isName
    (fun token found => by cases found; rfl) (fun _ => follows) (height_pos _) (Nat.zero_le _)
    (Nat.zero_le _)
  have read : ReadsIf ((Term.compound functor args).height + 1 ≤ maxDepth)
      (readOperand size maxDepth clauseBound (sign :: afterLayout (first :: others) ++ [])) _ :=
    through.reads (Nat.succ_pos _) (PrefixOperator.priority_le listed)
      (Nat.le_trans (operator.fixity.bound_le _) (PrefixOperator.priority_le listed))
      (stops_of_ends (ends_nil clauseBound))
  rw [List.append_nil] at read
  exact (readsIf_ofTokens (List.cons_ne_nil _ _) read).same shallow

/-- The functor comes to stand between the name of the operator and its own arguments. -/
theorem readOperand_ne_prefixed {sign head : Token} {more : List Token} {size levels bound : Nat}
    {result : Operand} {taken : Nat} {term : Term} (takenForInfix : TakenForInfix functor)
    (isName : sign.kind = .name name) (isFunctor : head.kind = .name functor)
    (whole : clauseBound ≤ bound)
    (read : readOperand size levels bound (sign :: head :: more) = .ok (result, taken)) :
    result.term ≠ .compound name [term] := by
  obtain ⟨_, isInfix, noPrefix⟩ := takenForInfix
  obtain ⟨joiner, joins⟩ := Option.isSome_iff_exists.mp isInfix
  cases levels with
  | zero => cases read
  | succ levels =>
      have noArguments : argumentsFollow (head :: more) = false := by
        simp [argumentsFollow, Token.isMark, isFunctor]
      have noOperand : operandFollows (head :: more) = false := by
        simp [operandFollows, isFunctor, joins, noPrefix]
      have primary : readPrimary size (readOperand size levels) bound sign (head :: more)
          = .ok (⟨.atom name, 0⟩, 0) := by
        rw [readPrimary, isName]
        exact readName_atom size bound noArguments (.inr noOperand)
      have fits : joining? bound ⟨.atom name, 0⟩ head = some (functor, joiner) := by
        have strong := Nat.le_trans (InfixOperator.priority_le joins) whole
        simp [joining?, infixName?, isFunctor, joins, Nat.not_lt.mpr strong]
      rw [readOperand, readLevel] at read
      obtain ⟨⟨left, count⟩, readLeft, continued⟩ := bind_eq_ok.mp read
      cases primary.symm.trans readLeft
      obtain ⟨⟨last, more⟩, readRest, done⟩ := bind_eq_ok.mp continued
      cases done
      rw [List.drop_zero, readInfix_cons, fits] at readRest
      obtain ⟨⟨right, rightCount⟩, _, continued⟩ := bind_eq_ok.mp readRest
      obtain ⟨⟨joined, joinedCount⟩, readMore, done⟩ := bind_eq_ok.mp continued
      cases done
      intro same
      rcases readInfix_of_compound rfl readMore with isJoined | ⟨_, former, latter, isJoined, _⟩
      · rw [isJoined] at same
        simp at same
      · rw [isJoined] at same
        simp at same

theorem parse_prefixed_ne (listed : prefixOperator? name = some operator)
    (readable : Readable (.compound functor args)) (takenForInfix : TakenForInfix functor) :
    parse (name ++ " " ++ (Term.compound functor args).text)
      ≠ .ok (.compound name [.compound functor args]) := by
  cases readable with
  | compound nonempty _ all =>
      have scans := scans_functional (functional_of_takenForInfix takenForInfix args) nonempty
        (fun arg member => (scans_written (all arg member)).1) []
      obtain ⟨sign, tokens, isName, ⟨_, head, more, isHead, rfl⟩, scanned⟩ :=
        scan_prefixed listed (fun _ both => both.1.ne_nil) scans
      rw [functorKind_of_takenForInfix takenForInfix] at isHead
      intro read
      rw [parse_eq_ofTokens scanned] at read
      obtain ⟨result, taken, readTerm, same, _⟩ := ofTokens_eq_ok read
      have afterSign : ({ head with layoutBefore := true } : Token).kind = .name functor := isHead
      exact readOperand_ne_prefixed takenForInfix isName afterSign (Nat.le_refl _) readTerm same

/-- A prefix operator applies to a written compound exactly if the functor of the compound is
not taken for an infix operator. -/
theorem parse_prefixed_iff (listed : prefixOperator? name = some operator)
    (readable : Readable (.compound functor args))
    (shallow : (Term.compound functor args).height < maxDepth) :
    parse (name ++ " " ++ (Term.compound functor args).text)
        = .ok (.compound name [.compound functor args])
      ↔ ¬ TakenForInfix functor :=
  ⟨fun read taken => parse_prefixed_ne listed readable taken read,
    parse_prefixed listed readable shallow⟩

end

theorem parse_prefixed_iff_comma :
    let args : List Term := [.compound "-" [.integer 1], .compound "=" [.atom "a", .atom "b"]]
    prefixOperator? "\\+" = some ⟨900, .fy⟩ ∧ Readable (.compound "," args)
      ∧ (Term.compound "," args).height < maxDepth
      ∧ parse ("\\+" ++ " " ++ (Term.compound "," args).text)
        = .ok (.compound "\\+" [.compound "," args]) := by
  intro args
  have listed : prefixOperator? "\\+" = some ⟨900, .fy⟩ := by decide
  have shallow : (Term.compound "," args).height < maxDepth := by decide +kernel
  have readable : Readable (.compound "," args) := by
    have minus : Readable (.compound "-" [.integer 1]) :=
      .compound (by simp) (by simp) (by simp [Readable.integer])
    have equation : Readable (.compound "=" [.atom "a", .atom "b"]) := by
      have left : Readable (.atom "a") := .atom (by decide)
      have right : Readable (.atom "b") := .atom (by decide)
      exact .compound (by simp) (by simp) (by simp [left, right])
    exact .compound (by simp [args]) (by simp [args]) (by simp [args, minus, equation])
  refine ⟨listed, readable, shallow, (parse_prefixed_iff listed readable shallow).mpr ?_⟩
  unfold TakenForInfix
  decide

/-- The negation becomes the left side of the equation, and its arguments the right side. -/
theorem not_parse_prefixed_all :
    (¬ ∀ name operator functor args, prefixOperator? name = some operator →
        Readable (.compound functor args) → (Term.compound functor args).height < maxDepth →
        parse (name ++ " " ++ (Term.compound functor args).text)
          = .ok (.compound name [.compound functor args]))
      ∧ parse "\\+ =(b,a)"
        = .ok (.compound "=" [.atom "\\+", .compound "," [.atom "b", .atom "a"]]) := by
  have read : parse "\\+ =(b,a)"
      = .ok (.compound "=" [.atom "\\+", .compound "," [.atom "b", .atom "a"]]) :=
    (givesTerm_iff (by decide) _).mp (by decide +kernel)
  refine ⟨fun all => ?_, read⟩
  have left : Readable (.atom "b") := .atom (by decide)
  have right : Readable (.atom "a") := .atom (by decide)
  have expected := all "\\+" ⟨900, .fy⟩ "=" [.atom "b", .atom "a"] (by decide)
    (.compound (by simp) (by simp) (by simp [left, right])) (by decide +kernel)
  have written : "\\+" ++ " " ++ (Term.compound "=" [.atom "b", .atom "a"]).text = "\\+ =(b,a)" := by
    decide +kernel
  rw [written, read] at expected
  exact absurd (Term.compound.inj (Except.ok.inj expected)).1 (by decide)

end HornQuery.Term
