import HornQuery.Proofs.Goal.Operands
import HornQuery.Proofs.Operator.Combining
import HornQuery.Proofs.Term.Occurrences
import HornQuery.Proofs.Theory.Log

namespace HornQuery.Term

open Token

def HeadTakesBody (term : Term) : Prop :=
  ∃ name body, term = .compound ":-" [.atom name, body] ∧ (prefixOperator? name).isSome = true

/-! Rules, written and scanned. -/

theorem toList_clauseText (head body : Term) :
    (Term.compound ":-" [head, body]).clauseText.toList =
      head.write ++ (' ' :: (":-".toList ++ ' ' :: body.write)) := by
  have arrow : " :- ".toList = ' ' :: (":-".toList ++ [' ']) := by decide
  simp only [clauseText, rule?, if_true, String.toList_append, toList_text, arrow]
  simp

/-- The arrow of a rule and its body, in front of which the head has been scanned. -/
def SpellsArrow (body : Term) (tokens : List Token) : Prop :=
  ∃ sign latter, sign.kind = .name ":-" ∧ Spells latter body ∧ tokens = sign :: latter

theorem scans_arrow {body : Term} (readable : Readable body) :
    Scans (' ' :: (":-".toList ++ ' ' :: body.write)) [] (SpellsArrow body) := by
  have written := (scans_written readable).1 [] delimited_nil
  apply (scans_arrowed written fun _ spelled => spelled.ne_nil).imp
  rintro tokens ⟨sign, others, kind, spelled, rfl⟩
  exact ⟨sign, _, kind, spelled.afterLayout, rfl⟩

theorem scan_clauseText {head body : Term} {spelled : List Token → Prop}
    (scans : ∀ rest, Delimited rest → Scans head.write rest spelled) (readable : Readable body) :
    ∃ former sign latter, spelled former ∧ sign.kind = .name ":-" ∧ Spells latter body ∧
      scan (Term.compound ":-" [head, body]).clauseText.toList =
        .ok (former ++ sign :: latter) := by
  have whole : Scans (head.write ++ (' ' :: (":-".toList ++ ' ' :: body.write))) [] fun tokens =>
      ∃ former sign latter, spelled former ∧ sign.kind = .name ":-" ∧ Spells latter body ∧
        tokens = former ++ sign :: latter := by
    have before := scans (' ' :: (":-".toList ++ ' ' :: body.write) ++ [])
      (delimited_cons (by decide) _)
    apply before.append (scans_arrow readable)
    rintro former others isHead ⟨sign, latter, kind, isBody, rfl⟩
    exact ⟨former, sign, latter, isHead, kind, isBody, rfl⟩
  obtain ⟨tokens, ⟨former, sign, latter, isHead, kind, isBody, rfl⟩, scanned⟩ := whole.scan_eq
  rw [toList_clauseText]
  exact ⟨former, sign, latter, isHead, kind, isBody, scanned⟩

/-! Heads that leave the arrow alone. -/

theorem parse_clauseText_rule {head body : Term} (readableHead : Readable head)
    (readableBody : Readable body) (headFits : head.height ≤ maxDepth)
    (bodyFits : body.height < maxDepth)
    (noPrefix : ∀ name, head = .atom name → prefixOperator? name = none) :
    parse (Term.compound ":-" [head, body]).clauseText = .ok (.compound ":-" [head, body]) := by
  have listed : infixOperator? ":-" = some ⟨1200, .xfx⟩ := by decide
  obtain ⟨former, sign, latter, isHead, kind, isBody, scanned⟩ :=
    scan_clauseText (scans_written readableHead).1 readableBody
  have isInfix : IsInfix ":-" sign := by simp [IsInfix, infixName?, Token.isMark, kind]
  rw [parse_eq_ofTokens scanned]
  generalize Text.byteLength _ = size
  have read := readOperand_infix size listed isInfix isHead isBody headFits
    (Nat.le_of_lt_succ bodyFits) fun name isAtom => Or.inl (noPrefix name isAtom)
  have reads : ReadsIf True (readOperand size maxDepth clauseBound (former ++ sign :: latter)) _ :=
    .of_eq trivial read
  exact (readsIf_ofTokens (List.append_ne_nil_of_right_ne_nil former
    (List.cons_ne_nil sign latter)) reads).same trivial

/-! Heads that take in the arrow. -/

theorem readName_takesOperand {name : String} {operator : PrefixOperator} {sign : Token}
    (size bound : Nat) (reader : OperandReader) (latter : List Token)
    (listed : prefixOperator? name = some operator) (kind : sign.kind = .name ":-") :
    readName size reader name false bound (sign :: latter) = (do
      let (arg, taken) ← reader (operator.fixity.bound (min operator.priority bound))
        (sign :: latter)
      .ok (⟨.compound name [arg.term], min operator.priority bound⟩, taken)) := by
  have noArguments : argumentsFollow (sign :: latter) = false := by
    simp [argumentsFollow, Token.isMark, kind]
  have noNegative : (if name = "-" then readNegative? (sign :: latter) else none) = none := by
    simp [readNegative?, kind]
  have isPrefix : (prefixOperator? ":-").isSome = true := by decide
  have follows : operandFollows (sign :: latter) = true := by
    simp [operandFollows, kind, isPrefix]
  rw [readName, noArguments, noNegative, follows]
  simp only [Bool.false_eq_true, if_false, if_true, listed]

theorem write_prefixName {name : String} {operator : PrefixOperator}
    (listed : prefixOperator? name = some operator) : (Term.atom name).write = name.toList := by
  have all : ∀ group ∈ prefixGroups, group.2.all (fun name => !needsQuotes name) = true :=
    Text.forall_mem_of_all (by decide +kernel)
  obtain ⟨names, member, isName⟩ := exists_prefixGroup listed
  have bare := List.all_eq_true.mp (all _ member) name isName
  rw [write, written, Written.leaf, writeName, if_neg (by simpa using bare)]

/-- Behind the name of a prefix operator an arrow is never read as the arrow of a rule that the
name heads. -/
theorem readOperand_ne_rule {name : String} {operator : PrefixOperator} {first sign : Token}
    {latter : List Token} {size levels bound taken : Nat} {result : Operand} {body : Term}
    (listed : prefixOperator? name = some operator) (isName : first.kind = .name name)
    (kind : sign.kind = .name ":-")
    (read : readOperand size levels bound (first :: sign :: latter) = .ok (result, taken)) :
    result.term ≠ .compound ":-" [.atom name, body] := by
  cases levels with
  | zero => cases read
  | succ levels =>
      rw [readOperand, readLevel] at read
      obtain ⟨⟨left, count⟩, readLeft, continued⟩ := bind_eq_ok.mp read
      obtain ⟨⟨last, more⟩, readMore, done⟩ := bind_eq_ok.mp continued
      cases done
      rw [readPrimary, isName] at readLeft
      simp only [readName_takesOperand size bound _ latter listed kind] at readLeft
      obtain ⟨⟨arg, argCount⟩, _, done⟩ := bind_eq_ok.mp readLeft
      cases done
      intro isRule
      rcases readInfix_of_compound rfl readMore with same | ⟨_, former, right, same, isCompound⟩
      · rw [same] at isRule
        simp at isRule
      · rw [same] at isRule
        cases isRule
        cases isCompound

theorem parse_clauseText_ne {name : String} {body : Term} (readable : Readable body)
    (isPrefix : (prefixOperator? name).isSome = true) :
    parse (Term.compound ":-" [.atom name, body]).clauseText ≠
      .ok (.compound ":-" [.atom name, body]) := by
  obtain ⟨operator, listed⟩ := Option.isSome_iff_exists.mp isPrefix
  have spelled : ∀ rest, Delimited rest →
      Scans (Term.atom name).write rest (IsToken (.name name)) := by
    intro rest delimited
    rw [write_prefixName listed]
    exact scans_prefixName listed delimited
  obtain ⟨former, sign, latter, ⟨first, isName, _, rfl⟩, kind, _, scanned⟩ :=
    scan_clauseText spelled readable
  intro read
  rw [parse_eq_ofTokens scanned, ofTokens] at read
  obtain ⟨⟨result, taken⟩, readTerm, done⟩ := bind_eq_ok.mp read
  simp only at done
  have same : result.term = .compound ":-" [.atom name, body] := by
    split at done
    · exact Except.ok.inj done
    · cases done
  exact readOperand_ne_rule listed isName kind readTerm same

/-! Any asserted term. -/

theorem parse_clauseText_iff {term : Term} (readable : Readable term)
    (shallow : term.height ≤ maxDepth) :
    parse term.clauseText = .ok term ↔ ¬HeadTakesBody term := by
  cases rule : term.rule? with
  | none =>
      have plain : term.clauseText = term.text := by rw [clauseText, rule]
      have noRule : ¬HeadTakesBody term := by
        rintro ⟨name, body, rfl, _⟩
        cases rule
      rw [plain]
      exact iff_of_true ((parse_text readable).1 shallow) noRule
  | some parts =>
      obtain ⟨head, body⟩ := parts
      have isRule := eq_of_rule? rule
      subst isRule
      cases readable with
      | compound _ _ all =>
          have fits : ∀ arg ∈ [head, body], arg.height ≤ 255 :=
            (height_functional_le_iff (by simp [listCell])).mp shallow
          have headFits : head.height ≤ 255 := fits head (by simp)
          have bodyFits : body.height ≤ 255 := fits body (by simp)
          by_cases takes : HeadTakesBody (.compound ":-" [head, body])
          · obtain ⟨name, _, same, isPrefix⟩ := takes
            cases same
            exact iff_of_false (parse_clauseText_ne (all body (by simp)) isPrefix)
              (not_not_intro ⟨name, body, rfl, isPrefix⟩)
          · refine iff_of_true (parse_clauseText_rule (all head (by simp)) (all body (by simp))
              (Nat.le_succ_of_le headFits) (Nat.lt_succ_of_le bodyFits) ?_) takes
            intro name isAtom
            rw [← Option.not_isSome_iff_eq_none]
            exact fun isPrefix => takes ⟨name, body, by rw [isAtom], isPrefix⟩

/-- The clause text of an asserted term is read as that term, and so as a rule exactly if the term
is one, except where the term is a rule headed by the name of a prefix operator. -/
theorem parse_clauseText_of_assertFact {fact : String} {theory after : Theory}
    (accepted : Theory.assertFact fact theory = .ok () after) :
    ∃ term, parse (withoutClauseEnd fact) = .ok term ∧
      after.entries = theory.entries ++ [.asserted term] ∧
      (Readable term → term.height ≤ maxDepth →
        (parse term.clauseText = .ok term ↔ ¬HeadTakesBody term)) := by
  rcases Theory.assertFact_cases theory fact with
    ⟨cause, refused⟩ | ⟨term, indicator, read, _, done⟩
  · rw [refused] at accepted
    cases accepted
  · rw [done] at accepted
    cases accepted
    refine ⟨term, read, ?_, parse_clauseText_iff⟩
    rw [Theory.entries_append, Theory.entries_declareDynamic]

theorem assertFact_rule {fact name : String} {body : Term} (theory : Theory)
    (read : parse (withoutClauseEnd fact) = .ok (.compound ":-" [.atom name, body])) :
    ∃ after, Theory.assertFact fact theory = .ok () after := by
  rcases Theory.assertFact_cases theory fact with ⟨cause, refused⟩ | ⟨_, _, _, _, done⟩
  · rw [Theory.assertFact, read] at refused
    cases refused
  · exact ⟨_, done⟩

/-- A head whose name holds an arrow, and a body that starts with a prefix operator. -/
theorem parse_clauseText_of_assertFact_arrow :
    let rule : Term := .compound ":-"
      [.atom "a :- b", .compound "," [.atom "-", .compound "foo" [.var "X"]]]
    ∃ after, Theory.assertFact "'a :- b' :- -, foo(X)." .empty = .ok () after ∧
      after.entries = [.asserted rule] ∧ Readable rule ∧ rule.height ≤ maxDepth ∧
      ¬HeadTakesBody rule ∧ parse rule.clauseText = .ok rule := by
  intro rule
  have read : parse (withoutClauseEnd "'a :- b' :- -, foo(X).") = .ok rule :=
    (givesTerm_iff (by decide) _).mp (by decide +kernel)
  obtain ⟨after, accepted⟩ := assertFact_rule .empty read
  obtain ⟨term, isRead, entries, readsBack⟩ := parse_clauseText_of_assertFact accepted
  cases read.symm.trans isRead
  have variableX : Readable (.var "X") :=
    .var ⟨'X', [], rfl, .inr (by decide), List.forall_mem_nil _⟩
  have goal : Readable (.compound "foo" [.var "X"]) :=
    .compound (by simp) (by simp [listCell]) (by simp [variableX])
  have body : Readable (.compound "," [.atom "-", .compound "foo" [.var "X"]]) :=
    .compound (by simp) (by simp [listCell]) (by simp [goal, Readable.atom])
  have readable : Readable rule :=
    .compound (by simp) (by simp [listCell]) (by simp [body, Readable.atom])
  have shallow : rule.height ≤ maxDepth := by decide +kernel
  have apart : ¬HeadTakesBody rule := by
    rintro ⟨name, _, same, isPrefix⟩
    have named : "a :- b" = name :=
      Term.atom.inj (List.cons.inj (Term.compound.inj same).2).1
    rw [← named] at isPrefix
    exact absurd isPrefix (by decide)
  exact ⟨after, accepted, entries, readable, shallow, apart,
    (readsBack readable shallow).mpr apart⟩

/-- The quotes around the name of a prefix operator are lost, and with them the rule. -/
theorem not_parse_clauseText_dynamic :
    let rule : Term := .compound ":-" [.atom "dynamic", .atom "foo"]
    (∃ after, Theory.assertFact "'dynamic' :- foo" .empty = .ok () after) ∧
      parse (withoutClauseEnd "'dynamic' :- foo") = .ok rule ∧ Readable rule ∧
      rule.height ≤ maxDepth ∧ parse rule.clauseText ≠ .ok rule := by
  intro rule
  have read : parse (withoutClauseEnd "'dynamic' :- foo") = .ok rule :=
    (givesTerm_iff (by decide) _).mp (by decide +kernel)
  have foo : Readable (.atom "foo") := .atom (by decide)
  have dynamic : Readable (.atom "dynamic") := .atom (by decide)
  refine ⟨assertFact_rule .empty read, read, ?_, by decide +kernel, ?_⟩
  · refine .compound (by simp) (by simp [listCell]) ?_
    simp [foo, dynamic]
  · exact parse_clauseText_ne foo (by decide)

end HornQuery.Term
