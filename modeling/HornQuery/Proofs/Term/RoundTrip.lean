import HornQuery.Proofs.Term.Reading

namespace HornQuery.Term

theorem scan_write {term : Term} (readable : Readable term) :
    ∃ tokens, Spells tokens term ∧ Token.scan term.write = .ok tokens :=
  ((scans_written readable).1 [] Token.delimited_nil).scan_eq

theorem readsIf_ofTokens {fits : Prop} {size : Nat} {tokens : List Token} {result : Operand}
    (some : tokens ≠ [])
    (reads : ReadsIf fits (readOperand size maxDepth clauseBound tokens)
      (result, tokens.length)) :
    ReadsIf fits (ofTokens size tokens) result.term := by
  have notEmpty : tokens.isEmpty = false := by simpa using some
  unfold ofTokens
  rw [notEmpty]
  apply reads.bind_ok
  simp

theorem parse_eq_ofTokens {text : String} {tokens : List Token}
    (scanned : Token.scan text.toList = .ok tokens) :
    parse text = ofTokens (Text.byteLength text.toList) tokens := by
  rw [parse, ofText, scanned]
  rfl

theorem parse_ofList {text : List Char} {tokens : List Token}
    (scanned : Token.scan text = .ok tokens) :
    parse (String.ofList text) = ofTokens (Text.byteLength text) tokens := by
  have letters : (String.ofList text).toList = text := String.toList_ofList
  rw [parse_eq_ofTokens (letters.symm ▸ scanned), letters]

theorem toList_text (term : Term) : term.text.toList = term.write :=
  String.toList_ofList

theorem readsIf_parse_text {term : Term} (readable : Readable term) :
    ReadsIf (term.height ≤ maxDepth) (parse term.text) term := by
  obtain ⟨tokens, spelled, scanned⟩ := scan_write readable
  rw [← toList_text] at scanned
  rw [parse_eq_ofTokens scanned]
  generalize Text.byteLength term.text.toList = size
  have read := readsTerms_readOperand size maxDepth spelled (ends_nil clauseBound)
  rw [List.append_nil] at read
  exact readsIf_ofTokens spelled.ne_nil read

theorem ofText_write {term : Term} (readable : Readable term)
    (shallow : term.height ≤ maxDepth) : ofText term.write = .ok term := by
  rw [← toList_text]
  exact (readsIf_parse_text readable).same shallow

/-- The text of a readable term is read as that term if it nests at most `maxDepth` deep, and
is a syntax fault otherwise. -/
theorem parse_text {term : Term} (readable : Readable term) :
    (term.height ≤ maxDepth → parse term.text = .ok term) ∧
      (maxDepth < term.height → ∃ position, parse term.text =
        .error (.syntaxFault (SyntaxFault.nestedTooDeep maxDepth).reason position)) := by
  have reads := readsIf_parse_text readable
  exact ⟨reads.same, fun deep => reads.deep (Nat.not_le.mpr deep)⟩

def bracketed : Nat → Term
  | 0 => .list []
  | depth + 1 => .list [bracketed depth]

theorem readable_bracketed (depth : Nat) : Readable (bracketed depth) := by
  induction depth with
  | zero => exact .list nofun
  | succ depth induction =>
      apply Readable.list
      intro item member
      rw [List.mem_singleton.mp member]
      exact induction

theorem height_bracketed (depth : Nat) : (bracketed depth).height = depth + 1 := by
  induction depth with
  | zero => rfl
  | succ depth induction =>
      rw [height] at induction ⊢
      simp [bracketed, nesting, nestingAll, Nesting.ofList, Nesting.deepest, induction,
        Nat.add_comm]

theorem parse_text_bracketed :
    parse (bracketed 255).text = .ok (bracketed 255) ∧
      ∃ position, parse (bracketed 256).text =
        .error (.syntaxFault (SyntaxFault.nestedTooDeep maxDepth).reason position) := by
  constructor
  · apply (parse_text (readable_bracketed 255)).1
    rw [height_bracketed]
    decide
  · apply (parse_text (readable_bracketed 256)).2
    rw [height_bracketed]
    decide

end HornQuery.Term
