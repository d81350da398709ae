import HornQuery.Proofs.Text.CodePoints
import HornQuery.Number.Numeral
import HornQuery.Text.Characters

namespace HornQuery.Text

theorem forall_mem_of_all {α : Type} {p : α → Prop} [DecidablePred p] {members : List α}
    (checked : members.all (fun a => decide (p a)) = true) : ∀ a ∈ members, p a := by
  simpa using checked

def controlCodes : CodePoints := [(0x0, 0x1f), (0x7f, 0x9f)]

/-! The tables ascend, so that membership in them is membership in a range. Each theorem here runs
through the tables once, for all that is used of them. -/

theorem tables_ascend : lowercaseCodes.ascends = true ∧ uppercaseCodes.ascends = true ∧
    alphabeticCodes.ascends = true ∧ numericCodes.ascends = true ∧ blankCodes.ascends = true := by
  decide +kernel

theorem letters_within : lowercaseCodes.within alphabeticCodes = true ∧
    uppercaseCodes.within alphabeticCodes = true := by
  decide +kernel

theorem tables_apart : lowercaseCodes.apart uppercaseCodes = true ∧
    alphabeticCodes.apart blankCodes = true ∧ alphabeticCodes.apart controlCodes = true ∧
    numericCodes.apart controlCodes = true ∧ numericCodes.apart blankCodes = true := by
  decide +kernel

theorem ascending_lowercaseCodes : lowercaseCodes.Ascending :=
  CodePoints.ascending_of_ascends tables_ascend.1

theorem ascending_uppercaseCodes : uppercaseCodes.Ascending :=
  CodePoints.ascending_of_ascends tables_ascend.2.1

theorem ascending_alphabeticCodes : alphabeticCodes.Ascending :=
  CodePoints.ascending_of_ascends tables_ascend.2.2.1

theorem ascending_numericCodes : numericCodes.Ascending :=
  CodePoints.ascending_of_ascends tables_ascend.2.2.2.1

theorem ascending_blankCodes : blankCodes.Ascending :=
  CodePoints.ascending_of_ascends tables_ascend.2.2.2.2

theorem ascending_controlCodes : controlCodes.Ascending :=
  CodePoints.ascending_of_ascends (by decide)

variable {c : Char}

theorem isAlphabetic_of_isLowercase (small : isLowercase c = true) : isAlphabetic c = true :=
  CodePoints.has_of_within ascending_lowercaseCodes ascending_alphabeticCodes
    letters_within.1 small

theorem isAlphabetic_of_isUppercase (capital : isUppercase c = true) : isAlphabetic c = true :=
  CodePoints.has_of_within ascending_uppercaseCodes ascending_alphabeticCodes
    letters_within.2 capital

theorem isUppercase_of_isLowercase (small : isLowercase c = true) : isUppercase c = false :=
  CodePoints.has_eq_false_of_apart ascending_lowercaseCodes ascending_uppercaseCodes
    tables_apart.1 small

theorem isBlank_of_isAlphabetic (letter : isAlphabetic c = true) : isBlank c = false :=
  CodePoints.has_eq_false_of_apart ascending_alphabeticCodes ascending_blankCodes
    tables_apart.2.1 letter

theorem isBlank_of_isNameCharacter (continues : isNameCharacter c = true) : isBlank c = false := by
  simp only [isNameCharacter, isAlphanumeric, Bool.or_eq_true, decide_eq_true_eq] at continues
  rcases continues with (letter | digit) | underscore
  · exact isBlank_of_isAlphabetic letter
  · exact CodePoints.has_eq_false_of_apart ascending_numericCodes ascending_blankCodes
      tables_apart.2.2.2.2 digit
  · subst underscore
    decide

theorem le_toNat_of_isUppercase (capital : isUppercase c = true) : 0x41 ≤ c.toNat :=
  CodePoints.le_of_has_cons capital

theorem le_toNat_of_isAlphabetic (letter : isAlphabetic c = true) : 0x41 ≤ c.toNat :=
  CodePoints.le_of_has_cons letter

theorem isDigit_of_le_toNat (letter : 0x41 ≤ c.toNat) : Number.isDigit c = false := by
  have last : c.toNat ≤ '9'.toNat → c.toNat ≤ 0x39 := fun below => below
  simp only [Number.isDigit, Bool.and_eq_false_iff, decide_eq_false_iff_not]
  refine Or.inr fun below => ?_
  have := last below
  omega

theorem toNat_of_isDigit (digit : Number.isDigit c = true) : 0x30 ≤ c.toNat ∧ c.toNat ≤ 0x39 := by
  simp only [Number.isDigit, Bool.and_eq_true, decide_eq_true_eq] at digit
  exact digit

theorem isBlank_of_isDigit (digit : Number.isDigit c = true) : isBlank c = false := by
  have apart : ∀ range ∈ blankCodes, range.2 < 0x30 ∨ 0x39 < range.1 :=
    forall_mem_of_all (by decide)
  obtain ⟨low, high⟩ := toNat_of_isDigit digit
  rw [← Bool.not_eq_true, isBlank, CodePoints.has_iff ascending_blankCodes]
  rintro ⟨range, member, starts, ends⟩
  have := apart range member
  omega

theorem isControl_eq_has (c : Char) : isControl c = controlCodes.has c.toNat := by
  rw [Bool.eq_iff_iff, CodePoints.has_iff ascending_controlCodes]
  simp only [isControl, controlCodes, Bool.or_eq_true, Bool.and_eq_true, decide_eq_true_eq,
    List.mem_cons, List.not_mem_nil, or_false, exists_eq_or_imp, exists_eq_left]
  omega

theorem isControl_of_isDigit (digit : Number.isDigit c = true) : isControl c = false := by
  obtain ⟨low, high⟩ := toNat_of_isDigit digit
  simp only [isControl, Bool.or_eq_false_iff, Bool.and_eq_false_iff, decide_eq_false_iff_not]
  omega

theorem isControl_of_isSymbol (symbol : isSymbol c = true) : isControl c = false := by
  have all : ∀ c ∈ symbolCharacters, isControl c = false := forall_mem_of_all (by decide)
  exact all c (List.contains_iff_mem.mp symbol)

theorem isControl_of_isAlphabetic (letter : isAlphabetic c = true) : isControl c = false := by
  rw [isControl_eq_has]
  exact CodePoints.has_eq_false_of_apart ascending_alphabeticCodes ascending_controlCodes
    tables_apart.2.2.1 letter

theorem isControl_of_isNameCharacter (continues : isNameCharacter c = true) :
    isControl c = false := by
  simp only [isNameCharacter, isAlphanumeric, Bool.or_eq_true, decide_eq_true_eq] at continues
  rcases continues with (letter | digit) | underscore
  · exact isControl_of_isAlphabetic letter
  · rw [isControl_eq_has]
    exact CodePoints.has_eq_false_of_apart ascending_numericCodes ascending_controlCodes
      tables_apart.2.2.2.1 digit
  · subst underscore
    decide

end HornQuery.Text
