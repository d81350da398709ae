import HornQuery.Proofs.Text.Characters

namespace HornQuery.Number

open Text

/-- Digits, the point, the marks and signs of exponents, and the letters of the values that are
not finite. -/
def alphabet : List Char :=
  "0123456789.eE+-infINFtyTYaA".toList

def OverAlphabet (text : List Char) : Prop :=
  ∀ c ∈ text, c ∈ alphabet

theorem visible_of_mem_alphabet : ∀ c ∈ alphabet, isBlank c = false ∧ c ≠ ':' :=
  forall_mem_of_all (by decide)

theorem mem_alphabet_of_isDigit {c : Char} (digit : isDigit c = true) : c ∈ alphabet := by
  have all : ∀ code ∈ List.range' 0x30 10, Char.ofNat code ∈ alphabet :=
    forall_mem_of_all (by decide)
  obtain ⟨low, high⟩ := toNat_of_isDigit digit
  have member := all c.toNat (List.mem_range'_1.mpr ⟨low, by omega⟩)
  rw [Char.ofNat_toNat] at member
  exact member

theorem mem_alphabet_of_toLower {c : Char} (letter : c.toLower ∈ "infinityan".toList) :
    c ∈ alphabet := by
  have capitals : ∀ code ∈ List.range' 0x41 26,
      (Char.ofNat code).toLower ∈ "infinityan".toList → Char.ofNat code ∈ alphabet :=
    forall_mem_of_all (by decide)
  have small : ∀ c ∈ "infinityan".toList, c ∈ alphabet :=
    forall_mem_of_all (by decide)
  by_cases capital : 0x41 ≤ c.toNat ∧ c.toNat ≤ 0x5a
  · have member := capitals c.toNat (List.mem_range'_1.mpr ⟨capital.1, by omega⟩)
    rw [Char.ofNat_toNat] at member
    exact member letter
  · have same : c.toLower = c := dif_neg capital
    rw [same] at letter
    exact small c letter

variable {text : List Char}

theorem overAlphabet_of_digits (all : text.all isDigit = true) : OverAlphabet text :=
  fun c member => mem_alphabet_of_isDigit (List.all_eq_true.mp all c member)

theorem overAlphabet_cons {c : Char} (member : c ∈ alphabet) (rest : OverAlphabet text) :
    OverAlphabet (c :: text) :=
  List.forall_mem_cons.mpr ⟨member, rest⟩

theorem overAlphabet_of_drop
    (rest : OverAlphabet (text.drop (text.takeWhile isDigit).length)) : OverAlphabet text := by
  have digits : OverAlphabet (text.takeWhile isDigit) :=
    overAlphabet_of_digits (List.all_takeWhile)
  have start := List.prefix_iff_eq_take.mp (List.takeWhile_prefix isDigit (l := text))
  intro c member
  rw [← List.take_append_drop (text.takeWhile isDigit).length text, ← start] at member
  rcases List.mem_append.mp member with inDigits | inRest
  · exact digits c inDigits
  · exact rest c inRest

theorem overAlphabet_of_exponent? {exponent : Int} (accepted : exponent? text = some exponent) :
    OverAlphabet text := by
  unfold exponent? at accepted
  split at accepted
  case h_1 negative digits parsed =>
    have inside : OverAlphabet digits := by
      split at accepted
      case isTrue => contradiction
      case isFalse proper =>
        simp only [Bool.or_eq_true, Bool.not_eq_true', not_or, Bool.not_eq_false] at proper
        exact overAlphabet_of_digits proper.2
    split at parsed
    case h_1 =>
      cases parsed
      exact overAlphabet_cons (by decide) inside
    case h_2 =>
      cases parsed
      exact overAlphabet_cons (by decide) inside
    case h_3 =>
      cases parsed
      exact inside

theorem overAlphabet_of_decimal? {number : Decimal} (accepted : decimal? text = some number) :
    OverAlphabet text := by
  apply overAlphabet_of_drop
  unfold decimal? at accepted
  extract_lets whole afterWhole at accepted
  change OverAlphabet afterWhole
  clear_value afterWhole
  split at accepted
  case h_1 places afterPlaces parsed =>
    have inside : OverAlphabet afterPlaces := by
      split at accepted
      case isTrue => contradiction
      split at accepted
      case h_1 => exact List.forall_mem_nil _
      case h_2 mark rest =>
        split at accepted
        case isTrue marked =>
          obtain ⟨exponent, found, _⟩ := Option.map_eq_some_iff.mp accepted
          simp only [Bool.or_eq_true, decide_eq_true_eq] at marked
          rcases marked with small | capital
          · subst small
            exact overAlphabet_cons (by decide) (overAlphabet_of_exponent? found)
          · subst capital
            exact overAlphabet_cons (by decide) (overAlphabet_of_exponent? found)
        case isFalse => contradiction
    split at parsed
    case h_1 rest =>
      cases parsed
      exact overAlphabet_cons (by decide) (overAlphabet_of_drop inside)
    case h_2 =>
      cases parsed
      exact inside

theorem overAlphabet_of_unsigned? {round : Decimal → Float} {value : Float}
    (accepted : unsigned? round text = some value) : OverAlphabet text := by
  have named : ∀ name, (∀ c ∈ name, c ∈ "infinityan".toList) → text.map Char.toLower = name →
      OverAlphabet text := by
    intro name letters same c member
    exact mem_alphabet_of_toLower (letters _ (same ▸ List.mem_map_of_mem member))
  simp only [unsigned?] at accepted
  split at accepted
  case isTrue infinite =>
    simp only [Bool.or_eq_true, decide_eq_true_eq] at infinite
    rcases infinite with short | long
    · exact named _ (forall_mem_of_all (by decide)) short
    · exact named _ (forall_mem_of_all (by decide)) long
  split at accepted
  case isTrue nan =>
    exact named _ (forall_mem_of_all (by decide)) nan
  case isFalse =>
    obtain ⟨number, found, _⟩ := Option.map_eq_some_iff.mp accepted
    exact overAlphabet_of_decimal? found

theorem overAlphabet_of_parse? {value : Float} (accepted : parse? text = some value) :
    OverAlphabet text := by
  unfold parse? signed? at accepted
  split at accepted
  case h_1 rest =>
    obtain ⟨magnitude, found, _⟩ := Option.map_eq_some_iff.mp accepted
    exact overAlphabet_cons (by decide) (overAlphabet_of_unsigned? found)
  case h_2 rest => exact overAlphabet_cons (by decide) (overAlphabet_of_unsigned? accepted)
  case h_3 => exact overAlphabet_of_unsigned? accepted

theorem ne_nil_of_parse? {value : Float} (accepted : parse? text = some value) : text ≠ [] := by
  intro empty
  rw [empty] at accepted
  contradiction

end HornQuery.Number
