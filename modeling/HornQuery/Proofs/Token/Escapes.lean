import HornQuery.Proofs.Text.Lines
import HornQuery.Proofs.Token.Spelled
import Mathlib.Data.Nat.Digits.Defs

namespace HornQuery.Token

open Text

/-! The grammar. -/

def singleEscapes : List (Char × Char) :=
  [('n', '\n'), ('t', '\t'), ('r', '\r'), ('a', '\x07'), ('b', '\x08'), ('f', '\x0c'),
    ('v', '\x0b'), ('e', '\x1b'), ('s', ' '), ('\\', '\\'), ('\x27', '\x27'), ('\x22', '\x22'),
    ('\x60', '\x60')]

def unicodeEscapes : List (Char × Nat) :=
  [('u', 4), ('U', 8)]

/-- The number that digits denote by their places. -/
def placeValue (radix : Nat) (digits : List Char) : Nat :=
  Nat.ofDigits radix (digits.reverse.map hexValue)

/-- The backslash that may close a numeric escape. Without it the digits end where neither a digit
nor a backslash follows. -/
inductive Closes (p : Char → Bool) (rest : List Char) : List Char → Prop
  | closed : Closes p rest ['\\']
  | open (noDigit : ∀ c ∈ rest.head?, p c = false) (noBackslash : rest.head? ≠ some '\\') :
      Closes p rest []

/-- What comes after a backslash, in front of a text, and the character it stands for. A numeric
escape stands for the character that has its number. -/
inductive EscapeSequence (rest : List Char) : List Char → Option Char → Prop
  | single {c decoded : Char} (listed : (c, decoded) ∈ singleEscapes) :
      EscapeSequence rest [c] (some decoded)
  | lineEnd : EscapeSequence rest ['\n'] none
  | hexadecimal {digits close : List Char} {decoded : Char} (nonempty : digits ≠ [])
      (all : ∀ c ∈ digits, isHexDigit c = true) (closes : Closes isHexDigit rest close)
      (value : decoded.toNat = placeValue 16 digits) :
      EscapeSequence rest ('x' :: (digits ++ close)) (some decoded)
  | octal {digits close : List Char} {decoded : Char} (nonempty : digits ≠ [])
      (all : ∀ c ∈ digits, isOctalDigit c = true) (closes : Closes isOctalDigit rest close)
      (value : decoded.toNat = placeValue 8 digits) :
      EscapeSequence rest (digits ++ close) (some decoded)
  | unicode {letter decoded : Char} {count : Nat} {digits : List Char}
      (listed : (letter, count) ∈ unicodeEscapes) (length : digits.length = count)
      (all : ∀ c ∈ digits, isHexDigit c = true) (value : decoded.toNat = placeValue 16 digits) :
      EscapeSequence rest (letter :: digits) (some decoded)

/-- What is taken for an escape as well. In a Unicode escape a plus sign stands for the first digit,
or the text ends before all digits are there. An octal number that 32 bits do not hold stands for
what they keep of it. -/
inductive LooseEscape (rest : List Char) : List Char → Option Char → Prop
  | unicode {letter decoded : Char} {count : Nat} {sign digits : List Char}
      (listed : (letter, count) ∈ unicodeEscapes) (signed : sign = [] ∨ sign = ['+'])
      (nonempty : digits ≠ []) (all : ∀ c ∈ digits, isHexDigit c = true)
      (length : (sign ++ digits).length = count ∧ sign ≠ [] ∨
        (sign ++ digits).length < count ∧ rest = [])
      (value : decoded.toNat = placeValue 16 digits) :
      LooseEscape rest (letter :: (sign ++ digits)) (some decoded)
  | octal {digits close : List Char} {decoded : Char}
      (all : ∀ c ∈ digits, isOctalDigit c = true) (closes : Closes isOctalDigit rest close)
      (long : UInt32.size ≤ placeValue 8 digits)
      (value : decoded.toNat = placeValue 8 digits % UInt32.size) :
      LooseEscape rest (digits ++ close) (some decoded)

def Accepted (rest sequence : List Char) (decoded? : Option Char) : Prop :=
  EscapeSequence rest sequence decoded? ∨ LooseEscape rest sequence decoded?

theorem ofRadix_eq (radix : Nat) (digits : List Char) :
    ofRadix radix digits = placeValue radix digits := by
  rw [ofRadix, placeValue, Nat.ofDigits_eq_foldr, List.foldr_map, List.foldr_reverse]
  simp only [Nat.cast_id, Nat.add_comm, Nat.mul_comm]

theorem toNat_octalNumber (digits : List Char) :
    (octalNumber digits).toNat = placeValue 8 digits % UInt32.size := by
  have eight : (8 : UInt32).toNat = 8 := rfl
  rw [← ofRadix_eq, ofRadix, octalNumber]
  induction digits using List.reverseRecOn with
  | nil => rfl
  | append_singleton digits c induction =>
      simp only [List.foldl_append, List.foldl_cons, List.foldl_nil, UInt32.toNat_add,
        UInt32.toNat_mul, UInt32.toNat_ofNat', eight, induction, UInt32.size]
      omega

example : octalNumber "40000000101".toList = 65 := by
  decide

theorem ne_nil_of_size_le {digits : List Char} (long : UInt32.size ≤ placeValue 8 digits) :
    digits ≠ [] := by
  rintro rfl
  exact absurd long (by decide)

theorem toNat_lt_size (c : Char) : c.toNat < UInt32.size :=
  c.val.toNat_lt_size

theorem mem_singleEscapes {c decoded : Char} :
    (c, decoded) ∈ singleEscapes ↔ letterEscape? c = some decoded := by
  constructor
  · have all : ∀ pair ∈ singleEscapes, letterEscape? pair.1 = some pair.2 :=
      forall_mem_of_all (by decide)
    exact all (c, decoded)
  · intro letter
    unfold letterEscape? at letter
    split at letter <;> cases letter <;> decide

theorem character_eq_ok_iff {code place : Nat} {c : Char} :
    character code place = .ok c ↔ c.toNat = code := by
  unfold character
  split
  case isTrue valid =>
    rw [Except.ok.injEq]
    constructor
    · rintro rfl
      rw [Char.toNat_ofNat, if_pos valid]
    · rintro rfl
      exact Char.ofNat_toNat c
  case isFalse invalid =>
    refine iff_of_false (by simp) ?_
    rintro rfl
    exact invalid c.valid

/-! Escape sequences. -/

section

variable {p : Char → Bool} {place width code bytes : Nat} {c : Char} {text digits close rest : List Char}
  {decoded? : Option Char}

theorem exists_closes (p : Char → Bool) (text : List Char) :
    ∃ digits close rest, text = digits ++ (close ++ rest) ∧ (∀ c ∈ digits, p c = true) ∧
      Closes p rest close := by
  obtain ⟨digits, after, rfl, all, stops⟩ := exists_run p text
  by_cases closed : after.head? = some '\\'
  · obtain ⟨rest, rfl⟩ := List.head?_eq_some_iff.mp closed
    exact ⟨digits, ['\\'], rest, rfl, all, .closed⟩
  · exact ⟨digits, [], after, rfl, all, .open stops closed⟩

theorem Closes.takeWhile_eq (closes : Closes p rest close) (apart : p '\\' = false)
    (all : ∀ c ∈ digits, p c = true) : (digits ++ (close ++ rest)).takeWhile p = digits := by
  apply takeWhile_append_of_stops all
  intro c found
  cases closes with
  | closed =>
      cases found
      exact apart
  | «open» noDigit => exact noDigit c found

theorem Closes.closing_eq (closes : Closes p rest close) :
    closing (close ++ rest) = close.length := by
  cases closes with
  | closed => rfl
  | «open» _ noBackslash => exact if_neg noBackslash

theorem decoded_eq_ok_iff {count : Nat} :
    (do
      let decoded ← character code place
      Except.ok (some decoded, count)) = .ok (decoded?, width) ↔
      width = count ∧ ∃ decoded, decoded? = some decoded ∧ decoded.toNat = code := by
  rw [bind_eq_ok]
  constructor
  · rintro ⟨decoded, isCharacter, done⟩
    cases done
    exact ⟨rfl, decoded, rfl, character_eq_ok_iff.mp isCharacter⟩
  · rintro ⟨rfl, decoded, rfl, value⟩
    exact ⟨decoded, character_eq_ok_iff.mpr value, rfl⟩

theorem escape_hexadecimal_iff (closes : Closes isHexDigit rest close)
    (all : ∀ c ∈ digits, isHexDigit c = true) :
    escape place ('x' :: (digits ++ (close ++ rest))) = .ok (decoded?, width) ↔
      digits ≠ [] ∧ width = 1 + digits.length + close.length ∧
        ∃ decoded, decoded? = some decoded ∧ decoded.toNat = placeValue 16 digits := by
  have letter : letterEscape? 'x' = none := rfl
  simp only [escape, letter, if_neg (show 'x' ≠ '\n' by decide), if_true,
    closes.takeWhile_eq (by decide) all, List.drop_left, closes.closing_eq, ofRadix_eq]
  split
  case isTrue improper =>
    refine iff_of_false (by simp) ?_
    rintro ⟨nonempty, _, decoded, _, value⟩
    simp only [Bool.or_eq_true, List.isEmpty_iff, decide_eq_true_eq] at improper
    have small := toNat_lt_size decoded
    exact improper.elim nonempty fun large => Nat.not_le.mpr (value ▸ small) large
  case isFalse proper =>
    simp only [Bool.or_eq_true, List.isEmpty_iff, not_or] at proper
    rw [decoded_eq_ok_iff, and_iff_right proper.1]

theorem apart_of_isOctalDigit (digit : isOctalDigit c = true) :
    letterEscape? c = none ∧ c ≠ '\n' ∧ c ≠ 'x' ∧ ¬(decide (c = 'u') || decide (c = 'U')) = true := by
  have listed : ∀ pair ∈ singleEscapes, isOctalDigit pair.1 = false := forall_mem_of_all (by decide)
  have apart : ∀ d, isOctalDigit d = false → c ≠ d := by
    rintro d noDigit rfl
    rw [digit] at noDigit
    cases noDigit
  refine ⟨?_, apart _ (by decide), apart _ (by decide), ?_⟩
  · rw [Option.eq_none_iff_forall_ne_some]
    intro decoded letter
    exact apart _ (listed (c, decoded) (mem_singleEscapes.mpr letter)) rfl
  · simp [apart 'u' (by decide), apart 'U' (by decide)]

theorem escape_octal_iff (closes : Closes isOctalDigit rest close)
    (all : ∀ d ∈ c :: digits, isOctalDigit d = true) :
    escape place (c :: (digits ++ (close ++ rest))) = .ok (decoded?, width) ↔
      width = 1 + digits.length + close.length ∧
        ∃ decoded, decoded? = some decoded ∧
          decoded.toNat = placeValue 8 (c :: digits) % UInt32.size := by
  obtain ⟨digit, all⟩ := List.forall_mem_cons.mp all
  obtain ⟨letter, lineEnd, noHex, noUnicode⟩ := apart_of_isOctalDigit digit
  simp only [escape, letter, if_neg lineEnd, if_neg noHex, if_neg noUnicode, if_pos digit,
    closes.takeWhile_eq (by decide) all, List.drop_left, closes.closing_eq, toNat_octalNumber]
  exact decoded_eq_ok_iff

theorem hexNumber?_eq_some_iff : hexNumber? text = some code ↔
    ∃ sign digits, text = sign ++ digits ∧ (sign = [] ∨ sign = ['+']) ∧ digits ≠ [] ∧
      (∀ c ∈ digits, isHexDigit c = true) ∧ placeValue 16 digits = code := by
  have number : ∀ digits : List Char,
      (if digits.isEmpty || !digits.all isHexDigit then none else some (ofRadix 16 digits)) =
        some code ↔ digits ≠ [] ∧ (∀ c ∈ digits, isHexDigit c = true) ∧
          placeValue 16 digits = code := by
    intro digits
    split
    case isTrue improper =>
      refine iff_of_false (by simp) ?_
      rintro ⟨nonempty, all, _⟩
      simp only [Bool.or_eq_true, List.isEmpty_iff, Bool.not_eq_true', ← Bool.not_eq_true,
        List.all_eq_true] at improper
      exact improper.elim nonempty (absurd all)
    case isFalse proper =>
      simp only [Bool.or_eq_true, List.isEmpty_iff, Bool.not_eq_true', not_or, Bool.not_eq_false,
        List.all_eq_true] at proper
      rw [and_iff_right proper.1, and_iff_right proper.2, Option.some.injEq, ofRadix_eq]
  unfold hexNumber?
  split
  case h_1 rest =>
    rw [number]
    constructor
    · exact fun proper => ⟨['+'], rest, rfl, .inr rfl, proper⟩
    · rintro ⟨sign, digits, same, rfl | rfl, nonempty, all, value⟩
      · rw [List.nil_append] at same
        rw [← same] at all
        exact absurd (all '+' List.mem_cons_self) (by decide)
      · cases same
        exact ⟨nonempty, all, value⟩
  case h_2 noPlus =>
    rw [number]
    constructor
    · exact fun proper => ⟨[], text, rfl, .inl rfl, proper⟩
    · rintro ⟨sign, digits, rfl, rfl | rfl, proper⟩
      · exact proper
      · exact absurd rfl (noPlus digits)

theorem byteLength_of_hexNumber? (number : hexNumber? text = some code) :
    byteLength text = text.length := by
  obtain ⟨sign, digits, rfl, signed, _, all, _⟩ := hexNumber?_eq_some_iff.mp number
  apply byteLength_eq_length
  intro c member
  rcases List.mem_append.mp member with inSign | inDigits
  · rcases signed with rfl | rfl
    · cases inSign
    · rw [List.mem_singleton.mp inSign]
      decide
  · exact utf8Size_of_isHexDigit (all c inDigits)

theorem apart_of_mem_unicodeEscapes {letter : Char} {count : Nat}
    (listed : (letter, count) ∈ unicodeEscapes) :
    letterEscape? letter = none ∧ letter ≠ '\n' ∧ letter ≠ 'x' ∧
      (decide (letter = 'u') || decide (letter = 'U')) = true ∧
      (if letter = 'u' then 4 else 8) = count := by
  simp only [unicodeEscapes, List.mem_cons, Prod.mk.injEq, List.not_mem_nil, or_false] at listed
  rcases listed with ⟨rfl, rfl⟩ | ⟨rfl, rfl⟩ <;> exact ⟨rfl, by decide, by decide, rfl, rfl⟩

theorem escape_unicode_iff {letter : Char} {count : Nat}
    (listed : (letter, count) ∈ unicodeEscapes) :
    escape place (letter :: text) = .ok (decoded?, width) ↔
      ∃ digits rest, text = digits ++ rest ∧
        (digits.length = count ∨ digits.length < count ∧ rest = []) ∧ width = 1 + digits.length ∧
        ∃ decoded, decoded? = some decoded ∧ hexNumber? digits = some decoded.toNat := by
  obtain ⟨single, lineEnd, noHex, isUnicode, counted⟩ := apart_of_mem_unicodeEscapes listed
  simp only [escape, single, if_neg lineEnd, if_neg noHex, if_pos isUnicode, counted]
  constructor
  · intro found
    split at found
    case h_1 => cases found
    case h_2 digits window =>
      split at found
      case h_1 => cases found
      case h_2 code number =>
        obtain ⟨rfl, decoded, rfl, rfl⟩ := decoded_eq_ok_iff.mp found
        obtain ⟨rest, rfl, whole⟩ := window?_eq_some_iff.mp window
        rw [byteLength_of_hexNumber? number] at whole
        exact ⟨digits, rest, rfl, whole, rfl, decoded, rfl, number⟩
  · rintro ⟨digits, rest, rfl, whole, rfl, decoded, rfl, number⟩
    rw [← byteLength_of_hexNumber? number] at whole
    simp only [window?_eq_some_iff.mpr ⟨rest, rfl, whole⟩, number]
    exact decoded_eq_ok_iff.mpr ⟨rfl, decoded, rfl, rfl⟩

theorem exists_accepted (found : escape place text = .ok (decoded?, width)) :
    ∃ sequence rest, text = sequence ++ rest ∧ width = sequence.length ∧
      Accepted rest sequence decoded? := by
  cases text with
  | nil => cases found
  | cons c text =>
      cases letter : letterEscape? c with
      | some decoded =>
          simp only [escape, letter] at found
          cases found
          exact ⟨[c], text, rfl, rfl, .inl (.single (mem_singleEscapes.mpr letter))⟩
      | none =>
          by_cases lineEnd : c = '\n'
          · subst lineEnd
            cases found
            exact ⟨['\n'], text, rfl, rfl, .inl .lineEnd⟩
          by_cases isHex : c = 'x'
          · subst isHex
            obtain ⟨digits, close, rest, rfl, all, closes⟩ := exists_closes isHexDigit text
            obtain ⟨nonempty, rfl, decoded, rfl, value⟩ :=
              (escape_hexadecimal_iff closes all).mp found
            exact ⟨'x' :: (digits ++ close), rest, by simp, by simp; omega,
              .inl (.hexadecimal nonempty all closes value)⟩
          by_cases isUnicode : (decide (c = 'u') || decide (c = 'U')) = true
          · obtain ⟨count, listed⟩ : ∃ count, (c, count) ∈ unicodeEscapes := by
              simp only [Bool.or_eq_true, decide_eq_true_eq] at isUnicode
              rcases isUnicode with rfl | rfl
              · exact ⟨4, by decide⟩
              · exact ⟨8, by decide⟩
            obtain ⟨digits, rest, rfl, whole, rfl, decoded, rfl, number⟩ :=
              (escape_unicode_iff listed).mp found
            obtain ⟨sign, digits, rfl, signed, nonempty, all, value⟩ :=
              hexNumber?_eq_some_iff.mp number
            refine ⟨c :: (sign ++ digits), rest, rfl, Nat.add_comm _ _, ?_⟩
            rcases whole with full | cut
            · rcases signed with rfl | rfl
              · exact .inl (.unicode listed full all value.symm)
              · exact .inr (.unicode listed (.inr rfl) nonempty all (.inl ⟨full, by simp⟩)
                  value.symm)
            · exact .inr (.unicode listed signed nonempty all (.inr cut) value.symm)
          by_cases isOctal : isOctalDigit c = true
          · obtain ⟨digits, close, rest, rfl, all, closes⟩ := exists_closes isOctalDigit text
            have all : ∀ d ∈ c :: digits, isOctalDigit d = true :=
              List.forall_mem_cons.mpr ⟨isOctal, all⟩
            obtain ⟨rfl, decoded, rfl, value⟩ := (escape_octal_iff closes all).mp found
            refine ⟨c :: digits ++ close, rest, by simp, by simp; omega, ?_⟩
            rcases Nat.lt_or_ge (placeValue 8 (c :: digits)) UInt32.size with short | long
            · rw [Nat.mod_eq_of_lt short] at value
              exact .inl (.octal (List.cons_ne_nil c digits) all closes value)
            · exact .inr (.octal all closes long value)
          · simp only [escape, letter, if_neg lineEnd, if_neg isHex, if_neg isUnicode,
              if_neg isOctal] at found
            cases found

theorem escape_of_accepted {sequence : List Char} (accepted : Accepted rest sequence decoded?) :
    escape place (sequence ++ rest) = .ok (decoded?, sequence.length) := by
  rcases accepted with proper | loose
  · cases proper with
    | single listed => simp [escape, mem_singleEscapes.mp listed]
    | lineEnd => rfl
    | @hexadecimal digits close decoded nonempty all closes value =>
        rw [List.cons_append, List.append_assoc, escape_hexadecimal_iff closes all]
        exact ⟨nonempty, by simp; omega, decoded, rfl, value⟩
    | @octal digits close decoded nonempty all closes value =>
        obtain ⟨c, digits, rfl⟩ := List.exists_cons_of_ne_nil nonempty
        have short : placeValue 8 (c :: digits) < UInt32.size := value ▸ toNat_lt_size decoded
        rw [List.cons_append, List.cons_append, List.append_assoc, escape_octal_iff closes all,
          Nat.mod_eq_of_lt short]
        exact ⟨by simp; omega, decoded, rfl, value⟩
    | @unicode letter decoded count digits listed length all value =>
        have nonempty : digits ≠ [] := by
          rintro rfl
          subst length
          simp [unicodeEscapes] at listed
        rw [List.cons_append, escape_unicode_iff listed]
        exact ⟨digits, rest, rfl, .inl length, Nat.add_comm _ _, decoded, rfl,
          hexNumber?_eq_some_iff.mpr ⟨[], digits, rfl, .inl rfl, nonempty, all, value.symm⟩⟩
  · cases loose with
    | @unicode letter decoded count sign digits listed signed nonempty all length value =>
        rw [List.cons_append, escape_unicode_iff listed]
        exact ⟨sign ++ digits, rest, rfl, length.imp_left And.left, Nat.add_comm _ _, decoded, rfl,
          hexNumber?_eq_some_iff.mpr ⟨sign, digits, rfl, signed, nonempty, all, value.symm⟩⟩
    | @octal digits close decoded all closes long value =>
        obtain ⟨c, digits, rfl⟩ := List.exists_cons_of_ne_nil (ne_nil_of_size_le long)
        rw [List.cons_append, List.cons_append, List.append_assoc, escape_octal_iff closes all]
        exact ⟨by simp; omega, decoded, rfl, value⟩

theorem Accepted.append_inj {first second after : List Char} {other? : Option Char}
    (one : Accepted rest first decoded?) (other : Accepted after second other?)
    (same : first ++ rest = second ++ after) : first = second ∧ rest = after := by
  have found : escape 0 (first ++ rest) = .ok (other?, second.length) := by
    rw [same]
    exact escape_of_accepted other
  rw [escape_of_accepted one] at found
  exact List.append_inj same (Prod.mk.inj (Except.ok.inj found)).2

theorem EscapeSequence.unicode_digits {sequence : List Char} {letter : Char} {count : Nat}
    (proper : EscapeSequence rest sequence decoded?) (listed : (letter, count) ∈ unicodeEscapes)
    (spelled : sequence = letter :: digits) :
    digits.length = count ∧ ∀ c ∈ digits, isHexDigit c = true := by
  obtain ⟨single, lineEnd, noHex, isUnicode, counted⟩ := apart_of_mem_unicodeEscapes listed
  cases proper with
  | single isSingle =>
      obtain ⟨rfl, _⟩ := List.cons.inj spelled
      rw [mem_singleEscapes.mp isSingle] at single
      cases single
  | lineEnd => exact absurd (List.cons.inj spelled).1.symm lineEnd
  | hexadecimal => exact absurd (List.cons.inj spelled).1.symm noHex
  | octal nonempty all =>
      obtain ⟨d, others, rfl⟩ := List.exists_cons_of_ne_nil nonempty
      obtain ⟨rfl, _⟩ := List.cons.inj spelled
      exact absurd isUnicode (apart_of_isOctalDigit (all _ List.mem_cons_self)).2.2.2
  | unicode isListed length all =>
      obtain ⟨rfl, rfl⟩ := List.cons.inj spelled
      have same := (apart_of_mem_unicodeEscapes isListed).2.2.2.2
      exact ⟨length.trans (same.symm.trans counted), all⟩

theorem EscapeSequence.octal_value {sequence : List Char}
    (proper : EscapeSequence rest sequence decoded?) (spelled : sequence = digits ++ close)
    (nonempty : digits ≠ []) (all : ∀ c ∈ digits, isOctalDigit c = true)
    (closes : Closes isOctalDigit rest close) : placeValue 8 digits < UInt32.size := by
  obtain ⟨c, others, rfl⟩ := List.exists_cons_of_ne_nil nonempty
  obtain ⟨letter, lineEnd, noHex, noUnicode⟩ := apart_of_isOctalDigit (all c List.mem_cons_self)
  cases proper with
  | single listed =>
      obtain ⟨rfl, _⟩ := List.cons.inj spelled
      rw [mem_singleEscapes.mp listed] at letter
      cases letter
  | lineEnd => exact absurd (List.cons.inj spelled).1.symm lineEnd
  | hexadecimal => exact absurd (List.cons.inj spelled).1.symm noHex
  | @octal digits _ decoded _ areDigits ends value =>
      have same : digits = c :: others := by
        rw [← ends.takeWhile_eq (by decide) areDigits, ← List.append_assoc, spelled,
          List.append_assoc, closes.takeWhile_eq (by decide) all]
      rw [← same, ← value]
      exact toNat_lt_size decoded
  | unicode listed =>
      obtain ⟨rfl, _⟩ := List.cons.inj spelled
      exact absurd (apart_of_mem_unicodeEscapes listed).2.2.2.1 noUnicode

theorem EscapeSequence.not_looseEscape {sequence : List Char} {other? : Option Char}
    (proper : EscapeSequence rest sequence decoded?) : ¬LooseEscape rest sequence other? := by
  intro loose
  cases loose with
  | unicode listed signed _ _ short _ =>
      obtain ⟨exactly, all⟩ := proper.unicode_digits listed rfl
      rcases short with ⟨_, noSign⟩ | ⟨fewer, _⟩
      · obtain rfl := signed.resolve_left noSign
        exact absurd (all '+' List.mem_cons_self) (by decide)
      · exact absurd exactly (Nat.ne_of_lt fewer)
  | octal all closes long =>
      have short := proper.octal_value rfl (ne_nil_of_size_le long) all closes
      exact absurd long (Nat.not_le.mpr short)

end

end HornQuery.Token
