import HornQuery.Proofs.Term.Spelling
import HornQuery.Proofs.Text.Lines

namespace HornQuery.Term

open Text

/-! Numbers. -/

theorem printable_of_digits {digits : List Char}
    (all : ∀ c ∈ digits, Number.isDigit c = true) : Printable digits :=
  fun c member => isControl_of_isDigit (all c member)

theorem printable_toDigits (n : Nat) : Printable (Nat.toDigits 10 n) :=
  printable_of_digits fun _ => Number.isDigit_of_mem_toDigits

theorem printable_exponentText {mark : List Char} {size : Int}
    (exponent : Number.ExponentText mark size) : Printable mark := by
  cases exponent with
  | absent => exact printable_nil
  | positive size => exact printable_cons.mpr ⟨by decide, printable_toDigits size⟩
  | negative size =>
      rw [printable_cons, printable_cons]
      exact ⟨by decide, by decide, printable_toDigits size⟩

theorem printable_numeral {number : Number.Decimal} {text : List Char}
    (numeral : Number.Numeral number text) : Printable text := by
  obtain ⟨parts⟩ := numeral
  rw [printable_append, printable_cons, printable_append]
  exact ⟨printable_of_digits parts.whole_digits, by decide,
    printable_of_digits parts.fraction_digits, printable_exponentText parts.exponentText⟩

theorem printable_minus {text : List Char} (printable : Printable text) (negative : Prop)
    [Decidable negative] : Printable (if negative then '-' :: text else text) := by
  split
  · exact printable_cons.mpr ⟨by decide, printable⟩
  · exact printable

theorem printable_writeInteger (n : Int) : Printable (writeInteger n) :=
  printable_minus (printable_toDigits n.natAbs) (n < 0)

theorem printable_writeFloat (value : Float) : Printable (floatLayout.write value) := by
  simp only [Number.Layout.write]
  split
  case isTrue =>
    exact printable_of_all (by decide)
  case isFalse isNumber =>
    apply printable_minus
    split
    case isTrue =>
      exact printable_of_all (by decide)
    case isFalse finite =>
      have below := Nat.lt_of_le_of_ne (Nat.not_lt.mp isNumber) finite
      obtain ⟨number, numeral, _⟩ :=
        @Number.Layout.exists_numeral_writeMagnitude floatLayout rfl rfl rfl _ below
      exact printable_numeral numeral

/-! Names. -/

theorem printable_escapeCharacter (c : Char) : Printable (escapeCharacter c) := by
  have letter : ∀ name, isControl name = false → Printable ['\\', name] := by
    intro name visible
    rw [printable_cons, printable_cons]
    exact ⟨by decide, visible, printable_nil⟩
  have digits : ∀ code ∈ List.range 0xa0,
      (hexadecimal code).all (fun digit => !isControl digit) = true :=
    forall_mem_of_all (by decide +kernel)
  unfold escapeCharacter
  split
  case isTrue => exact letter _ (by decide)
  split
  case isTrue => exact letter _ (by decide)
  split
  case isTrue => exact letter _ (by decide)
  split
  case isTrue => exact letter _ (by decide)
  split
  case isTrue => exact letter _ (by decide)
  split
  case isTrue control =>
    have small := List.mem_range.mpr (Token.lt_of_isControl control)
    rw [printable_cons, printable_cons, printable_append, printable_cons]
    exact ⟨by decide, by decide, printable_of_all (digits _ small), by decide, printable_nil⟩
  case isFalse visible =>
    exact printable_cons.mpr ⟨Bool.eq_false_iff.mpr visible, printable_nil⟩

theorem printable_quoteName (name : String) : Printable (quoteName name) := by
  rw [quoteName, printable_cons, printable_append]
  refine ⟨by decide, ?_, printable_cons.mpr ⟨by decide, printable_nil⟩⟩
  intro d member
  obtain ⟨c, _, escaped⟩ := List.mem_flatMap.mp member
  exact printable_escapeCharacter c d escaped

theorem printable_bareName {name : String} (bare : needsQuotes name = false) :
    Printable name.toList := by
  unfold needsQuotes at bare
  split at bare
  case isTrue listed =>
    have all : ∀ name ∈ bareNames, name.toList.all (fun c => !isControl c) = true :=
      forall_mem_of_all (by decide)
    exact printable_of_all (all name (List.contains_iff_mem.mp listed))
  case isFalse =>
    split at bare
    case h_1 => contradiction
    case h_2 first more text =>
      rw [text]
      split at bare
      case isTrue small =>
        have continues : ∀ c ∈ more, isNameCharacter c = true := by
          simpa [List.all_eq_true] using bare
        have letter := isAlphabetic_of_isLowercase small
        exact printable_cons.mpr ⟨isControl_of_isAlphabetic letter,
          fun c member => isControl_of_isNameCharacter (continues c member)⟩
      case isFalse =>
        split at bare
        case isTrue =>
          simp only [Bool.or_eq_false_iff, Bool.not_eq_false', List.all_eq_true] at bare
          exact fun c member => isControl_of_isSymbol (bare.1.1 c member)
        case isFalse => contradiction

theorem printable_writeName (name : String) : Printable (writeName name) := by
  unfold writeName
  split
  case isTrue => exact printable_quoteName name
  case isFalse bare => exact printable_bareName (Bool.not_eq_true _ ▸ bare)

theorem printable_writeFunctor (name : String) : Printable (writeFunctor name) := by
  unfold writeFunctor
  split
  case isTrue => exact printable_quoteName name
  case isFalse => exact printable_writeName name

theorem printable_variable {name : String} (spelled : Token.IsVariableName name) :
    Printable name.toList := by
  obtain ⟨first, rest, text, starts, continues⟩ := spelled
  rw [text, printable_cons]
  refine ⟨?_, fun c member => isControl_of_isNameCharacter (continues c member)⟩
  rcases starts with underscore | capital
  · rw [underscore]
    decide
  · exact isControl_of_isAlphabetic (isAlphabetic_of_isUppercase capital)

/-! Terms. -/

structure PrintableWritten (written : Written) : Prop where
  text : Printable written.text
  asTail : Printable written.asTail

theorem printableWritten_leaf {text : List Char} (printable : Printable text) :
    PrintableWritten (.leaf text) :=
  ⟨printable, printable_cons.mpr ⟨by decide, printable⟩⟩

theorem printable_items {terms : List Term}
    (all : ∀ term ∈ terms, PrintableWritten term.written) :
    Printable (Written.items (writtenAll terms)) := by
  rw [Written.items, writtenAll_eq_map]
  apply printable_joinWith
  · exact printable_of_all (by decide)
  · intro part member
    simp only [List.map_map, List.mem_map, Function.comp_apply] at member
    obtain ⟨term, isTerm, same⟩ := member
    rw [← same]
    exact (all term isTerm).text

theorem printable_listTail {terms : List Term}
    (all : ∀ term ∈ terms, PrintableWritten term.written) :
    Printable (Written.ofList (writtenAll terms)).asTail := by
  intro c member
  rw [Written.ofList, writtenAll_eq_map] at member
  obtain ⟨part, isPart, inside⟩ := List.mem_flatMap.mp member
  obtain ⟨term, isTerm, same⟩ := List.mem_map.mp isPart
  subst same
  exact printable_cons.mpr ⟨by decide, (all term isTerm).text⟩ c inside

theorem printableWritten {term : Term} (readable : Readable term) :
    PrintableWritten term.written := by
  have between : ∀ {left right : Char} {text : List Char}, isControl left = false →
      isControl right = false → Printable text → Printable (left :: (text ++ [right])) := by
    intro left right text opens closes printable
    rw [printable_cons, printable_append, printable_cons]
    exact ⟨opens, printable, closes, printable_nil⟩
  induction readable with
  | @atom name proper => exact printableWritten_leaf (printable_writeName name)
  | integer value => exact printableWritten_leaf (printable_writeInteger value.toInt)
  | @float value number => exact printableWritten_leaf (printable_writeFloat value)
  | var spelled => exact printableWritten_leaf (printable_variable spelled)
  | list all induction =>
      exact ⟨between (by decide) (by decide) (printable_items induction),
        printable_listTail induction⟩
  | @compound functor args some proper all induction =>
      cases compoundForm functor args with
      | cell item tail =>
          rw [written_cell]
          have both : Printable (item.write ++ tail.written.asTail) :=
            printable_append.mpr
              ⟨(induction item (by simp)).text, (induction tail (by simp)).asTail⟩
          exact ⟨between (by decide) (by decide) both, printable_cons.mpr ⟨by decide, both⟩⟩
      | braces inner =>
          rw [written_braces]
          apply printableWritten_leaf
          exact between (by decide) (by decide) (induction inner (by simp)).text
      | functional plain =>
          rw [written_functional plain]
          apply printableWritten_leaf
          exact printable_append.mpr ⟨printable_writeFunctor functor,
            between (by decide) (by decide) (printable_items induction)⟩

end HornQuery.Term
