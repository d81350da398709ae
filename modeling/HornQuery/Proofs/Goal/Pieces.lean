import HornQuery.Goal.Binding
import HornQuery.Proofs.Number.Digits
import HornQuery.Proofs.Text.Characters

namespace HornQuery

/-- A character that stands for itself, or a slot for the text that belongs to a label. -/
inductive Piece (σ : Type) where
  | character (c : Char)
  | slot (label : σ)

namespace Piece

variable {σ : Type}

def spelling : Piece σ → List Char
  | .character c => if c = '?' then ['?', '?'] else [c]
  | .slot _ => ['?']

def filling (text : σ → List Char) : Piece σ → List Char
  | .character c => [c]
  | .slot label => text label

def label? : Piece σ → Option σ
  | .character _ => none
  | .slot label => some label

def patternText (pieces : List (Piece σ)) : List Char :=
  pieces.flatMap spelling

def fill (text : σ → List Char) (pieces : List (Piece σ)) : List Char :=
  pieces.flatMap (filling text)

def labels (pieces : List (Piece σ)) : List σ :=
  pieces.filterMap label?

def literal (text : List Char) : List (Piece σ) :=
  text.map .character

variable (text : σ → List Char) (label : σ) (c : Char) (pieces more : List (Piece σ))

@[simp] theorem fill_nil : fill text [] = [] := rfl

@[simp] theorem fill_character : fill text (.character c :: pieces) = c :: fill text pieces := rfl

@[simp] theorem fill_slot : fill text (.slot label :: pieces) = text label ++ fill text pieces :=
  List.flatMap_cons

@[simp] theorem fill_append : fill text (pieces ++ more) = fill text pieces ++ fill text more :=
  List.flatMap_append

@[simp] theorem fill_literal (characters : List Char) :
    fill text (literal characters) = characters := by
  induction characters with
  | nil => rfl
  | cons c characters induction => exact congrArg (c :: ·) induction

theorem patternText_literal {characters : List Char} (noMark : '?' ∉ characters) :
    patternText (literal characters : List (Piece σ)) = characters := by
  induction characters with
  | nil => rfl
  | cons c characters induction =>
      rw [List.mem_cons, not_or] at noMark
      have rest := induction noMark.2
      rw [patternText, literal] at rest ⊢
      rw [List.map_cons, List.flatMap_cons, rest, spelling, if_neg (Ne.symm noMark.1)]
      rfl

@[simp] theorem labels_nil : labels ([] : List (Piece σ)) = [] := rfl

@[simp] theorem labels_character : labels (.character c :: pieces) = labels pieces := rfl

@[simp] theorem labels_slot : labels (.slot label :: pieces) = label :: labels pieces := rfl

@[simp] theorem labels_append : labels (pieces ++ more) = labels pieces ++ labels more :=
  List.filterMap_append

@[simp] theorem labels_literal (characters : List Char) :
    labels (literal characters : List (Piece σ)) = [] := by
  induction characters with
  | nil => rfl
  | cons c characters induction => exact induction

/-! A placeholder takes a question mark or characters of a name along that come right after it. -/

/-- What can come right after a slot. -/
def Apart : List (Piece σ) → Prop
  | [] => True
  | .character c :: _ => c ≠ '?' ∧ Text.isNameCharacter c = false
  | .slot _ :: _ => False

def Separated : List (Piece σ) → Prop
  | [] => True
  | .character _ :: pieces => Separated pieces
  | .slot _ :: pieces => Apart pieces ∧ Separated pieces

variable {pieces more}

theorem Separated.append (first : Separated pieces) (apart : Apart more)
    (second : Separated more) : Separated (pieces ++ more) := by
  induction pieces with
  | nil => exact second
  | cons piece pieces induction =>
      cases piece with
      | character c => exact induction first
      | slot label =>
          refine ⟨?_, induction first.2⟩
          cases pieces with
          | nil => exact apart
          | cons next pieces =>
              cases next with
              | character c => exact first.1
              | slot label => exact first.1

theorem separated_literal_append (characters : List Char) (separated : Separated pieces) :
    Separated (literal characters ++ pieces) := by
  induction characters with
  | nil => exact separated
  | cons c characters induction => exact induction

theorem separated_literal (characters : List Char) :
    Separated (literal characters : List (Piece σ)) := by
  rw [← List.append_nil (literal characters)]
  exact separated_literal_append characters trivial

end Piece

namespace GoalPattern

open Piece

variable {σ : Type} {pieces : List (Piece σ)}

def slotName (stem : List Char) (index : Nat) : String :=
  String.ofList (stem ++ Nat.toDigits 10 index)

theorem slotName_inj {stem : List Char} {index other : Nat} :
    slotName stem index = slotName stem other ↔ index = other := by
  constructor
  · intro same
    have digits := List.append_cancel_left (String.ofList_injective same)
    rw [← Number.ofDigits_toDigits index, digits, Number.ofDigits_toDigits]
  · exact congrArg (slotName stem)

def slotSegments (stem : List Char) (count : Nat) : List (Piece σ) → List Segment
  | [] => []
  | .character c :: pieces => consLiteral c (slotSegments stem count pieces)
  | .slot _ :: pieces => .placeholder (slotName stem count) :: slotSegments stem (count + 1) pieces

def numbered (count : Nat) (pieces : List (Piece σ)) : List (σ × Nat) :=
  (labels pieces).zipIdx count

theorem segmentsFrom_character {stem : List Char} {count : Nat} {c : Char} {rest : List Char}
    (plain : c ≠ '?') :
    segmentsFrom stem count (c :: rest) = consLiteral c (segmentsFrom stem count rest) := by
  rw [segmentsFrom]
  · exact fun _ same => absurd same plain
  · exact fun same => absurd same plain

theorem segmentsFrom_slot {stem : List Char} {count : Nat} (apart : Apart pieces) :
    segmentsFrom stem count ('?' :: patternText pieces) =
      .placeholder (slotName stem count) :: segmentsFrom stem (count + 1) (patternText pieces) := by
  cases pieces with
  | nil => rw [segmentsFrom] <;> simp [patternText, slotName]
  | cons piece pieces =>
      cases piece with
      | slot label => exact absurd apart id
      | character c =>
          obtain ⟨plain, ends⟩ := apart
          have spelled : patternText (.character c :: pieces) = c :: patternText pieces := by
            simp [patternText, spelling, plain]
          rw [spelled, segmentsFrom]
          · simp [ends, slotName]
          · exact fun rest same => plain (List.cons.inj same).1

theorem segmentsFrom_patternText (stem : List Char) (count : Nat) (separated : Separated pieces) :
    segmentsFrom stem count (patternText pieces) = slotSegments stem count pieces := by
  induction pieces generalizing count with
  | nil => rw [patternText, List.flatMap_nil, segmentsFrom, slotSegments]
  | cons piece pieces induction =>
      cases piece with
      | slot label =>
          -- What follows the slot gives its placeholder no name.
          have spelled : patternText (.slot label :: pieces) = '?' :: patternText pieces := rfl
          rw [spelled, segmentsFrom_slot separated.1, induction (count + 1) separated.2,
            slotSegments]
      | character c =>
          rw [slotSegments, ← induction count separated]
          by_cases mark : c = '?'
          · subst mark
            have spelled : patternText (.character '?' :: pieces) =
                '?' :: '?' :: patternText pieces := rfl
            rw [spelled, segmentsFrom]
          · have spelled : patternText (.character c :: pieces) = c :: patternText pieces := by
              simp [patternText, spelling, mark]
            rw [spelled, segmentsFrom_character mark]

theorem segmentNames_consLiteral (c : Char) (segments : List Segment) :
    segmentNames (consLiteral c segments) = segmentNames segments := by
  cases segments with
  | nil => rfl
  | cons segment segments => cases segment <;> rfl

theorem segmentNames_slotSegments (stem : List Char) (count : Nat) (pieces : List (Piece σ)) :
    segmentNames (slotSegments stem count pieces) =
      (numbered count pieces).map fun entry => slotName stem entry.2 := by
  induction pieces generalizing count with
  | nil => rfl
  | cons piece pieces induction =>
      cases piece with
      | character c =>
          rw [slotSegments, segmentNames_consLiteral, induction, numbered, numbered,
            labels_character]
      | slot label =>
          have names := induction (count + 1)
          rw [numbered] at names ⊢
          rw [slotSegments, labels_slot, List.zipIdx_cons, List.map_cons, ← names]
          rfl

theorem renderSegments_consLiteral (replacement? : String → Option (List Char))
    (written : List String) (c : Char) (segments : List Segment) :
    renderSegments replacement? written (consLiteral c segments) =
      c :: renderSegments replacement? written segments := by
  cases segments with
  | nil => rfl
  | cons segment segments => cases segment <;> rfl

theorem renderSegments_slotSegments {replacement? : String → Option (List Char)}
    {stem : List Char} {text : σ → List Char} {written : List String} {count : Nat}
    (replaced : ∀ entry ∈ numbered count pieces,
      replacement? (slotName stem entry.2) = some (text entry.1))
    (fresh : ∀ index, count ≤ index → slotName stem index ∉ written) :
    renderSegments replacement? written (slotSegments stem count pieces) = fill text pieces := by
  induction pieces generalizing written count with
  | nil => rfl
  | cons piece pieces induction =>
      cases piece with
      | character c =>
          rw [slotSegments, renderSegments_consLiteral, fill_character, induction replaced fresh]
      | slot label =>
          have first : replacement? (slotName stem count) = some (text label) :=
            replaced (label, count) List.mem_cons_self
          have unwritten : written.contains (slotName stem count) = false := by
            simpa using fresh count (Nat.le_refl count)
          have rest : renderSegments replacement? (slotName stem count :: written)
              (slotSegments stem (count + 1) pieces) = fill text pieces := by
            -- The names that were written belong to smaller numbers than those to come.
            apply induction
            · exact fun entry member => replaced entry (List.mem_cons_of_mem _ member)
            · intro index later member
              cases List.mem_cons.mp member with
              | inl same => exact absurd (slotName_inj.mp same) (Nat.ne_of_gt later)
              | inr earlier => exact fresh index (Nat.le_of_succ_le later) earlier
          simp only [slotSegments, renderSegments, unwritten, first, rest, fill_slot,
            Bool.false_eq_true, if_false]

theorem nodup_numbered (stem : List Char) (count : Nat) (pieces : List (Piece σ)) :
    ((numbered count pieces).map fun entry => slotName stem entry.2).Nodup := by
  have indices : (numbered count pieces).map (slotName stem ∘ Prod.snd) =
      (List.range' count (labels pieces).length).map (slotName stem) := by
    rw [← List.map_map, numbered, List.zipIdx_map_snd]
  have distinct : Function.Injective (slotName stem) := fun index other => slotName_inj.mp
  exact indices ▸ (List.nodup_range').map distinct

theorem foldl_firstOccurrences {names found : List String} (distinct : (found ++ names).Nodup) :
    names.foldl (fun found name => if found.contains name then found else found ++ [name]) found =
      found ++ names := by
  induction names generalizing found with
  | nil => rw [List.foldl_nil, List.append_nil]
  | cons name names induction =>
      have new : found.contains name = false := by
        simp only [List.contains_eq_mem, decide_eq_false_iff_not]
        intro member
        exact (List.nodup_append.mp distinct).2.2 name member name List.mem_cons_self rfl
      rw [List.append_cons] at distinct ⊢
      rw [List.foldl_cons, new, if_neg Bool.false_ne_true, induction distinct]

theorem firstOccurrences_of_nodup {names : List String} (distinct : names.Nodup) :
    firstOccurrences names = names :=
  foldl_firstOccurrences distinct

theorem placeholders_compile (separated : Separated pieces) :
    (compile (String.ofList (patternText pieces))).placeholders =
      (numbered 0 pieces).map fun entry => slotName (freshStem (patternText pieces)) entry.2 := by
  rw [placeholders, compile, String.toList_ofList, segmentsFrom_patternText _ _ separated,
    segmentNames_slotSegments]
  exact firstOccurrences_of_nodup (nodup_numbered _ 0 pieces)

theorem lookup_of_mem {entries : List (String × String)} {name text : String}
    (distinct : (entries.map Prod.fst).Nodup) (member : (name, text) ∈ entries) :
    entries.lookup name = some text := by
  induction entries with
  | nil => exact absurd member List.not_mem_nil
  | cons entry entries induction =>
      rw [List.map_cons, List.nodup_cons] at distinct
      cases List.mem_cons.mp member with
      | inl same => rw [← same, List.lookup_cons_self]
      | inr later =>
          have other : (name == entry.1) = false := by
            apply beq_false_of_ne
            intro same
            exact distinct.1 (same ▸ List.mem_map_of_mem later)
          rw [List.lookup_cons, other]
          exact induction distinct.2 later

/-- The replacements that fill the slots with the texts of their labels. -/
def slotEntries (text : σ → String) (pieces : List (Piece σ)) : List (String × String) :=
  (numbered 0 pieces).map fun entry =>
    (slotName (freshStem (patternText pieces)) entry.2, text entry.1)

theorem render_compile (text : σ → String) (separated : Separated pieces) :
    (compile (String.ofList (patternText pieces))).render (slotEntries text pieces) =
      String.ofList (fill (fun label => (text label).toList) pieces) := by
  rw [render, compile, String.toList_ofList, segmentsFrom_patternText _ _ separated]
  congr 1
  apply renderSegments_slotSegments
  · intro entry member
    have found : (slotEntries text pieces).lookup
        (slotName (freshStem (patternText pieces)) entry.2) = some (text entry.1) := by
      apply lookup_of_mem
      · rw [slotEntries, List.map_map]
        exact nodup_numbered _ 0 pieces
      · exact List.mem_map_of_mem member
    rw [found, Option.map_some]
  · exact fun index _ => List.not_mem_nil

end GoalPattern

/-! Slots filled with terms that values are converted to. -/

section

open Piece GoalPattern

variable {σ : Type} {policy : Policy} {pieces : List (Piece σ)} {value : σ → Value}
  {term : σ → Term}

theorem Policy.replacements_map {α : Type} {policy : Policy} {wholes : List α}
    (name : α → String) {value : α → Value} {term : α → Term}
    (converted : ∀ whole ∈ wholes, policy.toTerm (value whole) = .ok (term whole)) :
    policy.replacements (wholes.map name) (wholes.map value) =
      .ok (wholes.map fun whole => (name whole, (term whole).text)) := by
  induction wholes with
  | nil => rw [List.map_nil, List.map_nil, replacements, List.map_nil]; nofun
  | cons whole wholes induction =>
      have others := induction fun other member =>
        converted other (List.mem_cons_of_mem whole member)
      rw [List.map_cons, List.map_cons, replacements, converted whole List.mem_cons_self, others]
      rfl

theorem replacements_labels (separated : Separated pieces)
    (converted : ∀ label ∈ labels pieces, policy.toTerm (value label) = .ok (term label)) :
    policy.replacements (compile (String.ofList (patternText pieces))).placeholders
        ((labels pieces).map value) =
      .ok (slotEntries (fun label => (term label).text) pieces) := by
  have entries : labels pieces = (numbered 0 pieces).map Prod.fst :=
    (List.zipIdx_map_fst 0 (labels pieces)).symm
  rw [placeholders_compile separated, entries, List.map_map]
  have each : ∀ entry ∈ numbered 0 pieces,
      policy.toTerm ((value ∘ Prod.fst) entry) = .ok ((term ∘ Prod.fst) entry) :=
    fun entry member => converted entry.1 (entries ▸ List.mem_map_of_mem member)
  exact Policy.replacements_map _ each

theorem length_placeholders (separated : Separated pieces) :
    (compile (String.ofList (patternText pieces))).placeholders.length =
      (labels pieces).length := by
  rw [placeholders_compile separated, List.length_map, numbered, List.length_zipIdx]

theorem Policy.termPattern_pieces (separated : Separated pieces)
    (converted : ∀ label ∈ labels pieces, policy.toTerm (value label) = .ok (term label))
    {result : Term}
    (read : Term.parse (String.ofList (fill (fun label => (term label).write) pieces)) =
      .ok result) :
    policy.termPattern (String.ofList (patternText pieces)) ((labels pieces).map value) =
      .ok result := by
  have rendered := render_compile (fun label => (term label).text) separated
  simp only [Term.text, String.toList_ofList] at rendered
  rw [termPattern]
  simp only [length_placeholders separated, List.length_map, ne_eq, not_true, if_false,
    replacements_labels separated converted]
  simp only [bind, Except.bind, rendered, Term.text, read]

theorem Binding.goalText_pieces (separated : Separated pieces)
    (converted : ∀ label ∈ labels pieces, policy.toTerm (value label) = .ok (term label)) :
    (Binding.ofPattern (String.ofList (patternText pieces))).goalText policy
        ((labels pieces).map value) =
      .ok (String.ofList (fill (fun label => (term label).write) pieces)) := by
  have rendered := render_compile (fun label => (term label).text) separated
  simp only [Term.text, String.toList_ofList] at rendered
  have unbound : (Binding.ofPattern (String.ofList (patternText pieces))).unbound =
      (compile (String.ofList (patternText pieces))).placeholders := List.filter_true _
  rw [goalText, unbound]
  simp only [Binding.placeholders, ofPattern, length_placeholders separated, List.length_map,
    List.length_nil, Nat.sub_zero, ne_eq, not_true, if_false,
    replacements_labels separated converted, List.append_nil, Term.text, rendered]

end

end HornQuery
