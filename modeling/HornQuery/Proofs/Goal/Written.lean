import HornQuery.Proofs.Goal.Pieces
import HornQuery.Proofs.Token.Scanning

namespace HornQuery.GoalPattern

/-- A text that stands for itself, or a placeholder that has a name or gets one. -/
inductive Fragment where
  | literal (text : List Char)
  | named (name : List Char)
  | unnamed

namespace Fragment

def written : Fragment → List Char
  | .literal text => text.flatMap fun c => if c = '?' then ['?', '?'] else [c]
  | .named name => '?' :: name
  | .unnamed => ['?']

def IsProper : Fragment → Prop
  | .literal text => text ≠ []
  | .named name => name ≠ [] ∧ ∀ c ∈ name, Text.isNameCharacter c = true
  | .unnamed => True

/-- What can come right after a fragment: nothing that a placeholder would take along. -/
def Precedes : Fragment → Fragment → Prop
  | .named _, .literal text => ∀ c ∈ text.head?, Text.isNameCharacter c = false
  | .unnamed, .literal text => ∀ c ∈ text.head?, Text.isNameCharacter c = false ∧ c ≠ '?'
  | .unnamed, _ => False
  | _, _ => True

end Fragment

open Fragment

def writtenAll (fragments : List Fragment) : List Char :=
  fragments.flatMap written

structure Proper (fragments : List Fragment) : Prop where
  each : ∀ fragment ∈ fragments, fragment.IsProper
  apart : fragments.IsChain Precedes

/-- The fragments with all names known. A placeholder without a name is called after the number of
placeholders in front of it. -/
def resolved (stem : List Char) (count : Nat) : List Fragment → List Segment
  | [] => []
  | .literal text :: others => .literal text :: resolved stem count others
  | .named name :: others => .placeholder (String.ofList name) :: resolved stem (count + 1) others
  | .unnamed :: others => .placeholder (slotName stem count) :: resolved stem (count + 1) others

def merged : List Segment → List Segment
  | [] => []
  | .literal text :: segments => text.foldr consLiteral (merged segments)
  | .placeholder name :: segments => .placeholder name :: merged segments

/-- What a segment at some place stands for: itself if it is a text, else the replacement of its
name, or the name where that is not its first place. -/
def filledAt (replacement : String → String) (segments : List Segment) (place : Nat) :
    Segment → List Char
  | .literal text => text
  | .placeholder name =>
      if name ∈ segmentNames (segments.take place) then name.toList
      else (replacement name).toList

def filled (replacement : String → String) (segments : List Segment) : List Char :=
  segments.zipIdx.flatMap fun entry => filledAt replacement segments entry.2 entry.1

/-! Scanning. -/

section

variable {stem rest name : List Char} {count : Nat} {fragment : Fragment}
  {fragments : List Fragment}

theorem segmentsFrom_literal (text : List Char) :
    segmentsFrom stem count (written (.literal text) ++ rest) =
      text.foldr consLiteral (segmentsFrom stem count rest) := by
  induction text with
  | nil => rfl
  | cons c text induction =>
      rw [List.foldr_cons, ← induction]
      by_cases mark : c = '?'
      · subst mark
        have spelled : written (.literal ('?' :: text)) ++ rest =
            '?' :: '?' :: (written (.literal text) ++ rest) := rfl
        rw [spelled, segmentsFrom]
      · have spelled : written (.literal (c :: text)) ++ rest =
            c :: (written (.literal text) ++ rest) := by simp [written, mark]
        rw [spelled, segmentsFrom_character mark]

theorem segmentsFrom_placeholder (all : ∀ c ∈ name, Text.isNameCharacter c = true)
    (ends : ∀ c ∈ rest.head?, Text.isNameCharacter c = false)
    (single : ∀ c ∈ (name ++ rest).head?, c ≠ '?') :
    segmentsFrom stem count ('?' :: (name ++ rest)) =
      .placeholder (if name.isEmpty then slotName stem count else String.ofList name) ::
        segmentsFrom stem (count + 1) rest := by
  have run : (name ++ rest).takeWhile Text.isNameCharacter = name :=
    Token.takeWhile_append_of_stops all ends
  rw [segmentsFrom]
  · simp only [run, List.drop_left, slotName]
    split <;> rfl
  · intro others same
    exact single '?' (by rw [same]; rfl) rfl

theorem isNameCharacter_mark : Text.isNameCharacter '?' = false := by decide

theorem head?_writtenAll (proper : ∀ fragment ∈ fragments, fragment.IsProper) {c : Char}
    (first : c ∈ (writtenAll fragments).head?) :
    ∃ next ∈ fragments.head?,
      (∃ text, next = .literal text ∧ c ∈ text.head?) ∨
        c = '?' ∧ ∀ text, next ≠ .literal text := by
  cases fragments with
  | nil => cases first
  | cons next others =>
      refine ⟨next, rfl, ?_⟩
      cases next with
      | named name =>
          cases first
          exact .inr ⟨rfl, nofun⟩
      | unnamed =>
          cases first
          exact .inr ⟨rfl, nofun⟩
      | literal text =>
          cases text with
          | nil => exact absurd rfl (proper _ List.mem_cons_self)
          | cons d text =>
              refine .inl ⟨_, rfl, ?_⟩
              rw [writtenAll, List.flatMap_cons, written, List.flatMap_cons] at first
              split at first
              case isTrue mark =>
                cases first
                exact congrArg some mark
              case isFalse =>
                cases first
                rfl

theorem ends_named (proper : ∀ fragment ∈ fragments, fragment.IsProper)
    (apart : ∀ next ∈ fragments.head?, (Fragment.named name).Precedes next) :
    ∀ c ∈ (writtenAll fragments).head?, Text.isNameCharacter c = false := by
  intro c first
  obtain ⟨next, isNext, ⟨text, rfl, starts⟩ | ⟨rfl, -⟩⟩ := head?_writtenAll proper first
  · exact apart _ isNext c starts
  · exact isNameCharacter_mark

theorem ends_unnamed (proper : ∀ fragment ∈ fragments, fragment.IsProper)
    (apart : ∀ next ∈ fragments.head?, Fragment.unnamed.Precedes next) :
    ∀ c ∈ (writtenAll fragments).head?, Text.isNameCharacter c = false ∧ c ≠ '?' := by
  intro c first
  obtain ⟨next, isNext, ⟨text, rfl, starts⟩ | ⟨-, noText⟩⟩ := head?_writtenAll proper first
  · exact apart _ isNext c starts
  · cases next with
    | literal text => exact absurd rfl (noText text)
    | named name => exact (apart _ isNext).elim
    | unnamed => exact (apart _ isNext).elim

theorem segmentsFrom_writtenAll (proper : Proper fragments) :
    segmentsFrom stem count (writtenAll fragments) = merged (resolved stem count fragments) := by
  induction fragments generalizing count with
  | nil => rw [writtenAll, List.flatMap_nil, segmentsFrom, resolved, merged]
  | cons fragment others induction =>
      obtain ⟨first, each⟩ := List.forall_mem_cons.mp proper.each
      obtain ⟨next, apart⟩ := List.isChain_cons.mp proper.apart
      have later : ∀ count, segmentsFrom stem count (writtenAll others) =
          merged (resolved stem count others) := fun _ => induction ⟨each, apart⟩
      rw [writtenAll, List.flatMap_cons, ← writtenAll]
      cases fragment with
      | literal text => rw [segmentsFrom_literal, later, resolved, merged]
      | named name =>
          have starts : ∀ c ∈ (name ++ writtenAll others).head?, c ≠ '?' := by
            obtain ⟨d, rest, rfl⟩ := List.exists_cons_of_ne_nil first.1
            rintro c ⟨⟩ rfl
            exact absurd (first.2 '?' List.mem_cons_self) (by simp [isNameCharacter_mark])
          rw [written, List.cons_append,
            segmentsFrom_placeholder first.2 (ends_named each next) starts, later, resolved,
            merged, if_neg (by simpa using first.1)]
      | unnamed =>
          have ends := ends_unnamed each next
          have found : segmentsFrom stem count ('?' :: ([] ++ writtenAll others)) =
              .placeholder (slotName stem count) ::
                segmentsFrom stem (count + 1) (writtenAll others) :=
            segmentsFrom_placeholder (List.forall_mem_nil _) (fun c first => (ends c first).1)
              (fun c first => (ends c first).2)
          rw [List.nil_append] at found
          rw [written, List.singleton_append, found, later, resolved, merged]

end

/-! Names and rendering. -/

section

variable {segments : List Segment} {replacement? : String → Option (List Char)}

theorem segmentNames_foldr_consLiteral (text : List Char) (segments : List Segment) :
    segmentNames (text.foldr consLiteral segments) = segmentNames segments := by
  induction text with
  | nil => rfl
  | cons c text induction => rw [List.foldr_cons, segmentNames_consLiteral, induction]

theorem renderSegments_foldr_consLiteral (earlier : List String) (text : List Char)
    (segments : List Segment) :
    renderSegments replacement? earlier (text.foldr consLiteral segments) =
      text ++ renderSegments replacement? earlier segments := by
  induction text with
  | nil => rfl
  | cons c text induction =>
      rw [List.foldr_cons, renderSegments_consLiteral, induction, List.cons_append]

theorem segmentNames_merged (segments : List Segment) :
    segmentNames (merged segments) = segmentNames segments := by
  induction segments with
  | nil => rfl
  | cons segment segments induction =>
      cases segment with
      | literal text => rw [merged, segmentNames_foldr_consLiteral, induction]; rfl
      | placeholder name => exact congrArg (name :: ·) induction

theorem foldl_eq_eraseDups (names found : List String) :
    names.foldl (fun found name => if found.contains name then found else found ++ [name]) found =
      found ++ (names.filter fun name => !found.contains name).eraseDups := by
  induction names generalizing found with
  | nil => simp
  | cons name names induction =>
      rw [List.foldl_cons, List.filter_cons]
      cases known : found.contains name with
      | true => exact induction found
      | false =>
          -- What is new is found from now on, so it is kept only once.
          have others : (names.filter fun other => !(found ++ [name]).contains other) =
              (names.filter fun other => !found.contains other).filter (!· == name) := by
            rw [List.filter_filter]
            apply List.filter_congr
            intro other _
            rw [List.contains_append, Bool.not_or, Bool.and_comm, List.contains_cons,
              List.contains_nil, Bool.or_false]
          rw [if_neg Bool.false_ne_true, induction, others, List.append_assoc,
            List.singleton_append, ← List.eraseDups_cons]
          rfl

theorem firstOccurrences_eq_eraseDups (names : List String) :
    firstOccurrences names = names.eraseDups := by
  rw [firstOccurrences, foldl_eq_eraseDups, List.nil_append, List.filter_eq_self.mpr]
  simp

theorem segmentNames_append (before after : List Segment) :
    segmentNames (before ++ after) = segmentNames before ++ segmentNames after :=
  List.filterMap_append

theorem renderSegments_merged {replacement : String → String} {before after : List Segment}
    {earlier : List String} (same : ∀ name, name ∈ earlier ↔ name ∈ segmentNames before)
    (covers : ∀ name ∈ segmentNames after,
      replacement? name = some (replacement name).toList) :
    renderSegments replacement? earlier (merged after) =
      (after.zipIdx before.length).flatMap fun entry =>
        filledAt replacement (before ++ after) entry.2 entry.1 := by
  induction after generalizing before earlier with
  | nil => rfl
  | cons segment after induction =>
      have front : (before ++ segment :: after).take before.length = before := List.take_left
      have later : ∀ seen : List String,
          (∀ name, name ∈ seen ↔ name ∈ segmentNames (before ++ [segment])) →
          (∀ name ∈ segmentNames after, replacement? name = some (replacement name).toList) →
          renderSegments replacement? seen (merged after) =
            (after.zipIdx (before.length + 1)).flatMap fun entry =>
              filledAt replacement (before ++ segment :: after) entry.2 entry.1 := by
        intro seen same covers
        have rest := induction same covers
        rwa [List.append_assoc, List.singleton_append, List.length_append,
          List.length_singleton] at rest
      rw [List.zipIdx_cons, List.flatMap_cons]
      cases segment with
      | literal text =>
          have none : segmentNames (before ++ [.literal text]) = segmentNames before := by
            rw [segmentNames_append]
            exact List.append_nil _
          rw [merged, renderSegments_foldr_consLiteral, filledAt,
            later earlier (none ▸ same) covers]
      | placeholder name =>
          have found : replacement? name = some (replacement name).toList :=
            covers name List.mem_cons_self
          have others := fun other member => covers other (List.mem_cons_of_mem name member)
          have one : ∀ other, other ∈ segmentNames (before ++ [.placeholder name]) ↔
              other ∈ segmentNames before ∨ other = name := by
            intro other
            rw [segmentNames_append, List.mem_append]
            exact or_congr_right List.mem_singleton
          rw [merged, renderSegments, filledAt, front]
          by_cases old : name ∈ segmentNames before
          · have seen : earlier.contains name = true := by simpa [same name] using old
            rw [seen, if_pos rfl, if_pos old, later earlier _ others]
            intro other
            rw [same other, one other, or_iff_left_of_imp]
            exact fun again => again ▸ old
          · have unseen : earlier.contains name = false := by simpa [same name] using old
            rw [unseen, if_neg Bool.false_ne_true, if_neg old, found,
              later (name :: earlier) _ others]
            intro other
            rw [List.mem_cons, same other, one other, or_comm]

/-- The placeholders of a written pattern are the names of its fragments, each at its first place,
and rendered the fragments stand there again, with a replacement at the first place of each name. -/
theorem compile_written {fragments : List Fragment} (proper : Proper fragments) :
    let text := writtenAll fragments
    let segments := resolved (freshStem text) 0 fragments
    let pattern := compile (String.ofList text)
    pattern.placeholders = (segmentNames segments).eraseDups ∧
      ∀ (replacements : List (String × String)) (replacement : String → String),
        (∀ name ∈ pattern.placeholders, replacements.lookup name = some (replacement name)) →
        pattern.render replacements = String.ofList (filled replacement segments) := by
  intro text segments pattern
  have compiled : pattern.segments = merged segments := by
    simp only [pattern, compile, String.toList_ofList]
    exact segmentsFrom_writtenAll proper
  have names : pattern.placeholders = (segmentNames segments).eraseDups := by
    rw [placeholders, compiled, segmentNames_merged, firstOccurrences_eq_eraseDups]
  refine ⟨names, ?_⟩
  intro replacements replacement covers
  rw [render, compiled]
  congr 1
  have nothing : ∀ name, name ∈ ([] : List String) ↔ name ∈ segmentNames [] := fun _ => Iff.rfl
  apply renderSegments_merged nothing
  intro name member
  rw [covers name (names ▸ List.mem_eraseDups.mpr member), Option.map_some]

def marks : List Fragment :=
  [.literal ['f', '('], .named ['X'], .unnamed, .literal [',', ' ', '?'], .named ['X'],
    .literal [')']]

theorem compile_written_marks :
    Proper marks ∧ String.ofList (writtenAll marks) = "f(?X?, ???X)" ∧
      (compile "f(?X?, ???X)").placeholders = ["X", "P_1"] ∧
      (compile "f(?X?, ???X)").render [("X", "?"), ("P_1", "g(X)")] = "f(?g(X), ?X)" := by
  have letter : Text.isNameCharacter 'X' = true := by decide
  have comma : Text.isNameCharacter ',' = false := by decide
  have closing : Text.isNameCharacter ')' = false := by decide
  have proper : Proper marks := by
    constructor
    · simp [marks, IsProper, letter]
    · simp [marks, Precedes, comma, closing]
  have text : String.ofList (writtenAll marks) = "f(?X?, ???X)" := by decide
  have segments : resolved (freshStem (writtenAll marks)) 0 marks =
      [.literal ['f', '('], .placeholder "X", .placeholder "P_1", .literal [',', ' ', '?'],
        .placeholder "X", .literal [')']] := by decide
  obtain ⟨names, renders⟩ := compile_written proper
  rw [text, segments] at names renders
  have listed : (compile "f(?X?, ???X)").placeholders = ["X", "P_1"] := names
  refine ⟨proper, text, listed, ?_⟩
  apply renders _ fun name => if name = "X" then "?" else "g(X)"
  rw [listed]
  decide

end

end HornQuery.GoalPattern
