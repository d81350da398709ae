import HornQuery.Proofs.Text.Characters
import HornQuery.Text.Lines
import Mathlib.Data.List.DropRight

namespace HornQuery.Text

variable {separator : Char} {piece line text : List Char}

theorem pieces_append (free : separator ∉ piece) (rest : List Char) :
    pieces separator (piece ++ separator :: rest) = piece :: pieces separator rest := by
  induction piece with
  | nil => simp [pieces]
  | cons c others induction =>
      have other : c ≠ separator := fun same => free (same ▸ List.mem_cons_self)
      have freeOthers : separator ∉ others := fun member => free (List.mem_cons_of_mem c member)
      simp [pieces, other, induction freeOthers]

theorem pieces_of_not_mem (free : separator ∉ piece) : pieces separator piece = [piece] := by
  induction piece with
  | nil => rfl
  | cons c others induction =>
      have other : c ≠ separator := fun same => free (same ▸ List.mem_cons_self)
      have freeOthers : separator ∉ others := fun member => free (List.mem_cons_of_mem c member)
      simp [pieces, other, induction freeOthers]

/-- Fields that each come after a separator are the pieces, but for the empty one in front. -/
theorem pieces_flatMap {fields : List (List Char)} (free : separator ∉ piece)
    (freeFields : ∀ field ∈ fields, separator ∉ field) :
    pieces separator (piece ++ fields.flatMap (separator :: ·)) = piece :: fields := by
  induction fields generalizing piece with
  | nil =>
      rw [List.flatMap_nil, List.append_nil]
      exact pieces_of_not_mem free
  | cons field fields induction =>
      have freeField := freeFields field List.mem_cons_self
      have freeOthers := fun other member => freeFields other (List.mem_cons_of_mem field member)
      rw [List.flatMap_cons, List.cons_append, pieces_append free, induction freeField freeOthers]

theorem pieces_eq_splitOn (separator : Char) (text : List Char) :
    pieces separator text = text.splitOn separator := by
  induction text with
  | nil => rfl
  | cons c rest induction =>
      rw [pieces, List.splitOn_cons_eq_if_modifyHead, induction]
      by_cases same : c = separator
      · simp [same]
      · have some := List.splitOn_ne_nil separator rest
        cases split : rest.splitOn separator with
        | nil => exact absurd split some
        | cons piece more => simp [same]

theorem lines_append (free : '\n' ∉ line) (rest : List Char) :
    lines (line ++ '\n' :: rest) = dropReturn line :: lines rest := by
  have some := pieces_ne_nil '\n' rest
  simp only [lines]
  rw [pieces_append free, List.dropLast_cons_of_ne_nil some, List.map_cons,
    List.getLast?_cons_of_ne_nil some]
  split <;> rfl

theorem dropReturn_of_not_mem (free : '\r' ∉ line) : dropReturn line = line := by
  apply if_neg
  intro last
  exact free (List.mem_of_getLast? last)

theorem joinWith_eq_intercalate (separator : List Char) (pieces : List (List Char)) :
    joinWith separator pieces = separator.intercalate pieces := by
  fun_induction joinWith separator pieces with
  | case1 => rfl
  | case2 piece => simp [List.intercalate]
  | case3 piece next more induction =>
      rw [induction]
      simp [List.intercalate]

/-! Trimming leaves a text alone that has no white space at its ends. -/

theorem trimStart_eq_self (starts : ∀ c, text.head? = some c → isBlank c = false) :
    trimStart text = text := by
  cases text with
  | nil => rfl
  | cons c rest => simp [trimStart, starts c rfl]

theorem trimEnd_eq_self (ends : ∀ c, text.getLast? = some c → isBlank c = false) :
    trimEnd text = text := by
  have reversed : trimStart text.reverse = text.reverse := by
    apply trimStart_eq_self
    intro c first
    exact ends c (List.head?_reverse.symm.trans first)
  rw [trimEnd, ← trimStart, reversed, List.reverse_reverse]

theorem trim_eq_self (starts : ∀ c, text.head? = some c → isBlank c = false)
    (ends : ∀ c, text.getLast? = some c → isBlank c = false) : trim text = text := by
  rw [trim, trimStart_eq_self starts, trimEnd_eq_self ends]

theorem trimEnd_prefix (text : List Char) : trimEnd text <+: text := by
  rw [trimEnd, ← List.reverse_suffix, List.reverse_reverse]
  exact List.dropWhile_suffix isBlank

theorem exists_trimEnd (text : List Char) :
    ∃ after, text = trimEnd text ++ after ∧ ∀ c ∈ after, isBlank c = true := by
  refine ⟨(text.reverse.takeWhile isBlank).reverse, ?_, ?_⟩
  · rw [trimEnd, ← List.reverse_append, List.takeWhile_append_dropWhile, List.reverse_reverse]
  · intro c member
    exact List.mem_takeWhile_imp (List.mem_reverse.mp member)

theorem exists_trim (text : List Char) :
    ∃ before after, text = before ++ (trim text ++ after) ∧ (∀ c ∈ before, isBlank c = true) ∧
      ∀ c ∈ after, isBlank c = true := by
  obtain ⟨after, trimmed, blank⟩ := exists_trimEnd (trimStart text)
  refine ⟨text.takeWhile isBlank, after, ?_, fun c => List.mem_takeWhile_imp, blank⟩
  rw [trim, ← trimmed, trimStart, List.takeWhile_append_dropWhile]

theorem trimStart_isPrefix {longer : List Char} (starts : text <+: longer) :
    trimStart text <+: trimStart longer := by
  obtain ⟨rest, rfl⟩ := starts
  induction text with
  | nil => exact List.nil_prefix
  | cons c text induction =>
      cases blank : isBlank c with
      | true => simpa [trimStart, blank] using induction
      | false => simp [trimStart, blank]

theorem trimStart_trim_isPrefix (text : List Char) : trimStart (trim text) <+: trimStart text := by
  have kept : trim text <+: trimStart text := trimEnd_prefix (trimStart text)
  have starts := trimStart_isPrefix kept
  have again : trimStart (trimStart text) = trimStart text := List.dropWhile_idempotent _ _
  rwa [again] at starts

theorem isBlank_of_head?_trim {c : Char} (first : (trim text).head? = some c) :
    isBlank c = false := by
  obtain ⟨rest, same⟩ : trim text <+: trimStart text := trimEnd_prefix (trimStart text)
  have start : (trimStart text).head? = some c := by
    rw [← same, List.head?_append, first, Option.some_or]
  have stops := List.head?_dropWhile_not isBlank text
  rwa [← trimStart, start] at stops

theorem isPrefix_trim {start : List Char} (starts : start <+: trimStart line)
    (visible : ∀ c ∈ start.getLast?, isBlank c = false) : start <+: trim line := by
  obtain ⟨after, whole, blank⟩ := exists_trimEnd (trimStart line)
  have kept : trim line <+: trimStart line := trimEnd_prefix (trimStart line)
  rcases List.prefix_or_prefix_of_prefix starts kept with shorter | ⟨more, rfl⟩
  case inl => exact shorter
  case inr =>
    -- What the start has beyond the trimmed line is white space.
    rw [whole, ← trim, List.prefix_append_right_inj] at starts
    cases last : more.getLast? with
    | none =>
        rw [List.getLast?_eq_none_iff.mp last, List.append_nil]
    | some c =>
        have isLast : c ∈ (trim line ++ more).getLast? := by
          rw [Option.mem_def, List.getLast?_append, last, Option.some_or]
        have isBlank := blank c (starts.mem (List.mem_of_getLast? last))
        rw [visible c isLast] at isBlank
        cases isBlank

theorem trim_trim (text : List Char) : trim (trim text) = trim text := by
  have twice : trimEnd (trim text) = trim text := by
    rw [trim, trimEnd, trimEnd, List.reverse_reverse, List.dropWhile_idempotent]
  rw [trim, trimStart_eq_self fun c => isBlank_of_head?_trim, twice]

theorem byteLength_pos (nonempty : text ≠ []) : 0 < byteLength text := by
  obtain ⟨c, rest, rfl⟩ := List.exists_cons_of_ne_nil nonempty
  rw [byteLength_cons]
  exact Nat.add_pos_left c.utf8Size_pos _

theorem length_le_byteLength (text : List Char) : text.length ≤ byteLength text := by
  induction text with
  | nil => exact Nat.le_refl 0
  | cons c text induction =>
      have positive := c.utf8Size_pos
      rw [List.length_cons, byteLength_cons]
      omega

theorem byteLength_eq_length (narrow : ∀ c ∈ text, c.utf8Size = 1) :
    byteLength text = text.length := by
  induction text with
  | nil => rfl
  | cons c rest induction =>
      obtain ⟨first, others⟩ := List.forall_mem_cons.mp narrow
      rw [byteLength_cons, first, induction others, List.length_cons, Nat.add_comm]

theorem append_inj_of_byteLength {left right first second : List Char}
    (same : left ++ first = right ++ second) (length : byteLength left = byteLength right) :
    left = right ∧ first = second := by
  induction left generalizing right with
  | nil =>
      cases right with
      | nil => exact ⟨rfl, same⟩
      | cons c right =>
          have positive := c.utf8Size_pos
          rw [byteLength_nil, byteLength_cons] at length
          omega
  | cons c left induction =>
      cases right with
      | nil =>
          have positive := c.utf8Size_pos
          rw [byteLength_nil, byteLength_cons] at length
          omega
      | cons d right =>
          obtain ⟨rfl, inner⟩ := List.cons.inj same
          rw [byteLength_cons, byteLength_cons, Nat.add_left_cancel_iff] at length
          obtain ⟨rfl, rest⟩ := induction inner length
          exact ⟨rfl, rest⟩

/-! Lines of a text that another one is put behind. -/

theorem lines_of_not_mem (free : '\n' ∉ line) (nonempty : line ≠ []) : lines line = [line] := by
  obtain ⟨c, rest, rfl⟩ := List.exists_cons_of_ne_nil nonempty
  rw [lines, pieces_of_not_mem free]
  rfl

/-- The lines that a text makes up, whatever comes after it, and the line that it leaves open. -/
theorem exists_lines (text : List Char) :
    ∃ front last, '\n' ∉ last ∧ (last = [] ↔ text = [] ∨ text.getLast? = some '\n') ∧
      ∀ rest, lines (text ++ rest) = front ++ lines (last ++ rest) := by
  induction text using List.reverseRecOn with
  | nil => exact ⟨[], [], List.not_mem_nil, by simp, fun _ => rfl⟩
  | append_singleton text c induction =>
      obtain ⟨front, last, free, _, cut⟩ := induction
      by_cases feed : c = '\n'
      · refine ⟨front ++ [dropReturn last], [], List.not_mem_nil, by simp [feed], ?_⟩
        intro rest
        rw [feed, List.append_assoc, List.singleton_append, cut, lines_append free,
          List.append_assoc, List.singleton_append, List.nil_append]
      · refine ⟨front, last ++ [c], by simp [free, Ne.symm feed], by simp [feed], ?_⟩
        intro rest
        rw [List.append_assoc, cut, List.append_assoc]

theorem dropReturn_cases (line : List Char) :
    dropReturn line = line ∨ ∃ kept, line = kept ++ ['\r'] ∧ dropReturn line = kept := by
  rw [dropReturn]
  split
  case isFalse => exact .inl rfl
  case isTrue last =>
    exact .inr ⟨line.dropLast, (List.dropLast_append_getLast? '\r' last).symm, rfl⟩

theorem trimStart_append_return (line : List Char) :
    trimStart (line ++ ['\r']) = trimStart line ∨
      trimStart (line ++ ['\r']) = trimStart line ++ ['\r'] := by
  rw [trimStart, List.dropWhile_append]
  split
  case isTrue none => exact .inl (List.isEmpty_iff.mp none).symm
  case isFalse => exact .inr rfl

theorem trimEnd_append_return (line : List Char) : trimEnd (line ++ ['\r']) = trimEnd line := by
  rw [trimEnd, List.reverse_append, List.reverse_singleton, List.singleton_append,
    List.dropWhile_cons_of_pos (by decide), trimEnd]

theorem trim_append_return (line : List Char) : trim (line ++ ['\r']) = trim line := by
  rw [trim, trim]
  rcases trimStart_append_return line with same | longer
  · rw [same]
  · rw [longer, trimEnd_append_return]

theorem trim_dropReturn (line : List Char) : trim (dropReturn line) = trim line := by
  rcases dropReturn_cases line with same | ⟨kept, rfl, same⟩
  · rw [same]
  · rw [same, trim_append_return]

/-! Text without controls, so without tabs and line ends. -/

def Printable (text : List Char) : Prop :=
  ∀ c ∈ text, isControl c = false

theorem printable_of_all (checked : text.all (fun c => !isControl c) = true) :
    Printable text := by
  simpa [Printable, List.all_eq_true] using checked

theorem printable_nil : Printable [] :=
  List.forall_mem_nil _

theorem printable_cons {c : Char} {rest : List Char} :
    Printable (c :: rest) ↔ isControl c = false ∧ Printable rest :=
  List.forall_mem_cons

theorem printable_append {left right : List Char} :
    Printable (left ++ right) ↔ Printable left ∧ Printable right :=
  List.forall_mem_append

theorem Printable.not_mem {c : Char} (printable : Printable text) (control : isControl c = true) :
    c ∉ text := by
  intro member
  rw [printable c member] at control
  contradiction

theorem printable_joinWith {separator : List Char} {parts : List (List Char)}
    (separates : Printable separator) (all : ∀ part ∈ parts, Printable part) :
    Printable (joinWith separator parts) := by
  induction parts with
  | nil => exact printable_nil
  | cons part others induction =>
      have first := all part List.mem_cons_self
      have remaining := induction fun other member => all other (List.mem_cons_of_mem part member)
      cases others with
      | nil => exact first
      | cons next more =>
          rw [joinWith, printable_append, printable_append]
          exact ⟨⟨first, separates⟩, remaining⟩

end HornQuery.Text
