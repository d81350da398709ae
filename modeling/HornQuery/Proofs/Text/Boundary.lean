import HornQuery.Proofs.Text.Lines

namespace HornQuery.Text

variable {text rest part : List Char} {start stop position : Nat}

/-- A byte position at which no character of the text is cut. -/
def IsBoundary (text : List Char) (position : Nat) : Prop :=
  String.Pos.Raw.IsValid (String.ofList text) ⟨position⟩

theorem utf8ByteSize_ofList (text : List Char) :
    (String.ofList text).utf8ByteSize = byteLength text := by
  rw [String.utf8ByteSize_ofList]
  induction text with
  | nil => rfl
  | cons c rest induction =>
      rw [String.utf8Len_cons, induction, byteLength_cons, Nat.add_comm]

theorem isBoundary_iff : IsBoundary text position ↔
    ∃ before after, text = before ++ after ∧ position = byteLength before := by
  rw [IsBoundary, String.Pos.Raw.isValid_iff_exists_append]
  constructor
  · rintro ⟨before, after, whole, same⟩
    refine ⟨before.toList, after.toList, ?_, ?_⟩
    · rw [← String.toList_append, ← whole, String.toList_ofList]
    · rw [← utf8ByteSize_ofList, String.ofList_toList]
      exact congrArg String.Pos.Raw.byteIdx same
  · rintro ⟨before, after, rfl, rfl⟩
    refine ⟨String.ofList before, String.ofList after, String.ofList_append, ?_⟩
    rw [← utf8ByteSize_ofList]
    rfl

theorem IsBoundary.le (boundary : IsBoundary text position) : position ≤ byteLength text := by
  obtain ⟨before, after, rfl, rfl⟩ := isBoundary_iff.mp boundary
  rw [byteLength_append]
  exact Nat.le_add_right _ _

/-- The text goes on with the rest at a byte position. -/
def GoesOn (text : List Char) (position : Nat) (rest : List Char) : Prop :=
  ∃ before, text = before ++ rest ∧ position = byteLength before

theorem GoesOn.isBoundary (goesOn : GoesOn text position rest) : IsBoundary text position := by
  obtain ⟨before, whole, starts⟩ := goesOn
  exact isBoundary_iff.mpr ⟨before, rest, whole, starts⟩

theorem goesOn_zero (text : List Char) : GoesOn text 0 text :=
  ⟨[], rfl, rfl⟩

theorem goesOn_byteLength (text : List Char) : GoesOn text (byteLength text) [] :=
  ⟨text, (List.append_nil text).symm, rfl⟩

theorem GoesOn.after (goesOn : GoesOn text position (part ++ rest)) :
    GoesOn text (position + byteLength part) rest := by
  obtain ⟨before, rfl, rfl⟩ := goesOn
  exact ⟨before ++ part, by simp, by rw [byteLength_append]⟩

theorem GoesOn.next {c : Char} (goesOn : GoesOn text position (c :: rest)) :
    GoesOn text (position + c.utf8Size) rest :=
  @GoesOn.after text rest [c] position goesOn

theorem GoesOn.drop (goesOn : GoesOn text position rest) (width : Nat) :
    GoesOn text (position + byteLength (rest.take width)) (rest.drop width) := by
  apply GoesOn.after
  rwa [List.take_append_drop]

theorem GoesOn.add_byteLength (goesOn : GoesOn text position rest) :
    position + byteLength rest = byteLength text := by
  obtain ⟨before, rfl, rfl⟩ := goesOn
  rw [byteLength_append]

theorem add_byteLength_take (position width more : Nat) (rest : List Char) :
    position + byteLength (rest.take width) + byteLength ((rest.drop width).take more) =
      position + byteLength (rest.take (width + more)) := by
  rw [List.take_add, byteLength_append, Nat.add_assoc]

/-! Stretches of a text. -/

/-- The text before and after a byte position; none if a character is cut there. -/
def splitBytes? : Nat → List Char → Option (List Char × List Char)
  | 0, text => some ([], text)
  | _ + 1, [] => none
  | bytes + 1, c :: rest =>
      if c.utf8Size ≤ bytes + 1 then
        (splitBytes? (bytes + 1 - c.utf8Size) rest).map fun (before, after) => (c :: before, after)
      else none
termination_by _ text => text.length

/-- The characters from one byte position to another; none if these are out of order or range, or
a character is cut at one of them. -/
def slice? (text : List Char) (start stop : Nat) : Option (List Char) :=
  if start ≤ stop then do
    let (_, rest) ← splitBytes? start text
    let (part, _) ← splitBytes? (stop - start) rest
    some part
  else none

theorem splitBytes?_append (before after : List Char) :
    splitBytes? (byteLength before) (before ++ after) = some (before, after) := by
  induction before with
  | nil => rw [byteLength_nil, List.nil_append, splitBytes?]
  | cons c before induction =>
      have positive := c.utf8Size_pos
      obtain ⟨bytes, same⟩ := Nat.exists_eq_succ_of_ne_zero
        (Nat.ne_of_gt (byteLength_pos (List.cons_ne_nil c before)))
      have fits : c.utf8Size ≤ bytes + 1 := by
        rw [← Nat.succ_eq_add_one, ← same, byteLength_cons]
        exact Nat.le_add_right _ _
      have left : bytes + 1 - c.utf8Size = byteLength before := by
        rw [← Nat.succ_eq_add_one, ← same, byteLength_cons, Nat.add_sub_cancel_left]
      rw [same, List.cons_append, splitBytes?, if_pos fits, left, induction, Option.map_some]

theorem eq_of_splitBytes? {bytes : Nat} {before after : List Char}
    (split : splitBytes? bytes text = some (before, after)) :
    text = before ++ after ∧ bytes = byteLength before := by
  fun_induction splitBytes? bytes text generalizing before after with
  | case1 text =>
      cases split
      exact ⟨rfl, rfl⟩
  | case2 => cases split
  | case3 bytes c rest fits induction =>
      obtain ⟨⟨first, second⟩, isSplit, done⟩ := Option.map_eq_some_iff.mp split
      cases done
      obtain ⟨rfl, counted⟩ := induction isSplit
      refine ⟨rfl, ?_⟩
      rw [byteLength_cons]
      omega
  | case4 => cases split

theorem slice?_eq_some_iff : slice? text start stop = some part ↔
    ∃ before after, text = before ++ (part ++ after) ∧ start = byteLength before ∧
      stop = byteLength (before ++ part) := by
  unfold slice?
  constructor
  · intro sliced
    split at sliced
    case isTrue ordered =>
      obtain ⟨⟨before, rest⟩, first, sliced⟩ := Option.bind_eq_some_iff.mp sliced
      obtain ⟨⟨other, after⟩, second, done⟩ := Option.bind_eq_some_iff.mp sliced
      cases done
      obtain ⟨rfl, rfl⟩ := eq_of_splitBytes? first
      obtain ⟨rfl, counted⟩ := eq_of_splitBytes? second
      refine ⟨before, after, rfl, rfl, ?_⟩
      rw [byteLength_append]
      omega
    case isFalse => cases sliced
  · rintro ⟨before, after, rfl, rfl, rfl⟩
    rw [byteLength_append, if_pos (Nat.le_add_right _ _), Nat.add_sub_cancel_left]
    simp [splitBytes?_append]

theorem GoesOn.slice?_part (goesOn : GoesOn text position (part ++ rest)) :
    slice? text position (position + byteLength part) = some part := by
  obtain ⟨before, rfl, rfl⟩ := goesOn
  exact slice?_eq_some_iff.mpr ⟨before, rest, rfl, rfl, by rw [byteLength_append]⟩

theorem GoesOn.slice?_rest (goesOn : GoesOn text position rest) :
    slice? text position (byteLength text) = some rest := by
  rw [← goesOn.add_byteLength]
  rw [← List.append_nil rest] at goesOn
  exact goesOn.slice?_part

end HornQuery.Text
