import HornQuery.Text.CodePoints
import Mathlib

namespace HornQuery.Text.CodePoints

def ascends : CodePoints → Bool
  | [] => true
  | [range] => range.1 ≤ range.2
  | range :: next :: rest =>
      range.1 ≤ range.2 && range.2 < next.1 && ascends (next :: rest)

theorem ascending_of_ascends {codes : CodePoints} (checked : codes.ascends = true) :
    codes.Ascending := by
  induction codes with
  | nil => trivial
  | cons range rest induction =>
      cases rest with
      | nil =>
          simp only [ascends, decide_eq_true_eq] at checked
          exact ⟨checked, by simp, trivial⟩
      | cons next others =>
          simp only [ascends, Bool.and_eq_true, decide_eq_true_eq] at checked
          obtain ⟨⟨ordered, below⟩, remaining⟩ := checked
          have ascending := induction remaining
          refine ⟨ordered, ?_, ascending⟩
          intro other member
          rcases List.mem_cons.mp member with same | later
          · rw [same]
            exact below
          · exact Nat.lt_trans (Nat.lt_of_lt_of_le below ascending.1)
              (ascending.2.1 other later)

theorem le_of_has_cons {low high code : Nat} {rest : CodePoints}
    (found : has code ((low, high) :: rest) = true) : low ≤ code := by
  rcases Nat.lt_or_ge code low with below | above
  · simp [has, below] at found
  · exact above

def reaching (codes : CodePoints) (low : Nat) : CodePoints :=
  codes.dropWhile (fun range => range.2 < low)

theorem ascending_reaching {codes : CodePoints} (ascending : codes.Ascending) (low : Nat) :
    (codes.reaching low).Ascending := by
  induction codes with
  | nil => trivial
  | cons range rest induction =>
      simp only [reaching, List.dropWhile_cons]
      split
      case isTrue => exact induction ascending.2.2
      case isFalse => exact ascending

theorem mem_reaching {codes : CodePoints} {low : Nat} {range : Nat × Nat}
    (member : range ∈ codes) (reaches : low ≤ range.2) : range ∈ codes.reaching low := by
  induction codes with
  | nil => exact absurd member List.not_mem_nil
  | cons first rest induction =>
      simp only [reaching, List.dropWhile_cons]
      split
      case isTrue before =>
        rcases List.mem_cons.mp member with same | later
        · subst same
          simp only [decide_eq_true_eq] at before
          omega
        · exact induction later
      case isFalse => exact member

def within : CodePoints → CodePoints → Bool
  | [], _ => true
  | range :: rest, codes =>
      match codes.reaching range.1 with
      | [] => false
      | other :: others =>
          other.1 ≤ range.1 && range.2 ≤ other.2 && within rest (other :: others)

theorem exists_covering_of_within {left right : CodePoints}
    (checked : left.within right = true) {range : Nat × Nat} (member : range ∈ left) :
    ∃ other ∈ right, other.1 ≤ range.1 ∧ range.2 ≤ other.2 := by
  induction left generalizing right with
  | nil => exact absurd member List.not_mem_nil
  | cons first rest induction =>
      simp only [within] at checked
      split at checked
      case h_1 => exact absurd checked (by decide)
      case h_2 other others kept =>
        simp only [Bool.and_eq_true, decide_eq_true_eq] at checked
        have fromRight : ∀ choice ∈ other :: others, choice ∈ right := fun choice inKept =>
          (List.dropWhile_sublist _).subset (kept ▸ inKept)
        rcases List.mem_cons.mp member with same | later
        · subst same
          exact ⟨other, fromRight other List.mem_cons_self, checked.1⟩
        · obtain ⟨choice, inKept, covers⟩ := induction checked.2 later
          exact ⟨choice, fromRight choice inKept, covers⟩

theorem has_of_within {left right : CodePoints} (ascendingLeft : left.Ascending)
    (ascendingRight : right.Ascending) (checked : left.within right = true) {code : Nat}
    (found : left.has code = true) : right.has code = true := by
  rw [has_iff ascendingLeft] at found
  rw [has_iff ascendingRight]
  obtain ⟨range, member, starts, ends⟩ := found
  obtain ⟨other, inRight, covers⟩ := exists_covering_of_within checked member
  exact ⟨other, inRight, by omega, by omega⟩

def apart : CodePoints → CodePoints → Bool
  | [], _ => true
  | range :: rest, codes =>
      match codes.reaching range.1 with
      | [] => true
      | other :: others => range.2 < other.1 && apart rest (other :: others)

/-- What is left of the other table is all that can meet this range and the ranges after it. -/
theorem separate_of_apart {left right : CodePoints} (ascendingLeft : left.Ascending)
    (ascendingRight : right.Ascending) (checked : left.apart right = true)
    {range other : Nat × Nat} (member : range ∈ left) (inRight : other ∈ right) :
    range.2 < other.1 ∨ other.2 < range.1 := by
  induction left generalizing right with
  | nil => exact absurd member List.not_mem_nil
  | cons first rest induction =>
      rcases Nat.lt_or_ge other.2 first.1 with before | reaches
      · -- a range before the first one is before all of them
        rcases List.mem_cons.mp member with same | later
        · subst same
          exact Or.inr before
        · have above := ascendingLeft.2.1 range later
          have ordered := ascendingLeft.1
          exact Or.inr (by omega)
      · have inKept := mem_reaching inRight reaches
        have ascendingKept := ascending_reaching ascendingRight first.1
        simp only [apart] at checked
        split at checked
        case h_1 kept =>
          rw [kept] at inKept
          exact absurd inKept List.not_mem_nil
        case h_2 next others kept =>
          rw [kept] at inKept ascendingKept
          simp only [Bool.and_eq_true, decide_eq_true_eq] at checked
          rcases List.mem_cons.mp member with same | later
          · subst same
            rcases List.mem_cons.mp inKept with same | later
            · subst same
              exact Or.inl checked.1
            · have above := ascendingKept.2.1 other later
              have ordered := ascendingKept.1
              exact Or.inl (by omega)
          · exact induction ascendingLeft.2.2 ascendingKept checked.2 later inKept

theorem has_eq_false_of_apart {left right : CodePoints} (ascendingLeft : left.Ascending)
    (ascendingRight : right.Ascending) (checked : left.apart right = true) {code : Nat}
    (found : left.has code = true) : right.has code = false := by
  rw [has_iff ascendingLeft] at found
  obtain ⟨range, member, starts, ends⟩ := found
  rw [← Bool.not_eq_true, has_iff ascendingRight]
  rintro ⟨other, inRight, otherStarts, otherEnds⟩
  have separate := separate_of_apart ascendingLeft ascendingRight checked member inRight
  omega

end HornQuery.Text.CodePoints
