/-! Sets of code points, written as ascending closed ranges. -/

namespace HornQuery.Text

/-- Ascending closed ranges of code points. -/
abbrev CodePoints := List (Nat × Nat)

namespace CodePoints

def has (code : Nat) : CodePoints → Bool
  | [] => false
  | (low, high) :: rest =>
      if code < low then false
      else if code ≤ high then true
      else has code rest

@[simp] theorem has_nil (code : Nat) : has code [] = false := rfl

def Ascending : CodePoints → Prop
  | [] => True
  | (low, high) :: rest =>
      low ≤ high ∧ (∀ range ∈ rest, high < range.1) ∧ Ascending rest

/-- On ascending ranges the early stop loses nothing. -/
theorem has_iff {codes : CodePoints} (ascending : codes.Ascending) (code : Nat) :
    codes.has code = true ↔ ∃ range ∈ codes, range.1 ≤ code ∧ code ≤ range.2 := by
  induction codes with
  | nil => simp
  | cons range rest induction =>
      obtain ⟨low, high⟩ := range
      obtain ⟨_, above, ascendingRest⟩ := ascending
      have ih := induction ascendingRest
      by_cases below : code < low
      · simp only [has, below, if_true, Bool.false_eq_true, List.mem_cons, false_iff]
        rintro ⟨range, inRanges | inRest, starts, _⟩
        · subst inRanges
          exact absurd starts (Nat.not_le.mpr below)
        · have := above range inRest
          omega
      · by_cases inside : code ≤ high
        · simp only [has, below, inside, if_true, if_false, true_iff]
          exact ⟨(low, high), List.mem_cons_self, Nat.not_lt.mp below, inside⟩
        · simp only [has, below, inside, if_false, List.mem_cons, ih]
          constructor
          · rintro ⟨range, inRest, bounds⟩
            exact ⟨range, Or.inr inRest, bounds⟩
          · rintro ⟨range, rfl | inRest, bounds⟩
            · exact absurd bounds.2 inside
            · exact ⟨range, inRest, bounds⟩

end CodePoints

end HornQuery.Text
