import HornQuery.Term.Reader

namespace HornQuery.Term

mutual
def floatFree : Term → Bool
  | .float _ => false
  | .compound _ args => floatFreeAll args
  | .list items => floatFreeAll items
  | .atom _ | .integer _ | .var _ => true

def floatFreeAll : List Term → Bool
  | [] => true
  | term :: terms => term.floatFree && floatFreeAll terms
end

mutual
theorem beq_eq_true : ∀ {term : Term}, term.floatFree = true →
    ∀ other, term.beq other = true ↔ term = other
  | .atom _, _, other => by cases other <;> simp [beq]
  | .integer _, _, other => by cases other <;> simp [beq]
  | .var _, _, other => by cases other <;> simp [beq]
  | .compound _ _, plain, other => by
      rw [floatFree] at plain
      cases other <;> simp [beq, beqAll_eq_true plain]
  | .list _, plain, other => by
      rw [floatFree] at plain
      cases other <;> simp [beq, beqAll_eq_true plain]

theorem beqAll_eq_true : ∀ {terms : List Term}, floatFreeAll terms = true →
    ∀ others, beqAll terms others = true ↔ terms = others
  | [], _, others => by cases others <;> simp [beqAll]
  | _ :: _, plain, others => by
      rw [floatFreeAll, Bool.and_eq_true] at plain
      cases others <;> simp [beqAll, beq_eq_true plain.1, beqAll_eq_true plain.2]
end

def givesTerm (term : Term) : Except ReadError Term → Bool
  | .ok other => term.beq other
  | .error _ => false

theorem givesTerm_iff {term : Term} (plain : term.floatFree = true)
    (result : Except ReadError Term) : givesTerm term result = true ↔ result = .ok term := by
  cases result with
  | ok other =>
      rw [givesTerm, beq_eq_true plain, Except.ok.injEq]
      exact eq_comm
  | error => exact iff_of_false Bool.false_ne_true nofun

end HornQuery.Term
