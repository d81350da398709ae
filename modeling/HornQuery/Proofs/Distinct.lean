import Mathlib.Data.List.Basic
import Mathlib.Data.List.TakeWhile

namespace HornQuery

section

variable {α : Type} [DecidableEq α]

theorem nodup_eraseDups (items : List α) : items.eraseDups.Nodup := by
  -- What follows an item is cleared of it before its own repeats are taken out.
  induction counted : items.length using Nat.strongRecOn generalizing items with
  | ind length induction =>
      cases items with
      | nil => exact List.nodup_nil
      | cons item others =>
          rw [List.eraseDups_cons, List.nodup_cons, List.mem_eraseDups]
          refine ⟨by simp, induction _ ?_ _ rfl⟩
          rw [← counted, List.length_cons, Nat.lt_succ_iff]
          exact List.length_filter_le _ others

theorem eraseDups_eq_self {items : List α} (distinct : items.Nodup) : items.eraseDups = items := by
  induction items with
  | nil => rfl
  | cons item others induction =>
      obtain ⟨fresh, distinct⟩ := List.nodup_cons.mp distinct
      have kept : others.filter (fun other => !other == item) = others := by
        apply List.filter_eq_self.mpr
        intro other member
        simpa using fun same : other = item => fresh (same ▸ member)
      rw [List.eraseDups_cons, kept, induction distinct]

theorem eraseDups_append_removeAll (former middle latter : List α) :
    (former ++ middle.removeAll former ++ latter).eraseDups =
      (former ++ middle ++ latter).eraseDups := by
  simp only [List.append_assoc, List.eraseDups_append, List.removeAll,
    List.filter_append, List.filter_filter, Bool.and_self]

theorem eraseDups_concat (items : List α) (last : α) :
    (items ++ [last]).eraseDups = items.eraseDups ++ if last ∈ items then [] else [last] := by
  rw [List.eraseDups_append, List.removeAll, List.filter_cons]
  by_cases member : last ∈ items
  · simp [member]
  · simp [member, List.eraseDups_cons]

/-- What is left of a list without its repeats, behind one of its items: the others that are not
found before it. -/
theorem exists_eraseDups_of_mem {items : List α} {item : α} (member : item ∈ items) :
    ∃ former latter, items.eraseDups = former ++ item :: latter ∧
      ∀ other, other ∈ latter ↔
        other ∈ items ∧ other ≠ item ∧ other ∉ items.takeWhile (· ≠ item) := by
  obtain ⟨before, after, split, fresh⟩ := List.eq_append_cons_of_mem member
  have different : ∀ other ∈ before, decide (other ≠ item) = true := by
    intro other found
    exact decide_eq_true fun same => fresh (same ▸ found)
  have taken : items.takeWhile (· ≠ item) = before := by
    rw [split, List.takeWhile_append_of_pos different]
    simp
  refine ⟨before.eraseDups, ((after.removeAll before).filter (!· == item)).eraseDups, ?_, ?_⟩
  · rw [split, List.eraseDups_append, List.cons_removeAll]
    simp [fresh, List.eraseDups_cons]
  · intro other
    rw [taken, split]
    simp only [List.mem_eraseDups, List.removeAll, List.mem_filter, List.elem_eq_mem,
      Bool.not_eq_true', beq_eq_false_iff_ne, decide_eq_false_iff_not, List.mem_append,
      List.mem_cons]
    tauto

/-- A last item stays last without the repeats exactly if nothing is first found behind it. -/
theorem getLast?_eraseDups_concat_iff (items : List α) (last : α) :
    (items ++ [last]).eraseDups.getLast? = some last ↔
      ∀ item ∈ items, item ≠ last → item ∈ items.takeWhile (· ≠ last) := by
  rw [eraseDups_concat]
  by_cases member : last ∈ items
  · obtain ⟨former, latter, split, mem_latter⟩ := exists_eraseDups_of_mem member
    rw [if_pos member, List.append_nil, split, List.getLast?_append, List.getLast?_cons,
      Option.some_or, Option.some_inj]
    cases ending : latter.getLast? with
    | none =>
        refine iff_of_true rfl fun item found other => ?_
        have absent : item ∉ latter := by
          rw [List.getLast?_eq_none_iff.mp ending]
          exact List.not_mem_nil
        by_contra before
        exact absent ((mem_latter item).mpr ⟨found, other, before⟩)
    | some final =>
        obtain ⟨found, other, before⟩ := (mem_latter final).mp (List.mem_of_getLast? ending)
        exact iff_of_false other fun all => before (all final found other)
  · have different : ∀ item ∈ items, decide (item ≠ last) = true := by
      intro item found
      exact decide_eq_true fun same => member (same ▸ found)
    rw [if_neg member, List.getLast?_concat, List.takeWhile_eq_self_iff.mpr different]
    exact iff_of_true rfl fun item found _ => found

end

end HornQuery
