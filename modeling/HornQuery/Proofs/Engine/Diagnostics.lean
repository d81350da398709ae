import HornQuery.Engine.Diagnostics
import HornQuery.Proofs.Text.Lines
import Mathlib.Data.List.TakeWhile

namespace HornQuery.Diagnostics

open Text

variable {diagnostics : Diagnostics} {marks : List String} {line longer output : List Char}

theorem startsWithAny_of_isPrefix (starts : trimStart line <+: trimStart longer)
    (found : startsWithAny marks line = true) : startsWithAny marks longer = true := by
  rw [startsWithAny, List.any_eq_true] at found ⊢
  obtain ⟨mark, member, isPrefix⟩ := found
  refine ⟨mark, member, ?_⟩
  rw [List.isPrefixOf_iff_prefix] at isPrefix ⊢
  exact isPrefix.trans starts

theorem isError_eq_false_of_isPrefix (starts : trimStart line <+: trimStart longer)
    (clean : diagnostics.isError longer = false) : diagnostics.isError line = false := by
  rw [← Bool.not_eq_true] at clean ⊢
  exact fun found => clean (startsWithAny_of_isPrefix starts found)

theorem startsWithAny_cons {c : Char} (visible : isBlank c = false)
    (apart : ∀ mark ∈ marks, mark.toList.head?.any (· ≠ c) = true) (rest : List Char) :
    startsWithAny marks (c :: rest) = false := by
  have kept : trimStart (c :: rest) = c :: rest := by
    apply trimStart_eq_self
    intro first same
    rwa [← Option.some.inj same]
  rw [startsWithAny, kept, List.any_eq_false]
  intro mark member starts
  have other := apart mark member
  cases spelled : mark.toList with
  | nil =>
      rw [spelled] at other
      cases other
  | cons d more =>
      rw [spelled, List.isPrefixOf_iff_prefix, List.cons_prefix_cons] at starts
      rw [spelled, starts.1] at other
      simp at other

theorem startsWithAny_dropReturn
    (noReturn : ∀ mark ∈ marks, '\r' ∉ mark.toList) (line : List Char) :
    startsWithAny marks (dropReturn line) = startsWithAny marks line := by
  rcases dropReturn_cases line with same | ⟨kept, rfl, same⟩
  · rw [same]
  rw [same, startsWithAny, startsWithAny]
  rcases trimStart_append_return kept with same | longer
  · rw [same]
  rw [longer, Bool.eq_iff_iff, List.any_eq_true, List.any_eq_true]
  refine exists_congr fun mark => and_congr_right fun member => ?_
  rw [List.isPrefixOf_iff_prefix, List.isPrefixOf_iff_prefix, List.prefix_concat_iff,
    or_iff_right]
  intro whole
  exact noReturn mark member (by simp [whole])

theorem firstError?_eq_none_iff :
    diagnostics.firstError? output = none ↔
      ∀ line ∈ lines output, diagnostics.isError line = false := by
  have clean : (lines output).dropWhile (fun line => !diagnostics.isError line) = [] ↔
      ∀ line ∈ lines output, diagnostics.isError line = false := by
    simp
  rw [← clean, firstError?]
  split
  case h_1 none => exact iff_of_true rfl none
  case h_2 some => exact iff_of_false (Option.some_ne_none _) some

end HornQuery.Diagnostics
