import Mathlib.Data.List.Infix
import Mathlib.Data.List.Induction
import Mathlib.Order.Bounds.Basic
import Mathlib.Order.MinMax

/-!
# Streaks

The final run of a history, of the elements that have a property, and the
longest of its runs. A program that counts the one from element to
element knows the other as the highest count it has seen.
-/

namespace WebhookTrader

variable {α : Type} {p : α → Bool} {xs ys : List α} {y : α} {n : ℕ}

/-- The length of the final run. -/
def streak (p : α → Bool) (xs : List α) : ℕ := (xs.reverse.takeWhile p).length

@[simp] theorem streak_nil : streak p [] = 0 := rfl

theorem streak_concat : streak p (xs ++ [y]) = if p y then streak p xs + 1 else 0 := by
  unfold streak
  rw [List.reverse_append, List.reverse_singleton, List.singleton_append]
  split_ifs with h
  · rw [List.takeWhile_cons_of_pos h, List.length_cons]
  · rw [List.takeWhile_cons_of_neg h, List.length_nil]

/-- The final run is a run. -/
theorem exists_suffix_streak (p : α → Bool) (xs : List α) :
    ∃ ys, ys <:+ xs ∧ (∀ y ∈ ys, p y = true) ∧ ys.length = streak p xs := by
  refine ⟨(xs.reverse.takeWhile p).reverse, ?_, fun y hy => ?_, List.length_reverse⟩
  · rw [← List.reverse_prefix, List.reverse_reverse]
    exact List.takeWhile_prefix p
  · exact List.all_eq_true.1 List.all_takeWhile y (List.mem_reverse.1 hy)

/-- **No run at the end is longer.** -/
theorem length_le_streak (hsuffix : ys <:+ xs) (hall : ∀ y ∈ ys, p y = true) :
    ys.length ≤ streak p xs := by
  induction xs using List.reverseRecOn generalizing ys with
  | nil => exact (List.IsSuffix.length_le hsuffix)
  | append_singleton xs x ih =>
      rcases List.suffix_concat_iff.1 hsuffix with rfl | ⟨ys, rfl, hrest⟩
      · exact Nat.zero_le _
      · -- a run that is not empty ends in the last element
        have hx : p x = true := hall x (by simp)
        rw [streak_concat, if_pos hx, List.length_append, List.length_singleton]
        exact Nat.add_le_add_right (ih hrest fun z hz => hall z (by simp [hz])) 1

/-- The lengths of the runs. -/
def runLengths (p : α → Bool) (xs : List α) : Set ℕ :=
  {k | ∃ ys, ys <:+: xs ∧ (∀ y ∈ ys, p y = true) ∧ ys.length = k}

theorem isGreatest_runLengths_nil : IsGreatest (runLengths p []) 0 := by
  refine ⟨⟨[], List.infix_refl [], fun y hy => absurd hy List.not_mem_nil, rfl⟩, ?_⟩
  rintro k ⟨ys, hwithin, -, rfl⟩
  exact List.IsInfix.length_le hwithin

/-- **One more element**: the longest run is what it was, or the final one. -/
theorem isGreatest_runLengths_concat (h : IsGreatest (runLengths p xs) n) :
    IsGreatest (runLengths p (xs ++ [y])) (max n (streak p (xs ++ [y]))) := by
  obtain ⟨hrun, hgreatest⟩ := h
  constructor
  · rcases max_choice n (streak p (xs ++ [y])) with hmax | hmax
    · rw [hmax]
      obtain ⟨ys, hwithin, hall, hlength⟩ := hrun
      exact ⟨ys, hwithin.trans (List.infix_append' [] xs [y]), hall, hlength⟩
    · rw [hmax]
      obtain ⟨ys, hsuffix, hall, hlength⟩ := exists_suffix_streak p (xs ++ [y])
      exact ⟨ys, hsuffix.isInfix, hall, hlength⟩
  · rintro k ⟨ys, hwithin, hall, rfl⟩
    rcases List.infix_concat_iff.1 hwithin with hsuffix | hold
    · exact (length_le_streak hsuffix hall).trans (le_max_right _ _)
    · exact (hgreatest ⟨ys, hold, hall, rfl⟩).trans (le_max_left _ _)

end WebhookTrader
