import Mathlib.Data.List.Basic
import Mathlib.Data.List.Induction
import Mathlib.Order.Lattice

/-!
# Sliding windows

A queue that is fed in the order of time and pruned at its front. Pruning
is put off as long as nobody looks, so the queue may hold more than the
window; from the last cut on it agrees with the history.

A limit on the window that ends with each element is a limit on every
window.
-/

namespace WebhookTrader

namespace Window

variable {α τ : Type*} [LinearOrder τ] {time : α → τ} {queue history : List α} {cut cut' : τ}
  {x : α}

/-- The part of a list from a time on. -/
def since (time : α → τ) (cut : τ) (xs : List α) : List α := xs.filter fun x => cut ≤ time x

/-- The elements are in the order of time. -/
def InOrder (time : α → τ) (xs : List α) : Prop := xs.Pairwise fun x y => time x ≤ time y

/-- **Pruning at the front** takes out what is before the cut, where the
elements are in order. -/
theorem dropWhile_eq_since (h : InOrder time queue) :
    queue.dropWhile (fun x => decide (time x < cut)) = since time cut queue := by
  induction queue with
  | nil => rfl
  | cons x queue ih =>
      obtain ⟨hhead, htail⟩ := List.pairwise_cons.1 h
      by_cases hx : time x < cut
      · have hnot : ¬ cut ≤ time x := not_le.2 hx
        rw [List.dropWhile_cons_of_pos (by simpa using hx), ih htail, since, since,
          List.filter_cons_of_neg (by simpa using hnot)]
      · -- the first that stays keeps all the others
        rw [List.dropWhile_cons_of_neg (by simpa using hx), since, List.filter_eq_self.2]
        intro y hy
        have hle : cut ≤ time x := not_lt.1 hx
        rcases List.mem_cons.1 hy with rfl | hrest
        · simpa using hle
        · simpa using hle.trans (hhead y hrest)

/-- **From a cut on, the queue is the history.** -/
def AgreeFrom (time : α → τ) (cut : τ) (queue history : List α) : Prop :=
  ∀ cut', cut ≤ cut' → since time cut' queue = since time cut' history

theorem agreeFrom_nil : AgreeFrom time cut [] [] := fun _ _ => rfl

theorem AgreeFrom.mono (h : AgreeFrom time cut queue history) (hle : cut ≤ cut') :
    AgreeFrom time cut' queue history := fun cut'' hcut => h cut'' (hle.trans hcut)

theorem AgreeFrom.push (h : AgreeFrom time cut queue history) :
    AgreeFrom time cut (queue ++ [x]) (history ++ [x]) := by
  intro cut' hcut
  have hsame := h cut' hcut
  simp only [since, List.filter_append] at hsame ⊢
  rw [hsame]

/-- **Pruning is not seen** from the cut on. -/
theorem AgreeFrom.prune (h : AgreeFrom time cut queue history) (horder : InOrder time queue) :
    AgreeFrom time cut (queue.dropWhile fun x => decide (time x < cut)) history := by
  intro cut' hcut
  rw [dropWhile_eq_since horder, ← h cut' hcut, since, since, List.filter_filter]
  refine List.filter_congr fun x _ => ?_
  rw [← Bool.decide_and, decide_eq_decide]
  exact and_iff_left_of_imp hcut.trans

/-- A pruned queue is the window. -/
theorem AgreeFrom.eq_since (h : AgreeFrom time cut queue history) (horder : InOrder time queue) :
    queue.dropWhile (fun x => decide (time x < cut)) = since time cut history := by
  rw [dropWhile_eq_since horder]
  exact h cut le_rfl

theorem InOrder.push (h : InOrder time queue) (hx : ∀ y ∈ queue, time y ≤ time x) :
    InOrder time (queue ++ [x]) := by
  refine List.pairwise_append.2 ⟨h, List.pairwise_singleton .., fun y hy z hz => ?_⟩
  rw [List.mem_singleton.1 hz]
  exact hx y hy

theorem InOrder.prune (h : InOrder time queue) {p : α → Bool} :
    InOrder time (queue.dropWhile p) := h.sublist (List.dropWhile_sublist p)

/-! ## A limit on every window -/

variable {start : τ → τ} {limit : ℕ} {times : List τ} {t a : τ}

/-- Whether a time is admitted, after those that have been: where fewer than
the limit are in the window that ends with it. -/
def admits (start : τ → τ) (limit : ℕ) (past : List τ) (t : τ) : Bool :=
  (since id (start t) past).length < limit

/-- The times that are admitted, out of those that ask. -/
def admitted (start : τ → τ) (limit : ℕ) (times : List τ) : List τ :=
  times.foldl (fun past t => if admits start limit past t then past ++ [t] else past) []

theorem admitted_concat : admitted start limit (times ++ [t]) =
    if admits start limit (admitted start limit times) t then admitted start limit times ++ [t]
    else admitted start limit times := List.foldl_concat ..

theorem admitted_sublist (start : τ → τ) (limit : ℕ) (times : List τ) :
    (admitted start limit times).Sublist times := by
  induction times using List.reverseRecOn with
  | nil => exact .slnil
  | append_singleton times t ih =>
      rw [admitted_concat]
      split_ifs
      · exact ih.append (.refl _)
      · exact ih.trans (List.sublist_append_left _ _)

/-- **Every window has at most the limit**, wherever it begins. -/
theorem countP_admitted_le (start : τ → τ) (limit : ℕ) (times : List τ) (a : τ) :
    (admitted start limit times).countP (fun t => a ≤ t ∧ start t ≤ a) ≤ limit := by
  induction times using List.reverseRecOn with
  | nil => exact Nat.zero_le _
  | append_singleton times t ih =>
      rw [admitted_concat]
      split_ifs with hadmit
      · rw [List.countP_append, List.countP_singleton]
        split_ifs with hin
        · -- the others of this window are in the window that ends with the new one
          have hin : a ≤ t ∧ start t ≤ a := by simpa using hin
          have hfew : (since id (start t) (admitted start limit times)).length < limit := by
            simpa [admits] using hadmit
          have hle : (admitted start limit times).countP (fun t => a ≤ t ∧ start t ≤ a) ≤
              (since id (start t) (admitted start limit times)).length := by
            rw [since, ← List.countP_eq_length_filter]
            refine List.countP_mono_left fun x _ hx => ?_
            have hx : a ≤ x ∧ start x ≤ a := by simpa using hx
            simpa using hin.2.trans hx.1
          omega
        · exact ih
      · exact ih

end Window

end WebhookTrader
