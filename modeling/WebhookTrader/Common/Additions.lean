import Mathlib.Data.List.Basic

/-!
# Taking in what is new

Elements are offered to a list one after the other, and each is taken in
where nothing in the list so far is like it. The additions are those that
are taken in. What is offered twice to the same list adds nothing the
second time; the list may do other things between, as long as what it
took in, or something like it, is still there.
-/

namespace WebhookTrader

variable {α σ : Type} {like : α → α → Bool} {seen seen' xs : List α} {x : α}

/-- Something in a list is like an element. -/
def knows (like : α → α → Bool) (seen : List α) (x : α) : Bool := seen.any fun y => like y x

/-- **What is new to a list**: what it does not know, nor the part before it
with it. -/
def additions (like : α → α → Bool) : List α → List α → List α
  | _, [] => []
  | seen, x :: xs =>
      if knows like seen x then additions like seen xs else x :: additions like (seen ++ [x]) xs

theorem knows_of_mem (hrefl : like x x = true) (h : x ∈ seen) : knows like seen x = true :=
  List.any_eq_true.2 ⟨x, h, hrefl⟩

theorem knows_mono (hsub : seen ⊆ seen') (h : knows like seen x = true) :
    knows like seen' x = true := by
  obtain ⟨y, hy, hlike⟩ := List.any_eq_true.1 h
  exact List.any_eq_true.2 ⟨y, hsub hy, hlike⟩

/-- **Nothing is new** where everything is known. -/
theorem additions_eq_nil_iff :
    additions like seen xs = [] ↔ ∀ x ∈ xs, knows like seen x = true := by
  induction xs with
  | nil => simp [additions]
  | cons x xs ih =>
      rw [additions, List.forall_mem_cons]
      by_cases hx : knows like seen x = true
      · rw [if_pos hx, ih, and_iff_right hx]
      · rw [if_neg hx]
        exact ⟨fun h => absurd h (List.cons_ne_nil _ _), fun h => absurd h.1 hx⟩

/-- **What was offered is known** to the list with its additions. -/
theorem knows_append_additions (hrefl : ∀ x, like x x = true) (hx : x ∈ xs) :
    knows like (seen ++ additions like seen xs) x = true := by
  induction xs generalizing seen with
  | nil => cases hx
  | cons y xs ih =>
      rw [additions]
      by_cases hy : knows like seen y = true
      · rw [if_pos hy]
        rcases List.mem_cons.1 hx with rfl | hx
        · exact knows_mono (List.subset_append_left _ _) hy
        · exact ih hx
      · rw [if_neg hy, List.append_cons]
        rcases List.mem_cons.1 hx with rfl | hx
        · exact knows_of_mem (hrefl x) (by simp)
        · exact ih hx

theorem length_additions_le : (additions like seen xs).length ≤ xs.length := by
  induction xs generalizing seen with
  | nil => exact Nat.le_refl _
  | cons x xs ih =>
      rw [additions]
      split_ifs
      · exact Nat.le_succ_of_le ih
      · exact Nat.succ_le_succ ih

/-- All of it is new, where the list knows none of it and no two are alike. -/
theorem additions_eq_self (hseen : ∀ x ∈ xs, knows like seen x = false)
    (hpair : xs.Pairwise fun x y => like x y = false) : additions like seen xs = xs := by
  induction xs generalizing seen with
  | nil => rfl
  | cons x xs ih =>
      obtain ⟨hx, hxs⟩ := List.forall_mem_cons.1 hseen
      obtain ⟨hhead, htail⟩ := List.pairwise_cons.1 hpair
      have hrest : ∀ y ∈ xs, knows like (seen ++ [x]) y = false := by
        intro y hy
        have hold : seen.any (fun z => like z y) = false := hxs y hy
        rw [knows, List.any_append, hold, Bool.false_or, List.any_cons, hhead y hy]
        rfl
      rw [additions, hx, if_neg Bool.false_ne_true, ih hrest htail]

/-- **A loop that passes over what it knows** is the loop over what is new,
where each addition goes to the end of the list it looks at. -/
theorem foldl_additions (view : σ → List α) (add : σ → α → σ)
    (hview : ∀ s x, view (add s x) = view s ++ [x]) (s : σ) :
    xs.foldl (fun s x => if knows like (view s) x then s else add s x) s =
      (additions like (view s) xs).foldl add s := by
  induction xs generalizing s with
  | nil => rfl
  | cons x xs ih =>
      rw [List.foldl_cons, ih, additions]
      by_cases hx : knows like (view s) x = true
      · rw [if_pos hx, if_pos hx]
      · rw [if_neg hx, if_neg hx, hview, List.foldl_cons]

end WebhookTrader
