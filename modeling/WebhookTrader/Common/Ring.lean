import Mathlib.Data.List.Rotate

/-!
# Ring buffers

A ring of slots into which the elements of a history are written one
after the other, the oldest first to be overwritten. What it holds is the
last of the history, from the oldest slot on and around.
-/

namespace WebhookTrader

namespace Ring

variable {α : Type} {n : ℕ} {xs : List α} {x : α} {slots : Fin n → α}

/-- **The ring holds a history**: of its last elements, each is in the slot of
its number. -/
def Holds (xs : List α) (slots : Fin n → α) : Prop :=
  ∀ (j : ℕ) (hj : j < xs.length) (i : Fin n), xs.length ≤ j + n → i.val = j % n →
    slots i = xs.get ⟨j, hj⟩

theorem holds_nil : Holds [] slots := fun _ hj => absurd hj (Nat.not_lt_zero _)

/-- **One more element** is written over the oldest. -/
theorem Holds.push (h : Holds xs slots) :
    Holds (xs ++ [x]) fun i => if i.val = xs.length % n then x else slots i := by
  intro j hj i hrecent hi
  rw [List.length_append, List.length_singleton] at hj hrecent
  dsimp only
  rcases Nat.lt_succ_iff_lt_or_eq.1 hj with hold | rfl
  · have hne : i.val ≠ xs.length % n := by
      rw [hi]
      intro heq
      -- two numbers closer than the ring is long are in different slots
      have hzero : (xs.length - j) % n = 0 := Nat.sub_mod_eq_zero_of_mod_eq heq.symm
      rw [Nat.mod_eq_of_lt (by omega)] at hzero
      omega
    rw [if_neg hne, h j hold i (by omega) hi]
    simp [List.getElem_append_left hold]
  · rw [if_pos hi]
    simp

/-- What is in the slots that have been written. -/
def filled (count : ℕ) (slots : Fin n → α) : List α := (List.ofFn slots).take count

/-- **The slots that have been written hold the last elements**, from some
slot on and around. -/
theorem Holds.isRotated (h : Holds xs slots) :
    filled (min xs.length n) slots ~r xs.drop (xs.length - n) := by
  rcases le_total xs.length n with hfew | hmany
  · have hall : filled (min xs.length n) slots = xs := by
      refine List.ext_getElem ?_ fun j hj hj' => ?_
      · simp [filled, hfew]
      · have hslot := h j hj' ⟨j, by omega⟩ (by omega) (Nat.mod_eq_of_lt (by omega)).symm
        simpa [filled] using hslot
    rw [hall, Nat.sub_eq_zero_of_le hfew, List.drop_zero]
  · have hlength : (xs.drop (xs.length - n)).length = n := by
      rw [List.length_drop]
      omega
    refine List.IsRotated.symm ⟨n - xs.length % n, ?_⟩
    refine List.ext_getElem ?_ fun i hi hi' => ?_
    · rw [List.length_rotate, hlength]
      simp [filled, hmany]
    · have hin : i < n := by simpa [hlength] using hi
      have hmod := Nat.mod_lt xs.length (by omega : n > 0)
      have hoff := Nat.mod_lt (i + (n - xs.length % n)) (by omega : n > 0)
      -- the slot's number, counted from the oldest element
      have hnumber : i = (xs.length - n + (i + (n - xs.length % n)) % n) % n := by
        rw [Nat.add_mod_mod]
        have hsum : xs.length - n + (i + (n - xs.length % n)) = i + n * (xs.length / n) := by
          have hdiv := Nat.mod_add_div xs.length n
          omega
        rw [hsum, Nat.add_mul_mod_self_left, Nat.mod_eq_of_lt hin]
      have hslot := h _ (by omega) ⟨i, hin⟩ (by omega) hnumber
      rw [List.getElem_rotate]
      simp only [filled, List.getElem_take, List.getElem_ofFn, List.getElem_drop, hlength]
      rw [hslot]
      rfl

end Ring

end WebhookTrader
