import Mathlib.Data.List.Basic
import Mathlib.Data.List.Induction

/-!
# Since, once and throughout

The past operators over a finite history: something held at one element,
and nothing has ended it at any later one; something held at some element,
or at every one. The conditions may look at what came before the element.
The operators are decided one element at a time, which is how a program
that keeps a flag decides them.
-/

namespace WebhookTrader

variable {α : Type} {p q : List α → α → Prop} {xs : List α} {y : α}

/-- **Held since**: `p` at some element, and `q` at none after it. -/
def HeldSince (p q : List α → α → Prop) (xs : List α) : Prop :=
  ∃ past x rest, xs = past ++ x :: rest ∧ p past x ∧
    ∀ past' x' rest', rest = past' ++ x' :: rest' → ¬ q (past ++ x :: past') x'

@[simp] theorem not_heldSince_nil : ¬ HeldSince p q [] := by
  rintro ⟨past, x, rest, heq, -⟩
  cases past <;> cases heq

/-- **One more element**: it holds there, or it has held since before and the
element does not end it. -/
theorem heldSince_concat : HeldSince p q (xs ++ [y]) ↔ p xs y ∨ HeldSince p q xs ∧ ¬ q xs y := by
  constructor
  · rintro ⟨past, x, rest, heq, hp, hq⟩
    rcases List.eq_nil_or_concat' rest with rfl | ⟨rest, z, rfl⟩
    · -- the element itself
      obtain ⟨rfl, hlast⟩ := List.append_inj' heq rfl
      obtain rfl : y = x := (List.cons.inj hlast).1
      exact .inl hp
    · have hsplit : xs ++ [y] = (past ++ x :: rest) ++ [z] := by simpa using heq
      obtain ⟨rfl, hlast⟩ := List.append_inj' hsplit rfl
      obtain rfl : y = z := (List.cons.inj hlast).1
      refine .inr ⟨⟨past, x, rest, rfl, hp, fun past' x' rest' hrest => ?_⟩, hq rest y [] rfl⟩
      exact hq past' x' (rest' ++ [y]) (by simp [hrest])
  · rintro (hp | ⟨⟨past, x, rest, rfl, hp, hq⟩, hlast⟩)
    · refine ⟨xs, y, [], rfl, hp, fun past' x' rest' hrest => ?_⟩
      cases past' <;> cases hrest
    · refine ⟨past, x, rest ++ [y], by simp, hp, fun past' x' rest' hrest => ?_⟩
      rcases List.eq_nil_or_concat' rest' with rfl | ⟨rest', z, rfl⟩
      · obtain ⟨rfl, heq⟩ := List.append_inj' hrest rfl
        obtain rfl : y = x' := (List.cons.inj heq).1
        exact hlast
      · have hsplit : rest ++ [y] = (past' ++ x' :: rest') ++ [z] := by simpa using hrest
        obtain ⟨rfl, -⟩ := List.append_inj' hsplit rfl
        exact hq past' x' rest' rfl

/-- **By the lengths of the beginnings**: `P` of one of them, and `Q` of no
longer one. -/
theorem heldSince_iff_take {P Q : List α → Prop} :
    HeldSince (fun past x => P (past ++ [x])) (fun past x => Q (past ++ [x])) xs ↔
      ∃ m, 1 ≤ m ∧ m ≤ xs.length ∧ P (xs.take m) ∧
        ∀ k, m < k → k ≤ xs.length → ¬ Q (xs.take k) := by
  induction xs using List.reverseRecOn with
  | nil =>
      refine iff_of_false not_heldSince_nil ?_
      rintro ⟨m, hpos, hle, -⟩
      exact Nat.not_succ_le_zero 0 (Nat.le_trans hpos hle)
  | append_singleton xs y ih =>
      have hlength : (xs ++ [y]).length = xs.length + 1 := by simp
      have hwhole : (xs ++ [y]).take (xs.length + 1) = xs ++ [y] :=
        List.take_of_length_le (Nat.le_of_eq hlength)
      have hpart : ∀ {m}, m ≤ xs.length → (xs ++ [y]).take m = xs.take m := fun hm =>
        List.take_append_of_le_length hm
      rw [heldSince_concat, ih, hlength]
      constructor
      · rintro (hp | ⟨⟨m, hpos, hle, hp, hq⟩, hlast⟩)
        · refine ⟨xs.length + 1, by omega, Nat.le_refl _, hwhole.symm ▸ hp, fun k hk hk' => ?_⟩
          omega
        · refine ⟨m, hpos, by omega, (hpart hle).symm ▸ hp, fun k hk hk' => ?_⟩
          rcases Nat.lt_succ_iff_lt_or_eq.1 (Nat.lt_succ_of_le hk') with hold | rfl
          · rw [hpart (Nat.le_of_lt_succ hold)]
            exact hq k hk (Nat.le_of_lt_succ hold)
          · rw [hwhole]
            exact hlast
      · rintro ⟨m, hpos, hle, hp, hq⟩
        rcases Nat.lt_succ_iff_lt_or_eq.1 (Nat.lt_succ_of_le hle) with hold | rfl
        · have hm := Nat.le_of_lt_succ hold
          refine .inr ⟨⟨m, hpos, hm, hpart hm ▸ hp, fun k hk hk' => ?_⟩, ?_⟩
          · rw [← hpart hk']
            exact hq k hk (by omega)
          · have hlast := hq (xs.length + 1) hold (Nat.le_refl _)
            rwa [hwhole] at hlast
        · rw [hwhole] at hp
          exact .inl hp

/-! ## Once -/

/-- **Once**: `p` at some element. -/
def Once (p : List α → α → Prop) (xs : List α) : Prop :=
  ∃ past x rest, xs = past ++ x :: rest ∧ p past x

theorem once_iff_heldSince : Once p xs ↔ HeldSince p (fun _ _ => False) xs := by
  simp [Once, HeldSince]

@[simp] theorem not_once_nil : ¬ Once p [] := by
  rw [once_iff_heldSince]
  exact not_heldSince_nil

/-- **One more element**: there, or before. -/
theorem once_concat : Once p (xs ++ [y]) ↔ p xs y ∨ Once p xs := by
  simp [once_iff_heldSince, heldSince_concat]

/-- What was once is not undone. -/
theorem Once.append (h : Once p xs) (rest : List α) : Once p (xs ++ rest) := by
  obtain ⟨past, x, rest', rfl, hp⟩ := h
  exact ⟨past, x, rest' ++ rest, by simp, hp⟩

/-! ## Throughout -/

/-- **Throughout**: `p` at every element. -/
def Throughout (p : List α → α → Prop) (xs : List α) : Prop :=
  ∀ past x rest, xs = past ++ x :: rest → p past x

theorem throughout_iff_not_once : Throughout p xs ↔ ¬ Once (fun past x => ¬ p past x) xs := by
  simp only [Throughout, Once, not_exists, not_and, not_not]

@[simp] theorem throughout_nil : Throughout p [] := by
  rw [throughout_iff_not_once]
  exact not_once_nil

/-- **One more element**: there, and before. -/
theorem throughout_concat : Throughout p (xs ++ [y]) ↔ Throughout p xs ∧ p xs y := by
  simp only [throughout_iff_not_once, once_concat, not_or, not_not]
  exact And.comm

end WebhookTrader
