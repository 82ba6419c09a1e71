import Mathlib.Algebra.Order.Field.Basic
import Mathlib.Data.List.Induction
import Mathlib.Order.Bounds.Basic
import Mathlib.Tactic.FieldSimp
import Mathlib.Tactic.Linarith

/-!
# The drawdown of a curve

A curve is a list of values, the earliest first. A fall is measured in
percent of the high it is a fall from. Two numbers that are kept while the
curve is drawn, the high so far and the worst fall so far, are enough to
have the worst of all its falls in the end.
-/

namespace WebhookTrader

namespace Drawdown

variable {α : Type*} [LinearOrder α] {high low first d x y : α} {xs pre post : List α}

/-- A value is the high of a part of the curve. -/
def IsHigh (high : α) (xs : List α) : Prop := high ∈ xs ∧ ∀ x ∈ xs, x ≤ high

theorem IsHigh.concat (h : IsHigh high xs) : IsHigh (max high x) (xs ++ [x]) := by
  refine ⟨?_, fun z hz => ?_⟩
  · rcases max_choice high x with hmax | hmax
    · rw [hmax]
      exact List.mem_append_left _ h.1
    · rw [hmax]
      exact List.mem_append_right _ List.mem_cons_self
  · rcases List.mem_append.1 hz with hz | hz
    · exact (h.2 z hz).trans (le_max_left _ _)
    · rw [List.mem_singleton.1 hz]
      exact le_max_right _ _

theorem IsHigh.unique {high' : α} (h : IsHigh high xs) (h' : IsHigh high' xs) : high = high' :=
  le_antisymm (h'.2 high h.1) (h.2 high' h'.1)

variable [Field α]

/-- A fall in percent. -/
def fall (high low : α) : α := (high - low) / high * 100

/-- **What is kept** while the curve is drawn. -/
structure Kept (α : Type*) where
  peak : α
  worst : α

/-- One more value. A high that is not positive has no falls. -/
def step (s : Kept α) (x : α) : Kept α :=
  let peak := max s.peak x
  ⟨peak, max s.worst (if 0 < peak then fall peak x else 0)⟩

/-- A curve from its first value on. -/
def run (first : α) (xs : List α) : Kept α := xs.foldl step ⟨first, 0⟩

/-- **The curve falls by that much**: at some value, from the high up to
there. -/
def FallsBy (d : α) (xs : List α) : Prop :=
  ∃ pre y post high, xs = pre ++ y :: post ∧ IsHigh high (pre ++ [y]) ∧ d = fall high y

theorem run_concat : run first (xs ++ [x]) = step (run first xs) x := by
  rw [run, List.foldl_append]
  rfl

/-- A longer curve falls as the shorter one does, or at its last value. -/
theorem fallsBy_concat : FallsBy d (xs ++ [x]) ↔
    FallsBy d xs ∨ ∃ high, IsHigh high (xs ++ [x]) ∧ d = fall high x := by
  constructor
  · rintro ⟨pre, y, post, high, heq, hhigh, hfall⟩
    rcases List.eq_nil_or_concat post with rfl | ⟨post, z, rfl⟩
    · obtain ⟨rfl, hlast⟩ := List.append_inj' heq rfl
      obtain rfl := List.singleton_inj.1 hlast
      exact .inr ⟨high, hhigh, hfall⟩
    · rw [List.concat_eq_append, ← List.cons_append, ← List.append_assoc] at heq
      obtain ⟨rfl, -⟩ := List.append_inj' heq rfl
      exact .inl ⟨pre, y, post, high, rfl, hhigh, hfall⟩
  · rintro (⟨pre, y, post, high, rfl, hhigh, hfall⟩ | ⟨high, hhigh, hfall⟩)
    · exact ⟨pre, y, post ++ [x], high, by simp, hhigh, hfall⟩
    · exact ⟨xs, x, [], high, rfl, hhigh, hfall⟩

/-- The high so far is the high. -/
theorem isHigh_peak (first : α) (xs : List α) : IsHigh (run first xs).peak (first :: xs) := by
  induction xs using List.reverseRecOn with
  | nil => exact ⟨List.mem_cons_self, fun x hx => (List.mem_singleton.1 hx).le⟩
  | append_singleton xs x ih =>
      rw [run_concat, ← List.cons_append]
      exact ih.concat

/-- Every part of a curve has a high. -/
theorem exists_isHigh (pre : List α) (y : α) : ∃ high, IsHigh high (pre ++ [y]) := by
  cases pre with
  | nil => exact ⟨y, List.mem_cons_self, fun z hz => (List.mem_singleton.1 hz).le⟩
  | cons z pre => exact ⟨_, isHigh_peak z (pre ++ [y])⟩

theorem le_peak (first : α) (xs : List α) : first ≤ (run first xs).peak :=
  (isHigh_peak first xs).2 first List.mem_cons_self

/-- **The worst fall so far is the worst of the falls**, for a curve that
starts above zero. -/
theorem isGreatest_worst (hfirst : 0 < first) (xs : List α) :
    IsGreatest {d | FallsBy d (first :: xs)} (run first xs).worst := by
  induction xs using List.reverseRecOn with
  | nil =>
      have hzero : fall first first = 0 := by rw [fall, sub_self, zero_div, zero_mul]
      refine ⟨⟨[], first, [], first, rfl, isHigh_peak first [], hzero.symm⟩, ?_⟩
      rintro d ⟨pre, y, post, high, heq, hhigh, rfl⟩
      have hlength := congrArg List.length heq
      simp only [List.length_append, List.length_cons, List.length_nil] at hlength
      obtain rfl : pre = [] := List.eq_nil_of_length_eq_zero (by omega)
      obtain rfl : first = y := (List.cons.inj heq).1
      have hsame : high = first := List.mem_singleton.1 hhigh.1
      rw [hsame, hzero]
      rfl
  | append_singleton xs x ih =>
      have hpeak : 0 < (run first (xs ++ [x])).peak := hfirst.trans_le (le_peak _ _)
      have hhigh := isHigh_peak first (xs ++ [x])
      rw [run_concat] at hpeak hhigh ⊢
      have hworst : (step (run first xs) x).worst =
          max (run first xs).worst (fall (step (run first xs) x).peak x) :=
        congrArg (max _) (if_pos hpeak)
      rw [hworst]
      constructor
      · show FallsBy _ (first :: xs ++ [x])
        rcases max_choice (run first xs).worst (fall (step (run first xs) x).peak x) with h | h
        · rw [h]
          exact fallsBy_concat.2 (.inl ih.1)
        · rw [h]
          exact fallsBy_concat.2 (.inr ⟨_, hhigh, rfl⟩)
      · intro d hd
        rcases fallsBy_concat.1 (show FallsBy d (first :: xs ++ [x]) from hd) with
          hold | ⟨high, hhigh', rfl⟩
        · exact (ih.2 hold).trans (le_max_left _ _)
        · rw [hhigh'.unique hhigh]
          exact le_max_right _ _

variable [IsStrictOrderedRing α]

/-- A fall is of more than everything just where it goes below zero. -/
theorem fall_le_hundred (hhigh : 0 < high) : fall high y ≤ 100 ↔ 0 ≤ y := by
  rw [fall, mul_le_iff_le_one_left (by norm_num), div_le_one hhigh, sub_le_self_iff]

/-- **The worst fall is of no more than everything** just where the curve does
not go below zero. -/
theorem worst_le_hundred (hfirst : 0 < first) :
    (run first xs).worst ≤ 100 ↔ ∀ x ∈ first :: xs, 0 ≤ x := by
  have hworst := isGreatest_worst hfirst xs
  have hhigh : ∀ {pre post : List α} {y high : α}, first :: xs = pre ++ y :: post →
      IsHigh high (pre ++ [y]) → 0 < high := fun {pre post y high} heq h => by
    refine hfirst.trans_le (h.2 first ?_)
    cases pre with
    | nil => exact List.mem_singleton.2 (List.cons.inj heq).1
    | cons z pre => exact List.mem_cons.2 (.inl (List.cons.inj heq).1)
  constructor
  · intro hle x hx
    obtain ⟨pre, post, heq⟩ := List.append_of_mem hx
    obtain ⟨high, h⟩ := exists_isHigh pre x
    exact (fall_le_hundred (hhigh heq h)).1
      ((hworst.2 ⟨pre, x, post, high, heq, h, rfl⟩).trans hle)
  · intro hnonneg
    obtain ⟨pre, y, post, high, heq, h, hfall⟩ := hworst.1
    rw [hfall]
    refine (fall_le_hundred (hhigh heq h)).2 (hnonneg y ?_)
    rw [heq]
    exact List.mem_append_right _ List.mem_cons_self

/-- From a higher value a value that is not negative is a deeper fall. -/
theorem fall_mono (hx : 0 < x) (hle : x ≤ high) (hy : 0 ≤ y) : fall x y ≤ fall high y := by
  have hhigh : 0 < high := hx.trans_le hle
  have hquot : y / high ≤ y / x := div_le_div_of_nonneg_left hy hx hle
  have hfall : ∀ z : α, 0 < z → fall z y = (1 - y / z) * 100 := fun z hz => by
    rw [fall, sub_div, div_self hz.ne']
  rw [hfall x hx, hfall high hhigh]
  linarith

/-- **The fall from any value to a later one** that is not negative is no
deeper than the worst. -/
theorem fall_le_worst (hfirst : 0 < first) (heq : first :: xs = pre ++ y :: post)
    (hx : x ∈ pre ++ [y]) (hpos : 0 < x) (hy : 0 ≤ y) : fall x y ≤ (run first xs).worst := by
  obtain ⟨high, hhigh⟩ := exists_isHigh pre y
  refine (fall_mono hpos (hhigh.2 x hx) hy).trans ((isGreatest_worst hfirst xs).2 ?_)
  exact ⟨pre, y, post, high, heq, hhigh, rfl⟩

end Drawdown

end WebhookTrader
