import Mathlib.Data.List.Basic
import Mathlib.Data.List.Induction
import Mathlib.Order.MinMax

/-!
# Fixed windows

A counter that starts anew with the first hit after its window is over. A
limit on the hits of a window is not one on every stretch of the window's
length, which may take the end of one window and the beginning of the
next: such a stretch sees less than twice the limit, and may see all of
it.
-/

namespace WebhookTrader

/-- **A counter**: the hits since the window's start. -/
structure FixedWindow where
  count : ℕ := 0
  start : ℕ := 0
  deriving DecidableEq, Repr

namespace FixedWindow

variable {limit length now a : ℕ} {w : FixedWindow} {times : List ℕ}

/-- **A hit**: whether it is allowed, and the counter after it. The first of
a window always is. -/
def hit (limit length now : ℕ) (w : FixedWindow) : Bool × FixedWindow :=
  if length ≤ now - w.start then (true, ⟨1, now⟩)
  else (w.count + 1 ≤ limit, { w with count := w.count + 1 })

/-- The counter after some hits, and those that were allowed. -/
def run (limit length : ℕ) (times : List ℕ) : FixedWindow × List ℕ :=
  times.foldl
    (fun s now =>
      ((s.1.hit limit length now).2, if (s.1.hit limit length now).1 then s.2 ++ [now] else s.2))
    ({}, [])

/-- The hits that are allowed. -/
def allowed (limit length : ℕ) (times : List ℕ) : List ℕ := (run limit length times).2

@[simp] theorem run_nil : run limit length [] = ({}, []) := rfl

theorem run_concat : run limit length (times ++ [now]) =
    (((run limit length times).1.hit limit length now).2,
      if ((run limit length times).1.hit limit length now).1 then
        (run limit length times).2 ++ [now]
      else (run limit length times).2) := List.foldl_concat ..

/-! ## Two windows -/

/-- **What a counter knows of the hits it has allowed**, where the limit is
at least one: those of its window are the start and the later ones, and
the stretches that reach into the window before see less of that. -/
structure Counts (limit length : ℕ) (w : FixedWindow) (hits : List ℕ) : Prop where
  within : hits.countP (w.start ≤ ·) ≤ min w.count limit
  /-- The window starts with a hit. -/
  opened : w.start ∈ hits
  inside : ∀ t ∈ hits, t < w.start + length
  before : ∀ a, w.start < a + length → hits.countP (fun t => a ≤ t ∧ t < w.start) ≤ limit - 1
  stretch : ∀ a, hits.countP (fun t => a ≤ t ∧ t < a + length) ≤ 2 * limit - 1

/-- A stretch that reaches into a window sees of it and of what is before. -/
theorem countP_stretch_le (hits : List ℕ) (a start length : ℕ) :
    hits.countP (fun t => a ≤ t ∧ t < a + length) ≤
      hits.countP (fun t => a ≤ t ∧ t < start) + hits.countP (start ≤ ·) := by
  induction hits with
  | nil => simp
  | cons t hits ih =>
      simp only [List.countP_cons, decide_eq_true_eq]
      by_cases ht : t < start
      · have hnot : ¬ start ≤ t := Nat.not_le_of_lt ht
        simp only [ht, hnot, if_false, and_true]
        split_ifs <;> omega
      · have hle : start ≤ t := Nat.le_of_not_lt ht
        simp only [ht, hle, if_true, and_false, if_false]
        split_ifs <;> omega

theorem countP_stretch_le_of_before {hits : List ℕ} {start : ℕ} (hlimit : 1 ≤ limit)
    (hwithin : hits.countP (start ≤ ·) ≤ limit)
    (hbefore : hits.countP (fun t => a ≤ t ∧ t < start) ≤ limit - 1) :
    hits.countP (fun t => a ≤ t ∧ t < a + length) ≤ 2 * limit - 1 := by
  have hsplit := countP_stretch_le hits a start length
  omega

/-- **The first hit of a new window.** -/
theorem Counts.renew {hits : List ℕ} (h : Counts limit length w hits) (hlimit : 1 ≤ limit)
    (hlength : 0 < length) (hover : w.start + length ≤ now) :
    Counts limit length ⟨1, now⟩ (hits ++ [now]) := by
  have hold : ∀ t ∈ hits, t < now := fun t ht => (h.inside t ht).trans_le hover
  have hnone : hits.countP (now ≤ ·) = 0 := by
    rw [List.countP_eq_zero]
    intro t ht
    simpa using hold t ht
  -- of the last window, all but its start
  have hlater : hits.countP (w.start < ·) + 1 ≤ limit := by
    have hone : 1 ≤ hits.countP (· = w.start) :=
      List.countP_pos_iff.2 ⟨w.start, h.opened, by simp⟩
    have hsum : hits.countP (w.start < ·) + hits.countP (· = w.start) =
        hits.countP (w.start ≤ ·) := by
      clear h hold hnone hone
      induction hits with
      | nil => rfl
      | cons t hits ih =>
          simp only [List.countP_cons, decide_eq_true_eq]
          rcases Nat.lt_trichotomy w.start t with hlt | heq | hgt
          · simp only [hlt, hlt.le, hlt.ne', if_true, if_false]
            omega
          · simp only [heq, lt_irrefl, le_refl, if_true, if_false] at ih ⊢
            omega
          · simp only [hgt.ne, hgt.not_gt, hgt.not_ge, if_false]
            omega
    have hwithin := h.within
    omega
  have hbefore : ∀ a, now < a + length →
      (hits ++ [now]).countP (fun t => a ≤ t ∧ t < now) ≤ limit - 1 := by
    intro a ha
    have hsub : hits.countP (fun t => a ≤ t ∧ t < now) ≤ hits.countP (w.start < ·) := by
      refine List.countP_mono_left fun t _ htime => ?_
      simp only [decide_eq_true_eq] at htime ⊢
      omega
    simp only [List.countP_append, List.countP_singleton, lt_irrefl, and_false, decide_false,
      Bool.false_eq_true, if_false]
    omega
  have hwithin : (hits ++ [now]).countP (now ≤ ·) ≤ 1 := by
    simp [List.countP_append, hnone]
  constructor
  case within => exact hwithin.trans (le_min le_rfl hlimit)
  case opened => simp
  case inside =>
    intro t ht
    rcases List.mem_append.1 ht with hmem | hnew
    · exact (hold t hmem).trans (Nat.lt_add_of_pos_right hlength)
    · rw [List.mem_singleton.1 hnew]
      exact Nat.lt_add_of_pos_right hlength
  case before => exact hbefore
  case stretch =>
    intro a
    by_cases ha : now < a + length
    · exact countP_stretch_le_of_before hlimit (hwithin.trans hlimit) (hbefore a ha)
    · have hsame : (hits ++ [now]).countP (fun t => a ≤ t ∧ t < a + length) =
          hits.countP (fun t => a ≤ t ∧ t < a + length) := by
        simp [List.countP_append, ha]
      rw [hsame]
      exact h.stretch a

/-- **Another hit of the window**, allowed or not. -/
theorem Counts.again {hits : List ℕ} (h : Counts limit length w hits) (hlimit : 1 ≤ limit)
    (hle : w.start ≤ now) (hin : now < w.start + length) :
    Counts limit length { w with count := w.count + 1 }
      (if w.count + 1 ≤ limit then hits ++ [now] else hits) := by
  split_ifs with hallowed
  · have hwithin : (hits ++ [now]).countP (w.start ≤ ·) ≤ min (w.count + 1) limit := by
      have hbefore := h.within
      simp only [List.countP_append, List.countP_singleton, hle, decide_true, if_true]
      omega
    have hbefore : ∀ a, w.start < a + length →
        (hits ++ [now]).countP (fun t => a ≤ t ∧ t < w.start) ≤ limit - 1 := by
      intro a ha
      have hnot : ¬ now < w.start := Nat.not_lt_of_le hle
      simpa [List.countP_append, hnot] using h.before a ha
    constructor
    case within => exact hwithin
    case opened => exact List.mem_append_left _ h.opened
    case inside =>
      intro t ht
      rcases List.mem_append.1 ht with hold | hnew
      · exact h.inside t hold
      · rw [List.mem_singleton.1 hnew]
        exact hin
    case before => exact hbefore
    case stretch =>
      intro a
      by_cases ha : w.start < a + length
      · exact countP_stretch_le_of_before hlimit (hwithin.trans (min_le_right _ _)) (hbefore a ha)
      · have hnot : ¬ now < a + length := by omega
        have hsame : (hits ++ [now]).countP (fun t => a ≤ t ∧ t < a + length) =
            hits.countP (fun t => a ≤ t ∧ t < a + length) := by
          simp [List.countP_append, hnot]
        rw [hsame]
        exact h.stretch a
  · refine ⟨h.within.trans ?_, h.opened, h.inside, h.before, h.stretch⟩
    exact min_le_min_right _ (Nat.le_succ _)

/-- **The first hit of all**, where the clock is past a window's length. -/
theorem counts_first (hlimit : 1 ≤ limit) (hlength : 0 < length) :
    Counts limit length ⟨1, now⟩ [now] where
  within := by simpa using hlimit
  opened := List.mem_singleton_self now
  inside t ht := by
    rw [List.mem_singleton.1 ht]
    exact Nat.lt_add_of_pos_right hlength
  before a _ := by simp
  stretch a := by
    refine (List.countP_le_length).trans ?_
    rw [List.length_singleton]
    omega

/-- A hit never moves the start beyond itself. -/
theorem start_hit_le (hle : w.start ≤ now) : (w.hit limit length now).2.start ≤ now := by
  unfold hit
  split_ifs
  · exact le_rfl
  · exact hle

/-- **A counter's hits**, where the limit is at least one and the clock is
past a window's length when the first comes. -/
theorem counts_run (hlimit : 1 ≤ limit) (hlength : 0 < length) (hup : ∀ t ∈ times, length ≤ t)
    (hsorted : times.Pairwise (· ≤ ·)) : times = [] ∨
      (∀ now, (∀ t ∈ times, t ≤ now) → (run limit length times).1.start ≤ now) ∧
        Counts limit length (run limit length times).1 (allowed limit length times) := by
  induction times using List.reverseRecOn with
  | nil => exact .inl rfl
  | append_singleton times now ih =>
      obtain ⟨hpast, -, hlast⟩ := List.pairwise_append.1 hsorted
      have hlast : ∀ t ∈ times, t ≤ now := fun t ht => hlast t ht now (List.mem_singleton_self now)
      refine .inr ?_
      rw [allowed, run_concat]
      rcases ih (fun t ht => hup t (List.mem_append_left _ ht)) hpast with rfl | ⟨hstart, hcounts⟩
      · have hfirst : length ≤ now := hup now (by simp)
        simp only [run_nil, hit, Nat.sub_zero, hfirst, if_true, List.nil_append]
        exact ⟨fun later hlater => hlater now (by simp), counts_first hlimit hlength⟩
      · have hle := hstart now hlast
        refine ⟨fun later hlater => (start_hit_le hle).trans (hlater now (by simp)), ?_⟩
        unfold hit
        by_cases hover : length ≤ now - (run limit length times).1.start
        · simp only [hover, if_true]
          exact hcounts.renew hlimit hlength (by omega)
        · simp only [hover, if_false, decide_eq_true_eq]
          exact hcounts.again hlimit hle (by omega)

/-- **A stretch of a window's length sees less than twice the limit.** -/
theorem countP_allowed_le (hlimit : 1 ≤ limit) (hlength : 0 < length)
    (hup : ∀ t ∈ times, length ≤ t) (hsorted : times.Pairwise (· ≤ ·)) (a : ℕ) :
    (allowed limit length times).countP (fun t => a ≤ t ∧ t < a + length) ≤ 2 * limit - 1 := by
  rcases counts_run hlimit hlength hup hsorted with rfl | ⟨-, hcounts⟩
  · exact Nat.zero_le _
  · exact hcounts.stretch a

/-! ## All of it -/

/-- Hits at one time of the window, up to the limit. -/
theorem run_append_replicate {k t : ℕ} (hlength : 0 < length)
    (hin : t < (run limit length times).1.start + length)
    (hcount : (run limit length times).1.count + k ≤ limit) :
    run limit length (times ++ List.replicate k t) =
      ({ (run limit length times).1 with count := (run limit length times).1.count + k },
        (run limit length times).2 ++ List.replicate k t) := by
  induction k with
  | zero => simp
  | succ k ih =>
      have hopen : ¬ length ≤ t - (run limit length times).1.start := by omega
      have hallowed : (run limit length times).1.count + k + 1 ≤ limit := by omega
      rw [List.replicate_succ', ← List.append_assoc, run_concat, ih (by omega)]
      simp only [hit, hopen, if_false, hallowed, decide_true, if_true, List.append_assoc]
      rfl

/-- The first hit of a window, after others. -/
theorem run_concat_renew (hover : (run limit length times).1.start + length ≤ now)
    (hlength : 0 < length) :
    run limit length (times ++ [now]) = (⟨1, now⟩, (run limit length times).2 ++ [now]) := by
  have hrenew : length ≤ now - (run limit length times).1.start := by omega
  rw [run_concat]
  simp [hit, hrenew]

/-- The limit at the end of one window, and the limit at the beginning of the
next. -/
def burst (limit length : ℕ) : List ℕ :=
  [length] ++ List.replicate (limit - 1) (2 * length - 1) ++ [2 * length] ++
    List.replicate (limit - 1) (2 * length)

theorem allowed_burst (hlimit : 1 ≤ limit) (hlength : 0 < length) :
    allowed limit length (burst limit length) = burst limit length := by
  have hone : run limit length [length] = (⟨1, length⟩, [length]) := by
    have hfirst : run limit length ([] ++ [length]) = _ := run_concat_renew (by simp) hlength
    exact hfirst
  have htwo : run limit length ([length] ++ List.replicate (limit - 1) (2 * length - 1)) =
      (⟨1 + (limit - 1), length⟩, [length] ++ List.replicate (limit - 1) (2 * length - 1)) := by
    rw [run_append_replicate hlength (by rw [hone]; dsimp only; omega)
      (by rw [hone]; dsimp only; omega), hone]
  have hthree : run limit length
      ([length] ++ List.replicate (limit - 1) (2 * length - 1) ++ [2 * length]) =
      (⟨1, 2 * length⟩,
        [length] ++ List.replicate (limit - 1) (2 * length - 1) ++ [2 * length]) := by
    rw [run_concat_renew (by rw [htwo]; dsimp only; omega) hlength, htwo]
  rw [allowed, burst, run_append_replicate hlength (by rw [hthree]; dsimp only; omega)
    (by rw [hthree]; dsimp only; omega), hthree]

/-- **The bound is met**: a stretch that begins just before a window does. -/
theorem countP_burst (hlimit : 1 ≤ limit) (hlength : 1 < length) :
    (allowed limit length (burst limit length)).countP
      (fun t => 2 * length - 1 ≤ t ∧ t < 2 * length - 1 + length) = 2 * limit - 1 := by
  have hfirst : ¬ 2 * length - 1 ≤ length := by omega
  have hend : 2 * length - 1 < 2 * length - 1 + length := by omega
  have hnext : 2 * length - 1 ≤ 2 * length ∧ 2 * length < 2 * length - 1 + length := by omega
  rw [allowed_burst hlimit (by omega), burst]
  simp only [List.countP_append, List.countP_replicate, List.countP_singleton, hfirst, hend, hnext,
    le_refl, and_self, false_and, decide_true, decide_false, if_true, if_false,
    Bool.false_eq_true]
  omega

theorem pairwise_burst (limit : ℕ) (hlength : 0 < length) :
    (burst limit length).Pairwise (· ≤ ·) ∧ ∀ t ∈ burst limit length, length ≤ t := by
  constructor
  · simp only [burst, List.pairwise_append, List.pairwise_replicate, List.mem_append,
      List.mem_replicate, List.mem_singleton]
    refine ⟨⟨⟨List.pairwise_singleton _ _, .inr le_rfl, ?_⟩, List.pairwise_singleton _ _, ?_⟩,
      .inr le_rfl, ?_⟩ <;> omega
  · simp only [burst, List.mem_append, List.mem_replicate, List.mem_singleton]
    omega

end FixedWindow

end WebhookTrader
