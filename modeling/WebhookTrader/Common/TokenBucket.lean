import Mathlib.Algebra.Order.Field.Basic
import Mathlib.Data.Nat.Cast.Order.Ring
import Mathlib.Tactic.Linarith

/-!
# Token buckets

A bucket that is refilled in the course of time, up to a capacity, and of
which every grant takes one token. How much has been supplied by a time is
a function that does not decrease; where it is a rate times the time, this
is the usual token bucket. A full bucket can be spent at once and is then
refilled, so what is granted between two times is bounded by the capacity
and the supply between them, and by no less.
-/

namespace WebhookTrader

/-- **A token bucket**, as it was when it was last refilled. -/
structure TokenBucket (K T : Type) where
  cap : K
  tokens : K
  last : T

namespace TokenBucket

variable {K T : Type} [Field K] [LinearOrder K] [IsStrictOrderedRing K] [LinearOrder T]

/-- The tokens at a time. -/
def refill (supply : T → K) (now : T) (b : TokenBucket K T) : TokenBucket K T :=
  { b with tokens := min b.cap (b.tokens + (supply now - supply b.last)), last := now }

/-- A grant takes one token. -/
def take (b : TokenBucket K T) : TokenBucket K T := { b with tokens := b.tokens - 1 }

/-- Of several tokens at once. -/
def takes (n : ℕ) (b : TokenBucket K T) : TokenBucket K T := { b with tokens := b.tokens - n }

/-- How many grants there were from one time to another. -/
def granted (a c : T) (log : List T) : ℕ := log.countP fun t => a ≤ t ∧ t ≤ c

theorem granted_cons_of_mem {a c t : T} {log : List T} (h : a ≤ t ∧ t ≤ c) :
    granted a c (t :: log) = granted a c log + 1 := List.countP_cons_of_pos (by simpa using h)

theorem granted_cons_of_notMem {a c t : T} {log : List T} (h : ¬ (a ≤ t ∧ t ≤ c)) :
    granted a c (t :: log) = granted a c log := List.countP_cons_of_neg (by simpa using h)

/-- There were none after the last. -/
theorem granted_eq_zero {a c last : T} {log : List T} (hlog : ∀ t ∈ log, t ≤ last) (h : last < a) :
    granted a c log = 0 := by
  rw [granted, List.countP_eq_zero]
  intro t ht hmem
  have hmem : a ≤ t ∧ t ≤ c := by simpa using hmem
  exact absurd (hmem.1.trans (hlog t ht)) (not_le.2 h)

/-- **What the grants so far say of the bucket**, and it of them. -/
structure Accounts (supply : T → K) (b : TokenBucket K T) (log : List T) : Prop where
  nonneg : 0 ≤ b.tokens
  le_cap : b.tokens ≤ b.cap
  past : ∀ t ∈ log, t ≤ b.last
  /-- Grants and tokens that are left are within the capacity and the supply. -/
  spent : ∀ a, a ≤ b.last → granted a b.last log + b.tokens ≤ b.cap + (supply b.last - supply a)
  window : ∀ a c, a ≤ c → granted a c log ≤ b.cap + (supply c - supply a)

variable {supply : T → K} {b : TokenBucket K T} {log : List T} {now : T}

theorem Accounts.new (hsupply : Monotone supply) (hcap : 0 ≤ b.cap) (hfull : b.tokens = b.cap) :
    b.Accounts supply [] where
  nonneg := hfull ▸ hcap
  le_cap := hfull.le
  past t ht := absurd ht List.not_mem_nil
  spent a ha := by
    have hmono := hsupply ha
    show ((0 : ℕ) : K) + b.tokens ≤ _
    rw [Nat.cast_zero, hfull]
    linarith
  window a c hac := by
    have hmono := hsupply hac
    show ((0 : ℕ) : K) ≤ _
    rw [Nat.cast_zero]
    linarith

/-- **A refill keeps the account.** -/
theorem Accounts.refill (h : b.Accounts supply log) (hsupply : Monotone supply)
    (hnow : b.last ≤ now) : (b.refill supply now).Accounts supply log where
  nonneg := le_min (h.nonneg.trans h.le_cap) (by linarith [h.nonneg, hsupply hnow])
  le_cap := min_le_left _ _
  past t ht := (h.past t ht).trans hnow
  window := h.window
  spent a ha := by
    have hle : (b.refill supply now).tokens ≤ b.tokens + (supply now - supply b.last) :=
      min_le_right _ _
    have hcap : (b.refill supply now).tokens ≤ b.cap := min_le_left _ _
    show (granted a now log : K) + (b.refill supply now).tokens ≤ b.cap + (supply now - supply a)
    rcases le_or_gt a b.last with hold | hnew
    · -- the grants up to now are those up to the last refill
      have heq : granted a now log = granted a b.last log := by
        refine List.countP_congr fun t ht => ?_
        have hpast := h.past t ht
        simp [hpast, hpast.trans hnow]
      have hspent := h.spent a hold
      rw [heq]
      linarith
    · have hmono := hsupply (show a ≤ now from ha)
      rw [granted_eq_zero h.past hnew, Nat.cast_zero]
      linarith

/-- **A grant keeps the account**, where there is a token. -/
theorem Accounts.take (h : b.Accounts supply log) (hsupply : Monotone supply)
    (htoken : 1 ≤ b.tokens) : b.take.Accounts supply (b.last :: log) where
  nonneg := sub_nonneg.2 htoken
  le_cap := by
    show b.tokens - 1 ≤ b.cap
    linarith [h.le_cap]
  past t ht := by
    rcases List.mem_cons.1 ht with rfl | ht
    · exact le_rfl
    · exact h.past t ht
  spent a ha := by
    have hspent := h.spent a ha
    have hin : a ≤ b.last ∧ b.last ≤ b.last := ⟨ha, le_rfl⟩
    show (granted a b.last (b.last :: log) : K) + (b.tokens - 1) ≤
      b.cap + (supply b.last - supply a)
    rw [granted_cons_of_mem hin, Nat.cast_succ]
    linarith
  window a c hac := by
    show _ ≤ b.cap + (supply c - supply a)
    by_cases hin : a ≤ b.last ∧ b.last ≤ c
    · have hspent := h.spent a hin.1
      have hsub : granted a c log = granted a b.last log := by
        refine List.countP_congr fun t ht => ?_
        have hpast := h.past t ht
        simp [hpast, hpast.trans hin.2]
      have hmono := hsupply hin.2
      rw [granted_cons_of_mem hin, hsub, Nat.cast_succ]
      linarith
    · rw [granted_cons_of_notMem hin]
      exact h.window a c hac

omit [LinearOrder K] [IsStrictOrderedRing K] [LinearOrder T] in
/-- One token after the others. -/
theorem takes_succ (n : ℕ) (b : TokenBucket K T) : b.takes (n + 1) = (b.takes n).take := by
  unfold takes take
  rw [Nat.cast_succ, sub_sub]

/-- **A grant of several tokens** is as many grants at one time. -/
theorem Accounts.takes (h : b.Accounts supply log) (hsupply : Monotone supply) {n : ℕ}
    (htokens : n ≤ b.tokens) : (b.takes n).Accounts supply (List.replicate n b.last ++ log) := by
  induction n with
  | zero =>
      have hsame : b.takes 0 = b := by
        unfold TokenBucket.takes
        rw [Nat.cast_zero, sub_zero]
      rw [hsame]
      exact h
  | succ n ih =>
      rw [Nat.cast_succ] at htokens
      have hbefore : (n : K) ≤ b.tokens := by linarith
      have htoken : 1 ≤ (b.takes n).tokens := by
        show 1 ≤ b.tokens - n
        linarith
      rw [takes_succ]
      exact (ih hbefore).take hsupply htoken

/-! ## Grants of several tokens -/

/-- A log of grants with one entry for each token. -/
def unitLog (log : List (T × ℕ)) : List T := log.flatMap fun g => List.replicate g.2 g.1

/-- How many tokens were granted from one time to another. -/
def amount (a c : T) (log : List (T × ℕ)) : ℕ :=
  (log.map fun g => if a ≤ g.1 ∧ g.1 ≤ c then g.2 else 0).sum

theorem granted_unitLog (a c : T) (log : List (T × ℕ)) :
    granted a c (unitLog log) = amount a c log := by
  induction log with
  | nil => rfl
  | cons g log ih =>
      have hfirst : granted a c (List.replicate g.2 g.1) =
          if a ≤ g.1 ∧ g.1 ≤ c then g.2 else 0 := by
        rw [granted, List.countP_replicate]
        simp only [decide_eq_true_eq]
      have hboth : granted a c (unitLog (g :: log)) =
          granted a c (List.replicate g.2 g.1) + granted a c (unitLog log) := List.countP_append
      rw [hboth, hfirst, ih]
      rfl

end TokenBucket

end WebhookTrader
