import Mathlib.Algebra.Order.Archimedean.Basic
import Mathlib.Data.Rat.Cast.Order
import Mathlib.Tactic.Linarith
import Mathlib.Tactic.NormNum
import Mathlib.Tactic.Ring
import WebhookTrader.Common.TokenBucket
import WebhookTrader.Core.Model.RateLimiter

/-!
# What the rate limiter lets through

The limiter is a token bucket whose capacity is what it supplies in a
second. In a window of a second it grants at most twice that: a full
bucket at once, and what is supplied meanwhile. A rate below three halves
is within one more than the rate for that reason, and every other rate is
exceeded by a schedule that empties the bucket at the beginning, in the
middle and at the end of a second.
-/

namespace WebhookTrader

namespace RateLimiter

variable {l : RateLimiter} {rate : ℚ} {now : ℕ}

/-- The limiter as a bucket. -/
def bucket (l : RateLimiter) : TokenBucket ℚ ℕ := ⟨l.maxTokens, l.tokens, l.lastRefill⟩

/-- What is supplied by a time. -/
def supply (rate : ℚ) (t : ℕ) : ℚ := t / oneSecond * rate

theorem supply_mono (hrate : 0 ≤ rate) : Monotone (supply rate) := by
  intro a c hac
  have hcast : (a : ℚ) ≤ c := Nat.cast_le.2 hac
  unfold supply
  gcongr

/-- In a second the rate is supplied. -/
theorem supply_second (a : ℕ) : supply rate (a + oneSecond) - supply rate a = rate := by
  unfold supply oneSecond
  push_cast
  ring

theorem bucket_refill (hclock : l.lastRefill ≤ now) :
    (l.refill now).bucket = l.bucket.refill (supply l.rate) now := by
  have hsupply : ((now - l.lastRefill : ℕ) : ℚ) / oneSecond * l.rate =
      supply l.rate now - supply l.rate l.lastRefill := by
    rw [Nat.cast_sub hclock]
    unfold supply
    ring
  unfold refill bucket TokenBucket.refill
  dsimp only
  rw [hsupply]

/-- **An attempt for several tokens**: the bucket is refilled, and they are
taken where there are as many. -/
theorem tryAcquire_count (l : RateLimiter) (n now : ℕ) :
    (n ≤ (l.refill now).tokens ∧ (l.tryAcquire n now).1 = true ∧
        (l.tryAcquire n now).2 = { l.refill now with tokens := (l.refill now).tokens - n }) ∨
      (l.refill now).tokens < n ∧ (l.tryAcquire n now).1 = false ∧
        (l.tryAcquire n now).2 = l.refill now := by
  unfold tryAcquire
  dsimp only
  by_cases htoken : n ≤ (l.refill now).tokens
  · rw [if_pos htoken]
    exact .inl ⟨htoken, rfl, rfl⟩
  · rw [if_neg htoken]
    exact .inr ⟨not_le.1 htoken, rfl, rfl⟩

/-- **An attempt**: the bucket is refilled, and a token is taken where there
is one. -/
theorem tryAcquire_cases (l : RateLimiter) (now : ℕ) :
    (1 ≤ (l.refill now).tokens ∧ (l.tryAcquire 1 now).1 = true ∧
        (l.tryAcquire 1 now).2.bucket = (l.refill now).bucket.take) ∨
      (l.refill now).tokens < 1 ∧ (l.tryAcquire 1 now).1 = false ∧
        (l.tryAcquire 1 now).2 = l.refill now := by
  have hcases := tryAcquire_count l 1 now
  rw [Nat.cast_one] at hcases
  exact hcases.imp_left fun ⟨htoken, hgranted, heq⟩ => ⟨htoken, hgranted, by rw [heq]; rfl⟩

theorem rate_tryAcquire (l : RateLimiter) (now : ℕ) : (l.tryAcquire 1 now).2.rate = l.rate := by
  unfold tryAcquire
  dsimp only
  split_ifs <;> rfl

/-- A second refill at the same time adds nothing. -/
theorem tokens_refill_self (hclock : l.lastRefill = now) (hcap : l.tokens ≤ l.maxTokens) :
    (l.refill now).tokens = l.tokens := by
  show min l.maxTokens (l.tokens + ((now - l.lastRefill : ℕ) : ℚ) / oneSecond * l.rate) = _
  rw [hclock, Nat.sub_self, Nat.cast_zero, zero_div, zero_mul, add_zero]
  exact min_eq_right hcap

end RateLimiter

namespace LimiterCalls

open RateLimiter (supply supply_mono supply_second bucket_refill tryAcquire_cases)
open TokenBucket (granted)

variable {rate : ℚ} {s : LimiterCalls} {log : List ℕ}

/-! ## At most a full bucket and the supply -/

/-- **The limiter is a bucket of its rate**, and the grants are accounted
for. -/
structure Metered (rate : ℚ) (s : LimiterCalls) (log : List ℕ) : Prop where
  rate_eq : s.limiter.rate = rate
  cap : s.limiter.maxTokens = rate
  clock : s.limiter.lastRefill ≤ s.now
  accounts : s.limiter.bucket.Accounts (supply rate) log

theorem metered_init (hrate : 0 < rate) (hinit : (limiterSystem rate).init s) :
    Metered rate s [] := by
  have hlimiter : s.limiter = .new rate 0 s.now := hinit.1
  have hcap : (RateLimiter.new rate 0 s.now).maxTokens = rate := by
    show (if 0 < (0 : ℚ) then (0 : ℚ) else rate) = rate
    exact if_neg (lt_irrefl 0)
  constructor
  case rate_eq => rw [hlimiter]; rfl
  case cap => rw [hlimiter, hcap]
  case clock => rw [hlimiter]; rfl
  case accounts =>
    rw [hlimiter]
    refine .new (supply_mono hrate.le) ?_ rfl
    show 0 ≤ (RateLimiter.new rate 0 s.now).maxTokens
    rw [hcap]
    exact hrate.le

/-- The grants after an attempt. -/
def logged (s : LimiterCalls) (log : List ℕ) : List ℕ :=
  if (s.limiter.tryAcquire 1 s.now).1 then s.now :: log else log

/-- **An attempt keeps the account.** -/
theorem Metered.attempt (h : Metered rate s log) (hrate : 0 ≤ rate) {s' : LimiterCalls}
    (hlimiter : s'.limiter = (s.limiter.tryAcquire 1 s.now).2) (hnow : s'.now = s.now) :
    Metered rate s' (s.logged log) := by
  have hmono := supply_mono hrate
  have hrefill := h.accounts.refill hmono h.clock
  rw [← h.rate_eq, ← bucket_refill h.clock, h.rate_eq] at hrefill
  have hsame : s'.limiter.rate = rate := by
    rw [hlimiter, RateLimiter.rate_tryAcquire, h.rate_eq]
  unfold logged
  rcases tryAcquire_cases s.limiter s.now with ⟨htoken, hgranted, hbucket⟩ | ⟨-, hgranted, heq⟩
  · rw [if_pos hgranted]
    rw [← hlimiter] at hbucket
    have hcap : s'.limiter.maxTokens = s.limiter.maxTokens := congrArg TokenBucket.cap hbucket
    have hlast : s'.limiter.lastRefill = s.now := congrArg TokenBucket.last hbucket
    exact ⟨hsame, hcap.trans h.cap, (hlast.trans hnow.symm).le,
      hbucket ▸ hrefill.take hmono htoken⟩
  · rw [if_neg (by rw [hgranted]; decide)]
    rw [← hlimiter] at heq
    exact ⟨hsame, heq ▸ h.cap, by rw [heq, hnow]; exact le_rfl, heq ▸ hrefill⟩

theorem toList_grant (s : LimiterCalls) (log : List ℕ) :
    (if (s.limiter.tryAcquire 1 s.now).1 then some s.now else none).toList ++ log =
      s.logged log := by
  unfold logged
  split_ifs <;> rfl

/-- **Every step of a schedule keeps the account.** -/
theorem Metered.step {s t : LimiterCalls × List ℕ} {label : LimiterLabel}
    (h : Metered rate s.1 s.2) (hrate : 0 ≤ rate)
    (hnext : ((limiterSystem rate).logged grant).next s label = some t) : Metered rate t.1 t.2 := by
  obtain ⟨hstep, hlog⟩ := System.next_logged.1 hnext
  rw [hlog]
  cases label with
  | pass ns =>
      obtain hstate := Option.some.inj hstep
      rw [← hstate]
      exact ⟨h.rate_eq, h.cap, h.clock.trans (Nat.le_add_right _ _), h.accounts⟩
  | tryAcquire =>
      obtain hstate := Option.some.inj hstep
      show Metered rate t.1 (Option.toList (if _ then _ else _) ++ s.2)
      rw [toList_grant]
      exact h.attempt hrate (by rw [← hstate]) (by rw [← hstate])
  | acquire =>
      obtain hstate := Option.some.inj hstep
      show Metered rate t.1 (Option.toList (if _ then _ else _) ++ s.2)
      rw [toList_grant]
      exact h.attempt hrate (by rw [← hstate]; rfl) (by rw [← hstate]; rfl)
  | wake i =>
      show Metered rate t.1 (Option.toList (if _ then _ else _) ++ s.2)
      rw [toList_grant]
      change s.1.next (.wake i) = some t.1 at hstep
      unfold LimiterCalls.next at hstep
      dsimp only at hstep
      split at hstep
      · cases hstep
      · split_ifs at hstep
        obtain hstate := Option.some.inj hstep
        exact h.attempt hrate (by rw [← hstate]; rfl) (by rw [← hstate]; rfl)

theorem Metered.run {s t : LimiterCalls × List ℕ} (h : Metered rate s.1 s.2) (hrate : 0 ≤ rate)
    (hrun : ((limiterSystem rate).logged grant).Run System.anyStep s t) : Metered rate t.1 t.2 :=
  hrun.invariant (I := fun s => Metered rate s.1 s.2)
    (fun _ _ _ hs _ hnext => hs.step hrate hnext) h

/-- **In a second at most twice the rate is granted.** -/
theorem Metered.granted_le (h : Metered rate s log) (a : ℕ) :
    (granted a (a + oneSecond) log : ℚ) ≤ 2 * rate := by
  have hwindow := h.accounts.window a (a + oneSecond) (Nat.le_add_right a oneSecond)
  have hcap : s.limiter.bucket.cap = rate := h.cap
  rw [supply_second, hcap] at hwindow
  linarith

/-! ## A schedule that spends it -/

/-- **The bucket can be emptied** at any time, by attempts until one fails. -/
theorem exists_drained (hrate : 0 < rate) (h : Metered rate s log) :
    ∃ (k : ℕ) (s' : LimiterCalls),
      ((limiterSystem rate).logged grant).Run System.anyStep (s, log)
        (s', List.replicate k s.now ++ log) ∧
      s'.now = s.now ∧ s'.limiter.lastRefill = s.now ∧
      s'.limiter.tokens = (s.limiter.refill s.now).tokens - k ∧ s'.limiter.tokens < 1 := by
  obtain ⟨n, hn⟩ := exists_nat_gt (s.limiter.refill s.now).tokens
  induction n generalizing s log with
  | zero =>
      have hrefill := h.accounts.refill (supply_mono hrate.le) h.clock
      rw [← h.rate_eq, ← bucket_refill h.clock] at hrefill
      rw [Nat.cast_zero] at hn
      exact absurd hrefill.nonneg (not_le.2 hn)
  | succ n ih =>
      let s₁ : LimiterCalls := { s with limiter := (s.limiter.tryAcquire 1 s.now).2 }
      have hstep : ((limiterSystem rate).logged grant).next (s, log) .tryAcquire =
          some (s₁, s.logged log) := System.next_logged.2 ⟨rfl, (toList_grant s log).symm⟩
      have hfirst : ((limiterSystem rate).logged grant).Run System.anyStep (s, log)
          (s₁, s.logged log) := .tail .refl trivial hstep
      have hmeter : Metered rate s₁ (s.logged log) := h.attempt hrate.le rfl rfl
      rcases tryAcquire_cases s.limiter s.now with
        ⟨-, hgranted, hbucket⟩ | ⟨htoken, hgranted, heq⟩
      · -- one token has gone, so fewer are left to take
        have hlog : s.logged log = s.now :: log := if_pos hgranted
        have hlast : s₁.limiter.lastRefill = s.now := congrArg TokenBucket.last hbucket
        have htokens : s₁.limiter.tokens = (s.limiter.refill s.now).tokens - 1 :=
          congrArg TokenBucket.tokens hbucket
        have hsame : (s₁.limiter.refill s₁.now).tokens = s₁.limiter.tokens :=
          RateLimiter.tokens_refill_self hlast hmeter.accounts.le_cap
        have hfewer : (s₁.limiter.refill s₁.now).tokens < n := by
          rw [hsame, htokens]
          rw [Nat.cast_succ] at hn
          linarith
        obtain ⟨k, s', hrun, hnow, hclock, hleft, hless⟩ := ih hmeter hfewer
        refine ⟨k + 1, s', ?_, hnow, hclock, ?_, hless⟩
        · have hreplicate : List.replicate k s₁.now ++ s.logged log =
              List.replicate (k + 1) s.now ++ log := by
            rw [hlog, List.replicate_succ', List.append_assoc]
            rfl
          rw [← hreplicate]
          exact hfirst.trans hrun
        · rw [hleft, hsame, htokens, Nat.cast_succ]
          ring
      · have hlog : s.logged log = log := if_neg (by rw [hgranted]; decide)
        have hrefilled : s₁.limiter = s.limiter.refill s.now := heq
        refine ⟨0, s₁, ?_, rfl, ?_, ?_, ?_⟩
        · rw [hlog] at hfirst
          exact hfirst
        · rw [hrefilled]
          rfl
        · rw [hrefilled, Nat.cast_zero, sub_zero]
        · rw [hrefilled]
          exact htoken

/-- **Three times of emptying**, with half a second's supply in between, take
more than one more than the rate. -/
theorem lt_of_three_drains {t₀ x₁ t₁ x₂ t₂ : ℚ} {k₀ k₁ k₂ : ℕ} (hrate : 3 / 2 ≤ rate)
    (h₀ : t₀ = rate - k₀) (hlow₀ : 0 ≤ t₀) (hhigh₀ : t₀ < 1)
    (hx₁ : x₁ = min rate (t₀ + rate / 2)) (h₁ : t₁ = x₁ - k₁) (hlow₁ : 0 ≤ t₁) (hhigh₁ : t₁ < 1)
    (hx₂ : x₂ = min rate (t₁ + rate / 2)) (h₂ : t₂ = x₂ - k₂) (hlow₂ : 0 ≤ t₂) (hhigh₂ : t₂ < 1) :
    rate + 1 < ((k₀ + k₁ + k₂ : ℕ) : ℚ) := by
  push_cast
  rcases le_or_gt 2 rate with hbig | hsmall
  · -- nothing is lost at the capacity
    have hx₁ : x₁ = t₀ + rate / 2 := hx₁.trans (min_eq_right (by linarith))
    have hx₂ : x₂ = t₁ + rate / 2 := hx₂.trans (min_eq_right (by linarith))
    linarith
  · -- one token each time
    have hone : ∀ {x : ℚ} {k : ℕ}, 1 ≤ x → x < 2 → 0 ≤ x - k → x - k < 1 → k = 1 := by
      intro x k hlow hhigh hleft hless
      have hlt : (k : ℚ) < 2 := by linarith
      have hpos : (0 : ℚ) < k := by linarith
      have hlt : k < 2 := by exact_mod_cast hlt
      have hpos : 0 < k := by exact_mod_cast hpos
      omega
    have hk₀ : k₀ = 1 := hone (by linarith) hsmall (h₀ ▸ hlow₀) (h₀ ▸ hhigh₀)
    rw [hk₀, Nat.cast_one] at h₀ ⊢
    have hx₁ : x₁ = 3 / 2 * rate - 1 := by
      rw [hx₁, h₀, min_eq_right (by linarith)]
      ring
    have hk₁ : k₁ = 1 := hone (by linarith) (by linarith) (h₁ ▸ hlow₁) (h₁ ▸ hhigh₁)
    rw [hk₁, Nat.cast_one] at h₁ ⊢
    have hx₂ : x₂ = 2 * rate - 2 := by
      rw [hx₂, h₁, hx₁, min_eq_right (by linarith)]
      ring
    have hk₂ : k₂ = 1 := hone (by linarith) (by linarith) (h₂ ▸ hlow₂) (h₂ ▸ hhigh₂)
    rw [hk₂, Nat.cast_one]
    linarith

/-- The tokens half a second after a refill. -/
theorem tokens_refill_half (h : Metered rate s log) (hclock : s.limiter.lastRefill = s.now) :
    (s.limiter.refill (s.now + 5 * 10 ^ 8)).tokens = min rate (s.limiter.tokens + rate / 2) := by
  have helapsed :
      (((s.now + 5 * 10 ^ 8) - s.limiter.lastRefill : ℕ) : ℚ) / oneSecond = 1 / 2 := by
    rw [hclock, Nat.add_sub_cancel_left]
    norm_num [oneSecond]
  show min s.limiter.maxTokens (s.limiter.tokens + _ / (oneSecond : ℚ) * s.limiter.rate) = _
  rw [helapsed, h.cap, h.rate_eq]
  congr 1
  ring

/-- The bucket is emptied half a second later. -/
theorem exists_drained_later (hrate : 0 < rate) (h : Metered rate s log)
    (hclock : s.limiter.lastRefill = s.now) :
    ∃ (k : ℕ) (s' : LimiterCalls),
      ((limiterSystem rate).logged grant).Run System.anyStep (s, log)
        (s', List.replicate k (s.now + 5 * 10 ^ 8) ++ log) ∧
      s'.now = s.now + 5 * 10 ^ 8 ∧ s'.limiter.lastRefill = s.now + 5 * 10 ^ 8 ∧
      s'.limiter.tokens = min rate (s.limiter.tokens + rate / 2) - k ∧ s'.limiter.tokens < 1 := by
  let later : LimiterCalls := { s with now := s.now + 5 * 10 ^ 8 }
  have hnext : ((limiterSystem rate).logged grant).next (s, log) (.pass (5 * 10 ^ 8)) =
      some (later, log) := System.next_logged.2 ⟨rfl, rfl⟩
  obtain ⟨k, s', hrun, hnow, hlast, htokens, hless⟩ :=
    exists_drained hrate (h.step hrate.le hnext)
  rw [← tokens_refill_half h hclock]
  exact ⟨k, s', (System.Run.refl.tail trivial hnext).trans hrun, hnow, hlast, htokens, hless⟩

/-- **For a rate of three halves or more** some schedule is granted more than
one more than the rate in a second. -/
theorem exists_exceeded (hrate : 3 / 2 ≤ rate) :
    ∃ s log, ((limiterSystem rate).logged grant).Reachable System.anyStep (s, log) ∧
      rate + 1 < (granted 0 (0 + oneSecond) log : ℚ) := by
  have hpos : 0 < rate := by linarith
  let s₀ : LimiterCalls := { limiter := .new rate 0 0, now := 0 }
  have hinit : (limiterSystem rate).init s₀ := ⟨rfl, rfl⟩
  have hmeter₀ : Metered rate s₀ [] := metered_init hpos hinit
  have hfull : (s₀.limiter.refill s₀.now).tokens = rate := by
    have hself := RateLimiter.tokens_refill_self (l := s₀.limiter) rfl le_rfl
    exact hself.trans hmeter₀.cap
  obtain ⟨k₀, s₁, hrun₁, hnow₁, hclock₁, htokens₁, hless₁⟩ := exists_drained hpos hmeter₀
  have hmeter₁ := hmeter₀.run hpos.le hrun₁
  obtain ⟨k₁, s₂, hrun₂, hnow₂, hclock₂, htokens₂, hless₂⟩ :=
    exists_drained_later hpos hmeter₁ (hclock₁.trans hnow₁.symm)
  have hmeter₂ := hmeter₁.run hpos.le hrun₂
  obtain ⟨k₂, s₃, hrun₃, -, -, htokens₃, hless₃⟩ :=
    exists_drained_later hpos hmeter₂ (hclock₂.trans hnow₂.symm)
  have hmeter₃ := hmeter₂.run hpos.le hrun₃
  refine ⟨s₃, _, ⟨(s₀, []), ⟨hinit, rfl⟩, hrun₁.trans (hrun₂.trans hrun₃)⟩, ?_⟩
  -- every grant is within the second
  have hall : ∀ t ∈ List.replicate k₂ (s₂.now + 5 * 10 ^ 8) ++
      (List.replicate k₁ (s₁.now + 5 * 10 ^ 8) ++ (List.replicate k₀ s₀.now ++ [])),
      decide (0 ≤ t ∧ t ≤ 0 + oneSecond) = true := by
    intro t ht
    have hnow₁ : s₁.now = 0 := hnow₁
    simp only [List.mem_append, List.mem_replicate, List.not_mem_nil, or_false, hnow₂, hnow₁] at ht
    have htime : t ≤ 0 + oneSecond := by
      rcases ht with ⟨-, rfl⟩ | ⟨-, rfl⟩ | ⟨-, rfl⟩
      · norm_num [oneSecond]
      · norm_num [oneSecond]
      · exact Nat.zero_le _
    exact decide_eq_true ⟨Nat.zero_le t, htime⟩
  rw [granted, List.countP_eq_length.2 hall]
  simp only [List.length_append, List.length_replicate, List.length_nil, add_zero]
  rw [show k₂ + (k₁ + k₀) = k₀ + k₁ + k₂ by omega]
  exact lt_of_three_drains hrate (htokens₁.trans (by rw [hfull])) hmeter₁.accounts.nonneg hless₁ rfl
    htokens₂ hmeter₂.accounts.nonneg hless₂ rfl htokens₃ hmeter₃.accounts.nonneg hless₃

/-- **When the limiter keeps the limit**: for a rate of at least one, no
schedule of calls is granted more than one more than the rate in any
second, exactly where the rate is below three halves. -/
theorem limit_kept_iff (hrate : 1 ≤ rate) :
    (∀ s log, ((limiterSystem rate).logged grant).Reachable System.anyStep (s, log) →
      ∀ a, (granted a (a + oneSecond) log : ℚ) ≤ rate + 1) ↔ rate < 3 / 2 := by
  have hpos : 0 < rate := by linarith
  constructor
  · intro hkept
    by_contra hbig
    obtain ⟨s, log, hreach, hmore⟩ := exists_exceeded (not_lt.1 hbig)
    exact absurd (hkept s log hreach 0) (not_le.2 hmore)
  · rintro hsmall s log ⟨s₀, hinit, hrun⟩ a
    have hmeter₀ : Metered rate s₀.1 s₀.2 := hinit.2 ▸ metered_init hpos hinit.1
    have htwice := (hmeter₀.run hpos.le hrun).granted_le a
    -- fewer than three, so at most two
    have hthree : ((granted a (a + oneSecond) log : ℕ) : ℚ) < 3 := by linarith
    have htwo : granted a (a + oneSecond) log ≤ 2 := by
      have hthree : granted a (a + oneSecond) log < 3 := by exact_mod_cast hthree
      omega
    have htwo : (granted a (a + oneSecond) log : ℚ) ≤ 2 := by exact_mod_cast htwo
    linarith

theorem limit_kept_iff_nine :
    (∀ s log, ((limiterSystem 9).logged grant).Reachable System.anyStep (s, log) →
      ∀ a, (granted a (a + oneSecond) log : ℚ) ≤ 9 + 1) ↔ (9 : ℚ) < 3 / 2 :=
  limit_kept_iff (by norm_num)

end LimiterCalls

/-! ### Nine a second -/

namespace LimiterRun

/-- Nine calls at once, nine more a nanosecond before the second is over,
and one at its end. -/
def labels : List LimiterLabel :=
  List.replicate 9 .tryAcquire ++ .pass 999999999 :: List.replicate 9 .tryAcquire ++
    [.pass 1, .acquire]

end LimiterRun

open LimiterCalls in
/-- **The configured limiter grants eighteen requests in a second**, and
seventeen before the second is over. -/
theorem eighteen_in_a_second :
    ∃ s log, ((limiterSystem 9).logged grant).Reachable System.anyStep (s, log) ∧
      TokenBucket.granted 0 (0 + oneSecond) log = 18 ∧
        (log.countP fun t => t < oneSecond) = 17 := by
  obtain ⟨⟨s, log⟩, hrun, hlog⟩ := System.exists_run_of_play
    (M := (limiterSystem 9).logged grant) (G := System.anyStep)
    (s := ({ limiter := .new 9 0 0, now := 0 }, [])) LimiterRun.labels
    (P := fun t => TokenBucket.granted 0 (0 + oneSecond) t.2 = 18 ∧
      (t.2.countP fun t => t < oneSecond) = 17) (by decide +kernel)
  exact ⟨s, log, ⟨_, ⟨⟨rfl, rfl⟩, rfl⟩, hrun⟩, hlog⟩

end WebhookTrader
