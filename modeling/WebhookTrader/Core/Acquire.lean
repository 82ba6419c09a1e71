import WebhookTrader.Core.Model.Acquire
import WebhookTrader.Core.RateLimiter

/-!
# What the rate limiter grants, and to whom

Whatever is asked for and by how many callers, the limiter is a token
bucket: what it grants between two times is within its capacity and the
supply between them. A caller that sleeps finds what was supplied
meanwhile, but never more than the capacity. With the default burst the
capacity is the rate, so that a call for one token comes back where the
rate is one a second or more, and never where it is less.
-/

namespace WebhookTrader

namespace LimiterUse

open RateLimiter (supply supply_mono bucket_refill tryAcquire_count)
open TokenBucket (amount unitLog granted_unitLog)

variable {rate burst : ℚ} {s t : LimiterUse} {log : List (ℕ × ℕ)} {n : ℕ}

/-! ## A full bucket and the supply -/

/-- **The account of a schedule.** -/
structure Metered (rate burst : ℚ) (s : LimiterUse) (log : List (ℕ × ℕ)) : Prop where
  rate_eq : s.limiter.rate = rate
  cap : s.limiter.maxTokens = if 0 < burst then burst else rate
  clock : s.limiter.lastRefill ≤ s.now
  accounts : s.limiter.bucket.Accounts (supply rate) (unitLog log)

theorem metered_init (hrate : 0 < rate) (hinit : (useSystem rate burst).init s) :
    Metered rate burst s [] := by
  have hlimiter : s.limiter = .new rate burst s.now := hinit.1
  constructor
  case rate_eq => rw [hlimiter]; rfl
  case cap => rw [hlimiter]; rfl
  case clock => rw [hlimiter]; exact le_rfl
  case accounts =>
    rw [hlimiter]
    refine .new (supply_mono hrate.le) ?_ rfl
    show 0 ≤ if 0 < burst then burst else rate
    split_ifs with hburst
    · exact hburst.le
    · exact hrate.le

/-- The grants after an attempt. -/
def logged (n : ℕ) (s : LimiterUse) (log : List (ℕ × ℕ)) : List (ℕ × ℕ) :=
  (if (s.limiter.tryAcquire n s.now).1 then some (s.now, n) else none).toList ++ log

/-- **An attempt keeps the account.** -/
theorem Metered.attempt (h : Metered rate burst s log) (hrate : 0 ≤ rate)
    (hlimiter : t.limiter = (s.limiter.tryAcquire n s.now).2) (hnow : t.now = s.now) :
    Metered rate burst t (s.logged n log) := by
  have hmono := supply_mono hrate
  have hrefill := h.accounts.refill hmono h.clock
  rw [← h.rate_eq, ← bucket_refill h.clock, h.rate_eq] at hrefill
  unfold logged
  rcases tryAcquire_count s.limiter n s.now with
    ⟨htokens, hgranted, heq⟩ | ⟨-, hgranted, heq⟩
  · rw [if_pos hgranted]
    rw [← hlimiter] at heq
    exact ⟨by rw [heq]; exact h.rate_eq, by rw [heq]; exact h.cap, by rw [heq, hnow]; exact le_rfl,
      by rw [heq]; exact hrefill.takes hmono htokens⟩
  · rw [if_neg (by rw [hgranted]; decide)]
    rw [← hlimiter] at heq
    exact ⟨by rw [heq]; exact h.rate_eq, by rw [heq]; exact h.cap, by rw [heq, hnow]; exact le_rfl,
      by rw [heq]; exact hrefill⟩

/-- **What a step is**: time that goes by, or an attempt. -/
theorem next_cases {label : UseLabel} (h : s.next label = some t) :
    (t.limiter = s.limiter ∧ s.now ≤ t.now ∧ s.asked label = none) ∨
      ∃ n, s.asked label = some n ∧ t.limiter = (s.limiter.tryAcquire n s.now).2 ∧
        t.now = s.now := by
  cases label with
  | pass ns =>
      obtain rfl := Option.some.inj h
      exact .inl ⟨rfl, Nat.le_add_right _ _, rfl⟩
  | tryAcquire n =>
      obtain rfl := Option.some.inj h
      exact .inr ⟨n, rfl, rfl, rfl⟩
  | acquire n =>
      obtain rfl := Option.some.inj h
      exact .inr ⟨n, rfl, rfl, rfl⟩
  | wake i =>
      unfold next at h
      dsimp only at h
      split at h
      · cases h
      · next time n hslept =>
          split_ifs at h
          obtain rfl := Option.some.inj h
          refine .inr ⟨n, ?_, rfl, rfl⟩
          show s.sleeping[i]?.map Prod.snd = some n
          rw [hslept]
          rfl

/-- **Every step of a schedule keeps the account.** -/
theorem Metered.step {s t : LimiterUse × List (ℕ × ℕ)} {label : UseLabel}
    (h : Metered rate burst s.1 s.2) (hrate : 0 ≤ rate)
    (hnext : ((useSystem rate burst).logged grant).next s label = some t) :
    Metered rate burst t.1 t.2 := by
  obtain ⟨hstep, hlog⟩ := System.next_logged.1 hnext
  rw [hlog]
  rcases next_cases hstep with ⟨hsame, hlater, hnone⟩ | ⟨n, hsome, hlimiter, hnow⟩
  · have hgrant : s.1.grant label = none := by rw [grant, hnone]; rfl
    rw [hgrant]
    exact ⟨hsame ▸ h.rate_eq, hsame ▸ h.cap, hsame ▸ h.clock.trans hlater, hsame ▸ h.accounts⟩
  · have hgrant : s.1.grant label =
        if (s.1.limiter.tryAcquire n s.1.now).1 then some (s.1.now, n) else none := by
      rw [grant, hsome]
      rfl
    rw [hgrant]
    exact h.attempt hrate hlimiter hnow

theorem metered_of_reachable (hrate : 0 < rate) {s : LimiterUse × List (ℕ × ℕ)}
    (h : ((useSystem rate burst).logged grant).Reachable System.anyStep s) :
    Metered rate burst s.1 s.2 :=
  h.invariant (I := fun s => Metered rate burst s.1 s.2)
    (fun _ hinit => hinit.2 ▸ metered_init hrate hinit.1)
    (fun _ _ _ hs _ hnext => hs.step hrate.le hnext)

/-- **The token bucket bound**: for every positive rate, every burst and every
schedule of calls, the tokens are within the capacity, and what is granted
from one time to another is at most the capacity and what the rate supplies
between them. -/
theorem amount_le (hrate : 0 < rate)
    (h : ((useSystem rate burst).logged grant).Reachable System.anyStep (s, log)) :
    (0 ≤ s.limiter.tokens ∧ s.limiter.tokens ≤ s.limiter.maxTokens) ∧
      ∀ a c : ℕ, a ≤ c →
        (amount a c log : ℚ) ≤ s.limiter.maxTokens + rate * (((c : ℚ) - a) / oneSecond) := by
  have hmetered := metered_of_reachable hrate h
  refine ⟨⟨hmetered.accounts.nonneg, hmetered.accounts.le_cap⟩, fun a c hac => ?_⟩
  have hwindow := hmetered.accounts.window a c hac
  have hsupply : supply rate c - supply rate a = rate * (((c : ℚ) - a) / oneSecond) := by
    unfold supply
    ring
  rw [granted_unitLog, hsupply] at hwindow
  exact hwindow

/-- Half a token a second and a burst of five, of which a call for three
leaves two: a call for four sleeps and finds them later. -/
theorem amount_le_half :
    ∃ s log, ((useSystem (1 / 2) 5).logged grant).Reachable System.anyStep (s, log) ∧
      amount 0 (5 * 10 ^ 9) log = 7 ∧
        (0 ≤ s.limiter.tokens ∧ s.limiter.tokens ≤ s.limiter.maxTokens) ∧
        ∀ a c : ℕ, a ≤ c →
          (amount a c log : ℚ) ≤ s.limiter.maxTokens + 1 / 2 * (((c : ℚ) - a) / oneSecond) := by
  obtain ⟨⟨s, log⟩, hrun, hlog⟩ := System.exists_run_of_play
    (M := (useSystem (1 / 2) 5).logged grant) (G := System.anyStep)
    (s := ({ limiter := .new (1 / 2) 5 0, now := 0 }, []))
    [.tryAcquire 3, .pass (2 * 10 ^ 9), .acquire 4, .pass (2001 * 10 ^ 6), .wake 0]
    (P := fun t => amount 0 (5 * 10 ^ 9) t.2 = 7) (by decide +kernel)
  have hreach : ((useSystem (1 / 2) 5).logged grant).Reachable System.anyStep (s, log) :=
    ⟨_, ⟨⟨rfl, rfl⟩, rfl⟩, hrun⟩
  exact ⟨s, log, hreach, hlog, amount_le (by norm_num) hreach⟩

/-! ## A caller alone -/

/-- **No call comes back** where the capacity is below a token. -/
theorem acquire_eq_none {l : RateLimiter} {sleep : ℕ → ℕ} {passes now : ℕ}
    (hcap : l.maxTokens < 1) : l.acquire 1 sleep passes now = none := by
  induction passes generalizing l sleep now with
  | zero => rfl
  | succ passes ih =>
      -- a refill is cut to the capacity
      have hless : (l.refill now).tokens < 1 := (min_le_left _ _).trans_lt hcap
      rcases tryAcquire_count l 1 now with ⟨htoken, -, -⟩ | ⟨-, hrefused, heq⟩
      · rw [Nat.cast_one] at htoken
        exact absurd htoken (not_le.2 hless)
      · unfold RateLimiter.acquire
        rw [show l.tryAcquire 1 now = (false, l.refill now) from Prod.ext hrefused heq]
        exact ih hcap

/-- **The sleep of a call** is long enough for a token, where there is room
for one. -/
theorem one_le_tokens_of_wait {l : RateLimiter} {now : ℕ} (hrate : 0 < l.rate)
    (hcap : 1 ≤ l.maxTokens) (htokens : 0 ≤ l.tokens) (hslept : l.lastRefill + l.wait ≤ now) :
    1 ≤ (l.refill now).tokens := by
  -- a millisecond is slept beyond the whole ones that a token takes
  have hwait : 1000 / l.rate * 10 ^ 6 ≤ (l.wait : ℚ) := by
    have hfloor : (⌊1000 / l.rate⌋ : ℚ) ≤ (⌊1000 / l.rate⌋.toNat : ℚ) := by
      exact_mod_cast Int.self_le_toNat ⌊1000 / l.rate⌋
    have hlt := Int.lt_floor_add_one (1000 / l.rate)
    unfold RateLimiter.wait
    push_cast
    linarith
  have helapsed : (l.wait : ℚ) ≤ ((now - l.lastRefill : ℕ) : ℚ) := by
    exact_mod_cast (show l.wait ≤ now - l.lastRefill by omega)
  have hsupplied : 1 ≤ ((now - l.lastRefill : ℕ) : ℚ) / oneSecond * l.rate := by
    calc (1 : ℚ) = 1000 / l.rate * 10 ^ 6 / oneSecond * l.rate := by
          unfold oneSecond
          push_cast
          field_simp
          norm_num
      _ ≤ ((now - l.lastRefill : ℕ) : ℚ) / oneSecond * l.rate := by
          have hle := hwait.trans helapsed
          gcongr
  show 1 ≤ min l.maxTokens (l.tokens + ((now - l.lastRefill : ℕ) : ℚ) / oneSecond * l.rate)
  exact le_min hcap (by linarith)

/-- **A call comes back in its second pass at the latest**, where there is room
for a token. -/
theorem acquire_isSome {l : RateLimiter} {sleep : ℕ → ℕ} {now : ℕ} (hrate : 0 < l.rate)
    (hcap : 1 ≤ l.maxTokens) (htokens : 0 ≤ (l.refill now).tokens) (hsleep : l.wait ≤ sleep 0) :
    (l.acquire 1 sleep 2 now).isSome = true := by
  unfold RateLimiter.acquire
  rcases tryAcquire_count l 1 now with ⟨-, hgranted, heq⟩ | ⟨-, hrefused, heq⟩
  · rw [show l.tryAcquire 1 now = (true, _) from Prod.ext hgranted heq]
    rfl
  · rw [show l.tryAcquire 1 now = (false, l.refill now) from Prod.ext hrefused heq]
    have hslept : (l.refill now).lastRefill + (l.refill now).wait ≤ now + sleep 0 :=
      Nat.add_le_add_left hsleep now
    -- the second pass finds the token that was supplied meanwhile
    have htoken := one_le_tokens_of_wait (l := l.refill now) hrate hcap htokens hslept
    dsimp only
    unfold RateLimiter.acquire
    rcases tryAcquire_count (l.refill now) 1 (now + sleep 0) with
      ⟨-, hgranted, heq⟩ | ⟨hless, -, -⟩
    · rw [show (l.refill now).tryAcquire 1 (now + sleep 0) = (true, _) from
        Prod.ext hgranted heq]
      rfl
    · rw [Nat.cast_one] at hless
      exact absurd htoken (not_le.2 hless)

/-- **When a call comes back**: with the default burst, from every reachable
state and however long its sleeps take beyond what it asks for, a call of
`acquire` for one token returns after finitely many passes, exactly where
the rate is one a second or more. -/
theorem acquire_returns_iff (hrate : 0 < rate)
    (h : (useSystem rate 0).Reachable System.anyStep s) :
    (∀ sleep : ℕ → ℕ, (∀ i, s.limiter.wait ≤ sleep i) →
      ∃ passes, (s.limiter.acquire 1 sleep passes s.now).isSome = true) ↔ 1 ≤ rate := by
  obtain ⟨s₀, hinit, hrun⟩ := h
  obtain ⟨log, hlogged⟩ : ∃ log, ((useSystem rate 0).logged grant).Run _ (s₀, []) (s, log) :=
    hrun.exists_logged []
  have hmetered : Metered rate 0 s log :=
    metered_of_reachable hrate (s := (s, log)) ⟨(s₀, []), ⟨hinit, rfl⟩, hlogged⟩
  have hcap : s.limiter.maxTokens = rate := hmetered.cap.trans (if_neg (lt_irrefl 0))
  have hrate' : 0 < s.limiter.rate := hmetered.rate_eq ▸ hrate
  constructor
  · intro hreturns
    by_contra hslow
    obtain ⟨passes, hsome⟩ := hreturns (fun _ => s.limiter.wait) fun _ => le_rfl
    rw [acquire_eq_none (hcap.trans_lt (not_le.1 hslow))] at hsome
    cases hsome
  · intro hfast sleep hsleep
    have hrefill := hmetered.accounts.refill (supply_mono hrate.le) hmetered.clock
    rw [← hmetered.rate_eq, ← bucket_refill hmetered.clock] at hrefill
    exact ⟨2, acquire_isSome hrate' (hcap.symm ▸ hfast) hrefill.nonneg (hsleep 0)⟩

theorem acquire_returns_iff_nine :
    (∀ sleep : ℕ → ℕ, (∀ i, (RateLimiter.new 9 0 0).wait ≤ sleep i) →
      ∃ passes, ((RateLimiter.new 9 0 0).acquire 1 sleep passes 0).isSome = true) ↔
        (1 : ℚ) ≤ 9 :=
  acquire_returns_iff (s := { limiter := .new 9 0 0, now := 0 }) (by norm_num)
    ⟨_, ⟨rfl, rfl⟩, .refl⟩

/-- **A request every two seconds** is none at all: the capacity is half a
token, and a caller sleeps forever. -/
theorem acquire_half_never :
    (useSystem (1 / 2) 0).Reachable System.anyStep { limiter := .new (1 / 2) 0 0, now := 0 } ∧
      ∀ passes, (RateLimiter.new (1 / 2) 0 0).acquire 1
        (fun _ => (RateLimiter.new (1 / 2) 0 0).wait) passes 0 = none :=
  ⟨⟨_, ⟨rfl, rfl⟩, .refl⟩, fun passes => acquire_eq_none (by norm_num [RateLimiter.new])⟩

end LimiterUse

end WebhookTrader
