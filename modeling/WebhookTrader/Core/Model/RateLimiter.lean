import Mathlib.Data.Rat.Floor
import WebhookTrader.Common.Run

/-!
# The rate limiter

`RateLimiter`: a token bucket that every call first refills by the time
that has gone by. Its times are the steady clock's, in nanoseconds, read
under the mutex. A call of `acquire` that finds no token sleeps for the
time of about one token and tries again, so that a schedule of calls is a
run of the attempts they make.
-/

namespace WebhookTrader

/-- Nanoseconds in a second. -/
def oneSecond : ℕ := 10 ^ 9

structure RateLimiter where
  rate : ℚ
  maxTokens : ℚ
  tokens : ℚ
  lastRefill : ℕ
  deriving DecidableEq, Repr

namespace RateLimiter

/-- The constructor. -/
def new (rate : ℚ) (burst : ℚ) (now : ℕ) : RateLimiter where
  rate
  maxTokens := if 0 < burst then burst else rate
  tokens := if 0 < burst then burst else rate
  lastRefill := now

/-- `refill`. -/
def refill (now : ℕ) (l : RateLimiter) : RateLimiter :=
  let elapsed : ℚ := (now - l.lastRefill : ℕ) / oneSecond
  { l with
    tokens := min l.maxTokens (l.tokens + elapsed * l.rate)
    lastRefill := now }

/-- **`try_acquire`**, which is also one pass through the loop of
`acquire`. -/
def tryAcquire (n now : ℕ) (l : RateLimiter) : Bool × RateLimiter :=
  let l := l.refill now
  if n ≤ l.tokens then (true, { l with tokens := l.tokens - n }) else (false, l)

/-- How long `acquire` sleeps, in nanoseconds. -/
def wait (l : RateLimiter) : ℕ := (⌊1000 / l.rate⌋.toNat + 1) * 10 ^ 6

end RateLimiter

/-! ## Schedules of calls -/

/-- **A limiter with the calls of it.** -/
structure LimiterCalls where
  limiter : RateLimiter
  /-- The steady clock. -/
  now : ℕ
  /-- When the calls of `acquire` that sleep may go on. -/
  sleeping : List ℕ := []

inductive LimiterLabel
  /-- Time goes by. -/
  | pass (ns : ℕ)
  | tryAcquire
  | acquire
  /-- A call that has slept tries again. -/
  | wake (i : ℕ)
  deriving DecidableEq, Repr

namespace LimiterCalls

/-- A call of `acquire` tries, and sleeps where it has got no token. -/
def attempt (s : LimiterCalls) : LimiterCalls :=
  let (granted, limiter) := s.limiter.tryAcquire 1 s.now
  { s with
    limiter
    sleeping := if granted then s.sleeping else (s.now + limiter.wait) :: s.sleeping }

def next (s : LimiterCalls) : LimiterLabel → Option LimiterCalls
  | .pass ns => some { s with now := s.now + ns }
  | .tryAcquire => some { s with limiter := (s.limiter.tryAcquire 1 s.now).2 }
  | .acquire => some s.attempt
  | .wake i =>
      match s.sleeping[i]? with
      | none => none
      | some time =>
          if time ≤ s.now then some { s with sleeping := s.sleeping.eraseIdx i }.attempt else none

/-- The time of a grant. -/
def grant (s : LimiterCalls) : LimiterLabel → Option ℕ
  | .pass _ => none
  | _ => if (s.limiter.tryAcquire 1 s.now).1 then some s.now else none

end LimiterCalls

/-- **Schedules of calls for one token**, of a limiter with the default
burst. -/
def limiterSystem (rate : ℚ) : System LimiterCalls LimiterLabel where
  init s := s.limiter = .new rate 0 s.now ∧ s.sleeping = []
  next := LimiterCalls.next

end WebhookTrader
