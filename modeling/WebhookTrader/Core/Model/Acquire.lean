import WebhookTrader.Core.Model.RateLimiter

/-!
# Calls for several tokens

`acquire` and `try_acquire` with the number of tokens they ask for, of a
limiter with any burst: the schedules of such calls by any number of
callers, and the loop of `acquire` as one caller goes through it alone.
-/

namespace WebhookTrader

/-- **`acquire`** of a single caller, followed for some passes of its loop:
when it has returned, and the limiter then. How long each sleep takes is
not its own choice. -/
def RateLimiter.acquire (n : ℕ) (sleep : ℕ → ℕ) : ℕ → ℕ → RateLimiter → Option (ℕ × RateLimiter)
  | 0, _, _ => none
  | passes + 1, now, l =>
      match l.tryAcquire n now with
      | (true, l) => some (now, l)
      | (false, l) => acquire n (fun i => sleep (i + 1)) passes (now + sleep 0) l

/-! ## Schedules -/

/-- **A limiter with the calls of it** for any numbers of tokens. -/
structure LimiterUse where
  limiter : RateLimiter
  /-- The steady clock. -/
  now : ℕ
  /-- The calls of `acquire` that sleep: when they may go on, and for how
  many tokens. -/
  sleeping : List (ℕ × ℕ) := []

inductive UseLabel
  /-- Time goes by. -/
  | pass (ns : ℕ)
  | tryAcquire (n : ℕ)
  | acquire (n : ℕ)
  /-- A call that has slept tries again. -/
  | wake (i : ℕ)
  deriving DecidableEq, Repr

namespace LimiterUse

/-- A pass through the loop of `acquire`, which sleeps where the tokens do
not suffice. -/
def attempt (n : ℕ) (s : LimiterUse) : LimiterUse :=
  let (granted, limiter) := s.limiter.tryAcquire n s.now
  { s with
    limiter
    sleeping := if granted then s.sleeping else (s.now + limiter.wait, n) :: s.sleeping }

def next (s : LimiterUse) : UseLabel → Option LimiterUse
  | .pass ns => some { s with now := s.now + ns }
  | .tryAcquire n => some { s with limiter := (s.limiter.tryAcquire n s.now).2 }
  | .acquire n => some (s.attempt n)
  | .wake i =>
      match s.sleeping[i]? with
      | none => none
      | some (time, n) =>
          if time ≤ s.now then some ({ s with sleeping := s.sleeping.eraseIdx i }.attempt n)
          else none

/-- How many tokens a step asks for. -/
def asked (s : LimiterUse) : UseLabel → Option ℕ
  | .pass _ => none
  | .tryAcquire n => some n
  | .acquire n => some n
  | .wake i => s.sleeping[i]?.map Prod.snd

/-- A grant: its time and its number of tokens. -/
def grant (s : LimiterUse) (label : UseLabel) : Option (ℕ × ℕ) :=
  (s.asked label).bind fun n =>
    if (s.limiter.tryAcquire n s.now).1 then some (s.now, n) else none

end LimiterUse

/-- **Schedules of calls** of a limiter with a rate and a burst. -/
def useSystem (rate burst : ℚ) : System LimiterUse UseLabel where
  init s := s.limiter = .new rate burst s.now ∧ s.sleeping = []
  next := LimiterUse.next

end WebhookTrader
