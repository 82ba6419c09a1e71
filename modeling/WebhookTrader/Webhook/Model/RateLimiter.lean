import WebhookTrader.Common.Table
import WebhookTrader.Core.Model.RateLimiter

/-!
# The rate limiter of the webhook

`WebhookRateLimiter`: for each address the times of the calls that were
allowed, which are cut to the last minute when the address calls again.
Every hundredth allowed call goes through all addresses and takes out
those that have no times. The clock is the steady one, in nanoseconds.
-/

namespace WebhookTrader

structure WebhookRateLimiter where
  requests : Table String (List ℤ) := ∅
  maxPerMinute : ℕ := 600
  checkCount : ℕ := 0

/-- A call of `check`: when, and for which address. -/
structure CheckCall where
  time : ℤ
  ip : String
  deriving DecidableEq, Repr

namespace WebhookRateLimiter

/-- Where the minute before a time begins. -/
def cutoff (now : ℤ) : ℤ := now - 60 * oneSecond

/-- `m_requests[ip]`. -/
def timestamps (ip : String) (l : WebhookRateLimiter) : List ℤ := (l.requests.lookup ip).getD []

/-- Take out the addresses without times. -/
def cleanup (l : WebhookRateLimiter) : WebhookRateLimiter :=
  { l with requests := l.requests.keep fun timestamps => !timestamps.isEmpty }

/-- **`check`**: whether the call is allowed, and the limiter after it. -/
def check (ip : String) (now : ℤ) (l : WebhookRateLimiter) : Bool × WebhookRateLimiter :=
  let timestamps := (l.timestamps ip).dropWhile fun t => t < cutoff now
  if l.maxPerMinute ≤ timestamps.length then
    (false, { l with requests := l.requests.insert ip timestamps })
  else
    let checkCount := (l.checkCount + 1) % 2 ^ 64
    let l := { l with requests := l.requests.insert ip (timestamps ++ [now]), checkCount }
    (true, if checkCount % 100 = 0 then l.cleanup else l)

/-! ## Sequences of calls -/

/-- A limiter that nobody has called, with a count from which it goes on. -/
def fresh (maxPerMinute checkCount : ℕ) : WebhookRateLimiter := { maxPerMinute, checkCount }

/-- The limiter after some calls. -/
def after (calls : List CheckCall) (l : WebhookRateLimiter) : WebhookRateLimiter :=
  calls.foldl (fun l c => (l.check c.ip c.time).2) l

/-- Whether a call is allowed. -/
def allows (l : WebhookRateLimiter) (c : CheckCall) : Bool := (l.check c.ip c.time).1

/-- The calls that are allowed. -/
def allowed (l : WebhookRateLimiter) : List CheckCall → List CheckCall
  | [] => []
  | c :: calls =>
      let later := allowed (l.check c.ip c.time).2 calls
      if l.allows c then c :: later else later

/-- Whether a call is one that cleans up: it is allowed, and its number is a
multiple of a hundred. -/
def cleansUp (l : WebhookRateLimiter) (c : CheckCall) : Bool :=
  l.allows c && (l.checkCount + 1) % 2 ^ 64 % 100 = 0

end WebhookRateLimiter

end WebhookTrader
