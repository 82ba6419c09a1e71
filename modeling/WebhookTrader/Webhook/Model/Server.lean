import WebhookTrader.Webhook.Model.Parser
import WebhookTrader.Common.Run
import WebhookTrader.Engine.Model.Modes

/-!
# The webhook server and the signal queue

What `main` refuses to start with, what `handle_request` answers and
queues, and the system these form with the periodic switch of the modes:
requests arrive, workers pop, and the periodic thread takes its steps, in
any order.
-/

namespace WebhookTrader

/-! ## Requests and responses -/

inductive Verb
  | get
  | post
  | other
  deriving DecidableEq, Repr

structure Request where
  method : Verb
  target : String
  body : Text
  deriving DecidableEq

inductive Status
  | ok
  | badRequest
  | unauthorized
  | notFound
  | tooManyRequests
  deriving DecidableEq, Repr

structure Response where
  status : Status
  body : String
  deriving DecidableEq, Repr

/-- What the server, the queue and the switch are configured with. -/
structure FrontConfig where
  /-- `WebhookConfig::auth_token`. -/
  authToken : String := ""
  shadowMode : Bool := false
  autoLive : Bool := true
  readiness : ReadinessConfig := {}
  deriving DecidableEq, Repr

namespace FrontConfig

/-- The token is configured, and is not the one the template ships. -/
def properToken (cfg : FrontConfig) : Bool := cfg.authToken ≠ "" && cfg.authToken ≠ "CHANGE_ME"

/-- `main`'s check: without a proper token it starts in shadow mode only. -/
def starts (cfg : FrontConfig) : Bool := cfg.properToken || cfg.shadowMode

end FrontConfig

/-! ## The queue -/

/-- The queue's capacity. -/
def queueCapacity : ℕ := 8192

/-- `try_push`: whether the item fitted, and the queue after it. -/
def tryPush {α : Type} (capacity : ℕ) (queue : List α) (item : α) : Bool × List α :=
  if capacity ≤ queue.length then (false, queue) else (true, queue ++ [item])

/-! ## One request -/

namespace Server

/-- `constant_time_eq`: unequal lengths at once, else every byte. -/
def constantTimeEq (a b : String) : Bool := a.length = b.length && a.toList = b.toList

theorem constantTimeEq_iff {a b : String} : constantTimeEq a b = true ↔ a = b := by
  constructor
  · intro h
    rw [constantTimeEq, Bool.and_eq_true, decide_eq_true_eq, decide_eq_true_eq] at h
    exact String.toList_injective h.2
  · rintro rfl
    simp [constantTimeEq]

/-- **`handle_request`**: the response, and the queue after it. The rate
limiter's answer is given. An exception of the parser is not caught. -/
def handleRequest (cfg : FrontConfig) (parse : Text → Option Json) (now : ℕ) (withinRate : Bool)
    (queue : List WebhookSignal) (req : Request) :
    Except Exception (Response × List WebhookSignal) :=
  if req.method = .get ∧ req.target = "/health" then
    .ok (⟨.ok, "\x7b\x22status\x22:\x22ok\x22\x7d"⟩, queue)
  else if req.method ≠ .post ∨ req.target ≠ "/webhook" then
    .ok (⟨.notFound, "\x7b\x22error\x22:\x22not found\x22\x7d"⟩, queue)
  else if withinRate = false then
    .ok (⟨.tooManyRequests, "\x7b\x22error\x22:\x22rate limited\x22\x7d"⟩, queue)
  else
    match WebhookSignal.fromJson parse now req.body with
    | .error e => .error e
    | .ok none => .ok (⟨.badRequest, "\x7b\x22error\x22:\x22invalid json\x22\x7d"⟩, queue)
    | .ok (some sig) =>
        if cfg.authToken ≠ "" ∧ constantTimeEq sig.token cfg.authToken = false then
          .ok (⟨.unauthorized, "\x7b\x22error\x22:\x22unauthorized\x22\x7d"⟩, queue)
        else if sig.isValid = false then
          .ok (⟨.badRequest, "\x7b\x22error\x22:\x22invalid signal\x22\x7d"⟩, queue)
        else
          -- a full queue drops the signal and the request is accepted all the same
          .ok (⟨.ok, "\x7b\x22status\x22:\x22accepted\x22\x7d"⟩,
            (tryPush queueCapacity queue sig).2)

end Server

/-! ## The system of requests, workers and switch -/

/-- **The state of the program's front**, with the requests received so
far. -/
structure Front where
  modes : Modes
  periodic : Periodic := .idle
  queue : List WebhookSignal := []
  received : List Request := []
  deriving DecidableEq

inductive Front.Label
  /-- A request arrives, at a time and with the rate limiter's answer. -/
  | request (now : ℕ) (withinRate : Bool) (req : Request)
  /-- A worker takes the next signal. -/
  | pop
  /-- A periodic check begins on some shadow reports. -/
  | check (reports : Reports)
  /-- The periodic thread's next read or write. -/
  | periodic

/-- The front's step under a label. -/
def Front.next (cfg : FrontConfig) (parse : Text → Option Json) (s : Front) :
    Front.Label → Option Front
  | .request now withinRate req =>
      match Server.handleRequest cfg parse now withinRate s.queue req with
      | .ok (_, queue) => some { s with queue, received := req :: s.received }
      -- the exception leaves the thread before anything is queued
      | .error _ => some { s with received := req :: s.received }
  | .pop =>
      match s.queue with
      | [] => none
      | _ :: queue => some { s with queue }
  | .check reports =>
      if s.periodic = .idle ∧ cfg.autoLive then
        some { s with periodic := Periodic.begin cfg.readiness reports }
      else none
  | .periodic => (s.periodic.step s.modes).map fun (periodic, modes) => { s with periodic, modes }

/-- **The front as a system**, from every configuration `main` starts
with. -/
def frontSystem (cfg : FrontConfig) (parse : Text → Option Json) : System Front Front.Label where
  init s := cfg.starts = true ∧ s = { modes := Modes.start cfg.shadowMode }
  next := Front.next cfg parse

end WebhookTrader
