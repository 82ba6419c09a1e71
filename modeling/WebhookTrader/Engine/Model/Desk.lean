import WebhookTrader.Engine.Model.Machine
import WebhookTrader.Shadow.Model.Spot
import WebhookTrader.Webhook.Model.Server

/-!
# What the workers share

The engine's shared state with what stands around it: the signal queue,
the table of recent fingerprints, the two shadow trackers and the spot
account. Every signal in the queue has a ticket, which the program itself
does not give out, and what its handling is going to meet.
-/

namespace WebhookTrader

/-- **Everything the program is configured with**, as far as signals are
concerned. -/
structure DeskConfig where
  engine : EngineConfig := {}
  learner : LearnerConfig := {}
  front : FrontConfig := {}
  /-- The whitelist; empty where every symbol is allowed. -/
  allowedSymbols : List String := []
  numWorkers : ℤ := 4
  /-- `std::hash` of a string. -/
  hash : String → UInt64 := fun _ => 0

namespace DeskConfig

/-- `MAX_WORKERS`. -/
def maxWorkers : ℤ := 32

/-- How many workers `start` starts. -/
def workers (cfg : DeskConfig) : ℕ := (min (max 1 cfg.numWorkers) maxWorkers).toNat

end DeskConfig

/-! ## The spot account -/

/-- `m_spot_positions` and what goes with it. -/
structure SpotAccount where
  positions : Book := ∅
  trades : List TradeRecord := []
  balance : ℚ := 1000000
  peakBalance : ℚ := 1000000

/-! ## Recent fingerprints -/

/-- `m_recent_fingerprints`: when the signal with a fingerprint was taken
up, in nanoseconds. -/
abbrev Fingerprints := Table UInt64 ℕ

namespace Fingerprints

/-- `FP_TTL_NS`. -/
def ttl : ℕ := 120 * 10 ^ 9

/-- The first rule: a table of more than a hundred loses what is too old. -/
def evict (now : ℕ) (recent : Fingerprints) : Fingerprints :=
  if 100 < recent.size then
    ((recent.entries.filter fun e => ttl < now - e.2).map Sigma.fst).foldl
      (fun t k => t.erase k) recent
  else recent

/-- The second rule applies: the table is too large all the same. -/
def overflows (now : ℕ) (recent : Fingerprints) : Bool := 50000 < (evict now recent).size

/-- The table a signal is looked up in. -/
def pruned (now : ℕ) (recent : Fingerprints) : Fingerprints :=
  if overflows now recent then ∅ else evict now recent

/-- **The duplicate check**, of a fingerprint taken up at a time: whether
it passes, and the table after it. -/
def admits (now : ℕ) (fp : UInt64) (recent : Fingerprints) : Bool × Fingerprints :=
  if ((pruned now recent).lookup fp).isSome then (false, pruned now recent)
  else (true, (pruned now recent).insert fp now)

end Fingerprints

namespace WebhookSignal

/-- `hash_combine`. -/
def hashCombine (h v : UInt64) : UInt64 :=
  h ^^^ (v + (0x9e3779b9 : UInt64) + (h <<< (6 : UInt64)) + (h >>> (2 : UInt64)))

/-- **`fingerprint`**, with the library's hash of strings; its hash of an
integer is the integer. -/
def fingerprint (hash : String → UInt64) (sig : WebhookSignal) : UInt64 :=
  let h := hashCombine 0 (hash sig.symbol)
  let h := hashCombine h (hash sig.alert)
  let h := hashCombine h (UInt64.ofInt sig.unixTime)
  hashCombine h (hash sig.timeframe)

/-- `parse_timeframe_minutes`: zero where the text is no timeframe. -/
def parseTimeframeMinutes (tf : String) : ℤ :=
  if tf = "" then 0
  else
    match minutes tf with
    | .error _ => 0
    | .ok m => m

/-- The age in milliseconds up to which a signal of a timeframe is taken
up. -/
def maxAgeMs (tf : String) : ℕ :=
  let m := parseTimeframeMinutes tf
  if m ≤ 1 then 10000 else if m ≤ 5 then 30000 else if m ≤ 15 then 60000 else 120000

/-- The age of a signal at a time, both in nanoseconds. -/
def ageMs (now : ℕ) (sig : WebhookSignal) : ℕ := (now - sig.receivedAt) / 10 ^ 6

/-- **The signal is too old** at a time. -/
def isStale (now : ℕ) (sig : WebhookSignal) : Bool := maxAgeMs sig.timeframe < sig.ageMs now

end WebhookSignal

/-! ## The desk -/

/-- **A signal in the queue.** -/
structure Queued where
  ticket : ℕ
  sig : WebhookSignal
  rd : Readings

/-- **What the workers share.** -/
structure Desk where
  engine : Shared
  queue : List Queued := []
  /-- The next ticket. -/
  tickets : ℕ := 0
  recent : Fingerprints := ∅
  /-- The daily reset is done, and the table not yet cleared. -/
  clearDue : Bool := false
  shadow : ShadowTracker := {}
  spotShadow : SpotShadowTracker := {}
  spot : SpotAccount := {}
  /-- The clock of `now_ns`. -/
  now : ℕ := 0
  running : Bool := true

namespace Desk

/-- `on_signal`: the signal gets its ticket, and a full queue drops it. -/
def onSignal (sig : WebhookSignal) (rd : Readings) (d : Desk) : Desk :=
  { d with
    queue := (tryPush queueCapacity d.queue ⟨d.tickets, sig, rd⟩).2
    tickets := d.tickets + 1 }

end Desk

/-! ## What happens beside the workers -/

/-- What `handle_request` answers, and the signal it hands to `on_signal`. -/
def Server.answer (cfg : FrontConfig) (parse : Text → Option Json) (now : ℕ) (withinRate : Bool)
    (req : Request) : Except Exception (Response × Option WebhookSignal) :=
  (fun r => (r.1, r.2.head?)) <$> handleRequest cfg parse now withinRate [] req

/-- **A request on a queue** is its answer and a push. -/
theorem Server.handleRequest_eq (cfg : FrontConfig) (parse : Text → Option Json) (now : ℕ)
    (withinRate : Bool) (queue : List WebhookSignal) (req : Request) :
    handleRequest cfg parse now withinRate queue req =
      (fun r => (r.1, (r.2.map fun sig => (tryPush queueCapacity queue sig).2).getD queue)) <$>
        answer cfg parse now withinRate req := by
  unfold answer handleRequest
  split_ifs
  · rfl
  · rfl
  · rfl
  · split
    · rfl
    · rfl
    · split_ifs <;> rfl

/-- The daily reset. -/
def Event.isReset : Event → Bool
  | resetDaily => true
  | _ => false

inductive DeskEvent
  /-- A request arrives, with the rate limiter's answer. -/
  | request (withinRate : Bool) (req : Request) (rd : Readings)
  /-- The engine's own events. -/
  | engine (e : Event)
  /-- The daily reset goes on to the fingerprints. -/
  | clearRecent
  /-- `handle_entry` tells the tracker of an entry that passed every
  filter. -/
  | markLive (key : String)
  | tick (ns : ℕ)
  | stop

namespace DeskEvent

variable (cfg : DeskConfig) (parse : Text → Option Json)

/-- **The effect of an event.** -/
def apply : DeskEvent → Desk → Option Desk
  | request withinRate req rd, d =>
      match Server.answer cfg.front parse d.now withinRate req with
      | .ok (_, some sig) => some (d.onSignal sig rd)
      | _ => some d
  | engine e, d =>
      (e.apply cfg.engine d.engine).map fun engine =>
        { d with engine, clearDue := d.clearDue || e.isReset }
  | clearRecent, d => if d.clearDue then some { d with recent := ∅, clearDue := false } else none
  | markLive key, d => some { d with shadow := d.shadow.markLiveEquivalent key }
  | tick ns, d => some { d with now := d.now + ns }
  | stop, d => some { d with running := false }

end DeskEvent

end WebhookTrader
