import WebhookTrader.Engine.Model.Desk

/-!
# The workers

`worker_loop` and `process_signal` as one machine: a worker takes a signal
from the queue, lets both trackers follow it, drops it where it is too
old, a duplicate, invalid or not on the whitelist, and else runs its
handler. The spot handlers are machines of their own; the others are the
engine's. The daily reset and the sync, which the first worker does in
between, are events.
-/

namespace WebhookTrader

/-! ## Spot handlers -/

namespace SpotAccount

/-- A position that a signal's exit may sell. -/
def sells (sig : WebhookSignal) (p : ManagedPosition) : Bool :=
  p.symbol = sig.symbol && p.exchange = sig.exchange && p.marketType = "spot" && p.side = "long"

/-- A sale: the trade, the proceeds, and the book after it. -/
def sell (sig : WebhookSignal) (pos : ManagedPosition) (exitReason : String)
    (exitPrice closeQty : ℚ) (positions : Book) (acc : SpotAccount) : SpotAccount :=
  let fee := exitPrice * closeQty * (1 / 1000)
  let tr : TradeRecord :=
    { symbol := pos.symbol
      timeframe := pos.timeframe
      exitReason
      entryPrice := pos.entryPrice
      exitPrice
      quantity := closeQty
      pnl := (exitPrice - pos.entryPrice) * closeQty - fee
      fee
      strategy := pos.strategy
      exchange := sig.exchange
      marketType := "spot" }
  { positions
    trades := acc.trades ++ [tr]
    balance := acc.balance + exitPrice * closeQty
    peakBalance := max acc.peakBalance (acc.balance + exitPrice * closeQty) }

/-- `handle_spot_tp`, under the lock: a share of the position. -/
def handleTp (sig : WebhookSignal) (acc : SpotAccount) : SpotAccount :=
  match acc.positions.findValue (sells sig) with
  | none => acc
  | some (key, pos) =>
      let closeRatio : ℚ :=
        if sig.tpLevel = "TP1" then 33 / 100 else if sig.tpLevel = "TP2" then 1 / 2 else 1
      let closeQty := pos.quantity * closeRatio
      acc.sell sig pos ("SPOT_" ++ sig.tpLevel)
        (if 0 < sig.price then sig.price else pos.entryPrice) closeQty
        (if sig.tpLevel = "TP3" ∨ 99 / 100 ≤ closeRatio ∨ pos.quantity - closeQty ≤ 0 then
          acc.positions.erase key
        else acc.positions.modify key fun p => { p with quantity := p.quantity - closeQty })

/-- `handle_spot_sl`, under the lock: all of the position. -/
def handleSl (sig : WebhookSignal) (acc : SpotAccount) : SpotAccount :=
  match acc.positions.findValue (sells sig) with
  | none => acc
  | some (key, pos) =>
      acc.sell sig pos "SPOT_SL"
        (if 0 < sig.price then sig.price
        else if 0 < pos.slPrice then pos.slPrice else pos.entryPrice)
        pos.quantity (acc.positions.erase key)

/-- What a buy costs, in won. -/
def tradeKrw : ℚ := 5000

/-- The quantity of a buy. -/
def buyQty (sig : WebhookSignal) : ℚ := if 0 < sig.price then tradeKrw / sig.price else 0

def timeframe (sig : WebhookSignal) : String :=
  if sig.timeframe = "" then "unknown" else sig.timeframe

/-- `handle_spot_entry`, under the locks: nothing where the symbol is held
on the exchange. -/
def handleEntry (sig : WebhookSignal) (oid : ℕ) (system : ℕ) (acc : SpotAccount) : SpotAccount :=
  if acc.positions.entries.any fun e =>
      e.2.symbol = sig.symbol && e.2.exchange = sig.exchange && e.2.side = "long" then acc
  else
    { acc with
      positions := acc.positions.insert (.entry sig.symbol (timeframe sig) oid)
        { symbol := sig.symbol
          timeframe := timeframe sig
          side := "long"
          entryPrice := sig.price
          quantity := buyQty sig
          leverage := 1
          slPrice := if sig.hasSl then sig.sl else 0
          tp1Price := if sig.hasTp1 then sig.tp1 else 0
          tier := "C"
          strategy := sig.strategyName
          openedAt := system
          exchange := sig.exchange
          marketType := "spot" }
      balance := acc.balance - tradeKrw }

end SpotAccount

inductive SpotPc
  | lock
  | grade
  | takeOid
  | book
  | unlock
  | finished
  deriving DecidableEq, Repr

/-- **A run of a spot handler.** -/
structure SpotJob where
  pc : SpotPc := .lock
  sig : WebhookSignal
  rd : Readings
  oid : ℕ := 0

namespace SpotJob

def goto (j : SpotJob) (pc : SpotPc) : SpotJob := { j with pc }

/-- The signal asks for a position. -/
def enters (j : SpotJob) : Bool := j.sig.sigType = .entry || j.sig.sigType = .reEntry

/-- An entry that is given up before the lock: a sell, or no won pair. -/
def refused (j : SpotJob) : Bool :=
  j.enters && (j.sig.action = "sell" || spotQuoteCurrency j.sig.symbol ≠ "KRW")

/-- The grade the tracker has given the symbol blocks the entry. -/
def gradeBlocks (j : SpotJob) (d : Desk) : Bool :=
  let grade := d.spotShadow.getGrade
    (VirtualPosition.makeKey j.sig.symbol (SpotAccount.timeframe j.sig) j.sig.exchange)
  grade = "F" || grade = "D"

/-- The section under the account's mutex. -/
def account (j : SpotJob) (d : Desk) : SpotAccount :=
  match j.sig.sigType with
  | .entry | .reEntry => d.spot.handleEntry j.sig j.oid d.engine.clock.system
  | .tp => d.spot.handleTp j.sig
  | .sl => d.spot.handleSl j.sig
  | .unknown => d.spot

/-- **One step of a spot handler.** -/
def step (j : SpotJob) (d : Desk) : Option (SpotJob × Desk) :=
  match j.pc with
  | .lock =>
      if j.refused then some (j.goto .finished, d)
      else if d.engine.locked.contains j.sig.symbol then
        if j.rd.timedOut then some (j.goto .finished, d) else none
      else
        some (j.goto (if j.enters then .grade else .book),
          { d with engine := { d.engine with locked := j.sig.symbol :: d.engine.locked } })
  | .grade =>
      some (j.goto (if j.gradeBlocks d || SpotAccount.buyQty j.sig ≤ 0 then .unlock else .takeOid),
        d)
  | .takeOid =>
      some ({ j with pc := .book, oid := d.engine.nextOid },
        { d with engine := { d.engine with nextOid := d.engine.nextOid + 1 } })
  | .book => some (j.goto .unlock, { d with spot := j.account d })
  | .unlock =>
      some (j.goto .finished,
        { d with engine := { d.engine with locked := d.engine.locked.erase j.sig.symbol } })
  | .finished => none

end SpotJob

/-! ## A worker -/

/-- **Where a worker is**; from the queue on with its signal, and from the
first reading of the clock on with the time it read. -/
inductive Worker
  /-- Before the test whether the engine runs. -/
  | idle
  /-- In `wait_pop`. -/
  | waiting
  | stamp (q : Queued)
  | shadow (q : Queued) (now : ℕ)
  | spotShadow (q : Queued) (now : ℕ)
  | check (q : Queued) (now : ℕ)
  | futures (ticket : ℕ) (job : Job)
  | spot (ticket : ℕ) (job : SpotJob)
  /-- `close_all_positions`, on a thread of its own. -/
  | closeAll (job : CloseAllJob)
  | stopped

namespace Worker

/-- The whitelist, of a futures signal. -/
def isUnlisted (cfg : DeskConfig) (sig : WebhookSignal) : Bool :=
  sig.marketType ≠ "spot" && !cfg.allowedSymbols.isEmpty &&
    !cfg.allowedSymbols.contains sig.symbol

/-- Where a signal goes that is neither old nor a duplicate. -/
def route (cfg : DeskConfig) (q : Queued) : Worker :=
  if q.sig.isValid = false then idle
  else if isUnlisted cfg q.sig then idle
  else if q.sig.marketType = "spot" then spot q.ticket { sig := q.sig, rd := q.rd }
  else
    match q.sig.sigType with
    | .entry | .reEntry => futures q.ticket (.entry { sig := q.sig, rd := q.rd })
    | .tp => futures q.ticket (.tp { sig := q.sig, rd := q.rd })
    | .sl => futures q.ticket (.sl { sig := q.sig, rd := q.rd })
    | .unknown => idle

/-- **One step of a worker.** -/
def step (cfg : DeskConfig) : Worker → Desk → Option (Worker × Desk)
  | idle, d => some (if d.running then waiting else stopped, d)
  | waiting, d =>
      match d.queue with
      -- the wait has run out, or the queue is shut down
      | [] => some (idle, d)
      | q :: queue => some (stamp q, { d with queue })
  | stamp q, d => some (shadow q d.now, d)
  | shadow q now, d =>
      some (spotShadow q now,
        { d with shadow := d.shadow.track cfg.learner d.engine.clock.system q.sig })
  | spotShadow q now, d =>
      some (check q now,
        { d with spotShadow := d.spotShadow.track d.engine.clock.system q.sig })
  | check q now, d =>
      if q.sig.isStale now then some (idle, d)
      else
        let answer := d.recent.admits now (q.sig.fingerprint cfg.hash)
        some (if answer.1 then route cfg q else idle, { d with recent := answer.2 })
  | futures ticket job, d =>
      if job.finished then some (idle, d)
      else (job.step cfg.engine d.engine).map fun r => (futures ticket r.1, { d with engine := r.2 })
  | spot ticket job, d =>
      if job.pc = .finished then some (idle, d)
      else (job.step d).map fun r => (spot ticket r.1, r.2)
  | closeAll job, d =>
      (job.step cfg.engine d.engine).map fun r => (closeAll r.1, { d with engine := r.2 })
  | stopped, _ => none

/-- What may be started beside the workers. -/
def canStart : Worker → Bool
  | closeAll job => job.pc = .snapshot
  | _ => false

end Worker

/-- **The program's signals and workers.** -/
abbrev Floor := Threads Desk Worker

abbrev FloorLabel := Threads.Label Worker DeskEvent

/-- What `start` leaves behind; the trackers and the spot account are
whatever was restored. -/
structure Desk.Started (cfg : DeskConfig) (d : Desk) : Prop where
  engine : d.engine.Started cfg.engine
  queue : d.queue = []
  tickets : d.tickets = 0
  recent : d.recent = ∅
  clearDue : d.clearDue = false
  running : d.running = true

/-- **The workers as a system**, as many as `start` starts. -/
def floorSystem (cfg : DeskConfig) (parse : Text → Option Json) : System Floor FloorLabel where
  init s := s.jobs = List.replicate cfg.workers .idle ∧ s.shared.Started cfg
  next := Threads.next Worker.canStart (Worker.step cfg) (DeskEvent.apply cfg parse)

end WebhookTrader
