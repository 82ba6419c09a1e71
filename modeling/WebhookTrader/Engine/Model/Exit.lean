import WebhookTrader.Engine.Model.Entry

/-!
# Closing positions

`handle_tp` and `handle_sl` are one machine: find the position under the
symbol lock, close a paper position in the book alone, and close a real
one on the exchange first, in up to three rounds of two HTTP attempts.
They differ in what they ask of the exchange, in which answers count as a
close, and in what the close does to the book. `close_all_positions` and
the WebSocket callbacks take no symbol lock.
-/

namespace WebhookTrader

/-! ## Take-profits and stop-losses -/

inductive ClosePc
  | lock
  | find
  | isReal
  | paper
  /-- Before an HTTP attempt: the round, and the transport's retry. -/
  | request (round : ℕ) (second : Bool)
  | settle
  | unlock
  | finished
  deriving DecidableEq, Repr

/-- **A run of `handle_tp` or `handle_sl`**, with the position it found. -/
structure CloseJob where
  pc : ClosePc := .lock
  sig : WebhookSignal
  rd : Readings
  key : PositionKey := .ext "" ""
  /-- The position's quantity when it was found. -/
  quantity : ℚ := 0
  sent : ℕ := 0

namespace CloseJob

/-- The side a closing signal closes: a bullish one closes a long. -/
def holdSide (j : CloseJob) : String := if j.sig.signalDirection = "bull" then "long" else "short"

def goto (j : CloseJob) (pc : ClosePc) : CloseJob := { j with pc }

end CloseJob

/-- **What tells the two handlers apart.** -/
structure Closing where
  request : CloseJob → VenueRequest
  /-- The answer counts as a close. -/
  succeeded : Json → Bool
  /-- The trade that is recorded, from the position as it stands then. -/
  trade : CloseJob → ManagedPosition → TradeRecord
  /-- The quantity that goes from the book, or all of it. -/
  reduces : CloseJob → Option ℚ

namespace CloseJob

/-- Record the close and take it off the book, where the position is still
there. -/
def settle (c : Closing) (j : CloseJob) (s : Shared) : Shared :=
  match s.positions.lookup j.key with
  -- the exchange's own close may have come first
  | none => s
  | some pos =>
      { s.recordTrade (c.trade j pos) with
        positions :=
          match c.reduces j with
          | some amount => s.positions.reduceQuantity j.key amount
          | none => s.positions.erase j.key }

/-- Where a round that brought no close leads. -/
def nextRound (round : ℕ) : ClosePc := if round + 1 < 3 then .request (round + 1) false else .unlock

/-- Where an HTTP attempt leads. -/
def afterAttempt (c : Closing) (round : ℕ) (second : Bool) : Option Json → ClosePc
  | some answer => if c.succeeded answer then .settle else nextRound round
  | none =>
      if second then if c.succeeded connectionError then .settle else nextRound round
      else .request round true

/-- **One step of a closing handler.** -/
def step (cfg : EngineConfig) (c : Closing) (j : CloseJob) (s : Shared) :
    Option (CloseJob × Shared) :=
  match j.pc with
  | .lock =>
      if s.locked.contains j.sig.symbol then
        if j.rd.timedOut then some (j.goto .finished, s) else none
      else some (j.goto .find, { s with locked := j.sig.symbol :: s.locked })
  | .find =>
      match s.positions.findBySymbolSide j.sig.symbol j.holdSide with
      | none => some (j.goto .unlock, s)
      | some (key, pos) => some ({ j with pc := .isReal, key, quantity := pos.quantity }, s)
  | .isReal =>
      -- a position that is gone by now counts as paper
      let real := (s.positions.lookup j.key).any (·.isReal)
      some (j.goto (if real then .request 0 false else .paper), s)
  | .paper => some (j.goto .unlock, j.settle c s)
  | .request round second =>
      let answer := s.venue.attempt cfg.duplicateCode (j.rd.attempts j.sent) (c.request j)
      some ({ j with pc := afterAttempt c round second answer.1, sent := j.sent + 1 },
        { s with venue := answer.2 })
  | .settle => some (j.goto .unlock, j.settle c s)
  | .unlock => some (j.goto .finished, { s with locked := s.locked.erase j.sig.symbol })
  | .finished => none

/-! ### The two handlers -/

/-- The share of the holding a take-profit level closes. -/
def closeRatio (tpLevel : String) : ℚ :=
  if tpLevel = "TP1" then 33 / 100 else if tpLevel = "TP2" then 1 / 2 else 1

def closeQty (j : CloseJob) : ℚ := j.quantity * closeRatio j.sig.tpLevel

/-- The level closes the whole holding. -/
def isFullClose (j : CloseJob) : Bool :=
  j.sig.tpLevel = "TP3" || 99 / 100 ≤ closeRatio j.sig.tpLevel

end CloseJob

/-- `handle_tp`: a partial close at the level's share, at the signal's price
or else the entry price. -/
def handleTp (cfg : EngineConfig) : Closing where
  request j := .order (closePartial cfg.contracts j.sig.symbol j.closeQty j.holdSide)
  succeeded answer := (OrderResponse.parse answer).status = .new
  trade j pos :=
    TradeRecord.ofClose pos (if 0 < j.sig.price then j.sig.price else pos.entryPrice)
      (if j.isFullClose then j.sig.tpLevel else j.sig.tpLevel ++ "_PARTIAL") j.closeQty
  reduces j := if j.isFullClose then none else some j.closeQty

/-- `handle_sl`: the whole position, at the signal's price or else the
stop-loss. -/
def handleSl : Closing where
  request j := .closePositions j.sig.symbol j.holdSide
  succeeded := flashCloseSucceeded
  trade j pos :=
    TradeRecord.ofClose pos (if 0 < j.sig.price then j.sig.price else pos.slPrice) "SL" 0
  reduces _ := none

/-! ## Closing everything -/

/-- Where `close_all_positions` is; the list holds what is still to close,
the current one first. -/
inductive CloseAllPc
  | snapshot
  | request (todo : List (String × String)) (second : Bool)
  | settle (todo : List (String × String))
  | finished
  deriving DecidableEq, Repr

/-- **A run of `close_all_positions`.** -/
structure CloseAllJob where
  pc : CloseAllPc := .snapshot
  rd : Readings
  sent : ℕ := 0

namespace CloseAllJob

def goto (j : CloseAllJob) (pc : CloseAllPc) : CloseAllJob := { j with pc }

/-- Go on with what is left. -/
def next : List (String × String) → CloseAllPc
  | [] => .finished
  | todo => .request todo false

/-- Take the first position with a symbol and side off the book, and record
it as closed at its entry price. -/
def settle (tag : String × String) (s : Shared) : Shared :=
  match s.positions.findBySymbolSide tag.1 tag.2 with
  | none => s
  | some (key, pos) =>
      { s.recordTrade (TradeRecord.ofClose pos pos.entryPrice "MANUAL_CLOSE_ALL" 0) with
        positions := s.positions.erase key }

/-- Where an HTTP attempt leads. -/
def afterAttempt (todo : List (String × String)) (second : Bool) : Option Json → CloseAllPc
  | some answer => if flashCloseSucceeded answer then .settle todo else next todo.tail
  | none =>
      if second then
        if flashCloseSucceeded connectionError then .settle todo else next todo.tail
      else .request todo true

/-- **One step of `close_all_positions`.** -/
def step (cfg : EngineConfig) (j : CloseAllJob) (s : Shared) : Option (CloseAllJob × Shared) :=
  match j.pc with
  | .snapshot => some (j.goto (next (s.positions.entries.map fun e => e.2.tag)), s)
  | .request [] _ => some (j.goto .finished, s)
  | .request (tag :: todo) second =>
      let answer := s.venue.attempt cfg.duplicateCode (j.rd.attempts j.sent)
        (.closePositions tag.1 tag.2)
      some ({ j with pc := afterAttempt (tag :: todo) second answer.1, sent := j.sent + 1 },
        { s with venue := answer.2 })
  | .settle [] => some (j.goto .finished, s)
  | .settle (tag :: todo) => some (j.goto (next todo), settle tag s)
  | .finished => none

end CloseAllJob

/-! ## Messages from the exchange -/

/-- A position message of the WebSocket. -/
structure WsPositionUpdate where
  symbol : String
  holdSide : String
  size : ℚ
  avgPrice : ℚ := 0
  realizedPnl : ℚ := 0
  deriving DecidableEq, Repr

/-- An account message, or an account response. -/
structure AccountUpdate where
  available : ℚ
  equity : ℚ
  deriving DecidableEq, Repr

namespace Shared

/-- The position callback: a size of zero is a close by the exchange. -/
def onWsPosition (upd : WsPositionUpdate) (s : Shared) : Shared :=
  if 0 < upd.size then s
  else
    match s.positions.findBySymbolSide upd.symbol upd.holdSide with
    | none => s
    | some (key, pos) =>
        let exitPrice := if 0 < upd.avgPrice then upd.avgPrice else pos.entryPrice
        { s.recordTrade (TradeRecord.ofWsClose pos exitPrice upd.realizedPnl) with
          positions := s.positions.erase key }

/-- The account callback. -/
def onWsAccount (upd : AccountUpdate) (s : Shared) : Shared :=
  if 0 < upd.available then
    { s with
      balance := upd.available
      peakBalance := max s.peakBalance upd.equity
      portRisk := s.portRisk.updateBalance upd.available }
  else s

/-- `fetch_real_balance`, on a successful response. -/
def fetchRealBalance (upd : AccountUpdate) (s : Shared) : Shared :=
  if 0 < upd.available ∨ 0 < upd.equity then
    let balance := if 0 < upd.available then upd.available else s.balance
    let realEquity := if 0 < upd.equity then upd.equity else balance
    { s with
      balance
      peakBalance :=
        if realEquity * 2 < s.peakBalance ∨ s.peakBalance < balance then realEquity
        else s.peakBalance
      portRisk := s.portRisk.updateBalance balance }
  else s

/-- The periodic sync, on the exchange's state at this moment. -/
def sync (quote : String × HoldSide → ℚ × ℤ) (s : Shared) : Shared :=
  { s with
    positions :=
      s.positions.reconcile s.clock (ExchangeMap.ofRows (s.venue.snapshot quote)) }

end Shared

end WebhookTrader
