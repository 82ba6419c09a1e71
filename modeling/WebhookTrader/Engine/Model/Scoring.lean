import WebhookTrader.Engine.Model.Machine
import WebhookTrader.Risk.Model.Scorer

/-!
# What the scorer is told

Three paths record a close: the two handlers, where the exchange has
closed a real position, and the WebSocket's callback. Each tells the
scorer of it in its own way. No handler waits for the scorer, so its
state is that of the closes in their order.
-/

namespace WebhookTrader

/-- **The paths by which a close is recorded.** -/
inductive ClosePath
  | tp (j : CloseJob)
  | sl (j : CloseJob)
  | ws (upd : WsPositionUpdate)

/-- **A close that is recorded**: the path, the position as it stands, and
the time as it is written. -/
structure ScoredClose where
  path : ClosePath
  pos : ManagedPosition
  now : String := ""

namespace ScoredClose

variable (c : ScoredClose)

def symbol : String :=
  match c.path with
  | .tp j | .sl j => j.sig.symbol
  | .ws upd => upd.symbol

def direction : String :=
  match c.path with
  | .tp j | .sl j => j.holdSide
  | .ws upd => upd.holdSide

/-- The context that the close is recorded under. -/
def key : String := Scorer.computeContextKey c.symbol c.pos.timeframe c.direction

def exitPrice : ℚ :=
  match c.path with
  | .tp j => if 0 < j.sig.price then j.sig.price else c.pos.entryPrice
  | .sl j => if 0 < j.sig.price then j.sig.price else c.pos.slPrice
  | .ws upd => if 0 < upd.avgPrice then upd.avgPrice else c.pos.entryPrice

def quantity : ℚ :=
  match c.path with
  | .tp j => j.closeQty
  | .sl _ | .ws _ => c.pos.quantity

/-- The trade that is recorded. -/
def trade (cfg : EngineConfig) : TradeRecord :=
  match c.path with
  | .tp j => (handleTp cfg).trade j c.pos
  | .sl j => handleSl.trade j c.pos
  | .ws upd => TradeRecord.ofWsClose c.pos c.exitPrice upd.realizedPnl

def fee : ℚ := Book.calcFee c.exitPrice c.quantity

def plannedRisk : ℚ :=
  if 0 < c.pos.slPrice ∧ 0 < c.pos.entryPrice then
    |c.pos.entryPrice - c.pos.slPrice| * c.quantity
  else 0

/-- The profit over the planned risk, and over the cost where there is no
plan. -/
def realizedRr (pnl : ℚ) : ℚ :=
  if 1 / 10000 < c.plannedRisk then pnl / c.plannedRisk
  else if 0 < c.pos.entryPrice then pnl / (c.pos.entryPrice * c.quantity) else 0

/-- The close has come through the WebSocket. -/
def viaWebSocket : Bool :=
  match c.path with
  | .ws _ => true
  | .tp _ | .sl _ => false

/-- **What the scorer is told of a close.** -/
def feed (cfg : EngineConfig) (scorer : ScorerConfig) (s : Scorer) : Scorer :=
  let pnl := (c.trade cfg).pnl
  let tell := Scorer.recordRealizedTrade c.symbol c.pos.timeframe c.direction (pnl + c.fee) c.fee
    (c.realizedRr pnl)
  match c.path with
  | .tp _ | .sl _ => tell s
  | .ws _ =>
      tell (s.recordContextTrade scorer c.symbol c.pos.timeframe c.direction pnl (0 < pnl) c.now)

/-- The scorer after some closes, from fresh files. -/
def feedAll (cfg : EngineConfig) (scorer : ScorerConfig) (closes : List ScoredClose) : Scorer :=
  closes.foldl (fun s c => c.feed cfg scorer s) {}

end ScoredClose

/-- **The close that a step of the engine tells the scorer of**, with the
text of the time. -/
def Engine.scoredClose (isoTime : ℕ → String) (s : Engine) : EngineLabel → Option ScoredClose
  | .work i =>
      let now := isoTime s.shared.clock.system
      match s.jobs[i]? with
      | some (.tp j) =>
          if j.pc = .settle then
            (s.shared.positions.lookup j.key).map fun pos => ⟨.tp j, pos, now⟩
          else none
      | some (.sl j) =>
          if j.pc = .settle then
            (s.shared.positions.lookup j.key).map fun pos => ⟨.sl j, pos, now⟩
          else none
      | _ => none
  | .event (.wsPosition upd) =>
      if 0 < upd.size then none
      else (s.shared.positions.findBySymbolSide upd.symbol upd.holdSide).map fun e =>
        ⟨.ws upd, e.2, isoTime s.shared.clock.system⟩
  | _ => none

/-- **The engine, with the log of what the scorer is told**, latest
first. -/
abbrev scoredEngine (cfg : EngineConfig) (isoTime : ℕ → String) :
    System (Engine × List ScoredClose) EngineLabel :=
  (engineSystem cfg).logged (Engine.scoredClose isoTime)

end WebhookTrader
