import WebhookTrader.Common.Stages
import WebhookTrader.Persistence.Model.StateFile
import WebhookTrader.Shadow.Model.Report

/-!
# The trackers' files

`shadow_state.json` and `spot_shadow_state.json`: what each tracker writes
of itself, and what it reads back. A value that raises ends the reading
and leaves what has been read. Both files have the last thousand trades.
-/

namespace WebhookTrader

/-- `get<uint64_t>()` of a counter. Counters do not overflow here, and neither
does what is read. -/
def Json.getCounter : Json → Except Exception ℕ
  | .int n => .ok (if 0 ≤ n then n.toNat else (n % 2 ^ 64).toNat)
  | .float q => .ok (if 0 ≤ truncate q then (truncate q).toNat else (truncate q % 2 ^ 64).toNat)
  | _ => .error .typeError302

/-- `get<int64_t>()` of a time. Times are after the epoch here, and do not
overflow either. -/
def Json.getTime : Json → Except Exception ℕ
  | .int n => .ok n.toNat
  | .float q => .ok (truncate q).toNat
  | _ => .error .typeError302

/-- A loop over a field of a document, where it is an array. -/
def Json.loopField {σ α : Type} (j : Json) (key : String) (read : Json → Except Exception α)
    (push : α → σ → σ) : Stage Exception σ :=
  match j.find? key with
  | some (.arr xs) => Stage.loop read push xs
  | _ => Stage.skip

/-! ## Positions and trades -/

namespace VirtualPosition

/-- A position under its key, as `save_state_locked` writes it. -/
def toJson (key : String) (vp : VirtualPosition) : Json :=
  .obj
    [("key", .str key), ("symbol", .str vp.symbol), ("timeframe", .str vp.timeframe),
      ("side", .str vp.side), ("strategy", .str vp.strategy), ("entry_price", .float vp.entryPrice),
      ("sl_price", .float vp.slPrice), ("tp1_price", .float vp.tp1Price),
      ("opened_at", .int vp.openedAt)]

open Json in
/-- A position and its key, as `load_state` reads them. -/
def fromJson (j : Json) : Except Exception (String × VirtualPosition) := do
  let symbol ← j.value getString "symbol" ""
  let timeframe ← j.value getString "timeframe" "0"
  let side ← j.value getString "side" "long"
  let strategy ← j.value getString "strategy" "unknown"
  let entryPrice ← j.value getDouble "entry_price" 0
  let slPrice ← j.value getDouble "sl_price" 0
  let tp1Price ← j.value getDouble "tp1_price" 0
  let openedAt ← j.value getTime "opened_at" 0
  let key ← j.value getString "key" (makeKey symbol timeframe side)
  return (key, { symbol, timeframe, side, strategy, entryPrice, slPrice, tp1Price, openedAt })

end VirtualPosition

namespace VirtualSpotPosition

/-- A spot position under its key. -/
def toJson (key : String) (vp : VirtualSpotPosition) : Json :=
  .obj
    [("key", .str key), ("symbol", .str vp.symbol), ("timeframe", .str vp.timeframe),
      ("exchange", .str vp.exchange), ("strategy", .str vp.strategy),
      ("entry_price", .float vp.entryPrice), ("sl_price", .float vp.slPrice),
      ("tp1_price", .float vp.tp1Price), ("remaining_pct", .float vp.remainingPct),
      ("opened_at", .int vp.openedAt)]

open Json in
/-- A spot position and its key. -/
def fromJson (j : Json) : Except Exception (String × VirtualSpotPosition) := do
  let symbol ← j.value getString "symbol" ""
  let timeframe ← j.value getString "timeframe" "0"
  let exchange ← j.value getString "exchange" "bitget"
  let strategy ← j.value getString "strategy" "unknown"
  let entryPrice ← j.value getDouble "entry_price" 0
  let slPrice ← j.value getDouble "sl_price" 0
  let tp1Price ← j.value getDouble "tp1_price" 0
  let remainingPct ← j.value getDouble "remaining_pct" 100
  let openedAt ← j.value getTime "opened_at" 0
  let key ← j.value getString "key" (VirtualPosition.makeKey symbol timeframe exchange)
  return (key, { symbol, timeframe, exchange, strategy, entryPrice, slPrice, tp1Price,
                 remainingPct, openedAt })

/-- Only pairs in won and in tether are taken up again. -/
def valid (vp : VirtualSpotPosition) : Bool :=
  let quote := spotQuoteCurrency vp.symbol
  (vp.exchange = "upbit" && quote = "KRW") || (vp.exchange = "bitget" && quote = "USDT") ||
    (quote = "KRW" || quote = "USDT")

end VirtualSpotPosition

namespace TradeRecord

/-- A shadow trade, whose market type is written as the side. -/
def toShadowJson (t : TradeRecord) : Json :=
  .obj
    [("symbol", .str t.symbol), ("timeframe", .str t.timeframe), ("side", .str t.marketType),
      ("entry_price", .float t.entryPrice), ("exit_price", .float t.exitPrice),
      ("quantity", .float t.quantity), ("pnl", .float t.pnl), ("fee", .float t.fee),
      ("exit_reason", .str t.exitReason), ("strategy", .str t.strategy),
      ("gross_pnl", .float t.grossPnl), ("net_pnl", .float t.netPnl),
      ("fee_cost", .float t.feeCost), ("realized_rr", .float t.realizedRr)]

open Json in
def fromShadowJson (j : Json) : Except Exception TradeRecord := do
  let symbol ← j.value getString "symbol" ""
  let timeframe ← j.value getString "timeframe" ""
  let entryPrice ← j.value getDouble "entry_price" 0
  let exitPrice ← j.value getDouble "exit_price" 0
  let quantity ← j.value getDouble "quantity" 0
  let pnl ← j.value getDouble "pnl" 0
  let fee ← j.value getDouble "fee" 0
  let exitReason ← j.value getString "exit_reason" ""
  let strategy ← j.value getString "strategy" "unknown"
  let marketType ← j.value getString "side" ""
  let grossPnl ← j.value getDouble "gross_pnl" 0
  let netPnl ← j.value getDouble "net_pnl" 0
  let feeCost ← j.value getDouble "fee_cost" 0
  let realizedRr ← j.value getDouble "realized_rr" 0
  return { symbol, timeframe, entryPrice, exitPrice, quantity, pnl, fee, exitReason, strategy,
           marketType, grossPnl, netPnl, feeCost, realizedRr }

/-- A spot shadow trade. -/
def toSpotShadowJson (t : TradeRecord) : Json :=
  .obj
    [("symbol", .str t.symbol), ("timeframe", .str t.timeframe), ("exchange", .str t.exchange),
      ("entry_price", .float t.entryPrice), ("exit_price", .float t.exitPrice),
      ("quantity", .float t.quantity), ("pnl", .float t.pnl), ("fee", .float t.fee),
      ("exit_reason", .str t.exitReason), ("strategy", .str t.strategy)]

open Json in
def fromSpotShadowJson (j : Json) : Except Exception TradeRecord := do
  let symbol ← j.value getString "symbol" ""
  let timeframe ← j.value getString "timeframe" ""
  let entryPrice ← j.value getDouble "entry_price" 0
  let exitPrice ← j.value getDouble "exit_price" 0
  let quantity ← j.value getDouble "quantity" 0
  let pnl ← j.value getDouble "pnl" 0
  let fee ← j.value getDouble "fee" 0
  let exitReason ← j.value getString "exit_reason" ""
  let strategy ← j.value getString "strategy" "unknown"
  let exchange ← j.value getString "exchange" "bitget"
  return { symbol, timeframe, entryPrice, exitPrice, quantity, pnl, fee, exitReason, strategy,
           exchange, marketType := "spot" }

end TradeRecord

/-! ## The futures tracker -/

/-- The document `save_state_locked` writes. -/
def ShadowTracker.toJson (t : ShadowTracker) : Json :=
  .obj
    [("positions", .arr (t.positions.entries.map fun e => e.2.toJson e.1)),
      ("trades", .arr ((capTrades 1000 t.trades).map TradeRecord.toShadowJson)),
      ("stats", .obj
        [("total_entries", .int t.totalEntries), ("total_closes", .int t.totalCloses),
          ("wins", .int t.wins), ("losses", .int t.losses), ("total_pnl", .float t.totalPnl)]),
      ("live_equiv_stats", .obj
        [("total_entries", .int t.liveEquivStats.totalEntries),
          ("total_closes", .int t.liveEquivStats.totalCloses),
          ("wins", .int t.liveEquivStats.wins), ("losses", .int t.liveEquivStats.losses),
          ("total_pnl", .float t.liveEquivStats.totalPnl),
          ("win_rate", .float t.liveEquivStats.winRate)]),
      ("live_equiv_keys", .arr (t.liveEquivKeys.map .str)),
      ("live_equiv_trades",
        .arr ((capTrades 500 t.liveEquivTrades).map TradeRecord.toShadowJson))]

/-- **What `load_state` has read.** -/
structure ShadowRecord where
  positions : Table String VirtualPosition := ∅
  trades : List TradeRecord := []
  totalEntries : ℕ := 0
  totalCloses : ℕ := 0
  wins : ℤ := 0
  losses : ℤ := 0
  totalPnl : ℚ := 0
  liveEquivStats : ShadowStats := {}
  liveEquivKeys : List String := []
  liveEquivTrades : List TradeRecord := []

namespace ShadowRecord

open Json Stage

/-- A position is put under its key; one without a symbol is passed over. -/
def putPosition (e : String × VirtualPosition) (r : ShadowRecord) : ShadowRecord :=
  if e.2.symbol = "" then r else { r with positions := AList.insert e.1 e.2 r.positions }

/-- A pending key; what is no text is passed over. -/
def putKey (k : Option String) (r : ShadowRecord) : ShadowRecord :=
  match k with
  | some k => if r.liveEquivKeys.contains k then r else { r with liveEquivKeys := k :: r.liveEquivKeys }
  | none => r

def readKey : Json → Except Exception (Option String)
  | .str k => .ok (some k)
  | _ => .ok none

/-- The figures. -/
def statsStages (j : Json) : List (Stage Exception ShadowRecord) :=
  match j.find? "stats" with
  | none => []
  | some s =>
      [assign (s.value getCounter "total_entries" 0) fun n r => { r with totalEntries := n },
        assign (s.value getCounter "total_closes" 0) fun n r => { r with totalCloses := n },
        assign (s.value getCount "wins" 0) fun n r => { r with wins := n },
        assign (s.value getCount "losses" 0) fun n r => { r with losses := n },
        assign (s.value getDouble "total_pnl" 0) fun q r => { r with totalPnl := q }]

/-- The live-equivalent figures. -/
def liveEquivStages (j : Json) : List (Stage Exception ShadowRecord) :=
  match j.find? "live_equiv_stats" with
  | none => []
  | some s =>
      [assign (s.value getCounter "total_entries" 0) fun n r =>
          { r with liveEquivStats := { r.liveEquivStats with totalEntries := n } },
        assign (s.value getCounter "total_closes" 0) fun n r =>
          { r with liveEquivStats := { r.liveEquivStats with totalCloses := n } },
        assign (s.value getCount "wins" 0) fun n r =>
          { r with liveEquivStats := { r.liveEquivStats with wins := n } },
        assign (s.value getCount "losses" 0) fun n r =>
          { r with liveEquivStats := { r.liveEquivStats with losses := n } },
        assign (s.value getDouble "total_pnl" 0) fun q r =>
          { r with liveEquivStats := { r.liveEquivStats with totalPnl := q } },
        assign (s.value getDouble "win_rate" 0) fun q r =>
          { r with liveEquivStats := { r.liveEquivStats with winRate := q } }]

/-- The body of `load_state`'s `try`. -/
def stages (j : Json) : List (Stage Exception ShadowRecord) :=
  [j.loopField "positions" VirtualPosition.fromJson putPosition,
    j.loopField "trades" TradeRecord.fromShadowJson fun t r => { r with trades := r.trades ++ [t] }] ++
  statsStages j ++ liveEquivStages j ++
  [j.loopField "live_equiv_keys" readKey putKey,
    j.loopField "live_equiv_trades" TradeRecord.fromShadowJson fun t r =>
      { r with liveEquivTrades := r.liveEquivTrades ++ [t] }]

/-- **`load_state`**, of a tracker that knows nothing yet. -/
def load : StateFile → ShadowRecord
  | .missing => {}
  | .corrupt => {}
  | .document j => run (stages j) {}

/-- The tracker with what has been read. -/
def tracker (learner : Learner) (r : ShadowRecord) (h : VirtualPosition.Keyed r.positions) :
    ShadowTracker where
  positions := r.positions
  totalEntries := r.totalEntries
  totalCloses := r.totalCloses
  wins := r.wins
  losses := r.losses
  totalPnl := r.totalPnl
  trades := r.trades
  learner
  liveEquivKeys := r.liveEquivKeys
  liveEquivStats := r.liveEquivStats
  liveEquivTrades := r.liveEquivTrades
  keyed := h

end ShadowRecord

instance (positions : Table String VirtualPosition) :
    Decidable (VirtualPosition.Keyed positions) :=
  inferInstanceAs (Decidable (∀ e ∈ positions.entries, _))

/-- **The tracker's constructor**, which loads its file. A file whose
positions are not under their keys, which no tracker writes, has none. -/
def ShadowTracker.load (learner : Learner) (file : StateFile) : Option ShadowTracker :=
  if h : VirtualPosition.Keyed (ShadowRecord.load file).positions then
    some ((ShadowRecord.load file).tracker learner h)
  else none

/-! ## The spot tracker -/

namespace SpotShadowTracker

open ShadowTracker (capTrades)

/-- The document `save_state_locked` writes. -/
def toJson (t : SpotShadowTracker) : Json :=
  .obj
    [("positions", .arr (t.positions.entries.map fun e => e.2.toJson e.1)),
      ("trades", .arr ((capTrades 1000 t.trades).map TradeRecord.toSpotShadowJson)),
      ("stats", .obj
        [("total_entries", .int t.totalEntries), ("total_closes", .int t.totalCloses),
          ("wins", .int t.wins), ("losses", .int t.losses), ("total_pnl", .float t.totalPnl)]),
      ("grades", .obj (t.symbolGrades.toPairs .str))]

open Json Stage

/-- A position of a valid pair is put under its key. -/
def putPosition (e : String × VirtualSpotPosition) (t : SpotShadowTracker) : SpotShadowTracker :=
  if e.2.symbol ≠ "" ∧ e.2.valid = true then
    { t with positions := AList.insert e.1 e.2 t.positions }
  else t

/-- The figures. -/
def statsStages (j : Json) : List (Stage Exception SpotShadowTracker) :=
  match j.find? "stats" with
  | none => []
  | some s =>
      [assign (s.value getCounter "total_entries" 0) fun n t => { t with totalEntries := n },
        assign (s.value getCounter "total_closes" 0) fun n t => { t with totalCloses := n },
        assign (s.value getCount "wins" 0) fun n t => { t with wins := n },
        assign (s.value getCount "losses" 0) fun n t => { t with losses := n },
        assign (s.value getDouble "total_pnl" 0) fun q t => { t with totalPnl := q }]

/-- The grades. -/
def gradesStage (j : Json) : Stage Exception SpotShadowTracker :=
  match j.find? "grades" with
  | some (.obj fields) =>
      loop (fun f => (getString f.2).map fun g => (f.1, g))
        (fun f t => { t with symbolGrades := AList.insert f.1 f.2 t.symbolGrades }) fields
  | _ => skip

/-- The body of `load_state`'s `try`. -/
def stages (j : Json) : List (Stage Exception SpotShadowTracker) :=
  [j.loopField "positions" VirtualSpotPosition.fromJson putPosition,
    j.loopField "trades" TradeRecord.fromSpotShadowJson
      fun tr t => { t with trades := t.trades ++ [tr] }] ++
  statsStages j ++ [gradesStage j]

/-- **The tracker's constructor**, which loads its file. -/
def load : StateFile → SpotShadowTracker
  | .missing => {}
  | .corrupt => {}
  | .document j => run (stages j) {}

end SpotShadowTracker

end WebhookTrader
