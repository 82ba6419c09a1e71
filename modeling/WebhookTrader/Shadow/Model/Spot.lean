import WebhookTrader.Shadow.Model.Futures

/-!
# The spot shadow tracker

`SpotShadowTracker`: the same for spot signals, which are long only and
closed in parts. It grades symbols by its own trades; its file is written
elsewhere.
-/

namespace WebhookTrader

/-- A virtual spot position. -/
structure VirtualSpotPosition where
  symbol : String
  timeframe : String
  exchange : String
  strategy : String
  entryPrice : ℚ
  slPrice : ℚ
  tp1Price : ℚ
  /-- What is left of the position, in percent. -/
  remainingPct : ℚ := 100
  openedAt : ℕ
  deriving DecidableEq, Repr

/-- **The tracker's state.** -/
structure SpotShadowTracker where
  positions : Table String VirtualSpotPosition := ∅
  totalEntries : ℕ := 0
  totalCloses : ℕ := 0
  wins : ℤ := 0
  losses : ℤ := 0
  totalPnl : ℚ := 0
  trades : List TradeRecord := []
  symbolGrades : Table String String := ∅

/-- `spot_quote_currency`. -/
def spotQuoteCurrency (symbol : String) : String :=
  if WebhookSignal.hasSuffix "KRW" symbol then "KRW"
  else if WebhookSignal.hasSuffix "USDT" symbol then "USDT"
  else if WebhookSignal.hasSuffix "BTC" symbol then "BTC"
  else "UNKNOWN"

namespace SpotShadowTracker

open VirtualPosition (makeKey)
open ShadowTracker (timeframe capTrades)

/-- `get_notional`. -/
def getNotional (exchange : String) : ℚ := if exchange = "upbit" then 50000 else 100

/-- `get_fee_rate`. -/
def getFeeRate (exchange : String) : ℚ := if exchange = "upbit" then 5 / 10000 else 1 / 1000

/-- `tp_close_pct`. -/
def tpClosePct (tpLevel : String) : ℚ :=
  if tpLevel = "TP1" then 33 else if tpLevel = "TP2" then 50 else 100

/-- `compute_grade`. -/
def computeGrade (total : ℕ) (totalPnl wr : ℚ) : String :=
  if total < 5 then "?"
  else if 65 ≤ wr ∧ 0 < totalPnl then "A+"
  else if 55 ≤ wr ∧ 0 < totalPnl then "A"
  else if 50 ≤ wr ∧ 0 < totalPnl then "B"
  else if 45 ≤ wr then "C"
  else if 35 ≤ wr then "D"
  else "F"

/-- The grade a key's trades give. -/
def gradeOf (gradeKey : String) (trades : List TradeRecord) : String :=
  let own := trades.filter fun t => makeKey t.symbol t.timeframe t.exchange = gradeKey
  let wins := own.countP fun t => 0 < t.pnl
  let wr := if 0 < own.length
    then (roundHalfAway ((wins : ℚ) / own.length * 10000) : ℚ) / 100 else 0
  computeGrade own.length (own.map (·.pnl)).sum wr

/-- `refresh_grade`. -/
def refreshGrade (gradeKey : String) (t : SpotShadowTracker) : SpotShadowTracker :=
  { t with symbolGrades := t.symbolGrades.insert gradeKey (gradeOf gradeKey t.trades) }

/-- `get_grade`. -/
def getGrade (gradeKey : String) (t : SpotShadowTracker) : String :=
  (t.symbolGrades.lookup gradeKey).getD "?"

/-- The trade a share of a position closes as. -/
def closedTrade (vp : VirtualSpotPosition) (exitPrice : ℚ) (reason : String) (ratio : ℚ) :
    TradeRecord :=
  let totalQty := if 0 < vp.entryPrice then getNotional vp.exchange / vp.entryPrice else 0
  let closeQty := totalQty * ratio
  let fee := (vp.entryPrice * closeQty + exitPrice * closeQty) * getFeeRate vp.exchange
  { symbol := vp.symbol
    timeframe := vp.timeframe
    exitReason := "SPOT_SHADOW_" ++ reason
    entryPrice := vp.entryPrice
    exitPrice
    quantity := closeQty
    pnl := (exitPrice - vp.entryPrice) * closeQty - fee
    fee
    strategy := vp.strategy
    exchange := vp.exchange
    marketType := "spot" }

/-- The figures, the trades and the grade after a trade. -/
def record (tr : TradeRecord) (t : SpotShadowTracker) : SpotShadowTracker :=
  refreshGrade (makeKey tr.symbol tr.timeframe tr.exchange)
    { t with
      wins := if 0 < tr.pnl then t.wins + 1 else t.wins
      losses := if 0 < tr.pnl then t.losses else t.losses + 1
      totalPnl := t.totalPnl + tr.pnl
      totalCloses := t.totalCloses + 1
      trades := capTrades 5000 (t.trades ++ [tr]) }

/-- **`close_position`**: all that is left. -/
def closePosition (exitPrice : ℚ) (reason key : String) (vp : VirtualSpotPosition)
    (t : SpotShadowTracker) : SpotShadowTracker :=
  let t := t.record (closedTrade vp exitPrice reason (vp.remainingPct / 100))
  { t with positions := t.positions.erase key }

/-- **`partial_close`**: a share of what is left; a rest below one percent
goes. -/
def partialClose (exitPrice : ℚ) (reason : String) (closePct : ℚ) (key : String)
    (vp : VirtualSpotPosition) (t : SpotShadowTracker) : SpotShadowTracker :=
  let t := t.record
    (closedTrade vp exitPrice reason (closePct / 100 * (vp.remainingPct / 100)))
  let newRemaining := vp.remainingPct * (1 - closePct / 100)
  { t with
    positions :=
      if newRemaining < 1 then t.positions.erase key
      else t.positions.modify key fun vp => { vp with remainingPct := newRemaining } }

/-- **`track_entry`**: buys of the exchange's own quote currency. -/
def trackEntry (now : ℕ) (sig : WebhookSignal) (t : SpotShadowTracker) : SpotShadowTracker :=
  let quote := spotQuoteCurrency sig.symbol
  let key := makeKey sig.symbol (timeframe sig) sig.exchange
  if sig.action ≠ "buy" then t
  else if sig.exchange = "upbit" ∧ quote ≠ "KRW" then t
  else if sig.exchange = "bitget" ∧ quote ≠ "USDT" then t
  else if (t.positions.lookup key).isSome then t
  else
    { t with
      positions := t.positions.insert key
        { symbol := sig.symbol
          timeframe := timeframe sig
          exchange := sig.exchange
          strategy := sig.strategyName
          entryPrice := sig.price
          slPrice := sig.sl
          tp1Price := sig.tp1
          openedAt := now }
      totalEntries := t.totalEntries + 1 }

/-- The position an exit closes: under its own key, or else the first one
with its symbol. -/
def match? (sig : WebhookSignal) (t : SpotShadowTracker) :
    Option (String × VirtualSpotPosition) :=
  let key := makeKey sig.symbol (timeframe sig) sig.exchange
  match t.positions.lookup key with
  | some vp => some (key, vp)
  | none => t.positions.findValue fun vp => vp.symbol = sig.symbol

/-- **`track_tp`**: a share of the position, of a bullish signal only. -/
def trackTp (sig : WebhookSignal) (t : SpotShadowTracker) : SpotShadowTracker :=
  if sig.signalDirection ≠ "bull" then t
  else
    match t.match? sig with
    | none => t
    | some (key, vp) =>
        let actualClosePct := min (tpClosePct sig.tpLevel) vp.remainingPct
        if vp.remainingPct ≤ actualClosePct then
          t.closePosition sig.price ("TP_" ++ sig.tpLevel) key vp
        else t.partialClose sig.price ("TP_" ++ sig.tpLevel) actualClosePct key vp

/-- **`track_sl`**: all of the position, of a bullish signal only. -/
def trackSl (sig : WebhookSignal) (t : SpotShadowTracker) : SpotShadowTracker :=
  if sig.signalDirection ≠ "bull" then t
  else
    match t.match? sig with
    | none => t
    | some (key, vp) => t.closePosition sig.price "SL" key vp

/-- **`track`**, of any signal. -/
def track (now : ℕ) (sig : WebhookSignal) (t : SpotShadowTracker) : SpotShadowTracker :=
  if sig.marketType ≠ "spot" ∨ sig.symbol = "" then t
  else
    match sig.sigType with
    | .entry | .reEntry => t.trackEntry now sig
    | .tp => t.trackTp sig
    | .sl => t.trackSl sig
    | .unknown => t

end SpotShadowTracker

end WebhookTrader
