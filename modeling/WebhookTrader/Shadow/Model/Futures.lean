import WebhookTrader.Common.Decimal
import WebhookTrader.Common.Table
import WebhookTrader.Risk.Model.Learner
import WebhookTrader.Webhook.Model.Signal

/-!
# The shadow tracker

`ShadowTracker`: every futures signal is followed with a virtual position
of fixed notional, before any filter of the engine. Positions are kept
under a text of their symbol, timeframe and side, and a tracker carries
the proof that they are. Its file is written elsewhere.
-/

namespace WebhookTrader

/-- A virtual position. -/
structure VirtualPosition where
  symbol : String
  timeframe : String
  /-- `"long"` or `"short"`. -/
  side : String
  strategy : String
  entryPrice : ℚ
  slPrice : ℚ
  tp1Price : ℚ
  /-- In seconds of the system clock. -/
  openedAt : ℕ
  deriving DecidableEq, Repr

/-- The figures of the tracker's trades. -/
structure ShadowStats where
  totalEntries : ℕ := 0
  totalCloses : ℕ := 0
  wins : ℤ := 0
  losses : ℤ := 0
  totalPnl : ℚ := 0
  winRate : ℚ := 0
  deriving DecidableEq, Repr

/-- One more close in the figures. -/
def ShadowStats.close (netPnl : ℚ) (stats : ShadowStats) : ShadowStats :=
  let wins := if 0 < netPnl then stats.wins + 1 else stats.wins
  let totalCloses := stats.totalCloses + 1
  { stats with
    wins
    losses := if 0 < netPnl then stats.losses else stats.losses + 1
    totalPnl := stats.totalPnl + netPnl
    totalCloses
    winRate := roundHalfAway ((wins : ℚ) / totalCloses * 10000) / 100 }

namespace VirtualPosition

/-- `make_key`. -/
def makeKey (symbol tf side : String) : String := symbol ++ ":" ++ tf ++ ":" ++ side

def key (vp : VirtualPosition) : String := makeKey vp.symbol vp.timeframe vp.side

variable {positions : Table String VirtualPosition}

/-- Every position is on a long or a short side and under its own key. -/
def Keyed (positions : Table String VirtualPosition) : Prop :=
  ∀ e ∈ positions.entries, e.1 = e.2.key ∧ (e.2.side = "long" ∨ e.2.side = "short")

theorem keyed_empty : Keyed ∅ := by rintro e ⟨⟩

theorem Keyed.erase (h : Keyed positions) (k : String) : Keyed (positions.erase k) :=
  fun e he => h e (Table.mem_erase.1 he).2

theorem Keyed.insert (h : Keyed positions) {vp : VirtualPosition}
    (hside : vp.side = "long" ∨ vp.side = "short") :
    Keyed (AList.insert vp.key vp positions) := by
  intro e he
  rcases Table.mem_insert.1 he with rfl | ⟨-, hold⟩
  · exact ⟨rfl, hside⟩
  · exact h e hold

end VirtualPosition

/-- **The tracker's state.** -/
structure ShadowTracker where
  positions : Table String VirtualPosition := ∅
  totalEntries : ℕ := 0
  totalCloses : ℕ := 0
  wins : ℤ := 0
  losses : ℤ := 0
  totalPnl : ℚ := 0
  trades : List TradeRecord := []
  learner : Learner := ∅
  /-- The positions that the engine would have opened for real. -/
  liveEquivKeys : List String := []
  liveEquivStats : ShadowStats := {}
  liveEquivTrades : List TradeRecord := []
  keyed : VirtualPosition.Keyed positions := by exact VirtualPosition.keyed_empty

namespace ShadowTracker

open VirtualPosition (makeKey)

/-- `dir_to_side`: an entry goes by its action, an exit by its direction. -/
def dirToSide (sig : WebhookSignal) : String :=
  match sig.sigType with
  | .entry | .reEntry => if sig.action = "buy" then "long" else "short"
  | _ => if sig.signalDirection = "bull" then "long" else "short"

theorem dirToSide_eq (sig : WebhookSignal) :
    dirToSide sig = "long" ∨ dirToSide sig = "short" := by
  unfold dirToSide
  split <;> split_ifs <;> simp

def timeframe (sig : WebhookSignal) : String := if sig.timeframe = "" then "0" else sig.timeframe

/-- The key a signal's position is under. -/
def signalKey (sig : WebhookSignal) : String := makeKey sig.symbol (timeframe sig) (dirToSide sig)

/-- `VIRTUAL_NOTIONAL`. -/
def virtualNotional : ℚ := 100

/-- `TAKER_FEE`. -/
def takerFee : ℚ := 6 / 10000

/-- Profit over risk: the planned one where there is a stop-loss, else the
notional of the entry. -/
def realizedRr (vp : VirtualPosition) (qty netPnl : ℚ) : ℚ :=
  if 0 < vp.slPrice ∧ 0 < vp.entryPrice then
    let plannedRisk := |vp.entryPrice - vp.slPrice| * qty
    if 1 / 10000 < plannedRisk then netPnl / plannedRisk else 0
  else if 0 < vp.entryPrice then
    let entryNotional := vp.entryPrice * qty
    if 1 / 10000 < entryNotional then netPnl / entryNotional else 0
  else 0

/-- The trade a position closes as; its market type holds the side. -/
def closedTrade (vp : VirtualPosition) (exitPrice : ℚ) (reason : String) : TradeRecord :=
  let qty := if 0 < vp.entryPrice then virtualNotional / vp.entryPrice else 0
  let grossPnl := (if vp.side = "long" then 1 else -1) * (exitPrice - vp.entryPrice) * qty
  let feeCost := vp.entryPrice * qty * takerFee + exitPrice * qty * takerFee
  let netPnl := grossPnl - feeCost
  { symbol := vp.symbol
    timeframe := vp.timeframe
    exitReason := "SHADOW_" ++ reason
    entryPrice := vp.entryPrice
    exitPrice
    quantity := qty
    pnl := netPnl
    fee := feeCost
    strategy := vp.strategy
    marketType := vp.side
    grossPnl
    netPnl
    feeCost
    realizedRr := realizedRr vp qty netPnl }

/-- The last so many trades. -/
def capTrades (most : ℕ) (trades : List TradeRecord) : List TradeRecord :=
  trades.drop (trades.length - most)

/-- **`close_position`**, of the position under a key. -/
def closePosition (cfg : LearnerConfig) (now : ℕ) (exitPrice : ℚ) (reason key : String)
    (vp : VirtualPosition) (t : ShadowTracker) : ShadowTracker :=
  let tr := closedTrade vp exitPrice reason
  let marked := t.liveEquivKeys.contains vp.key
  { t with
    wins := if 0 < tr.netPnl then t.wins + 1 else t.wins
    losses := if 0 < tr.netPnl then t.losses else t.losses + 1
    totalPnl := t.totalPnl + tr.netPnl
    totalCloses := t.totalCloses + 1
    trades := capTrades 5000 (t.trades ++ [tr])
    learner := t.learner.recordTrade cfg now tr
    liveEquivStats := if marked then t.liveEquivStats.close tr.netPnl
      else t.liveEquivStats
    liveEquivTrades := if marked then capTrades 2000 (t.liveEquivTrades ++ [tr])
      else t.liveEquivTrades
    liveEquivKeys := if marked then t.liveEquivKeys.erase vp.key else t.liveEquivKeys
    positions := t.positions.erase key
    keyed := t.keyed.erase key }

/-- `mark_live_equivalent`. -/
def markLiveEquivalent (key : String) (t : ShadowTracker) : ShadowTracker :=
  { t with
    liveEquivKeys := if t.liveEquivKeys.contains key then t.liveEquivKeys
      else key :: t.liveEquivKeys
    liveEquivStats :=
      { t.liveEquivStats with totalEntries := t.liveEquivStats.totalEntries + 1 } }

/-- The position `track_entry` opens. -/
def opened (now : ℕ) (sig : WebhookSignal) : VirtualPosition where
  symbol := sig.symbol
  timeframe := timeframe sig
  side := dirToSide sig
  strategy := sig.strategyName
  entryPrice := sig.price
  slPrice := sig.sl
  tp1Price := sig.tp1
  openedAt := now

/-- The key of the position opposite to a signal's. -/
def oppKey (sig : WebhookSignal) : String :=
  makeKey sig.symbol (timeframe sig) (if dirToSide sig = "long" then "short" else "long")

/-- The opposite position is closed at the signal's price. -/
def reverse (cfg : LearnerConfig) (now : ℕ) (sig : WebhookSignal) (t : ShadowTracker) :
    ShadowTracker :=
  match t.positions.lookup (oppKey sig) with
  | some vp => t.closePosition cfg now sig.price "REVERSAL" (oppKey sig) vp
  | none => t

/-- The signal's position is opened. -/
def enter (now : ℕ) (sig : WebhookSignal) (t : ShadowTracker) : ShadowTracker :=
  { t with
    positions := AList.insert (opened now sig).key (opened now sig) t.positions
    totalEntries := t.totalEntries + 1
    keyed := t.keyed.insert (dirToSide_eq sig) }

/-- **`track_entry`**: nothing where the position is there. -/
def trackEntry (cfg : LearnerConfig) (now : ℕ) (sig : WebhookSignal) (t : ShadowTracker) :
    ShadowTracker :=
  if (t.positions.lookup (signalKey sig)).isSome then t else (t.reverse cfg now sig).enter now sig

/-- The position an exit closes: under its own key, or else the first one
with its symbol and side. -/
def match? (sig : WebhookSignal) (t : ShadowTracker) : Option (String × VirtualPosition) :=
  match t.positions.lookup (signalKey sig) with
  | some vp => some (signalKey sig, vp)
  | none => t.positions.findValue fun vp => vp.symbol = sig.symbol && vp.side = dirToSide sig

/-- `track_tp` and `track_sl`, which differ in the reason they give. -/
def trackExit (cfg : LearnerConfig) (now : ℕ) (reason : String) (sig : WebhookSignal)
    (t : ShadowTracker) : ShadowTracker :=
  match t.match? sig with
  | none => t
  | some (key, vp) => t.closePosition cfg now sig.price reason key vp

/-- **`track`**, of any signal. -/
def track (cfg : LearnerConfig) (now : ℕ) (sig : WebhookSignal) (t : ShadowTracker) :
    ShadowTracker :=
  if sig.marketType = "spot" ∨ sig.symbol = "" then t
  else
    match sig.sigType with
    | .entry | .reEntry => t.trackEntry cfg now sig
    | .tp => t.trackExit cfg now "TP" sig
    | .sl => t.trackExit cfg now "SL" sig
    | .unknown => t

end ShadowTracker

end WebhookTrader
