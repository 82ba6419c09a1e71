import WebhookTrader.Common.Tally
import WebhookTrader.Risk.Model.Portfolio

/-!
# The state the risk manager reports

`get_state`: one pass over the positions with four sums, and the figures
made of them. Beside it stand the sums `check_entry` decides on, under
names of their own.
-/

namespace WebhookTrader

structure PortfolioState where
  totalPositions : ℤ
  totalNotional : ℚ
  totalMarginUsed : ℚ
  marginUsedPct : ℚ
  positionsByTf : Table String ℕ
  exposureByTf : Table String ℚ
  correlatedRisk : ℚ
  correlatedRiskPct : ℚ
  dailyPnl : ℚ
  weeklyPnl : ℚ
  currentDrawdownPct : ℚ
  circuitBreakerActive : Bool
  deriving DecidableEq

/-- What the loop of `get_state` sums up, not rounded. -/
structure PortfolioSums where
  totalNotional : ℚ
  totalMarginUsed : ℚ
  positionsByTf : Table String ℕ
  exposureByTf : Table String ℚ
  deriving DecidableEq

namespace PortfolioRisk

variable {α : Type} (cfg : PortfolioConfig)

/-- The notional `get_state` gives a position. -/
def notional (p : ManagedPosition) : ℚ := |p.entryPrice * p.quantity * p.leverage|

/-- The loop of `get_state`. -/
def sums (positions : Table α ManagedPosition) : PortfolioSums :=
  let values := positions.entries.map fun e => e.2
  { totalNotional := positions.sum notional
    totalMarginUsed := positions.sum margin
    positionsByTf := Table.tally (fun p => tfName p.timeframe) (fun n _ => n + 1) 0 values
    exposureByTf :=
      Table.tally (fun p => tfName p.timeframe) (fun v p => v + notional p) 0 values }

/-- **`get_state`.** -/
def getState (balance : ℚ) (positions : Table α ManagedPosition) (peakBalance : ℚ)
    (r : PortfolioRisk) : PortfolioState :=
  let s := sums positions
  let correlatedRisk := s.totalMarginUsed * cfg.corrFactor
  let dd := if 0 < peakBalance then (peakBalance - balance) / peakBalance * 100 else 0
  { totalPositions := positions.size
    totalNotional := roundHalfAway (s.totalNotional * 100) / 100
    totalMarginUsed := roundHalfAway (s.totalMarginUsed * 100) / 100
    marginUsedPct :=
      if 0 < balance then roundHalfAway (s.totalMarginUsed / balance * 1000) / 10 else 0
    positionsByTf := s.positionsByTf
    exposureByTf := s.exposureByTf.mapValues fun _ v => roundHalfAway (v * 100) / 100
    correlatedRisk
    correlatedRiskPct :=
      if 0 < balance then roundHalfAway (correlatedRisk / balance * 1000) / 10 else 0
    dailyPnl := roundHalfAway (r.dailyPnl * 10000) / 10000
    weeklyPnl := roundHalfAway (r.weeklyPnl * 10000) / 10000
    currentDrawdownPct := roundHalfAway (dd * 100) / 100
    circuitBreakerActive := r.cbActive }

/-! ## What `check_entry` decides on -/

/-- The margin sum of its margin check. -/
def marginSum (positions : Table α ManagedPosition) : ℚ := positions.sum margin

/-- The count its timeframe limit uses for an entry with a timeframe. -/
def tfCount (positions : Table α ManagedPosition) (timeframe : String) : ℕ :=
  positions.count fun p => p.timeframe = tfName timeframe

/-- The notional its hard cap is stated in, of the open positions. -/
def notionalSum (positions : Table α ManagedPosition) : ℚ :=
  positions.sum fun p => |p.entryPrice * p.quantity|

end PortfolioRisk

end WebhookTrader
