import WebhookTrader.Common.Json
import WebhookTrader.Common.Tally
import WebhookTrader.Engine.Model.TradeRecorder
import WebhookTrader.Shadow.Model.Report

/-!
# The recorder's statistics

`TradeRecorder::get_stats` and `get_strategy_stats`, which the dashboard
shows beside the analysis by timeframe: over all trades in the list, and
strategy by strategy, the worst first. A profit is rounded where it is put
into the JSON, and the strategies are sorted by what was rounded; in which
order the sort leaves equals is not its contents' choice, so a stable one
stands for it.
-/

namespace WebhookTrader

/-- What `get_stats` answers. -/
structure TradeStats where
  totalTrades : ℕ
  wins : ℕ
  losses : ℕ
  winRate : ℚ
  totalPnl : ℚ
  balance : ℚ
  peakBalance : ℚ
  openPositions : ℕ
  ordersExecuted : ℕ
  riskSkips : ℕ
  shadowMode : Bool
  deriving DecidableEq, Repr

/-- A row of `get_strategy_stats`. -/
structure StrategyRow where
  strategy : String
  totalTrades : ℕ
  wins : ℕ
  losses : ℕ
  winRate : ℚ
  totalPnl : ℚ
  totalFee : ℚ
  avgPnl : ℚ
  deriving DecidableEq, Repr

/-- `StratStats`. -/
structure StratStats where
  total : ℕ := 0
  wins : ℕ := 0
  totalPnl : ℚ := 0
  totalFee : ℚ := 0
  deriving DecidableEq, Repr

/-- One more trade of a strategy. -/
def StratStats.count (s : StratStats) (t : TradeRecord) : StratStats where
  total := s.total + 1
  wins := if 0 < t.pnl then s.wins + 1 else s.wins
  totalPnl := s.totalPnl + t.pnl
  totalFee := s.totalFee + t.fee

namespace TradeRecorder

/-- A share in percent, to two places. -/
def percent (part total : ℕ) : ℚ :=
  if 0 < total then roundHalfAway ((part : ℚ) / total * 10000) / 100 else 0

/-- **`get_stats`.** -/
def getStats (r : TradeRecorder) (openPositions ordersExecuted riskSkips : ℕ)
    (shadowMode : Bool) : TradeStats :=
  let totalTrades := r.trades.length
  let wins := r.trades.countP fun t => 0 < t.pnl
  { totalTrades
    wins
    losses := totalTrades - wins
    winRate := percent wins totalTrades
    totalPnl := round4 (r.trades.map (·.pnl)).sum
    balance := r.balance
    peakBalance := r.peakBalance
    openPositions
    ordersExecuted
    riskSkips
    shadowMode }

/-- The trades of the list by strategy. -/
def byStrategy (trades : List TradeRecord) : Table String StratStats :=
  Table.tally (fun t => t.strategy) StratStats.count {} trades

/-- The row of a strategy. -/
def strategyRow (strategy : String) (s : StratStats) : StrategyRow where
  strategy
  totalTrades := s.total
  wins := s.wins
  losses := s.total - s.wins
  winRate := percent s.wins s.total
  totalPnl := round4 s.totalPnl
  totalFee := round4 s.totalFee
  avgPnl := if 0 < s.total then round4 (s.totalPnl / s.total) else 0

/-- **`get_strategy_stats`.** -/
def getStrategyStats (r : TradeRecorder) : List StrategyRow :=
  ((byStrategy r.trades).entries.map fun e => strategyRow e.1 e.2).mergeSort
    fun a b => a.totalPnl ≤ b.totalPnl

end TradeRecorder

namespace TradeStats

/-- The answer as JSON. -/
def toJson (s : TradeStats) : Json :=
  .obj
    [("total_trades", .int s.totalTrades),
      ("wins", .int s.wins),
      ("losses", .int s.losses),
      ("win_rate", .float s.winRate),
      ("total_pnl", .float s.totalPnl),
      ("balance", .float s.balance),
      ("peak_balance", .float s.peakBalance),
      ("open_positions", .int s.openPositions),
      ("orders_executed", .int s.ordersExecuted),
      ("risk_skips", .int s.riskSkips),
      ("shadow_mode", .bool s.shadowMode)]

end TradeStats

namespace StrategyRow

/-- A row as JSON. -/
def toJson (s : StrategyRow) : Json :=
  .obj
    [("strategy", .str s.strategy),
      ("total_trades", .int s.totalTrades),
      ("wins", .int s.wins),
      ("losses", .int s.losses),
      ("win_rate", .float s.winRate),
      ("total_pnl", .float s.totalPnl),
      ("total_fee", .float s.totalFee),
      ("avg_pnl", .float s.avgPnl)]

end StrategyRow

end WebhookTrader
