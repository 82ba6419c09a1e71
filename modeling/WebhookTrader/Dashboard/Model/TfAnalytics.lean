import WebhookTrader.Common.Json
import WebhookTrader.Common.Tally
import WebhookTrader.Risk.Model.Portfolio
import WebhookTrader.Risk.Model.Trade
import WebhookTrader.Shadow.Model.Report

/-!
# The dashboard's timeframes

`TfAnalytics::analyze`: the figures of all trades and of each timeframe's,
and the timeframes with five trades in the order of their profit factors.
The figures are kept as they are computed; they are rounded on their way
into the JSON.
-/

namespace WebhookTrader

/-- **The figures of some trades.** -/
structure TfStats where
  timeframe : String
  totalTrades : ℕ := 0
  wins : ℕ := 0
  losses : ℕ := 0
  totalPnl : ℚ := 0
  totalFee : ℚ := 0
  maxWin : ℚ := 0
  maxLoss : ℚ := 0
  avgPnl : ℚ := 0
  winRate : ℚ := 0
  profitFactor : ℚ := 0
  avgWin : ℚ := 0
  avgLoss : ℚ := 0
  maxConsecutiveWins : ℕ := 0
  maxConsecutiveLosses : ℕ := 0
  emaPnl : ℚ := 0
  deriving DecidableEq, Repr

namespace TfStats

/-- What `to_json` rounds into `net_pnl`. -/
def netPnl (s : TfStats) : ℚ := s.totalPnl - s.totalFee

/-- The fields of `to_json`. -/
def fields (s : TfStats) : List (String × Json) :=
  [("timeframe", .str s.timeframe),
    ("total_trades", .int s.totalTrades),
    ("wins", .int s.wins),
    ("losses", .int s.losses),
    ("win_rate", .float (roundHalfAway (s.winRate * 1000) / 10)),
    ("total_pnl", .float (round4 s.totalPnl)),
    ("total_fee", .float (round4 s.totalFee)),
    ("net_pnl", .float (round4 s.netPnl)),
    ("avg_pnl", .float (round4 s.avgPnl)),
    ("max_win", .float (round4 s.maxWin)),
    ("max_loss", .float (round4 s.maxLoss)),
    ("profit_factor", .float (roundHalfAway (s.profitFactor * 100) / 100)),
    ("avg_win", .float (round4 s.avgWin)),
    ("avg_loss", .float (round4 s.avgLoss)),
    ("max_consecutive_wins", .int s.maxConsecutiveWins),
    ("max_consecutive_losses", .int s.maxConsecutiveLosses),
    ("ema_pnl", .float (round4 s.emaPnl))]

/-- `to_json`. -/
def toJson (s : TfStats) : Json := .obj s.fields

/-- The grade of a timeframe in the ranking. -/
def grade (s : TfStats) : String :=
  if 2 ≤ s.profitFactor ∧ 1 / 2 ≤ s.winRate then "S"
  else if 3 / 2 ≤ s.profitFactor ∧ 45 / 100 ≤ s.winRate then "A"
  else if 6 / 5 ≤ s.profitFactor ∧ 2 / 5 ≤ s.winRate then "B"
  else if 1 ≤ s.profitFactor then "C"
  else "D"

end TfStats

namespace TfAnalytics

/-! ## The figures of some trades -/

/-- What the loop of `calc_stats` carries along. -/
structure Loop where
  stats : TfStats
  grossWins : ℚ := 0
  grossLosses : ℚ := 0
  curWins : ℕ := 0
  curLosses : ℕ := 0

/-- The branches on the profit; one of zero is neither a win nor a loss, and
breaks no streak. -/
def countOutcome (pnl : ℚ) (l : Loop) : Loop :=
  if 0 < pnl then
    { l with
      stats :=
        { l.stats with
          wins := l.stats.wins + 1
          maxWin := max l.stats.maxWin pnl
          maxConsecutiveWins := max l.stats.maxConsecutiveWins (l.curWins + 1) }
      grossWins := l.grossWins + pnl
      curWins := l.curWins + 1
      curLosses := 0 }
  else if pnl < 0 then
    { l with
      stats :=
        { l.stats with
          losses := l.stats.losses + 1
          maxLoss := min l.stats.maxLoss pnl
          maxConsecutiveLosses := max l.stats.maxConsecutiveLosses (l.curLosses + 1) }
      grossLosses := l.grossLosses + |pnl|
      curLosses := l.curLosses + 1
      curWins := 0 }
  else l

/-- One trade more. -/
def countTrade (l : Loop) (t : TradeRecord) : Loop :=
  let s := l.stats
  let l := countOutcome t.pnl
    { l with stats := { s with totalPnl := s.totalPnl + t.pnl, totalFee := s.totalFee + t.fee } }
  { l with
    stats :=
      { l.stats with emaPnl := 15 / 100 * t.pnl + (1 - 15 / 100) * l.stats.emaPnl } }

/-- The averages, after the loop. -/
def finish (l : Loop) : TfStats :=
  let s := l.stats
  { s with
    winRate := if 0 < s.totalTrades then (s.wins : ℚ) / s.totalTrades else 0
    avgPnl := if 0 < s.totalTrades then s.totalPnl / s.totalTrades else 0
    avgWin := if 0 < s.wins then l.grossWins / s.wins else 0
    avgLoss := if 0 < s.losses then l.grossLosses / s.losses else 0
    profitFactor :=
      if 0 < l.grossLosses then l.grossWins / l.grossLosses
      else if 0 < l.grossWins then 999 else 0 }

/-- **`calc_stats`.** -/
def calcStats (trades : List TradeRecord) (tf : String) : TfStats :=
  let s : TfStats := { timeframe := tf, totalTrades := trades.length }
  if trades.isEmpty then s else finish (trades.foldl countTrade { stats := s })

/-! ## The analysis -/

/-- The trades by timeframe, where none is `unknown`. -/
def byTf (trades : List TradeRecord) : Table String (List TradeRecord) :=
  Table.tally (fun t => PortfolioRisk.tfName t.timeframe) (fun ts t => ts ++ [t]) [] trades

/-- The timeframes, those with the most trades first. -/
def sorted (trades : List TradeRecord) : List (Sigma fun _ : String => List TradeRecord) :=
  (byTf trades).entries.mergeSort fun a b => b.2.length ≤ a.2.length

/-- **What `analyze` reports**, not rounded. -/
structure Report where
  overall : TfStats
  byTimeframe : List TfStats
  ranking : List TfStats

def report (trades : List TradeRecord) : Report where
  overall := calcStats trades "all"
  byTimeframe := (sorted trades).map fun e => calcStats e.2 e.1
  ranking :=
    (((sorted trades).filter fun e => 5 ≤ e.2.length).map fun e => calcStats e.2 e.1).mergeSort
      fun a b => b.profitFactor ≤ a.profitFactor

/-- A timeframe of the ranking, with its place in it. -/
def rankedJson (i : ℕ) (s : TfStats) : Json :=
  .obj (s.fields ++ [("rank", .int (i + 1)), ("grade", .str s.grade)])

/-- `calc_hourly_stats`: a trade has no time. -/
def calcHourlyStats (_trades : List TradeRecord) : Json := .obj []

/-- **`analyze`.** -/
def analyze (trades : List TradeRecord) : Json :=
  let r := report trades
  .obj
    [("overall", r.overall.toJson),
      ("by_timeframe", .arr (r.byTimeframe.map TfStats.toJson)),
      ("ranking", .arr (r.ranking.mapIdx rankedJson)),
      ("hourly", calcHourlyStats trades)]

end TfAnalytics

end WebhookTrader
