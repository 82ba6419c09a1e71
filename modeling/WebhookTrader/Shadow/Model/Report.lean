import WebhookTrader.Common.Tally
import WebhookTrader.Engine.Model.Readiness
import WebhookTrader.Shadow.Model.Spot

/-!
# The trackers' reports

`get_symbol_report` and `get_symbol_tf_report` of both trackers: the
trades in memory by symbol, or by symbol and timeframe, with a grade for
each. All four go through the trades with a map, make a row of each of
its entries and sort the rows by profit; they differ in the key a trade
is counted under and in what a row is called.
-/

namespace WebhookTrader

/-- What a report counts under a key. -/
structure SymStats where
  total : ℕ := 0
  wins : ℕ := 0
  totalPnl : ℚ := 0
  deriving DecidableEq, Repr

/-- One more trade. -/
def SymStats.count (s : SymStats) (t : TradeRecord) : SymStats where
  total := s.total + 1
  wins := if 0 < t.pnl then s.wins + 1 else s.wins
  totalPnl := s.totalPnl + t.pnl

/-- Four decimal places. -/
def round4 (q : ℚ) : ℚ := roundHalfAway (q * 10000) / 10000

/-- **A row of a report.** Only the reports by timeframe have a timeframe
and a key. -/
structure ReportRow where
  symbol : String
  timeframe : String := ""
  key : String := ""
  total : ℕ
  wins : ℕ
  losses : ℕ
  winRate : ℚ
  totalPnl : ℚ
  avgPnl : ℚ
  grade : String
  deriving DecidableEq, Repr

namespace ReportRow

/-- The win rate, in percent with two places. -/
def rate (s : SymStats) : ℚ :=
  if 0 < s.total then roundHalfAway ((s.wins : ℚ) / s.total * 10000) / 100 else 0

/-- The row of a key's figures. The grade is `compute_grade`, which the
futures tracker has written out in both of its reports. -/
def ofStats (symbol timeframe key : String) (s : SymStats) : ReportRow where
  symbol
  timeframe
  key
  total := s.total
  wins := s.wins
  losses := s.total - s.wins
  winRate := rate s
  totalPnl := round4 s.totalPnl
  avgPnl := if 0 < s.total then round4 (s.totalPnl / s.total) else 0
  grade := SpotShadowTracker.computeGrade s.total s.totalPnl (rate s)

/-- What `LiveReadinessEngine` reads of a row: no report has the recent
figures. -/
def read (r : ReportRow) : ReportEntry where
  symbol := r.symbol
  timeframe := r.timeframe
  grade := r.grade
  total := r.total
  wins := r.wins
  winRate := r.winRate
  totalPnl := r.totalPnl
  avgPnl := r.avgPnl

end ReportRow

/-- A report over some trades: how a trade is counted, and the row of what
is counted under a key. -/
def reportOf (key : TradeRecord → String) (row : String → SymStats → ReportRow)
    (trades : List TradeRecord) : List ReportRow :=
  ((Table.tally key SymStats.count {} trades).entries.map fun e => row e.1 e.2).mergeSort
    fun a b => b.totalPnl ≤ a.totalPnl

/-! ## Reports by symbol -/

/-- The row a report by symbol has of a key. -/
def symbolRow (symbol : String) (s : SymStats) : ReportRow := .ofStats symbol "" "" s

/-- `get_symbol_report` of the futures tracker. -/
def ShadowTracker.getSymbolReport (t : ShadowTracker) : List ReportRow :=
  reportOf (·.symbol) symbolRow t.trades

/-- The key the spot tracker counts a trade under, which its report gives as
the symbol. -/
def SpotShadowTracker.reportKey (t : TradeRecord) : String :=
  VirtualPosition.makeKey t.symbol t.timeframe t.exchange

/-- `get_symbol_report` of the spot tracker. -/
def SpotShadowTracker.getSymbolReport (t : SpotShadowTracker) : List ReportRow :=
  reportOf reportKey symbolRow t.trades

/-! ## Reports by symbol and timeframe -/

/-- The key of a symbol and a timeframe; an empty timeframe is `0`. -/
def symbolTfKey (t : TradeRecord) : String :=
  t.symbol ++ ":" ++ (if t.timeframe = "" then "0" else t.timeframe)

/-- The row a report by timeframe has of a key, which is cut at its first
colon. -/
def symbolTfRow (key : String) (s : SymStats) : ReportRow :=
  .ofStats (String.ofList (key.toList.takeWhile (· ≠ ':')))
    (String.ofList ((key.toList.dropWhile (· ≠ ':')).drop 1)) key s

/-- `get_symbol_tf_report` of the futures tracker. -/
def ShadowTracker.getSymbolTfReport (t : ShadowTracker) : List ReportRow :=
  reportOf symbolTfKey symbolTfRow t.trades

/-- `get_symbol_tf_report` of the spot tracker. -/
def SpotShadowTracker.getSymbolTfReport (t : SpotShadowTracker) : List ReportRow :=
  reportOf symbolTfKey symbolTfRow t.trades

end WebhookTrader
