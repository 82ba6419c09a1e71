import Mathlib.Data.Rat.Defs
import Mathlib.Data.List.Sort

/-!
# Readiness for live trading

`LiveReadinessEngine`: what a shadow report makes of each symbol, how
many symbols are ready, and which keys are eligible for real orders. The
confidence the engine also keeps changes sizes only and has a module of
its own.
-/

namespace WebhookTrader

inductive ReadinessLevel
  | blocked
  | learning
  | promising
  | ready
  | proven
  deriving DecidableEq, Repr

namespace ReadinessLevel

def rank : ReadinessLevel → ℕ
  | blocked => 0
  | learning => 1
  | promising => 2
  | ready => 3
  | proven => 4

/-- Ready or proven. -/
def isLive (level : ReadinessLevel) : Bool := level = ready || level = proven

end ReadinessLevel

/-- One entry of a shadow report, with the reader's defaults. The recent
figures are missing from reports that do not compute them. -/
structure ReportEntry where
  symbol : String := ""
  timeframe : String := ""
  grade : String := "?"
  total : ℤ := 0
  wins : ℤ := 0
  winRate : ℚ := 0
  totalPnl : ℚ := 0
  avgPnl : ℚ := 0
  recentTrades : Option ℤ := none
  recentWins : Option ℤ := none
  recentPnl : Option ℚ := none
  deriving DecidableEq, Repr

structure SymbolReadiness where
  symbol : String
  market : String
  level : ReadinessLevel
  grade : String
  totalTrades : ℤ
  wins : ℤ
  winRate : ℚ
  totalPnl : ℚ
  avgPnl : ℚ
  reason : String
  deriving DecidableEq, Repr

structure PipelineStatus where
  totalSymbols : ℕ
  blocked : ℕ
  learning : ℕ
  promising : ℕ
  ready : ℕ
  proven : ℕ
  canGoLive : Bool
  minSymbolsForLive : ℤ
  deriving DecidableEq, Repr

/-- The part of the configuration the evaluation reads. -/
structure ReadinessConfig where
  minTradesReady : ℤ := 10
  minTradesProven : ℤ := 20
  minSymbolsForLive : ℤ := 5
  requirePositivePnl : Bool := true
  deriving DecidableEq, Repr

/-- The configuration with the grades it names, which nothing reads after
the start. -/
structure ReadinessThresholds extends ReadinessConfig where
  minGradeReady : String := "B"
  minGradeProven : String := "A"
  deriving DecidableEq, Repr

/-- `grade_to_rank`. -/
def gradeToRank (grade : String) : ℕ :=
  if grade = "A+" then 7
  else if grade = "A" then 6
  else if grade = "B" then 5
  else if grade = "C" then 4
  else if grade = "D" then 3
  else if grade = "F" then 2
  else if grade = "?" then 1
  else 0

/-- The four reports a readiness check reads. -/
structure Reports where
  futures : List ReportEntry := []
  spot : List ReportEntry := []
  futuresTf : List ReportEntry := []
  spotTf : List ReportEntry := []
  deriving DecidableEq, Repr

namespace Readiness

/-! ## One symbol -/

/-- The level of an entry, and why. -/
def level (cfg : ReadinessConfig) (e : ReportEntry) : ReadinessLevel × String :=
  let pnlOk : Bool := 0 < e.totalPnl || !cfg.requirePositivePnl
  let smallSampleCapC : Bool := e.total < 15
  let trades := toString e.total
  if e.grade = "?" ∨ e.total < 5 then
    (.learning,
      if e.grade = "?" then "Insufficient data (grade unknown)"
      else "Too few trades (" ++ trades ++ " < 5)")
  else if e.grade = "F" ∨ e.grade = "D" then
    (.blocked, "Poor grade (" ++ e.grade ++ ") - not suitable for live trading")
  else if e.grade = "C" then
    if 0 < e.totalPnl then (.promising, "Grade C with positive PnL - keep monitoring")
    else (.blocked, "Grade C with negative PnL - blocked")
  else if e.grade = "A+" ∨ e.grade = "A" then
    if smallSampleCapC then
      (.promising,
        "Grade " ++ e.grade ++ " but only " ++ trades ++ " trades (<15, small sample cap)")
    else if cfg.minTradesProven ≤ e.total ∧ pnlOk then
      (.proven, "Grade " ++ e.grade ++ " with " ++ trades ++ " trades - high confidence")
    else if cfg.minTradesReady ≤ e.total ∧ pnlOk then
      (.ready,
        "Grade " ++ e.grade ++ " with " ++ trades ++ " trades (need " ++
          toString cfg.minTradesProven ++ " for PROVEN)")
    else if pnlOk then
      (.promising,
        "Grade " ++ e.grade ++ " with " ++ trades ++ " trades (need " ++
          toString cfg.minTradesReady ++ " for READY)")
    else (.promising, "Grade " ++ e.grade ++ " but negative PnL - keep watching")
  else if e.grade = "B" then
    if smallSampleCapC then
      (.promising, "Grade B but only " ++ trades ++ " trades (<15, small sample cap)")
    else if cfg.minTradesReady ≤ e.total ∧ pnlOk then
      (.ready, "Grade B with " ++ trades ++ " trades and positive PnL - ready for live")
    else if e.total < cfg.minTradesReady then
      (.promising,
        "Grade B but only " ++ trades ++ " trades (need " ++ toString cfg.minTradesReady ++ ")")
    else (.promising, "Grade B with enough trades but negative PnL")
  else (.learning, "Unrecognized grade: " ++ e.grade)

/-- `evaluate_symbol`. -/
def evaluateSymbol (cfg : ReadinessConfig) (market : String) (e : ReportEntry) :
    SymbolReadiness where
  symbol := e.symbol
  market
  level := (level cfg e).1
  grade := e.grade
  totalTrades := e.total
  wins := e.wins
  winRate := e.winRate
  totalPnl := e.totalPnl
  avgPnl := e.avgPnl
  reason := (level cfg e).2

/-! ## The pipeline -/

/-- `evaluate_all`, the higher levels first and the higher profit first
within a level. -/
def evaluateAll (cfg : ReadinessConfig) (futures spot : List ReportEntry) :
    List SymbolReadiness :=
  (futures.map (evaluateSymbol cfg "futures") ++ spot.map (evaluateSymbol cfg "spot")).mergeSort
    fun a b =>
      if a.level = b.level then b.totalPnl ≤ a.totalPnl else b.level.rank ≤ a.level.rank

/-- `get_pipeline_status`. -/
def getPipelineStatus (cfg : ReadinessConfig) (readiness : List SymbolReadiness) :
    PipelineStatus :=
  let number := fun l : ReadinessLevel => readiness.countP fun r => r.level = l
  { totalSymbols := readiness.length
    blocked := number .blocked
    learning := number .learning
    promising := number .promising
    ready := number .ready
    proven := number .proven
    canGoLive := cfg.minSymbolsForLive ≤ (number .ready + number .proven : ℕ)
    minSymbolsForLive := cfg.minSymbolsForLive }

/-! ## Eligible keys -/

/-- The number of trades the demotion looks back on. -/
def rollingWindow : ℤ := 20

/-- The rolling figures of an entry are bad: a full window with a loss or
with fewer than two wins in five. -/
def shouldDemote (e : ReportEntry) : Bool :=
  let count := min (e.recentTrades.getD e.total) rollingWindow
  let wins := min (e.recentWins.getD e.wins) count
  rollingWindow ≤ count &&
    (e.recentPnl.getD e.totalPnl < 0 || (0 < count && (wins : ℚ) / count < 2 / 5))

/-- The entry whose rolling figures a symbol keeps: the last one read, the
spot report after the futures report. -/
def rollingEntry (futures spot : List ReportEntry) (symbol : String) : Option ReportEntry :=
  (futures ++ spot).reverse.find? fun e => e.symbol = symbol && e.symbol ≠ ""

/-- `refresh_eligible`: the status, and the symbols that are ready or
proven and not demoted. -/
def refreshEligible (cfg : ReadinessConfig) (futures spot : List ReportEntry) :
    PipelineStatus × List String :=
  let all := evaluateAll cfg futures spot
  (getPipelineStatus cfg all,
    (all.filter fun r =>
      r.level.isLive && !((rollingEntry futures spot r.symbol).any shouldDemote)).map (·.symbol))

/-- `enrich_eligible_with_context`: both directions of every symbol and
timeframe that is ready or proven on its own. -/
def contextKeys (cfg : ReadinessConfig) (report : List ReportEntry) : List String :=
  (report.filter fun e => e.symbol ≠ "" && e.timeframe ≠ "" && (level cfg e).1.isLive).flatMap
    fun e => [e.symbol ++ ":" ++ e.timeframe ++ ":long", e.symbol ++ ":" ++ e.timeframe ++ ":short"]

/-- What a periodic check computes from the reports: whether live trading
may be on, and the eligible keys. -/
def check (cfg : ReadinessConfig) (r : Reports) : Bool × List String :=
  let (ps, keys) := refreshEligible cfg r.futures r.spot
  (ps.canGoLive, keys ++ contextKeys cfg r.futuresTf ++ contextKeys cfg r.spotTf)

end Readiness

end WebhookTrader
