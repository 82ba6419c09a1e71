import WebhookTrader.Backtest.Model.Backtester
import WebhookTrader.Common.Json
import WebhookTrader.Common.Tally

/-!
# The walk-forward optimizer

`WFOptimizer`: windows roll over the signals, the grid is searched on the
first part of each and its best pair tried on the second, and the pair
that is best most often is recommended. The pairs are counted under a
text; in which order an `unordered_map` is gone through is not its
contents' choice, so the order is a parameter.
-/

namespace WebhookTrader

inductive Objective
  | sharpe
  | pnl
  | profitFactor
  | returnOverDd
  deriving DecidableEq, Repr

structure WFConfig where
  isRatio : ℚ := 7 / 10
  minIsSignals : ℤ := 50
  minOosSignals : ℤ := 20
  /-- Zero stands for the size of the second part. -/
  stepSize : ℤ := 0
  amountGrid : List ℚ := [5, 10, 15, 20, 30, 50, 75, 100]
  leverageGrid : List ℤ := [3, 5, 7, 10, 15, 20, 25]
  feeRate : ℚ := 6 / 10000
  initialBalance : ℚ := 1000
  objective : Objective := .sharpe

structure WFWindowResult where
  windowId : ℤ := 0
  isStart : ℤ := 0
  isEnd : ℤ := 0
  oosStart : ℤ := 0
  oosEnd : ℤ := 0
  bestAmount : ℚ := 0
  bestLeverage : ℤ := 0
  isSharpe : ℚ := 0
  isPnl : ℚ := 0
  oosMetrics : BtMetrics

structure WFResult where
  windows : List WFWindowResult := []
  totalOosPnl : ℚ := 0
  totalOosReturnPct : ℚ := 0
  avgOosSharpe : ℚ := 0
  maxOosDrawdown : ℚ := 0
  totalOosTrades : ℤ := 0
  oosWinRate : ℚ := 0
  recommendedAmount : ℚ := 0
  recommendedLeverage : ℤ := 0

/-- **An order in which a map is gone through.** -/
structure MapOrder where
  visit : Table String ℕ → List (String × ℕ)
  perm : ∀ t, (visit t).Perm (t.entries.map fun e => (e.1, e.2))

/-- `static_cast<int>` of a double. -/
def castInt (x : ℚ) : ℤ := (Json.truncate x).bmod (2 ^ 32)

namespace WFConfig

variable (cfg : WFConfig) (sharpe : List ℚ → ℚ)

/-- `make_params`. -/
def makeParams (amount : ℚ) (leverage : ℤ) : BtParams where
  tradeAmountUsdt := amount
  leverage := leverage
  feeRate := cfg.feeRate
  initialBalance := cfg.initialBalance

/-- `evaluate`. -/
def evaluate (m : BtMetrics) : ℚ :=
  match cfg.objective with
  | .sharpe => m.sharpeRatio - max 0 (m.maxDrawdownPct - 10) * (1 / 10)
  | .pnl => m.totalPnl
  | .profitFactor => m.profitFactor
  | .returnOverDd =>
      if 1 / 10 < m.maxDrawdownPct then m.totalReturnPct / m.maxDrawdownPct else m.totalReturnPct

/-! ## The grid -/

structure GridResult where
  amount : ℚ
  leverage : ℤ
  score : ℚ
  pnl : ℚ

/-- A pair of the grid is tried, and taken where it scores higher. -/
def tryPair (signals : List BtSignal) (best : GridResult) (pair : ℚ × ℤ) : GridResult :=
  let metrics := Backtester.run (cfg.makeParams pair.1 pair.2) sharpe signals
  let score := cfg.evaluate metrics
  if best.score < score then ⟨pair.1, pair.2, score, metrics.totalPnl⟩ else best

/-- The pairs of the grid, in the order of the two loops. -/
def grid : List (ℚ × ℤ) :=
  cfg.amountGrid.flatMap fun amount => cfg.leverageGrid.map fun leverage => (amount, leverage)

/-- **`grid_search`**, of grids that are not empty. -/
def gridSearch (signals : List BtSignal) : GridResult :=
  cfg.grid.foldl (cfg.tryPair sharpe signals)
    ⟨cfg.amountGrid.headD 0, cfg.leverageGrid.headD 0, -(10 ^ 9), 0⟩

/-! ## The windows -/

/-- `total_window`. -/
def totalWindow (n : ℤ) : ℤ :=
  max (cfg.minIsSignals + cfg.minOosSignals) (Json.truncate (n * (1 / 2)))

/-- `is_size`, raised to its minimum. -/
def isSize (n : ℤ) : ℤ :=
  max (Json.truncate (cfg.totalWindow n * cfg.isRatio)) cfg.minIsSignals

/-- `oos_size`, raised to its minimum. -/
def oosSize (n : ℤ) : ℤ :=
  max (cfg.totalWindow n - Json.truncate (cfg.totalWindow n * cfg.isRatio)) cfg.minOosSignals

def step (n : ℤ) : ℤ := if 0 < cfg.stepSize then cfg.stepSize else cfg.oosSize n

/-- The signals from one place to another. -/
def slice (signals : List BtSignal) (first last : ℤ) : List BtSignal :=
  (signals.drop first.toNat).take (last - first).toNat

/-- The window that begins at a place. -/
def window (signals : List BtSignal) (id start : ℤ) : WFWindowResult :=
  let n : ℤ := signals.length
  let isEnd := start + cfg.isSize n
  let oosEnd := min (isEnd + cfg.oosSize n) n
  let best := cfg.gridSearch sharpe (slice signals start isEnd)
  { windowId := id
    isStart := start
    isEnd
    oosStart := isEnd
    oosEnd
    bestAmount := best.amount
    bestLeverage := best.leverage
    isSharpe := best.score
    isPnl := best.pnl
    oosMetrics :=
      Backtester.run (cfg.makeParams best.amount best.leverage) sharpe
        (slice signals isEnd oosEnd) }

/-- **The rolling loop**, for so many passes. -/
def roll (signals : List BtSignal) : ℕ → ℤ → ℤ → List WFWindowResult
  | 0, _, _ => []
  | passes + 1, id, start =>
      let n : ℤ := signals.length
      if start + cfg.isSize n + cfg.oosSize n ≤ n then
        cfg.window sharpe signals id start :: roll signals passes (id + 1) (start + cfg.step n)
      else []

/-- All the windows: a step is one signal at least, so there are no more
passes than signals. -/
def windows (signals : List BtSignal) : List WFWindowResult :=
  cfg.roll sharpe signals (signals.length + 1) 0 0

/-! ## The recommendation -/

/-- The text a window's pair is counted under. -/
def paramKey (w : WFWindowResult) : String :=
  toString (castInt w.bestAmount) ++ "_" ++ toString w.bestLeverage

/-- `param_freq`. -/
def paramFreq (windows : List WFWindowResult) : Table String ℕ :=
  Table.tally paramKey (fun freq _ => freq + 1) 0 windows

/-- What stands before the first underscore, and what stands after it. -/
def splitKey (key : String) : String × String :=
  (String.ofList (key.toList.takeWhile (· ≠ '_')),
    String.ofList ((key.toList.dropWhile (· ≠ '_')).drop 1))

/-- The pair a text stands for; an amount that is no finite number does not
come out of `std::to_string`. -/
def readKey (key : String) : Except Exception (ℚ × ℤ) := do
  let amount ← match Cxx.stod (splitKey key).1 with
    | .ok (.finite q) => .ok q
    | .ok .nonfinite => .ok 0
    | .error e => .error e
  let leverage ← Cxx.stoi (splitKey key).2
  return (amount, leverage)

/-- The loop over the counts: a count higher than all before it is taken. -/
def mostFrequent : List (String × ℕ) → ℕ → ℚ × ℤ → Except Exception (ℚ × ℤ)
  | [], _, pair => .ok pair
  | (key, freq) :: rest, maxFreq, pair =>
      if maxFreq < freq then do
        let pair ← readKey key
        mostFrequent rest freq pair
      else mostFrequent rest maxFreq pair

/-- **`compute_final_results`.** -/
def computeFinalResults (order : MapOrder) (windows : List WFWindowResult) :
    Except Exception WFResult :=
  if windows = [] then .ok {}
  else do
    let sumPnl := (windows.map fun w => w.oosMetrics.totalPnl).sum
    let sumSharpe := (windows.map fun w => w.oosMetrics.sharpeRatio).sum
    let sumTrades := (windows.map fun w => (w.oosMetrics.totalTrades : ℤ)).sum
    let sumWins := (windows.map fun w => (w.oosMetrics.wins : ℤ)).sum
    let pair ← mostFrequent (order.visit (paramFreq windows)) 0 (0, 0)
    return {
      windows
      totalOosPnl := sumPnl
      totalOosReturnPct :=
        if 0 < cfg.initialBalance then sumPnl / cfg.initialBalance * 100 else 0
      avgOosSharpe := sumSharpe / windows.length
      maxOosDrawdown := windows.foldl (fun dd w => max dd w.oosMetrics.maxDrawdownPct) 0
      totalOosTrades := sumTrades
      oosWinRate := if 0 < sumTrades then sumWins / sumTrades else 0
      recommendedAmount := pair.1
      recommendedLeverage := pair.2 }

/-- **`single_pass_optimize`**: one window of all the signals. -/
def singlePassOptimize (signals : List BtSignal) : WFResult :=
  let best := cfg.gridSearch sharpe signals
  let metrics := Backtester.run (cfg.makeParams best.amount best.leverage) sharpe signals
  { windows := [
      { isEnd := signals.length
        oosEnd := signals.length
        bestAmount := best.amount
        bestLeverage := best.leverage
        isSharpe := best.score
        isPnl := best.pnl
        oosMetrics := metrics }]
    totalOosPnl := metrics.totalPnl
    totalOosReturnPct := metrics.totalReturnPct
    avgOosSharpe := metrics.sharpeRatio
    maxOosDrawdown := metrics.maxDrawdownPct
    totalOosTrades := metrics.totalTrades
    oosWinRate := metrics.winRate
    recommendedAmount := best.amount
    recommendedLeverage := best.leverage }

/-- **`optimize`.** -/
def optimize (order : MapOrder) (signals : List BtSignal) : Except Exception WFResult :=
  if (signals.length : ℤ) < cfg.minIsSignals + cfg.minOosSignals then
    .ok (cfg.singlePassOptimize sharpe signals)
  else cfg.computeFinalResults order (cfg.windows sharpe signals)

end WFConfig

end WebhookTrader
