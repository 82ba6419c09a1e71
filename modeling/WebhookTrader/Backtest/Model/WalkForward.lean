import WebhookTrader.Backtest.Model.Entries
import WebhookTrader.Backtest.Model.WfOptimizer

/-!
# The walk-forward mode and its divisions

`run_wf` with the backtests it makes: those of the optimizer, on every
pair of the grid and on the pair that was best, and the one of all the
signals with the recommended pair. Beside each handler of the backtester
stand the divisors of the divisions it performs.
-/

namespace WebhookTrader

namespace Backtester

/-! ## The divisors -/

/-- `record_trade` divides where the price of entry is positive. -/
def tradeDivisors (pos : BtPosition) (qty : ℚ) : List ℚ :=
  if 0 < pos.entryPrice then [qty * pos.entryPrice] else []

/-- `close_position`. -/
def closeDivisors (symbol : String) (b : Backtester) : List ℚ :=
  match b.positions.lookup symbol with
  | none => []
  | some pos => tradeDivisors pos pos.quantity

variable (params : BtParams)

/-- `handle_entry`: the close of a position on the other side, and the size
and the margin. -/
def entryDivisors (sig : BtSignal) (b : Backtester) : List ℚ :=
  let check := [sig.price, (params.leverage : ℚ)]
  match b.positions.lookup sig.symbol with
  | none => check
  | some pos =>
      if pos.side ≠ sig.side then b.closeDivisors sig.symbol ++ check
      else []

/-- `handle_tp`. -/
def tpDivisors (sig : BtSignal) (b : Backtester) : List ℚ :=
  match b.positions.lookup sig.symbol with
  | none => []
  | some pos =>
      let qty := closeQty params sig pos
      if qty ≤ 0 then [] else tradeDivisors pos qty

/-- **What `process_signal` divides by.** -/
def divisors (b : Backtester) (sig : BtSignal) : List ℚ :=
  match b.entrySignal sig with
  | some entry => b.entryDivisors params entry
  | none =>
      if sig.isTp then b.tpDivisors params sig
      else if sig.isSl then b.closeDivisors sig.symbol
      else []

/-- What the closing of all that is left divides by. -/
def expiryDivisors : List String → Backtester → List ℚ
  | [], _ => []
  | symbol :: symbols, b =>
      b.closeDivisors symbol ++ expiryDivisors symbols (expire params b symbol)

/-- What the signals of a run divide by, from a state on. -/
def signalDivisors : List BtSignal → Backtester → List ℚ
  | [], _ => []
  | sig :: signals, b =>
      b.divisors params sig ++ signalDivisors signals (b.processSignal params sig)

/-- **What `run` divides by.** -/
def runDivisors (signals : List BtSignal) : List ℚ :=
  signalDivisors params signals (reset params) ++
    expiryDivisors params (after params signals).positions.keys (after params signals)

end Backtester

/-! ## The backtests of the walk-forward mode -/

/-- A backtest: its parameters and its signals. -/
abbrev Backtest := BtParams × List BtSignal

namespace WFConfig

variable (cfg : WFConfig) (sharpe : List ℚ → ℚ)

/-- The backtests of `grid_search`. -/
def gridBacktests (signals : List BtSignal) : List Backtest :=
  cfg.grid.map fun pair => (cfg.makeParams pair.1 pair.2, signals)

/-- The backtests of a window: the grid on its first part, and the pair that
was best on its second. -/
def windowBacktests (signals : List BtSignal) (w : WFWindowResult) : List Backtest :=
  cfg.gridBacktests (slice signals w.isStart w.isEnd) ++
    [(cfg.makeParams w.bestAmount w.bestLeverage, slice signals w.oosStart w.oosEnd)]

/-- **The backtests of `optimize`.** -/
def optimizeBacktests (signals : List BtSignal) : List Backtest :=
  if (signals.length : ℤ) < cfg.minIsSignals + cfg.minOosSignals then
    let best := cfg.gridSearch sharpe signals
    cfg.gridBacktests signals ++ [(cfg.makeParams best.amount best.leverage, signals)]
  else (cfg.windows sharpe signals).flatMap (cfg.windowBacktests signals)

end WFConfig

namespace WalkForward

/-- The configuration of `run_wf`. -/
def config (balance : ℚ) : WFConfig := { initialBalance := balance }

/-- The parameters of the last backtest. -/
def finalParams (balance : ℚ) (r : WFResult) : BtParams where
  tradeAmountUsdt := r.recommendedAmount
  leverage := r.recommendedLeverage
  initialBalance := balance

variable (sharpe : List ℚ → ℚ) (order : MapOrder) (balance : ℚ)

/-- **`run_wf`**: the result of the optimizer and the figures of the last
backtest. -/
def runWf (signals : List BtSignal) : Except Exception (WFResult × BtMetrics) := do
  let r ← (config balance).optimize sharpe order signals
  return (r, Backtester.run (finalParams balance r) sharpe signals)

/-- **The backtests of `run_wf`.** -/
def backtests (signals : List BtSignal) : List Backtest :=
  (config balance).optimizeBacktests sharpe signals ++
    match (config balance).optimize sharpe order signals with
    | .ok r => [(finalParams balance r, signals)]
    | .error _ => []

end WalkForward

end WebhookTrader
