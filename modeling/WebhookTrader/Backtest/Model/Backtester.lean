import Mathlib.Algebra.Order.Ring.Unbundled.Rat
import WebhookTrader.Common.Table

/-!
# The backtester

`Backtester`: a list of signals is replayed on positions by symbol, and
the figures are computed of what was recorded. What is still open in the
end is closed at its price of entry. The Sharpe ratio takes a square root,
so it is a function of the recorded profits from outside.
-/

namespace WebhookTrader

/-! ## Signals -/

/-- `BtSignal`, as far as the backtester reads it. -/
structure BtSignal where
  alert : String
  symbol : String
  price : ℚ := 0
  direction : String := ""
  deriving DecidableEq, Repr

namespace BtSignal

variable (sig : BtSignal)

def isEntry : Bool := sig.alert = "buy" || sig.alert = "sell"

def isTp : Bool := sig.alert = "TP1" || sig.alert = "TP2" || sig.alert = "TP3"

def isSl : Bool := sig.alert = "sl" || sig.alert = "SL"

def isReentry : Bool := sig.alert = "re-entry" || sig.alert = "RE"

def tpLevel : ℕ :=
  if sig.alert = "TP1" then 1
  else if sig.alert = "TP2" then 2
  else if sig.alert = "TP3" then 3
  else 0

/-- The side an entry opens. -/
def side : String := if sig.alert = "buy" then "long" else "short"

end BtSignal

/-! ## State -/

structure BtParams where
  tradeAmountUsdt : ℚ := 10
  leverage : ℤ := 10
  feeRate : ℚ := 6 / 10000
  tp1Ratio : ℚ := 33 / 100
  tp2Ratio : ℚ := 33 / 100
  initialBalance : ℚ := 1000
  deriving DecidableEq, Repr

structure BtPosition where
  symbol : String
  side : String
  entryPrice : ℚ
  quantity : ℚ
  initialQty : ℚ
  leverage : ℤ := 10
  deriving DecidableEq, Repr

structure BtTradeResult where
  symbol : String
  side : String
  entryPrice : ℚ
  exitPrice : ℚ
  quantity : ℚ
  pnl : ℚ
  pnlPct : ℚ
  exitReason : String
  deriving DecidableEq, Repr

/-- **The backtester's state.** -/
structure Backtester where
  balance : ℚ
  peakBalance : ℚ
  maxDd : ℚ := 0
  positions : Table String BtPosition := ∅
  results : List BtTradeResult := []
  equityCurve : List ℚ

namespace Backtester

/-- `reset`. -/
def reset (params : BtParams) : Backtester where
  balance := params.initialBalance
  peakBalance := params.initialBalance
  equityCurve := [params.initialBalance]

/-! ## What the handlers share -/

def calcPnl (side : String) (entry exit qty : ℚ) : ℚ :=
  if side = "long" then (exit - entry) * qty else (entry - exit) * qty

/-- The profit of a close, net of the fee. -/
def netPnl (params : BtParams) (pos : BtPosition) (exitPrice qty : ℚ) : ℚ :=
  calcPnl pos.side pos.entryPrice exitPrice qty - qty * exitPrice * params.feeRate

/-- The record of a close. -/
def tradeResult (pos : BtPosition) (exitPrice qty pnl : ℚ) (reason : String) : BtTradeResult where
  symbol := pos.symbol
  side := pos.side
  entryPrice := pos.entryPrice
  exitPrice := exitPrice
  quantity := qty
  pnl := pnl
  pnlPct := if 0 < pos.entryPrice then pnl / (qty * pos.entryPrice) * 100 else 0
  exitReason := reason

/-- `record_trade`. -/
def recordTrade (pos : BtPosition) (exitPrice qty pnl : ℚ) (reason : String) (b : Backtester) :
    Backtester :=
  { b with results := b.results ++ [tradeResult pos exitPrice qty pnl reason] }

/-- `update_equity`. -/
def updateEquity (b : Backtester) : Backtester :=
  let peakBalance := max b.peakBalance b.balance
  let dd := if 0 < peakBalance then (peakBalance - b.balance) / peakBalance * 100 else 0
  { b with
    equityCurve := b.equityCurve ++ [b.balance]
    peakBalance
    maxDd := max b.maxDd dd }

variable (params : BtParams)

/-- **`close_position`.** -/
def closePosition (symbol : String) (exitPrice : ℚ) (reason : String) (b : Backtester) :
    Backtester :=
  match b.positions.lookup symbol with
  | none => b
  | some pos =>
      let pnl := netPnl params pos exitPrice pos.quantity
      let b := { b with balance := b.balance + pnl }
      let b := b.recordTrade pos exitPrice pos.quantity pnl reason
      updateEquity { b with positions := b.positions.erase symbol }

/-! ## Handlers -/

/-- The position an entry opens. -/
def opened (sig : BtSignal) : BtPosition where
  symbol := sig.symbol
  side := sig.side
  entryPrice := sig.price
  quantity := params.tradeAmountUsdt / sig.price
  initialQty := params.tradeAmountUsdt / sig.price
  leverage := params.leverage

/-- The fee that is paid for a position when it is opened. -/
def entryFee (pos : BtPosition) : ℚ := pos.quantity * pos.entryPrice * params.feeRate

/-- The end of `handle_entry`: the margin check and the position. -/
def enter (sig : BtSignal) (b : Backtester) : Backtester :=
  let margin := params.tradeAmountUsdt / params.leverage
  if b.balance * (95 / 100) < margin then b
  else
    { b with
      balance := b.balance - entryFee params (opened params sig)
      positions := b.positions.insert sig.symbol (opened params sig) }

/-- **`handle_entry`**: a position on the other side is closed before. -/
def handleEntry (sig : BtSignal) (b : Backtester) : Backtester :=
  match b.positions.lookup sig.symbol with
  | none => b.enter params sig
  | some pos =>
      if pos.side ≠ sig.side then
        (b.closePosition params sig.symbol sig.price "REVERSE").enter params sig
      else b

/-- The quantity a take-profit closes: a share of the initial quantity, at
most what is left. -/
def closeQty (sig : BtSignal) (pos : BtPosition) : ℚ :=
  if sig.tpLevel = 3 then pos.quantity
  else
    let closeRatio :=
      if sig.tpLevel = 1 then params.tp1Ratio else if sig.tpLevel = 2 then params.tp2Ratio else 0
    min (pos.initialQty * closeRatio) pos.quantity

/-- **`handle_tp`.** -/
def handleTp (sig : BtSignal) (b : Backtester) : Backtester :=
  match b.positions.lookup sig.symbol with
  | none => b
  | some pos =>
      let qty := closeQty params sig pos
      if qty ≤ 0 then b
      else
        let pnl := netPnl params pos sig.price qty
        let b := { b with
          balance := b.balance + pnl
          positions := b.positions.modify sig.symbol fun p =>
            { p with quantity := p.quantity - qty } }
        let b := b.recordTrade pos sig.price qty pnl sig.alert
        updateEquity
          (if pos.quantity - qty ≤ 1 / 10 ^ 12 then
            { b with positions := b.positions.erase sig.symbol }
          else b)

/-- `handle_sl`. -/
def handleSl (sig : BtSignal) (b : Backtester) : Backtester :=
  b.closePosition params sig.symbol sig.price "SL"

/-- **`handle_reentry`**: an entry in the signal's direction, where the
symbol has no position. -/
def handleReentry (sig : BtSignal) (b : Backtester) : Backtester :=
  if (b.positions.lookup sig.symbol).isSome then b
  else b.handleEntry params { sig with alert := if sig.direction = "bull" then "buy" else "sell" }

/-- **`process_signal`.** -/
def processSignal (b : Backtester) (sig : BtSignal) : Backtester :=
  if sig.isEntry then b.handleEntry params sig
  else if sig.isTp then b.handleTp params sig
  else if sig.isSl then b.handleSl params sig
  else if sig.isReentry then b.handleReentry params sig
  else b

/-! ## A run -/

/-- One position is closed at its price of entry. -/
def expire (b : Backtester) (symbol : String) : Backtester :=
  match b.positions.lookup symbol with
  | none => b
  | some pos => b.closePosition params symbol pos.entryPrice "EXPIRE"

/-- `close_all_remaining`. -/
def closeAllRemaining (b : Backtester) : Backtester := b.positions.keys.foldl (expire params) b

/-- The state that `run` computes the figures of. -/
def replay (signals : List BtSignal) : Backtester :=
  (signals.foldl (processSignal params) (reset params)).closeAllRemaining params

end Backtester

/-- **`BtMetrics`.** -/
structure BtMetrics where
  totalPnl : ℚ
  totalReturnPct : ℚ
  totalTrades : ℕ
  wins : ℕ
  losses : ℕ
  winRate : ℚ
  avgPnl : ℚ
  maxDrawdownPct : ℚ
  sharpeRatio : ℚ
  profitFactor : ℚ
  finalBalance : ℚ
  avgWin : ℚ
  avgLoss : ℚ
  deriving DecidableEq, Repr

namespace Backtester

/-- **`compute_metrics`**, with the Sharpe ratio of a list of profits. -/
def computeMetrics (params : BtParams) (sharpe : List ℚ → ℚ) (b : Backtester) : BtMetrics :=
  let returns := b.results.map BtTradeResult.pnl
  let wins := returns.countP fun pnl => 0 < pnl
  let losses := returns.countP fun pnl => pnl < 0
  let sumWins := (returns.filter fun pnl => 0 < pnl).sum
  let sumLosses := ((returns.filter fun pnl => pnl < 0).map abs).sum
  let totalTrades := b.results.length
  let totalPnl := b.balance - params.initialBalance
  { totalPnl
    totalReturnPct :=
      if 0 < params.initialBalance then totalPnl / params.initialBalance * 100 else 0
    totalTrades
    wins
    losses
    winRate := if 0 < totalTrades then wins / totalTrades else 0
    avgPnl := if 0 < totalTrades then totalPnl / totalTrades else 0
    maxDrawdownPct := b.maxDd
    sharpeRatio := sharpe returns
    profitFactor := if 0 < sumLosses then sumWins / sumLosses else 999
    finalBalance := b.balance
    avgWin := if 0 < wins then sumWins / wins else 0
    avgLoss := if 0 < losses then sumLosses / losses else 0 }

/-- **`run`.** -/
def run (params : BtParams) (sharpe : List ℚ → ℚ) (signals : List BtSignal) : BtMetrics :=
  (replay params signals).computeMetrics params sharpe

end Backtester

end WebhookTrader
