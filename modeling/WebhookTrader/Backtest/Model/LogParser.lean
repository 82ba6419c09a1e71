import WebhookTrader.Backtest.Model.Backtester
import WebhookTrader.Common.Json

/-!
# The signals of a state file

`LogParser::load` on the JSON value of a state file, with the filters
`main` puts on the signals. A missing field has its default, a field of
another type raises, and a file without an array of signals has none.
-/

namespace WebhookTrader

/-- `BtSignal`, with what only the parser and its filters look at. -/
structure LogSignal extends BtSignal where
  time : String
  entryPrice : ℚ
  rating : ℤ
  timeframe : String
  deriving DecidableEq, Repr

structure BtTrade where
  timestamp : String
  symbol : String
  side : String
  entryPrice : ℚ
  exitPrice : ℚ
  quantity : ℚ
  pnl : ℚ
  pnlPct : ℚ
  fee : ℚ
  durationMin : ℚ
  exitReason : String
  timeframe : String
  deriving DecidableEq, Repr

structure ParsedState where
  signals : List LogSignal
  trades : List BtTrade
  balance : ℚ
  totalPnl : ℚ
  totalTrades : ℤ
  wins : ℤ
  losses : ℤ
  deriving DecidableEq, Repr

namespace LogParser

/-- An element of `signals`. -/
def readSignal (s : Json) : Except Exception LogSignal := do
  let time ← s.value Json.getString "time" ""
  let alert ← s.value Json.getString "alert" ""
  let symbol ← s.value Json.getString "symbol" ""
  let price ← s.value Json.getDouble "price" 0
  let entryPrice ← s.value Json.getDouble "entry_price" 0
  let direction ← s.value Json.getString "direction" ""
  let rating ← s.value Json.getInt "rating" 0
  let timeframe ← s.value Json.getString "timeframe" ""
  return { time, alert, symbol, price, entryPrice, direction, rating, timeframe }

/-- An element of `trades`. -/
def readTrade (t : Json) : Except Exception BtTrade := do
  let timestamp ← t.value Json.getString "timestamp" ""
  let symbol ← t.value Json.getString "symbol" ""
  let side ← t.value Json.getString "side" ""
  let entryPrice ← t.value Json.getDouble "entry_price" 0
  let exitPrice ← t.value Json.getDouble "exit_price" 0
  let quantity ← t.value Json.getDouble "quantity" 0
  let pnl ← t.value Json.getDouble "pnl" 0
  let pnlPct ← t.value Json.getDouble "pnl_pct" 0
  let fee ← t.value Json.getDouble "fee" 0
  let durationMin ← t.value Json.getDouble "duration_min" 0
  let exitReason ← t.value Json.getString "exit_reason" ""
  let timeframe ← t.value Json.getString "timeframe" ""
  return ⟨timestamp, symbol, side, entryPrice, exitPrice, quantity, pnl, pnlPct, fee,
    durationMin, exitReason, timeframe⟩

/-- The elements of an array under a key; anything else counts as none. -/
def readArray {α : Type} (read : Json → Except Exception α) (j : Json) (key : String) :
    Except Exception (List α) :=
  match j.find? key with
  | some (.arr xs) => xs.mapM read
  | _ => .ok []

/-- **`load`**, of a file that has been parsed. -/
def load (j : Json) : Except Exception ParsedState := do
  let balance ← j.value Json.getDouble "balance" 0
  let totalPnl ← j.value Json.getDouble "total_pnl" 0
  let totalTrades ← j.value Json.getInt "total_trades" 0
  let wins ← j.value Json.getInt "wins" 0
  let losses ← j.value Json.getInt "losses" 0
  let signals ← readArray readSignal j "signals"
  let trades ← readArray readTrade j "trades"
  return { signals, trades, balance, totalPnl, totalTrades, wins, losses }

def filterBySymbol (signals : List LogSignal) (symbol : String) : List LogSignal :=
  signals.filter fun s => s.symbol = symbol

def filterByTimeframe (signals : List LogSignal) (tf : String) : List LogSignal :=
  signals.filter fun s => s.timeframe = tf

/-- The signals `main` takes of a file: an empty text filters nothing. -/
def taken (state : ParsedState) (symbol timeframe : String) : List BtSignal :=
  let signals :=
    if symbol ≠ "" then filterBySymbol state.signals symbol else state.signals
  let signals := if timeframe ≠ "" then filterByTimeframe signals timeframe else signals
  signals.map LogSignal.toBtSignal

end LogParser

end WebhookTrader
