import WebhookTrader.Engine.Model.Book
import WebhookTrader.Common.Json

/-!
# The state file

`StatePersistence`: what of the engine's state is written to
`state.json`, what is read back, and the file's backup. A file is the
document it holds; that a document survives being printed and parsed is
the JSON library's doing.
-/

namespace WebhookTrader

/-- **What is saved of the engine**: the positions under their keys as the
source writes them. -/
structure SavedState where
  balance : ℚ
  peakBalance : ℚ
  positions : Table String ManagedPosition
  trades : List TradeRecord
  ordersExecuted : ℕ

/-! ## Writing -/

/-- A position, as `save_state` writes it. -/
def ManagedPosition.toJson (p : ManagedPosition) : Json :=
  .obj
    [("symbol", .str p.symbol), ("timeframe", .str p.timeframe), ("side", .str p.side),
      ("entry_price", .float p.entryPrice), ("quantity", .float p.quantity),
      ("leverage", .int p.leverage), ("sl_price", .float p.slPrice),
      ("tp1_price", .float p.tp1Price), ("tier", .str p.tier), ("strategy", .str p.strategy),
      ("is_real", .bool p.isReal), ("exchange", .str p.exchange),
      ("market_type", .str p.marketType)]

/-- A trade, as `save_state` writes it. -/
def TradeRecord.toJson (t : TradeRecord) : Json :=
  .obj
    [("symbol", .str t.symbol), ("timeframe", .str t.timeframe),
      ("exit_reason", .str t.exitReason), ("pnl", .float t.pnl), ("fee", .float t.fee),
      ("entry_price", .float t.entryPrice), ("exit_price", .float t.exitPrice),
      ("quantity", .float t.quantity), ("strategy", .str t.strategy),
      ("exchange", .str t.exchange), ("market_type", .str t.marketType)]

namespace SavedState

/-- The last 2000 trades. -/
def lastTrades (trades : List TradeRecord) : List TradeRecord := trades.drop (trades.length - 2000)

/-- The document `save_state` writes, with the time it is written at. -/
def toJson (savedAt : String) (s : SavedState) : Json :=
  .obj
    [("balance", .float s.balance), ("peak_balance", .float s.peakBalance),
      ("orders_executed", .int s.ordersExecuted), ("saved_at", .str savedAt),
      ("positions", .obj (s.positions.toPairs ManagedPosition.toJson)),
      ("trades", .arr ((lastTrades s.trades).map TradeRecord.toJson))]

end SavedState

/-! ## Reading -/

open Json in
/-- A position, as `try_load_file` reads it; `opened_at` stays at the epoch. -/
def ManagedPosition.fromJson (j : Json) : Except Exception ManagedPosition := do
  let symbol ← j.value getString "symbol" ""
  let timeframe ← j.value getString "timeframe" ""
  let side ← j.value getString "side" ""
  let entryPrice ← j.value getDouble "entry_price" 0
  let quantity ← j.value getDouble "quantity" 0
  let leverage ← j.value getInt "leverage" 10
  let slPrice ← j.value getDouble "sl_price" 0
  let tp1Price ← j.value getDouble "tp1_price" 0
  let tier ← j.value getString "tier" "C"
  let strategy ← j.value getString "strategy" "unknown"
  let isReal ← j.value getBool "is_real" false
  let exchange ← j.value getString "exchange" "bitget"
  let marketType ← j.value getString "market_type" "futures"
  return { symbol, timeframe, side, entryPrice, quantity, leverage, slPrice, tp1Price, tier,
           strategy, isReal, exchange, marketType }

/-- What `load_state` returns where it is valid. -/
abbrev LoadedState := Option SavedState

namespace SavedState

open Json in
/-- The body of `try_load_file`'s `try`, behind the test for the required
fields. -/
def fromJson (j : Json) : Except Exception SavedState := do
  let balance ← j.value getDouble "balance" 0
  let peakBalance ← j.value getDouble "peak_balance" 0
  let ordersExecuted ← j.value getUInt64 "orders_executed" 0
  let positions ← match j.find? "positions" with
    | some positions =>
        let read := Table.readEach ManagedPosition.fromJson positions.items ∅
        read.2 >>= fun _ => pure read.1
    | none => pure ∅
  let trades := match j.find? "trades" with
    | some trades => trades.elements.map TradeRecord.fromJson
    | none => []
  return { balance, peakBalance, positions, trades, ordersExecuted }

end SavedState

/-! ## Files -/

/-- **A file**: missing, or with text that is no JSON, or with a document. -/
inductive StateFile
  | missing
  | corrupt
  | document (j : Json)

/-- `try_load_file`. -/
def StateFile.tryLoad : StateFile → LoadedState
  | missing => none
  | corrupt => none
  | document j =>
      if j.contains "balance" && j.contains "positions" then (SavedState.fromJson j).toOption
      else none

/-- **`state.json` and its backup.** -/
structure StateDisk where
  main : StateFile := .missing
  backup : StateFile := .missing

namespace StateDisk

/-- `save_state`, completed: the old file is copied to the backup, and the
new one takes its place. -/
def save (savedAt : String) (s : SavedState) (disk : StateDisk) : StateDisk where
  main := .document (s.toJson savedAt)
  backup :=
    match disk.main with
    | .missing => disk.backup
    | file => file

/-- **`load_state`**: the file, else the backup. -/
def load (disk : StateDisk) : LoadedState := disk.main.tryLoad <|> disk.backup.tryLoad

end StateDisk

end WebhookTrader
