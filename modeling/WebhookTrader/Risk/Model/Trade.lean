import WebhookTrader.Common.Json

/-!
# Trade records

The record of a closed trade, and how one is read from JSON.
-/

namespace WebhookTrader

/-- **A trade record.** -/
structure TradeRecord where
  symbol : String
  timeframe : String
  exitReason : String
  entryPrice : ℚ
  exitPrice : ℚ
  quantity : ℚ
  pnl : ℚ
  fee : ℚ
  strategy : String
  exchange : String := "bitget"
  marketType : String := "futures"
  grossPnl : ℚ := 0
  netPnl : ℚ := 0
  feeCost : ℚ := 0
  realizedRr : ℚ := 0
  deriving DecidableEq, Repr

namespace TradeRecord

/-- A trade nothing has been read of. -/
def blank : TradeRecord where
  symbol := ""
  timeframe := ""
  exitReason := ""
  entryPrice := 0
  exitPrice := 0
  quantity := 0
  pnl := 0
  fee := 0
  strategy := "unknown"

/-- Read one field after the other, up to the first that raises. -/
def readFields : List (TradeRecord → Except Exception TradeRecord) → TradeRecord → TradeRecord
  | [], t => t
  | field :: fields, t =>
      match field t with
      | .ok t' => readFields fields t'
      | .error _ => t

open Json in
/-- **`from_json`** swallows what raises, and keeps what it has read. -/
def fromJson (j : Json) : TradeRecord :=
  readFields
    [fun t => do return { t with symbol := ← j.value getString "symbol" "" },
      fun t => do return { t with timeframe := ← j.value getString "timeframe" "" },
      fun t => do return { t with exitReason := ← j.value getString "exit_reason" "" },
      fun t => do return { t with pnl := ← j.value getDouble "pnl" 0 },
      fun t => do return { t with fee := ← j.value getDouble "fee" 0 },
      fun t => do return { t with entryPrice := ← j.value getDouble "entry_price" 0 },
      fun t => do return { t with exitPrice := ← j.value getDouble "exit_price" 0 },
      fun t => do return { t with quantity := ← j.value getDouble "quantity" 0 },
      fun t => do return { t with strategy := ← j.value getString "strategy" "unknown" },
      fun t => do return { t with exchange := ← j.value getString "exchange" "bitget" },
      fun t => do return { t with marketType := ← j.value getString "market_type" "futures" },
      fun t => do return { t with grossPnl := ← j.value getDouble "gross_pnl" 0 },
      fun t => do return { t with netPnl := ← j.value getDouble "net_pnl" 0 },
      fun t => do return { t with feeCost := ← j.value getDouble "fee_cost" 0 },
      fun t => do return { t with realizedRr := ← j.value getDouble "realized_rr" 0 }]
    blank

end TradeRecord

end WebhookTrader
