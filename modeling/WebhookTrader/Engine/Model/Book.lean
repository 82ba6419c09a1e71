import WebhookTrader.Risk.Model.Portfolio
import WebhookTrader.Risk.Model.Trade

/-!
# The position book

`PositionManager`'s operations on `m_positions` and `TradeRecorder`'s
arithmetic. Every operation is taken under the position mutex, so each is
one function of the book. The last section is the reconciliation with the
exchange's snapshot, loop by loop.
-/

namespace WebhookTrader

/-- **The two shapes of a position's key**: one that ends in an order
number, and one that ends in `_ext`. -/
inductive PositionKey
  /-- `symbol_timeframe_oid`. -/
  | entry (symbol timeframe : String) (oid : ℕ)
  /-- `symbol_side_ext`. -/
  | ext (symbol side : String)
  deriving DecidableEq, Repr

namespace PositionKey

/-- The key as the source writes it. -/
def text : PositionKey → String
  | entry symbol timeframe oid => symbol ++ "_" ++ timeframe ++ "_" ++ toString oid
  | ext symbol side => symbol ++ "_" ++ side ++ "_ext"

/-- The key ends in `_ext`. -/
def isExt : PositionKey → Bool
  | entry .. => false
  | ext .. => true

end PositionKey

/-- `m_positions`. -/
abbrev Book := Table PositionKey ManagedPosition

/-- What the program finds positions by. -/
def ManagedPosition.tag (p : ManagedPosition) : String × String := (p.symbol, p.side)

namespace Book

/-! ## Single operations -/

/-- A position with a symbol and a side. -/
def sameTag (symbol side : String) (p : ManagedPosition) : Bool :=
  p.symbol = symbol && p.side = side

/-- `find_by_symbol_side`. -/
def findBySymbolSide (book : Book) (symbol side : String) :
    Option (PositionKey × ManagedPosition) :=
  book.findValue (sameTag symbol side)

/-- `reduce_quantity`. -/
def reduceQuantity (book : Book) (key : PositionKey) (amount : ℚ) : Book :=
  match book.lookup key with
  | none => book
  | some p =>
      if p.quantity - amount ≤ 0 then book.erase key
      else book.modify key fun p => { p with quantity := p.quantity - amount }

/-- `calc_used_margin`. -/
def calcUsedMargin (book : Book) (defaultLeverage : ℤ) : ℚ :=
  book.sum fun p =>
    p.entryPrice * p.quantity / (if 0 < p.leverage then p.leverage else defaultLeverage)

/-! ## Trades -/

/-- `calc_pnl`: the leverage is not part of it. -/
def calcPnl (side : String) (entry exit qty : ℚ) : ℚ :=
  if entry ≤ 0 ∨ qty ≤ 0 then 0 else (if side = "long" then 1 else -1) * (exit - entry) * qty

/-- `calc_fee`: the taker's fee both ways. -/
def calcFee (price qty : ℚ) : ℚ := price * qty * (6 / 10000) * 2

end Book

namespace TradeRecord

/-- The trade `record_close` makes of a position; a close quantity of zero
means all of it. -/
def ofClose (pos : ManagedPosition) (exitPrice : ℚ) (exitReason : String) (closeQty : ℚ) :
    TradeRecord :=
  let qty := if closeQty ≤ 0 then pos.quantity else closeQty
  let fee := Book.calcFee exitPrice qty
  { symbol := pos.symbol
    timeframe := pos.timeframe
    exitReason
    entryPrice := pos.entryPrice
    exitPrice
    quantity := qty
    pnl := Book.calcPnl pos.side pos.entryPrice exitPrice qty - fee
    fee
    strategy := pos.strategy }

/-- The trade `record_ws_close` makes: with the exchange's profit where it
reports one. -/
def ofWsClose (pos : ManagedPosition) (exitPrice realizedPnl : ℚ) : TradeRecord :=
  let fee := Book.calcFee exitPrice pos.quantity
  { symbol := pos.symbol
    timeframe := pos.timeframe
    exitReason := "WS_CLOSE"
    entryPrice := pos.entryPrice
    exitPrice
    quantity := pos.quantity
    pnl :=
      if 1 / 10000 < |realizedPnl| then realizedPnl - fee
      else Book.calcPnl pos.side pos.entryPrice exitPrice pos.quantity - fee
    fee
    strategy := pos.strategy }

end TradeRecord

/-! ## Reconciliation with the exchange -/

/-- A row of the exchange's snapshot. -/
structure ExchangePosition where
  symbol : String
  holdSide : String
  total : ℚ
  avgPrice : ℚ
  leverage : ℤ := 10
  deriving DecidableEq, Repr

/-- `exchange_positions`, under the symbol and the side that the source
joins with a colon. -/
abbrev ExchangeMap := Table (String × String) ExchangePosition

namespace ExchangeMap

/-- The rows with a symbol and a holding; a later row replaces an earlier
one. -/
def ofRows (rows : List ExchangePosition) : ExchangeMap :=
  rows.foldl
    (fun ex row =>
      if row.symbol ≠ "" ∧ 0 < row.total then ex.insert (row.symbol, row.holdSide) row else ex) ∅

/-- The exchange holds a symbol on a side. -/
def holds (ex : ExchangeMap) (tag : String × String) : Bool := (ex.lookup tag).isSome

end ExchangeMap

namespace Book

/-- The side an entry's side is exchanged for. -/
def otherSide (side : String) : String := if side = "long" then "short" else "long"

/-- The seconds after which a paper position expires. -/
def paperLifetime : ℕ := 4 * 3600

/-- Step 0: mark what the exchange holds as real. -/
def markReal (ex : ExchangeMap) (book : Book) : Book :=
  book.mapValues fun _ p => if ex.holds p.tag then { p with isReal := true } else p

/-- An external position whose side the exchange no longer holds, while it
holds the other side: it is updated in place. -/
def flipsTo (ex : ExchangeMap) (key : PositionKey) (p : ManagedPosition) :
    Option ExchangePosition :=
  if !ex.holds p.tag && p.isReal && key.isExt then ex.lookup (p.symbol, otherSide p.side) else none

/-- A position that goes: real and gone from the exchange, or an old paper
one. -/
def isGhost (now : Clock) (ex : ExchangeMap) (p : ManagedPosition) : Bool :=
  !ex.holds p.tag && (p.isReal || paperLifetime ≤ now.system - p.openedAt)

/-- The position after its update in place. -/
def flipped (ep : ExchangePosition) (p : ManagedPosition) : ManagedPosition :=
  { p with
    side := ep.holdSide
    entryPrice := ep.avgPrice
    quantity := ep.total
    leverage := ep.leverage }

/-- What the first loop of the reconciliation carries along. -/
structure Sweep where
  book : Book
  toRemove : List PositionKey := []
  sideChangedSymbols : List String := []

/-- Step 1, for one key: update in place under the new key, or note the key
for removal. -/
def sweepKey (now : Clock) (ex : ExchangeMap) (s : Sweep) (key : PositionKey) : Sweep :=
  match s.book.lookup key with
  | none => s
  | some p =>
      match flipsTo ex key p with
      | some ep =>
          let newKey := PositionKey.ext ep.symbol ep.holdSide
          let book := s.book.modify key (flipped ep)
          -- what is under the new key is overwritten
          { book := if newKey = key then book else book.insert newKey (flipped ep p)
            toRemove := if newKey = key then s.toRemove else key :: s.toRemove
            sideChangedSymbols := p.symbol :: s.sideChangedSymbols }
      | none => if isGhost now ex p then { s with toRemove := key :: s.toRemove } else s

/-- Step 1: every key present when the loop starts. -/
def sweep (now : Clock) (ex : ExchangeMap) (book : Book) : Sweep :=
  book.keys.foldl (sweepKey now ex) { book }

/-- The position an exchange row is imported as. -/
def imported (now : Clock) (ep : ExchangePosition) : ManagedPosition where
  symbol := ep.symbol
  timeframe := "ext"
  side := ep.holdSide
  entryPrice := ep.avgPrice
  quantity := ep.total
  leverage := ep.leverage
  tier := "C"
  isReal := true
  openedAt := now.system

/-- Step 2: import what the exchange holds and the book does not, apart
from the symbols updated in place. -/
def importMissing (now : Clock) (ex : ExchangeMap) (sideChanged : List String) (book : Book) :
    Book :=
  let missing := ex.entries.filter fun e =>
    !sideChanged.contains e.2.symbol && !(book.entries.any fun b => b.2.tag = e.1)
  missing.foldl
    (fun book e => book.insert (.ext e.2.symbol e.2.holdSide) (imported now e.2)) book

/-- **`sync_positions_with_exchange`**, on a well-formed snapshot. -/
def reconcile (now : Clock) (ex : ExchangeMap) (book : Book) : Book :=
  let s := sweep now ex (markReal ex book)
  importMissing now ex s.sideChangedSymbols (s.toRemove.foldl (fun b k => b.erase k) s.book)

end Book

end WebhookTrader
