import WebhookTrader.Common.Table

/-!
# The order-level risk manager

`RiskManager`: the validation every order passes before it is sent, and
the counters it reads. The count of orders in flight and the breaker are
atomic variables that `validate` reads before it takes its lock, so the
validation is three parts here, to be taken in three steps.
-/

namespace WebhookTrader

/-- `RiskLimits`, and the whitelist that is set at start. -/
structure RiskLimits where
  maxPositionPerSymbol : ℚ := 1
  maxDailyLoss : ℚ := 500
  maxOrderSize : ℚ := 1000000000
  maxOpenOrders : ℤ := 10
  circuitBreakerLoss : ℚ := 1000
  allowedSymbols : List String := []
  deriving DecidableEq, Repr

/-- `PositionInfo`. -/
structure PositionInfo where
  count : ℤ := 0
  totalQty : ℚ := 0
  side : String := ""
  deriving DecidableEq, Repr

/-- **The manager's state.** -/
structure RiskManager where
  dailyPnl : ℚ := 0
  dailyLoss : ℚ := 0
  openOrders : ℤ := 0
  circuitBreaker : Bool := false
  positions : Table String PositionInfo := ∅
  /-- On the steady clock. -/
  lastReset : ℕ := 0

namespace RiskManager

/-! ## Validation -/

/-- What `validate` asks of the order alone. -/
def validSize (limits : RiskLimits) (quantity : ℚ) : Bool :=
  0 < quantity && quantity ≤ limits.maxOrderSize

/-- Whether one more order may be in flight. -/
def hasOrderSlot (limits : RiskLimits) (r : RiskManager) : Bool :=
  r.openOrders < limits.maxOpenOrders

/-- What `validate` asks under its lock: the whitelist, the number of
positions of the symbol where the order opens one, and the daily loss. -/
def validSymbol (limits : RiskLimits) (symbol : String) (opens : Bool) (r : RiskManager) : Bool :=
  (limits.allowedSymbols.isEmpty || limits.allowedSymbols.contains symbol) &&
    (match r.positions.lookup symbol with
      | some info => !opens || (info.count : ℚ) < limits.maxPositionPerSymbol
      | none => true) &&
    r.dailyLoss ≤ limits.maxDailyLoss

/-- `validate`, taken at one moment. -/
def validate (limits : RiskLimits) (symbol : String) (opens : Bool) (quantity : ℚ)
    (r : RiskManager) : Bool :=
  !r.circuitBreaker && validSize limits quantity && hasOrderSlot limits r &&
    validSymbol limits symbol opens r

/-! ## Bookkeeping -/

def onOrderPlaced (r : RiskManager) : RiskManager := { r with openOrders := r.openOrders + 1 }

def onOrderDone (r : RiskManager) : RiskManager := { r with openOrders := r.openOrders - 1 }

/-- `on_position_opened`. -/
def onPositionOpened (symbol : String) (qty : ℚ) (side : String) (r : RiskManager) : RiskManager :=
  let info := (r.positions.lookup symbol).getD {}
  { r with
    positions := r.positions.insert symbol
      { count := info.count + 1, totalQty := info.totalQty + qty, side } }

/-- `update_pnl`. -/
def updatePnl (limits : RiskLimits) (pnl : ℚ) (r : RiskManager) : RiskManager :=
  let dailyLoss := if pnl < 0 then r.dailyLoss - pnl else r.dailyLoss
  { r with
    dailyPnl := r.dailyPnl + pnl
    dailyLoss
    circuitBreaker := r.circuitBreaker || limits.circuitBreakerLoss ≤ dailyLoss }

/-- `on_position_closed`. -/
def onPositionClosed (limits : RiskLimits) (symbol : String) (pnl : ℚ) (r : RiskManager) :
    RiskManager :=
  let positions :=
    match r.positions.lookup symbol with
    | some info =>
        if info.count - 1 ≤ 0 then r.positions.erase symbol
        else r.positions.insert symbol { info with count := info.count - 1 }
    | none => r.positions
  updatePnl limits pnl { r with positions }

/-- The nanoseconds of a day. -/
def dayNs : ℕ := 86400000000000

/-- `needs_daily_reset`. -/
def needsDailyReset (steady : ℕ) (r : RiskManager) : Bool := dayNs ≤ steady - r.lastReset

/-- `reset_daily`. -/
def resetDaily (steady : ℕ) (r : RiskManager) : RiskManager :=
  { r with dailyPnl := 0, dailyLoss := 0, circuitBreaker := false, lastReset := steady }

end RiskManager

end WebhookTrader
