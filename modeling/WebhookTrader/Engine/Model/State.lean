import WebhookTrader.Engine.Model.Modes
import WebhookTrader.Exchange.Model.Venue
import WebhookTrader.Risk.Model.Manager
import WebhookTrader.Risk.Model.Sizing

/-!
# The engine's shared state

What the worker threads share, the configuration they run under, and the
few operations on the shared state that several handlers use. The
exchange is part of the state, and so is a record of every trade's profit
with the time it was recorded at, which the program itself does not keep.
-/

namespace WebhookTrader

/-! ## Configuration -/

/-- The filter of a timeframe. -/
structure TfFilter where
  sizeMultiplier : ℚ := 1
  minTier : String := "C"
  minTpToCostRatio : ℚ := 3 / 2
  blockReverse : Bool := true
  deriving DecidableEq, Repr

/-- The part of the trading configuration the handlers read; the modes are
in the shared state. -/
structure TradingConfig where
  defaultLeverage : ℤ := 10
  shadowMode : Bool := false
  autoLive : Bool := true
  backupSlPct : ℚ := 3 / 100
  tfFilters : Table String TfFilter := ∅

/-- **Everything the engine is configured with**, and how the exchange
answers a repeated client order id. -/
structure EngineConfig where
  trading : TradingConfig := {}
  portfolio : PortfolioConfig := {}
  limits : RiskLimits := {}
  fees : FeeConfig := {}
  sizer : SizerConfig := {}
  readiness : ReadinessConfig := {}
  contracts : Contracts := ∅
  duplicateCode : String := "40786"

/-! ## State -/

/-- **The state the threads share.** -/
structure Shared where
  modes : Modes
  /-- Where the periodic thread is. -/
  periodic : Periodic := .idle
  portRisk : PortfolioRisk := {}
  risk : RiskManager := {}
  /-- The symbol locks that are held. -/
  locked : List String := []
  positions : Book := ∅
  trades : List TradeRecord := []
  balance : ℚ := 100
  peakBalance : ℚ := 100
  nextOid : ℕ := 0
  clock : Clock := {}
  venue : Venue := {}
  /-- The second and the profit of every trade recorded so far. -/
  recorded : List (ℕ × ℚ) := []

namespace Shared

/-- `cap_trades`, at `kMaxTrades`. -/
@[irreducible] def capTrades (trades : List TradeRecord) : List TradeRecord :=
  trades.drop (trades.length - 2000)

/-- **`record_trade`**: the trade, the capped list, and the balance with
its peak. Nothing here tells the risk managers. -/
def recordTrade (t : TradeRecord) (s : Shared) : Shared :=
  { s with
    trades := capTrades (s.trades ++ [t])
    balance := s.balance + t.pnl
    peakBalance := max s.peakBalance (s.balance + t.pnl)
    recorded := (s.clock.system, t.pnl) :: s.recorded }

end Shared

/-! ## Tiers -/

/-- `tier_meets_min`: an unknown tier counts as C. -/
def tierRank (tier : String) : ℕ :=
  if tier = "S" then 5
  else if tier = "A" then 4
  else if tier = "B" then 3
  else if tier = "C" then 2
  else if tier = "D" then 1
  else if tier = "X" then 0
  else 2

def tierMeetsMin (tier minTier : String) : Bool := tierRank minTier ≤ tierRank tier

end WebhookTrader
