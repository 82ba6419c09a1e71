import WebhookTrader.Common.Decimal

/-!
# Costs and sizes

`FeeAnalyzer`'s check of a take-profit against the round-trip cost, and
`PositionSizer`'s size of a trade. The scorer's verdict on a symbol is an
input of both.
-/

namespace WebhookTrader

/-- The part of a symbol's score the engine reads. The defaults are what
the sizing assumes of a symbol without a score. -/
structure SymbolScore where
  tier : String := "C"
  sizeMultiplier : ℚ := 1
  maxLeverage : ℤ := 10
  winRate : ℚ := 0
  avgWin : ℚ := 0
  avgLoss : ℚ := 0
  dataSufficient : Bool := false
  compositeScore : ℚ := 0
  totalTrades : ℤ := 0
  deriving DecidableEq, Repr

/-! ## Fees -/

/-- The analyzer's configuration, as fractions of the price. -/
structure FeeConfig where
  takerFee : ℚ := 6 / 10000
  fundingDefault : ℚ := 1 / 10000
  minTpRatio : ℚ := 2
  majorSymbols : List String := ["BTCUSDT", "ETHUSDT", "SOLUSDT", "BNBUSDT", "XRPUSDT"]
  slipMajor : ℚ := 5 / 1000000
  slipMid : ℚ := 15 / 1000000
  slipAlt : ℚ := 3 / 100000
  deriving DecidableEq, Repr

namespace FeeConfig

variable (cfg : FeeConfig)

def getSlippageTier (symbol : String) : String :=
  if symbol ∈ cfg.majorSymbols then "major" else "altcoin"

def getSlippage (symbol : String) : ℚ :=
  if cfg.getSlippageTier symbol = "major" then cfg.slipMajor
  else if cfg.getSlippageTier symbol = "mid" then cfg.slipMid
  else cfg.slipAlt

/-- The round trip's cost in percent, which is `break_even_move`'s. -/
def breakEvenPct (symbol : String) : ℚ := 2 * (cfg.takerFee + cfg.getSlippage symbol) * 100

/-- `is_tp_profitable`'s verdict: the distance to the take-profit is the
given multiple of the cost, or the configured one where none is given. -/
def isTpProfitable (symbol : String) (entryPrice tpPrice customMinRatio : ℚ) : Bool :=
  let tpDist := |tpPrice - entryPrice| / entryPrice * 100
  let ratio := if 0 < cfg.breakEvenPct symbol then tpDist / cfg.breakEvenPct symbol else 999
  let minR := if 0 < customMinRatio then customMinRatio else cfg.minTpRatio
  minR ≤ ratio

/-- `check_net_expectancy`'s verdict. -/
def netExpectancyPositive (symbol : String) (winRate avgWinPct avgLossPct estHoldHours : ℚ) :
    Bool :=
  let totalCost := cfg.breakEvenPct symbol + cfg.fundingDefault * 100 * (estHoldHours / 8)
  0 < winRate * avgWinPct - (1 - winRate) * avgLossPct - totalCost

end FeeConfig

/-! ## Sizes -/

/-- The sizer's configuration, percentages as fractions. -/
structure SizerConfig where
  kellyFrac : ℚ := 1 / 4
  maxRiskPct : ℚ := 5 / 100
  minUsdt : ℚ := 5
  maxPct : ℚ := 50 / 100
  basePct : ℚ := 30 / 100
  maxUsdtHard : ℚ := 100
  /-- Thresholds in percent, with their multipliers. -/
  ddLevels : List (ℚ × ℚ) := [(10, 1), (20, 3 / 4), (30, 1 / 2), (50, 1 / 4), (100, 0)]
  deriving DecidableEq, Repr

structure SizeResult where
  qty : ℚ := 0
  usdtAmount : ℚ := 0
  leverage : ℤ := 0
  methodUsed : String := ""
  kellyFraction : ℚ := 0
  kellyUsdt : ℚ := 0
  riskUsdt : ℚ := 0
  tierMultiplier : ℚ := 0
  drawdownMultiplier : ℚ := 0
  confidenceBoost : ℚ := 1
  finalMultiplier : ℚ := 0
  deriving DecidableEq, Repr

namespace SizerConfig

variable (cfg : SizerConfig)

/-- Round to a number of places, as `std::round` of a scaled value. -/
def roundTo (places : ℕ) (q : ℚ) : ℚ := roundHalfAway (q * 10 ^ places) / 10 ^ places

/-- `kelly_fraction`. -/
def kellyFraction (wr avgW avgL : ℚ) : ℚ :=
  if avgL ≤ 0 ∨ avgW ≤ 0 then 0
  else
    let f := wr - (1 - wr) / (avgW / avgL)
    if f ≤ 0 then 0 else min (f * cfg.kellyFrac) cfg.maxRiskPct

/-- `drawdown_multiplier`: the multiplier of the first level that covers
the drawdown. -/
def drawdownMultiplier (ddPct : ℚ) : ℚ :=
  ((cfg.ddLevels.find? fun lv => ddPct ≤ lv.1).map (·.2)).getD 0

/-- What `calc_size` is asked. -/
structure Query where
  balance : ℚ
  price : ℚ
  slPrice : ℚ
  leverage : ℤ
  score : Option SymbolScore := none
  currentDdPct : ℚ
  usedMargin : ℚ := 0
  confidenceBoost : ℚ := 1
  deriving DecidableEq, Repr

/-- The base amount before the multipliers, the Kelly fraction and amount,
the amount by risk, and the method. -/
def baseUsdt (q : Query) (leverage : ℤ) : ℚ × ℚ × ℚ × ℚ × String :=
  let score := q.score.getD {}
  let available := max (q.balance - q.usedMargin) 0
  let base := available * cfg.basePct
  let kelly := score.dataSufficient ∧ 0 < score.winRate ∧ 0 < score.avgLoss
  let kellyF := if kelly then cfg.kellyFraction score.winRate score.avgWin score.avgLoss else 0
  let kellyUsdt := if kelly then max (q.balance * kellyF) cfg.minUsdt else base
  let slDist := |q.price - q.slPrice| / q.price
  let riskUsdt :=
    if 0 < q.slPrice ∧ 0 < q.price ∧ 0 < slDist then
      -- without leverage the quotient is infinite and bounds nothing
      if leverage = 0 then available * cfg.maxPct
      else max (q.balance * cfg.maxRiskPct / (slDist * leverage)) cfg.minUsdt
    else base
  if score.dataSufficient ∧ 0 < kellyF then
    (min (min kellyUsdt riskUsdt) (available * cfg.maxPct), kellyF, kellyUsdt, riskUsdt,
      "kelly_risk_hybrid")
  else if 0 < q.slPrice ∧ 0 < q.price then
    (min riskUsdt (available * cfg.maxPct), kellyF, kellyUsdt, riskUsdt, "risk_per_trade")
  else (min base (available * cfg.maxPct), kellyF, kellyUsdt, riskUsdt, "balance_pct")

/-- **`calc_size`.** A blacklisted symbol, a halting drawdown and an amount
below the minimum give no size. -/
def calcSize (q : Query) : SizeResult :=
  let score := q.score.getD {}
  let available := max (q.balance - q.usedMargin) 0
  let leverage := min q.leverage score.maxLeverage
  if q.score.isSome ∧ score.tier = "X" then { methodUsed := "blocked" }
  else
    let ddMult := cfg.drawdownMultiplier q.currentDdPct
    if ddMult ≤ 0 then
      { leverage, methodUsed := "dd_stop", tierMultiplier := score.sizeMultiplier }
    else
      let (base, kellyF, kellyUsdt, riskUsdt, method) := cfg.baseUsdt q leverage
      let finalMult := score.sizeMultiplier * ddMult * q.confidenceBoost
      let finalUsdt := min (base * finalMult) (min (available * cfg.maxPct) cfg.maxUsdtHard)
      if finalUsdt < cfg.minUsdt ∨ available < cfg.minUsdt then
        { leverage, methodUsed := "below_minimum", tierMultiplier := score.sizeMultiplier,
          drawdownMultiplier := ddMult, confidenceBoost := q.confidenceBoost,
          finalMultiplier := finalMult }
      else
        { qty := if 0 < q.price then finalUsdt / q.price else 0
          usdtAmount := roundTo 2 finalUsdt
          leverage
          methodUsed := method
          kellyFraction := roundTo 6 kellyF
          kellyUsdt := roundTo 2 kellyUsdt
          riskUsdt := roundTo 2 riskUsdt
          tierMultiplier := score.sizeMultiplier
          drawdownMultiplier := ddMult
          confidenceBoost := q.confidenceBoost
          finalMultiplier := roundTo 4 finalMult }

end SizerConfig

end WebhookTrader
