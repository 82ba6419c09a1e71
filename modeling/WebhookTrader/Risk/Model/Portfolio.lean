import WebhookTrader.Common.Calendar
import WebhookTrader.Common.Decimal
import WebhookTrader.Common.Table

/-!
# The portfolio risk manager

`PortfolioRiskManager`: the entry checks against the open positions, the
circuit breaker, and the daily and weekly sums that feed it. The
manager's mode is not part of its state here: it is one of the mode
variables, and the checks take it as an argument.
-/

namespace WebhookTrader

/-- **A position the engine manages.** -/
structure ManagedPosition where
  symbol : String
  timeframe : String := ""
  /-- `"long"` or `"short"`, or whatever the exchange calls it. -/
  side : String
  entryPrice : ℚ := 0
  quantity : ℚ := 0
  leverage : ℤ := 10
  slPrice : ℚ := 0
  tp1Price : ℚ := 0
  tier : String := ""
  strategy : String := "unknown"
  /-- In seconds of the system clock. -/
  openedAt : ℕ := 0
  /-- Whether the exchange holds it. -/
  isReal : Bool := false
  exchange : String := "bitget"
  marketType : String := "futures"
  deriving DecidableEq, Repr

structure RiskDecision where
  allowed : Bool := true
  reason : String := ""
  checkFailed : String := ""
  deriving DecidableEq, Repr

/-- The manager's configuration, with the constructor's defaults. -/
structure PortfolioConfig where
  maxPosTotal : ℤ := 50
  maxConcurrent : ℤ := 15
  maxSameDirection : ℤ := 10
  shadowMaxPosTotal : ℤ := 500
  shadowMaxConcurrent : ℤ := 200
  shadowMaxSameDir : ℤ := 100
  shadowMaxMarginPct : ℚ := 500
  liveMinTier : String := "B"
  maxPosPerTf : Table String ℤ := ∅
  tfExposurePct : Table String ℚ := ∅
  corrFactor : ℚ := 7 / 10
  maxCorrRiskPct : ℚ := 50
  maxMarginUsagePct : ℚ := 90
  rapidLossWindowMin : ℤ := 10
  rapidLossPct : ℚ := 2
  cbDailyLossPct : ℚ := 5
  cbWeeklyLossPct : ℚ := 10
  cbCooldownMin : ℤ := 60

/-- **The manager's state.** -/
structure PortfolioRisk where
  dailyPnl : ℚ := 0
  weeklyPnl : ℚ := 0
  initialBalance : ℚ := 1000
  cbActive : Bool := false
  /-- On the steady clock. -/
  cbActivatedAt : ℕ := 0
  lastDay : ℤ := -1
  lastWeekDay : ℤ := -1
  recentLosses : List (ℕ × ℚ) := []
  deriving DecidableEq, Repr

/-- What an entry asks the manager to check. -/
structure EntryCheck where
  timeframe : String
  price : ℚ
  qty : ℚ
  leverage : ℤ
  balance : ℚ
  slPrice : ℚ := 0
  side : String := "long"
  deriving DecidableEq, Repr

/-- `"long"` or `"buy"`. -/
def isLongSide (side : String) : Bool := side = "long" || side = "buy"

namespace PortfolioRisk

/-- `HARD_MAX_NOTIONAL`. -/
def hardMaxNotional : ℚ := 500

/-- The nanoseconds of a minute. -/
def minute : ℕ := 60000000000

def fmt0 (v : ℚ) : String := (Numeral.printf 0 v).text

def fmt2 (v : ℚ) : String := (Numeral.printf 2 v).text

/-- `block`. -/
def block (check reason : String) : RiskDecision := ⟨false, reason, check⟩

@[simp] theorem block_allowed (check reason : String) : (block check reason).allowed = false := rfl

/-- A chain of blocks admits what the first does not stop and the rest
admits. -/
theorem ite_block_allowed {c : Prop} [Decidable c] {check reason : String} {d : RiskDecision} :
    (if c then block check reason else d).allowed = true ↔ ¬ c ∧ d.allowed = true := by
  split <;> simp [*]

variable {α : Type} (cfg : PortfolioConfig)

/-! ## Days and the breaker -/

/-- `check_daily_reset_locked`: a new day of the year clears the daily sum,
and a new Monday the weekly one. -/
def checkDailyReset (now : Clock) (r : PortfolioRisk) : PortfolioRisk :=
  let today : ℤ := Calendar.yearDay (Calendar.day now.system)
  if today ≠ r.lastDay then
    let r := { r with dailyPnl := 0, lastDay := today }
    if Calendar.weekday (Calendar.day now.system) = 1 ∧ today ≠ r.lastWeekDay then
      { r with weeklyPnl := 0, lastWeekDay := today }
    else r
  else r

/-- `activate_circuit_breaker_locked`. -/
def activateCircuitBreaker (now : Clock) (r : PortfolioRisk) : PortfolioRisk :=
  if r.cbActive then r else { r with cbActive := true, cbActivatedAt := now.steady }

/-- `check_cb_cooldown_locked`: whether the cooldown is over, in whole
minutes, and the breaker released if so. -/
def checkCbCooldown (now : Clock) (r : PortfolioRisk) : Bool × PortfolioRisk :=
  if cfg.cbCooldownMin ≤ ((now.steady - r.cbActivatedAt) / minute : ℕ) then
    (true, { r with cbActive := false })
  else (false, r)

/-- `prune_recent_losses_locked`: old losses leave at the front. -/
def pruneRecentLosses (now : Clock) (r : PortfolioRisk) : PortfolioRisk :=
  { r with
    recentLosses := r.recentLosses.dropWhile fun l =>
      (l.1 : ℤ) < now.steady - cfg.rapidLossWindowMin * minute }

/-- `update_balance`. -/
def updateBalance (balance : ℚ) (r : PortfolioRisk) : PortfolioRisk :=
  { r with initialBalance := balance }

/-- `on_trade_closed`. -/
def onTradeClosed (now : Clock) (pnl : ℚ) (r : PortfolioRisk) : PortfolioRisk :=
  let r := r.checkDailyReset now
  let r := { r with dailyPnl := r.dailyPnl + pnl, weeklyPnl := r.weeklyPnl + pnl }
  let r :=
    if pnl < 0 then
      let r := pruneRecentLosses cfg now
        { r with recentLosses := r.recentLosses ++ [(now.steady, pnl)] }
      if (r.recentLosses.map (·.2)).sum < -(r.initialBalance * (cfg.rapidLossPct / 100)) then
        r.activateCircuitBreaker now
      else r
    else r
  let r :=
    if r.dailyPnl < -(r.initialBalance * (cfg.cbDailyLossPct / 100)) then
      r.activateCircuitBreaker now
    else r
  if r.weeklyPnl < -(r.initialBalance * (cfg.cbWeeklyLossPct / 100)) then
    r.activateCircuitBreaker now
  else r

/-! ## The checks of an entry -/

/-- A stop-loss beyond the estimated liquidation price. -/
def checkLiquidation (e : EntryCheck) : Option RiskDecision :=
  if 0 < e.slPrice ∧ 0 < e.leverage then
    if isLongSide e.side then
      let liqEst := e.price * (1 - 9 / 10 / e.leverage)
      if e.slPrice < liqEst then
        some (block "sl_beyond_liquidation"
          ("SL " ++ fmt2 e.slPrice ++ " < est liq " ++ fmt2 liqEst ++ " (LONG " ++
            toString e.leverage ++ "x)"))
      else none
    else
      let liqEst := e.price * (1 + 9 / 10 / e.leverage)
      if liqEst < e.slPrice then
        some (block "sl_beyond_liquidation"
          ("SL " ++ fmt2 e.slPrice ++ " > est liq " ++ fmt2 liqEst ++ " (SHORT " ++
            toString e.leverage ++ "x)"))
      else none
  else none

variable (shadow : Bool)

def effMaxConcurrent : ℤ := if shadow then cfg.shadowMaxConcurrent else cfg.maxConcurrent

def effMaxSameDir : ℤ := if shadow then cfg.shadowMaxSameDir else cfg.maxSameDirection

def effMaxTotal : ℤ := if shadow then cfg.shadowMaxPosTotal else cfg.maxPosTotal

def effMarginPct : ℚ := if shadow then cfg.shadowMaxMarginPct else cfg.maxMarginUsagePct

/-- The name a timeframe is counted under. -/
def tfName (timeframe : String) : String := if timeframe = "" then "unknown" else timeframe

def tfLimit (tf : String) : ℤ := (cfg.maxPosPerTf.lookup tf).getD 10

/-- Whether a position goes the same way as a side. -/
def sameDirection (side : String) (p : ManagedPosition) : Bool :=
  isLongSide side = isLongSide p.side

/-- The margin a position uses. -/
def margin (p : ManagedPosition) : ℚ := |p.entryPrice * p.quantity| / p.leverage

/-- Without leverage the margin is infinite, and above every limit. -/
def endless (p : ManagedPosition) : Bool := p.leverage = 0 && p.entryPrice * p.quantity ≠ 0

/-- The text of a margin. -/
def fmtMargin (fmt : ℚ → String) (infinite : Bool) (v : ℚ) : String :=
  if infinite then "inf" else fmt v

/-- The checks against the open positions. -/
def checkLimits (positions : Table α ManagedPosition) (e : EntryCheck) : RiskDecision :=
  let total : ℤ := positions.size
  let sameDir : ℤ := positions.count (sameDirection e.side)
  let tf := tfName e.timeframe
  let tfCount : ℤ := positions.count fun p => p.timeframe = tf
  let newMargin := e.price * e.qty / e.leverage
  let newEndless := e.leverage = 0 && 0 < e.price * e.qty
  let tfEndless := newEndless || 0 < positions.count fun p => p.timeframe = tf && endless p
  let allEndless := newEndless || 0 < positions.count endless
  let tfMargin := positions.sum fun p => if p.timeframe = tf then margin p else 0
  let tfMax := e.balance * ((cfg.tfExposurePct.lookup tf).getD 30 / 100)
  let totalMargin := positions.sum margin
  let corrRisk := (totalMargin + newMargin) * cfg.corrFactor
  let corrLimit := e.balance * (cfg.maxCorrRiskPct / 100)
  let marginLimit := e.balance * (effMarginPct cfg shadow / 100)
  if effMaxConcurrent cfg shadow ≤ total then
    block "max_concurrent_positions"
      ((if shadow then "SHADOW " else "HARD ") ++ "LIMIT: " ++ toString total ++ "/" ++
        toString (effMaxConcurrent cfg shadow) ++ " concurrent positions")
  else if effMaxSameDir cfg shadow ≤ sameDir then
    block "max_same_direction"
      ((if isLongSide e.side then "long" else "short") ++ " concentration: " ++ toString sameDir ++
        "/" ++ toString (effMaxSameDir cfg shadow))
  else if effMaxTotal cfg shadow ≤ total then
    block "max_positions"
      ("Max positions: " ++ toString total ++ "/" ++ toString (effMaxTotal cfg shadow))
  else if tfLimit cfg tf ≤ tfCount then
    block "tf_position_limit"
      ("TF " ++ tf ++ "m limit: " ++ toString tfCount ++ "/" ++ toString (tfLimit cfg tf))
  else if tfEndless ∨ tfMax < tfMargin + newMargin then
    block "tf_exposure"
      ("TF " ++ tf ++ "m margin: " ++ fmtMargin fmt0 tfEndless (tfMargin + newMargin) ++ "/" ++
        fmt0 tfMax)
  else if allEndless ∨ corrLimit < corrRisk then
    block "correlation_risk"
      ("Correlated risk: " ++ fmtMargin fmt0 allEndless corrRisk ++ "/" ++ fmt0 corrLimit)
  else if allEndless ∨ marginLimit < totalMargin + newMargin then
    block "margin_limit"
      ("Margin " ++ fmt0 (effMarginPct cfg shadow) ++ "%: " ++
        fmtMargin fmt2 allEndless (totalMargin + newMargin) ++ "/" ++ fmt2 marginLimit)
  else { }

/-- **`check_entry`.** The decision, and the manager after it: the daily
reset always happens, and an active breaker may be released. -/
def checkEntry (now : Clock) (positions : Table α ManagedPosition) (e : EntryCheck)
    (r : PortfolioRisk) : RiskDecision × PortfolioRisk :=
  let r := r.checkDailyReset now
  if hardMaxNotional < e.price * e.qty then
    (block "hard_notional_cap"
      ("Notional " ++ fmt2 (e.price * e.qty) ++ " > hard max " ++ fmt2 hardMaxNotional), r)
  else
    match checkLiquidation e with
    | some d => (d, r)
    | none =>
        if r.cbActive then
          let (released, r) := checkCbCooldown cfg now r
          if released then (checkLimits cfg shadow positions e, r)
          else (block "circuit_breaker"
            ("Circuit breaker active (daily PnL: " ++ fmt2 r.dailyPnl ++ ")"), r)
        else (checkLimits cfg shadow positions e, r)

/-! ## What an admission means -/

section Allowed

variable {cfg shadow} {positions : Table α ManagedPosition} {e : EntryCheck} {now : Clock}
  {r : PortfolioRisk}

/-- **The limits an admitted entry leaves room under.** -/
structure RoomFor (cfg : PortfolioConfig) (shadow : Bool) (positions : Table α ManagedPosition)
    (side timeframe : String) : Prop where
  concurrent : (positions.size : ℤ) < effMaxConcurrent cfg shadow
  sameDir : (positions.count (sameDirection side) : ℤ) < effMaxSameDir cfg shadow
  timeframe : (positions.count (fun p => p.timeframe = tfName timeframe) : ℤ) <
    tfLimit cfg (tfName timeframe)

theorem roomFor_of_checkLimits (h : (checkLimits cfg shadow positions e).allowed = true) :
    RoomFor cfg shadow positions e.side e.timeframe := by
  simp only [checkLimits, ite_block_allowed, not_le] at h
  obtain ⟨hconcurrent, hdir, -, htf, -⟩ := h
  exact ⟨hconcurrent, hdir, htf⟩

theorem allowed_of_checkLiquidation {d : RiskDecision} (h : checkLiquidation e = some d) :
    d.allowed = false := by
  unfold checkLiquidation at h
  dsimp only at h
  split_ifs at h <;> cases h <;> rfl

/-- An entry that is admitted has passed the liquidation check. -/
theorem checkLiquidation_of_allowed
    (h : (checkEntry cfg shadow now positions e r).1.allowed = true) :
    checkLiquidation e = none := by
  unfold checkEntry at h
  dsimp only at h
  split at h
  · cases h
  split at h
  · rename_i d hliq
    rw [allowed_of_checkLiquidation hliq] at h
    cases h
  · assumption

/-- An entry that is admitted is under the hard cap and found room. -/
theorem of_checkEntry_allowed (h : (checkEntry cfg shadow now positions e r).1.allowed = true) :
    e.price * e.qty ≤ hardMaxNotional ∧ RoomFor cfg shadow positions e.side e.timeframe := by
  unfold checkEntry at h
  dsimp only at h
  split at h
  · cases h
  rename_i hcap
  refine ⟨not_lt.1 hcap, ?_⟩
  split at h
  · rename_i d hliq
    rw [allowed_of_checkLiquidation hliq] at h
    cases h
  · -- the breaker is off, or released, or blocks
    split at h
    · split at h
      · exact roomFor_of_checkLimits h
      · cases h
    · exact roomFor_of_checkLimits h

end Allowed

end PortfolioRisk

end WebhookTrader
