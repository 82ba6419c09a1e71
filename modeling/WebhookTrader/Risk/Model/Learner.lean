import WebhookTrader.Common.Calendar
import WebhookTrader.Common.Table
import WebhookTrader.Risk.Model.Trade

/-!
# The learner

`SymbolLearner`: what is learnt of the trades of a symbol on a timeframe,
and how a trade is recorded. Counters do not overflow. The evaluation of
a signal reads this data elsewhere; the file it is kept in is modelled
with the other files.
-/

namespace WebhookTrader

/-- The sessions of a day, in the order of the source. -/
inductive MarketSession
  | asia
  | europe
  | us
  | overlapEuUs
  deriving DecidableEq, Repr

namespace MarketSession

/-- `get_session`, of an hour in UTC. -/
def ofHour (hour : ℕ) : MarketSession :=
  if hour < 8 then asia else if hour < 13 then europe else if hour < 17 then overlapEuUs else us

/-- The session's number. -/
def index : MarketSession → Fin 4
  | asia => 0
  | europe => 1
  | us => 2
  | overlapEuUs => 3

end MarketSession

/-- The fields of the configuration that recording a trade reads. -/
structure LearnerConfig where
  enabled : Bool := true
  blacklistMin : ℤ := 10
  blacklistWr : ℚ := 25 / 100
  cooldownStreak : ℤ := 3
  cooldownMinutes : ℤ := 30
  emaAlpha : ℚ := 15 / 100
  tpSafetyMargin : ℚ := 85 / 100
  slSafetyMargin : ℚ := 115 / 100
  kellyFractionCap : ℚ := 25 / 100
  kellyMinTrades : ℤ := 20

/-- **What is learnt of a symbol on a timeframe.** -/
structure SymbolLearnData where
  totalTrades : ℤ := 0
  wins : ℤ := 0
  losses : ℤ := 0
  consecutiveLosses : ℤ := 0
  maxConsecutiveLosses : ℤ := 0
  totalPnl : ℚ := 0
  emaPnl : ℚ := 0
  /-- In seconds of the system clock, zero where there is no cooldown. -/
  cooldownUntil : ℤ := 0
  blacklisted : Bool := false
  sumWinPct : ℚ := 0
  sumLossPct : ℚ := 0
  winCountPct : ℤ := 0
  lossCountPct : ℤ := 0
  optimalTpPct : ℚ := 15 / 1000
  optimalSlPct : ℚ := 10 / 1000
  /-- The wins and the trades of every hour. -/
  hourStats : Fin 24 → ℤ × ℤ := fun _ => (0, 0)
  /-- The wins and the trades of every session. -/
  sessionStats : Fin 4 → ℤ × ℤ := fun _ => (0, 0)
  avgWinPct : ℚ := 0
  avgLossPct : ℚ := 0
  kellyFraction : ℚ := 0
  /-- The last profits, in a ring. -/
  recentPnls : Fin 10 → ℚ := fun _ => 0
  recentIdx : ℤ := 0
  recentCount : ℤ := 0

namespace SymbolLearnData

/-- `std::clamp`. -/
def clamp (x lo hi : ℚ) : ℚ := if x < lo then lo else if hi < x then hi else x

/-- `RECENT_WINDOW`. -/
def recentWindow : ℤ := 10

/-! ## The sections of `record_trade` -/

/-- The basic statistics; a profit of zero is a loss. -/
def recordBasics (pnl : ℚ) (d : SymbolLearnData) : SymbolLearnData :=
  let d := { d with totalTrades := d.totalTrades + 1, totalPnl := d.totalPnl + pnl }
  if 0 < pnl then { d with wins := d.wins + 1, consecutiveLosses := 0 }
  else
    { d with
      losses := d.losses + 1
      consecutiveLosses := d.consecutiveLosses + 1
      maxConsecutiveLosses := max d.maxConsecutiveLosses (d.consecutiveLosses + 1) }

/-- The moving average of the profit. -/
def recordEma (cfg : LearnerConfig) (pnl : ℚ) (d : SymbolLearnData) : SymbolLearnData :=
  { d with
    emaPnl :=
      if d.totalTrades = 1 then pnl else cfg.emaAlpha * pnl + (1 - cfg.emaAlpha) * d.emaPnl }

/-- `recalc_optimal_tpsl`. -/
def recalcOptimalTpsl (cfg : LearnerConfig) (d : SymbolLearnData) : SymbolLearnData :=
  let d :=
    if 5 ≤ d.winCountPct then
      let avgWin := d.sumWinPct / d.winCountPct
      { d with
        optimalTpPct := clamp (avgWin * cfg.tpSafetyMargin) (3 / 1000) (5 / 100)
        avgWinPct := avgWin }
    else d
  if 5 ≤ d.lossCountPct then
    let avgLoss := d.sumLossPct / d.lossCountPct
    { d with
      optimalSlPct := clamp (avgLoss * cfg.slSafetyMargin) (2 / 1000) (3 / 100)
      avgLossPct := avgLoss }
  else d

/-- The move of the price, where both prices are known. -/
def recordMove (cfg : LearnerConfig) (t : TradeRecord) (d : SymbolLearnData) : SymbolLearnData :=
  if 0 < t.entryPrice ∧ 0 < t.exitPrice then
    let movePct := |t.exitPrice - t.entryPrice| / t.entryPrice
    recalcOptimalTpsl cfg
      (if 0 < t.pnl then
        { d with sumWinPct := d.sumWinPct + movePct, winCountPct := d.winCountPct + 1 }
      else
        { d with sumLossPct := d.sumLossPct + movePct, lossCountPct := d.lossCountPct + 1 })
  else d

/-- A trade more, and a win more where it is one. -/
def bump (pnl : ℚ) (stats : ℤ × ℤ) : ℤ × ℤ :=
  (if 0 < pnl then stats.1 + 1 else stats.1, stats.2 + 1)

/-- `tm_hour` of a time in seconds. -/
def hourOf (now : ℕ) : ℕ := now / 3600 % 24

/-- The statistics of the hour and of the session. -/
def recordHour (now : ℕ) (pnl : ℚ) (d : SymbolLearnData) : SymbolLearnData :=
  let hour := hourOf now
  let session := (MarketSession.ofHour hour).index
  { d with
    hourStats := fun i => if i.val = hour then bump pnl (d.hourStats i) else d.hourStats i
    sessionStats := fun i => if i = session then bump pnl (d.sessionStats i) else d.sessionStats i }

/-- The ring of the last profits. -/
def recordRecent (pnl : ℚ) (d : SymbolLearnData) : SymbolLearnData :=
  { d with
    recentPnls := fun i => if (i.val : ℤ) = d.recentIdx then pnl else d.recentPnls i
    recentIdx := (d.recentIdx + 1).tmod recentWindow
    recentCount := min (d.recentCount + 1) recentWindow }

/-- `recalc_kelly`. -/
def recalcKelly (cfg : LearnerConfig) (d : SymbolLearnData) : SymbolLearnData :=
  let wr : ℚ := d.wins / d.totalTrades
  { d with
    kellyFraction :=
      if d.totalTrades < cfg.kellyMinTrades then 0
      else if 0 < d.avgLossPct ∧ 0 < d.avgWinPct then
        clamp ((wr - (1 - wr) / (d.avgWinPct / d.avgLossPct)) * (1 / 2)) 0 cfg.kellyFractionCap
      else if 0 < d.totalPnl ∧ 0 < d.avgLossPct then
        clamp (d.totalPnl / d.totalTrades * 10) 0 cfg.kellyFractionCap
      else 0 }

/-- The first half of `update_filters`: the cooldown doubles with every
loss more, three times at most. -/
def updateCooldown (cfg : LearnerConfig) (now : ℕ) (d : SymbolLearnData) : SymbolLearnData :=
  if cfg.cooldownStreak ≤ d.consecutiveLosses then
    let extraFactor := min (d.consecutiveLosses - cfg.cooldownStreak) 3
    { d with cooldownUntil := now + cfg.cooldownMinutes * 2 ^ extraFactor.toNat * 60 }
  else d

/-- The second half: the blacklist, which is left five points above where
it is entered. -/
def updateBlacklist (cfg : LearnerConfig) (d : SymbolLearnData) : SymbolLearnData :=
  if cfg.blacklistMin ≤ d.totalTrades then
    let wr : ℚ := d.wins / d.totalTrades
    if wr < cfg.blacklistWr then { d with blacklisted := true }
    else if d.blacklisted ∧ cfg.blacklistWr + 5 / 100 ≤ wr then { d with blacklisted := false }
    else d
  else d

/-- `update_filters`. -/
def updateFilters (cfg : LearnerConfig) (now : ℕ) (d : SymbolLearnData) : SymbolLearnData :=
  updateBlacklist cfg (updateCooldown cfg now d)

/-- **A trade is recorded**, at a time of the system clock. -/
def recordTrade (cfg : LearnerConfig) (now : ℕ) (t : TradeRecord) (d : SymbolLearnData) :
    SymbolLearnData :=
  let d := recordMove cfg t (recordEma cfg t.pnl (recordBasics t.pnl d))
  let d := recordRecent t.pnl (recordHour now t.pnl d)
  updateFilters cfg now (recalcKelly cfg d)

end SymbolLearnData

/-! ## The table -/

/-- Trades with the times at which they are recorded. -/
abbrev TimedTrades := List (ℕ × TradeRecord)

/-- `m_data`. -/
abbrev Learner := Table String SymbolLearnData

namespace Learner

/-- `make_key`. -/
def makeKey (symbol timeframe : String) : String :=
  if timeframe = "" then symbol ++ ":all" else symbol ++ ":" ++ timeframe

/-- **`record_trade`**: nothing where learning is switched off or the trade
has no symbol. -/
def recordTrade (cfg : LearnerConfig) (now : ℕ) (t : TradeRecord) (learner : Learner) : Learner :=
  if !cfg.enabled || t.symbol = "" then learner
  else
    let key := makeKey t.symbol t.timeframe
    learner.insert key (((learner.lookup key).getD {}).recordTrade cfg now t)

/-- Record one trade after the other, as the engine's start does. -/
def recordAll (cfg : LearnerConfig) (now : ℕ) (trades : List TradeRecord) (learner : Learner) :
    Learner :=
  trades.foldl (fun learner t => learner.recordTrade cfg now t) learner

end Learner

end WebhookTrader
