import WebhookTrader.Common.Decimal
import WebhookTrader.Common.Ring
import WebhookTrader.Risk.Model.Learner

/-!
# What the learner says of a signal

`evaluate`: the checks of a key's data in their order, the first of which
to fail rejects the signal, and the size of the order after them.
-/

namespace WebhookTrader

/-- The fields of the configuration that `evaluate` reads besides. -/
structure EvaluateConfig extends LearnerConfig where
  minTradesTpsl : ℤ := 15
  defaultTpPct : ℚ := 15 / 1000
  defaultSlPct : ℚ := 10 / 1000
  minTradesQuality : ℤ := 5
  qualityThreshold : ℚ := 20 / 100

/-- `session_name`. -/
def MarketSession.name : MarketSession → String
  | asia => "ASIA"
  | europe => "EU"
  | us => "US"
  | overlapEuUs => "EU_US"

/-- Why a signal is rejected, with what the text of it says. -/
inductive LearnSkip
  | blacklisted (key : String) (winPct : ℚ)
  | cooldown (key : String) (remaining streak : ℤ)
  | lowQuality (key : String) (quality : ℚ)
  | badSession (session : MarketSession) (winPct : ℚ)

/-- `std::to_string(x).substr(0, 5)`. -/
def fiveChars (x : ℚ) : String := String.ofList ((Numeral.printf 6 x).text.toList.take 5)

/-- The text of a reason. -/
def LearnSkip.text : LearnSkip → String
  | blacklisted key winPct => "BLACKLISTED(" ++ key ++ " wr=" ++ fiveChars winPct ++ "%)"
  | cooldown key remaining streak =>
      "COOLDOWN(" ++ key ++ " " ++ toString remaining ++ "s, streak=" ++ toString streak ++ ")"
  | lowQuality key quality => "LOW_QUALITY(" ++ key ++ " q=" ++ fiveChars quality ++ ")"
  | badSession session winPct =>
      "BAD_SESSION(" ++ session.name ++ " wr=" ++ fiveChars winPct ++ "%)"

structure LearnDecision where
  allowed : Bool := true
  signalQuality : ℚ := 1 / 2
  sizeMultiplier : ℚ := 1
  tpPct : ℚ := 15 / 1000
  slPct : ℚ := 10 / 1000
  skip : Option LearnSkip := none

/-- `skip_reason`. -/
def LearnDecision.skipReason (dec : LearnDecision) : String :=
  (dec.skip.map LearnSkip.text).getD ""

namespace SymbolLearnData

/-- The slots of the ring that the loops over it read. -/
def recentSlots (d : SymbolLearnData) : List ℚ :=
  Ring.filled (min d.recentCount recentWindow).toNat d.recentPnls

def recentAvgPnl (d : SymbolLearnData) : ℚ :=
  if d.recentCount = 0 then 0
  else d.recentSlots.sum / (min d.recentCount recentWindow : ℤ)

def recentWinRate (d : SymbolLearnData) : ℚ :=
  if d.recentCount = 0 then 1 / 2
  else d.recentSlots.countP (fun pnl => 0 < pnl) / (min d.recentCount recentWindow : ℤ)

/-- The share of wins. -/
def winRate (stats : ℤ × ℤ) : ℚ := stats.1 / stats.2

/-- The statistics of the session an hour is in. -/
def sessionOf (d : SymbolLearnData) (hour : ℤ) : ℤ × ℤ :=
  d.sessionStats (MarketSession.ofHour hour.toNat).index

/-- `calc_signal_quality`. -/
def calcSignalQuality (hourUtc : ℤ) (d : SymbolLearnData) : ℚ :=
  let baseWr := if 0 < d.totalTrades then winRate (d.wins, d.totalTrades) else 1 / 2
  let hourQuality :=
    if h : 0 ≤ hourUtc ∧ hourUtc < 24 then
      let stats := d.hourStats ⟨hourUtc.toNat, by omega⟩
      if 3 ≤ stats.2 then winRate stats else baseWr
    else baseWr
  let sessionQuality :=
    if 0 ≤ hourUtc ∧ 3 ≤ (d.sessionOf hourUtc).2 then winRate (d.sessionOf hourUtc) else baseWr
  let trendQuality := if 5 ≤ d.totalTrades then clamp (1 / 2 + d.emaPnl * 50) 0 1 else 1 / 2
  let recentQuality := if 3 ≤ d.recentCount then d.recentWinRate else 1 / 2
  let streakQuality :=
    if 2 ≤ d.consecutiveLosses then max (1 / 10) (1 - d.consecutiveLosses * (15 / 100)) else 1
  clamp (hourQuality * (20 / 100) + sessionQuality * (15 / 100) + trendQuality * (25 / 100) +
    recentQuality * (20 / 100) + streakQuality * (20 / 100)) 0 1

/-- The size after the checks but the session's. -/
def sizeMultiplier (cfg : EvaluateConfig) (quality : ℚ) (d : SymbolLearnData) : ℚ :=
  let kelly :=
    if cfg.kellyMinTrades ≤ d.totalTrades ∧ 0 < d.kellyFraction then
      clamp (1 / 2 + d.kellyFraction * 4) (1 / 2) (3 / 2)
    else 1
  let size :=
    if cfg.minTradesQuality ≤ d.totalTrades then kelly * clamp (quality * (3 / 2)) (1 / 2) (6 / 5)
    else kelly
  let size :=
    if 2 ≤ d.consecutiveLosses then size * max (3 / 10) (1 - d.consecutiveLosses * (1 / 5))
    else size
  if 5 ≤ d.recentCount then
    if d.recentWinRate < 3 / 10 then size * (1 / 2)
    else if 6 / 10 < d.recentWinRate then size * (6 / 5)
    else size
  else size

/-- **What the data of a key says**, at a time of the system clock and an
hour; a negative hour is none. -/
def evaluate (cfg : EvaluateConfig) (key : String) (now hourUtc : ℤ) (d : SymbolLearnData) :
    LearnDecision :=
  if d.blacklisted ∧ cfg.blacklistMin ≤ d.totalTrades then
    { allowed := false
      skip := some (.blacklisted key
        (if 0 < d.totalTrades then winRate (d.wins, d.totalTrades) * 100 else 0)) }
  else if 0 < d.cooldownUntil ∧ now < d.cooldownUntil then
    { allowed := false
      skip := some (.cooldown key (d.cooldownUntil - now) d.consecutiveLosses) }
  else
    let quality := d.calcSignalQuality hourUtc
    if cfg.minTradesQuality ≤ d.totalTrades ∧ quality < cfg.qualityThreshold then
      { allowed := false, signalQuality := quality, skip := some (.lowQuality key quality) }
    else
      let dec : LearnDecision :=
        { signalQuality := quality
          sizeMultiplier := d.sizeMultiplier cfg quality
          tpPct := if cfg.minTradesTpsl ≤ d.totalTrades then d.optimalTpPct else cfg.defaultTpPct
          slPct := if cfg.minTradesTpsl ≤ d.totalTrades then d.optimalSlPct else cfg.defaultSlPct }
      let sessionWr := winRate (d.sessionOf hourUtc)
      let tested := 0 ≤ hourUtc ∧ 5 ≤ (d.sessionOf hourUtc).2
      if tested ∧ sessionWr < 1 / 5 then
        { dec with
          allowed := false
          skip := some (.badSession (MarketSession.ofHour hourUtc.toNat) (sessionWr * 100)) }
      else
        let size := if tested ∧ sessionWr < 35 / 100 then dec.sizeMultiplier * (6 / 10)
          else dec.sizeMultiplier
        { dec with sizeMultiplier := clamp size (1 / 5) 2 }

end SymbolLearnData

namespace Learner

/-- **`evaluate`**: a key of which nothing is known is allowed. -/
def evaluate (cfg : EvaluateConfig) (symbol timeframe : String) (now hourUtc : ℤ)
    (learner : Learner) : LearnDecision :=
  if !cfg.enabled then {}
  else
    let key := makeKey symbol timeframe
    match learner.lookup key with
    | none => { tpPct := cfg.defaultTpPct, slPct := cfg.defaultSlPct }
    | some d => d.evaluate cfg key now hourUtc

end Learner

end WebhookTrader
