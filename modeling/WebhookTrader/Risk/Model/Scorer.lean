import Mathlib.Algebra.Order.Ring.Unbundled.Rat
import WebhookTrader.Common.Decimal
import WebhookTrader.Common.Table
import WebhookTrader.Risk.Model.Sizing

/-!
# The scorer's contexts

`SymbolScorer`, as far as the score of a context goes: a symbol on a
timeframe in a direction. A closed trade is recorded in two ways. The one
makes the entry of the context where there is none and counts the trade
in it; the other keeps sums of its own for every context, and writes them
into the entry where there is one. Counters do not overflow.
-/

namespace WebhookTrader

/-! ## Scores -/

structure TfSubScore where
  trades : ℤ := 0
  wins : ℤ := 0
  winRate : ℚ := 0
  pnl : ℚ := 0
  deriving DecidableEq, Repr

/-- **`SymbolScore`**, with everything that is kept in it. -/
structure FullScore extends SymbolScore where
  sizeMultiplier := 1 / 2
  symbol : String := ""
  wins : ℤ := 0
  losses : ℤ := 0
  totalPnl : ℚ := 0
  avgPnl : ℚ := 0
  profitFactor : ℚ := 0
  expectancy : ℚ := 0
  consistency : ℚ := 0
  signalCount : ℤ := 0
  frequencyQuality : ℚ := 0
  lastUpdated : String := ""
  tfScores : Table String TfSubScore := ∅
  avgRealizedRr : ℚ := 0
  netExpectancyPerTrade : ℚ := 0
  totalFees : ℚ := 0
  realizedRrConsistency : ℚ := 0
  realizedTradeCount : ℤ := 0
  revTrades : ℤ := 0
  revWins : ℤ := 0
  revPnl : ℚ := 0
  revWinRate : ℚ := 0
  revAllowed : Bool := false
  revScoreAdj : ℚ := 0
  deriving DecidableEq

/-- The sums of a context's closes. -/
structure RealizedAccumulator where
  totalGrossPnl : ℚ := 0
  totalFeeCost : ℚ := 0
  totalNetPnl : ℚ := 0
  sumRealizedRr : ℚ := 0
  count : ℤ := 0
  deriving DecidableEq, Repr

/-- The part of the configuration that scores a context. -/
structure ScorerConfig where
  minTrades : ℤ := 20
  thresholdS : ℚ := 75
  thresholdA : ℚ := 60
  thresholdB : ℚ := 45
  thresholdC : ℚ := 30
  thresholdD : ℚ := 15
  sizeMult : Table String ℚ := ∅
  maxLev : Table String ℤ := ∅

namespace ScorerConfig

variable (cfg : ScorerConfig)

def assignTier (score : ℚ) : String :=
  if cfg.thresholdS ≤ score then "S"
  else if cfg.thresholdA ≤ score then "A"
  else if cfg.thresholdB ≤ score then "B"
  else if cfg.thresholdC ≤ score then "C"
  else if cfg.thresholdD ≤ score then "D"
  else "X"

def sizeMultFor (tier : String) : ℚ := (cfg.sizeMult.lookup tier).getD (1 / 2)

def maxLevFor (tier : String) : ℤ := (cfg.maxLev.lookup tier).getD 10

end ScorerConfig

/-! ## Recording -/

/-- The scores of symbols and of contexts, and the contexts' sums. -/
structure Scorer where
  scores : Table String FullScore := ∅
  contextScores : Table String FullScore := ∅
  accumulators : Table String RealizedAccumulator := ∅

namespace Scorer

/-- `compute_context_key`. -/
def computeContextKey (symbol timeframe direction : String) : String :=
  symbol ++ ":" ++ (if timeframe = "" then "unknown" else timeframe) ++ ":" ++
    (if direction = "" then "unknown" else direction)

def round1 (q : ℚ) : ℚ := roundHalfAway (q * 10) / 10

def clamp (q low high : ℚ) : ℚ := max low (min q high)

/-- The composite of a context: shrunk to the middle while there are few
trades. -/
def contextComposite (totalTrades : ℤ) (winRate : ℚ) : ℚ :=
  if 0 < totalTrades then
    let rawScore := clamp (30 + (winRate - 33 / 100) * 50) 15 55
    let sampleConf : ℚ := totalTrades / (totalTrades + 20)
    clamp (round1 (35 * (1 - sampleConf) + rawScore * sampleConf)) 0 100
  else 35

variable (cfg : ScorerConfig)

/-- One more trade in a context's entry; the last argument is the time as
`current_iso_time` writes it. -/
def countTrade (key : String) (pnl : ℚ) (isWin : Bool) (now : String) (score : FullScore) :
    FullScore :=
  let totalTrades := score.totalTrades + 1
  let wins := if isWin then score.wins + 1 else score.wins
  let totalPnl := score.totalPnl + pnl
  let winRate : ℚ := if 0 < totalTrades then wins / totalTrades else 0
  let compositeScore := contextComposite totalTrades winRate
  let tier := cfg.assignTier compositeScore
  { score with
    symbol := key
    totalTrades
    wins
    losses := totalTrades - wins
    totalPnl
    winRate
    avgPnl := if 0 < totalTrades then totalPnl / totalTrades else 0
    dataSufficient := cfg.minTrades ≤ totalTrades
    compositeScore
    tier
    sizeMultiplier := cfg.sizeMultFor tier
    maxLeverage := cfg.maxLevFor tier
    lastUpdated := now }

/-- **`record_context_trade`.** -/
def recordContextTrade (symbol timeframe direction : String) (pnl : ℚ) (isWin : Bool)
    (now : String) (s : Scorer) : Scorer :=
  let key := computeContextKey symbol timeframe direction
  { s with
    contextScores := s.contextScores.insert key
      (countTrade cfg key pnl isWin now ((s.contextScores.lookup key).getD {})) }

/-- One more close in a context's sums. -/
def addRealized (grossPnl feeCost realizedRr : ℚ) (acc : RealizedAccumulator) :
    RealizedAccumulator where
  totalGrossPnl := acc.totalGrossPnl + grossPnl
  totalFeeCost := acc.totalFeeCost + feeCost
  totalNetPnl := acc.totalNetPnl + (grossPnl - feeCost)
  sumRealizedRr := acc.sumRealizedRr + realizedRr
  count := acc.count + 1

/-- A context's entry with its sums written into it. -/
def withRealized (acc : RealizedAccumulator) (score : FullScore) : FullScore :=
  let netExpectancy : ℚ := if 0 < acc.count then acc.totalNetPnl / acc.count else 0
  { score with
    avgRealizedRr := if 0 < acc.count then acc.sumRealizedRr / acc.count else 0
    netExpectancyPerTrade := netExpectancy
    totalFees := acc.totalFeeCost
    realizedTradeCount := acc.count
    realizedRrConsistency :=
      if 10 ≤ acc.count ∧ 1 / 10000 < |score.expectancy| then
        clamp (1 - |1 - netExpectancy / score.expectancy|) 0 1
      else score.realizedRrConsistency }

/-- **`record_realized_trade`.** -/
def recordRealizedTrade (symbol timeframe direction : String)
    (grossPnl feeCost realizedRr : ℚ) (s : Scorer) : Scorer :=
  let key := computeContextKey symbol timeframe direction
  let acc := addRealized grossPnl feeCost realizedRr ((s.accumulators.lookup key).getD {})
  { s with
    accumulators := s.accumulators.insert key acc
    contextScores := s.contextScores.modify key (withRealized acc) }

/-! ## Reading -/

/-- `get_context_score`. -/
def getContextScore (symbol timeframe direction : String) (s : Scorer) : Option FullScore :=
  s.contextScores.lookup (computeContextKey symbol timeframe direction)

/-- `get_score`. -/
def getScore (symbol : String) (s : Scorer) : Option FullScore := s.scores.lookup symbol

/-- **`get_best_score`**: the context's, where it has five trades. -/
def getBestScore (symbol timeframe direction : String) (s : Scorer) : Option FullScore :=
  match s.getContextScore symbol timeframe direction with
  | some ctx => if 5 ≤ ctx.totalTrades then some ctx else s.getScore symbol
  | none => s.getScore symbol

end Scorer

end WebhookTrader
