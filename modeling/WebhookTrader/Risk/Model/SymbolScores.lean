import WebhookTrader.Common.Tally
import WebhookTrader.Risk.Model.Scorer
import WebhookTrader.Risk.Model.Trade
import WebhookTrader.Webhook.Model.Signal

/-!
# The scorer's symbols

`SymbolScorer::score_symbol` and `rescore_all`: the score of a symbol from
its trades. The figures are those that the function computes on its way,
before they are rounded into the score. The square root of the standard
deviation is a parameter.
-/

namespace WebhookTrader

/-- The part of the configuration that scores a symbol. -/
structure ScoringConfig extends ScorerConfig where
  enabled : Bool := true
  weightExpectancy : ℚ := 35 / 100
  weightPf : ℚ := 25 / 100
  weightWr : ℚ := 20 / 100
  weightCon : ℚ := 10 / 100
  weightFq : ℚ := 10 / 100
  revMinTrades : ℤ := 3
  revAllowWr : ℚ := 35 / 100
  revBonusWr : ℚ := 50 / 100
  revPenaltyZero : ℚ := -15
  revPenaltyLow : ℚ := -10
  revBonus : ℚ := 5

namespace Scorer

def round3 (q : ℚ) : ℚ := roundHalfAway (q * 1000) / 1000

def round4 (q : ℚ) : ℚ := roundHalfAway (q * 10000) / 10000

def round6 (q : ℚ) : ℚ := roundHalfAway (q * 1000000) / 1000000

def normalize (value low high : ℚ) : ℚ :=
  if high ≤ low then 1 / 2 else clamp ((value - low) / (high - low)) 0 1

/-! ## Figures -/

section Figures

variable (trades : List TradeRecord)

def allPnls : List ℚ := trades.map (·.pnl)

def winsList : List ℚ := (allPnls trades).filter (0 < ·)

def lossesList : List ℚ := (allPnls trades).filter (¬0 < ·)

def totalPnl : ℚ := (allPnls trades).sum

def winRate : ℚ :=
  if 0 < trades.length then ((winsList trades).length : ℚ) / trades.length else 0

def avgPnl : ℚ := if 0 < trades.length then totalPnl trades / trades.length else 0

def avgWin : ℚ :=
  if winsList trades ≠ [] then (winsList trades).sum / (winsList trades).length else 0

/-- Not negative. -/
def avgLoss : ℚ :=
  if lossesList trades ≠ [] then |(lossesList trades).sum / (lossesList trades).length| else 0

def grossProfit : ℚ := (winsList trades).sum

def grossLoss : ℚ := |(lossesList trades).sum|

def profitFactor : ℚ :=
  if 0 < grossLoss trades then grossProfit trades / grossLoss trades else 0

def expectancy : ℚ :=
  winRate trades * avgWin trades - (1 - winRate trades) * avgLoss trades

/-- One minus the standard deviation, in terms of the mean of the amounts. -/
def consistency (sqrt : ℚ → ℚ) : ℚ :=
  if 3 ≤ trades.length then
    let mean := totalPnl trades / trades.length
    let sqSum := ((allPnls trades).map fun p => (p - mean) * (p - mean)).sum
    let stdev := sqrt (sqSum / (trades.length - 1))
    let meanAbs := ((allPnls trades).map abs).sum / trades.length
    if 0 < meanAbs then clamp (1 - stdev / meanAbs) 0 1 else 1 / 2
  else 1 / 2

def frequencyQuality (signalCount : ℤ) : ℚ :=
  if 0 < signalCount ∧ 0 < trades.length then
    winRate trades * min ((trades.length : ℚ) / signalCount) 1
  else 1 / 2

/-! ### Performance -/

def expectancyScore : ℚ := normalize (expectancy trades) (-5 / 100) (15 / 100)

def profitFactorScore : ℚ := normalize (profitFactor trades) (1 / 2) 3

def winRateScore : ℚ := normalize (winRate trades) (25 / 100) (65 / 100)

/-! ### Reversals -/

def revTrades : List TradeRecord :=
  trades.filter fun t => WebhookSignal.hasInfix "REVERSE" t.exitReason

def revWins : ℕ := (revTrades trades).countP fun t => 0 < t.pnl

def revPnl : ℚ := ((revTrades trades).map (·.pnl)).sum

def revWinRate : ℚ :=
  if 0 < (revTrades trades).length then (revWins trades : ℚ) / (revTrades trades).length else 0

end Figures

/-! ## Timeframes -/

/-- The timeframe a trade is counted under. -/
def tfOf (t : TradeRecord) : String := if t.timeframe = "" then "unknown" else t.timeframe

/-- One more trade of a timeframe. -/
def countTf (s : TfSubScore) (t : TradeRecord) : TfSubScore :=
  { s with
    trades := s.trades + 1
    wins := if 0 < t.pnl then s.wins + 1 else s.wins
    pnl := s.pnl + t.pnl }

/-- The win rate, once the trades are counted. -/
def rateTf (s : TfSubScore) : TfSubScore :=
  { s with winRate := if 0 < s.trades then (s.wins : ℚ) / s.trades else 0 }

/-- The scores by timeframe. -/
def tfScores (trades : List TradeRecord) : Table String TfSubScore :=
  (Table.tally tfOf countTf {} trades).mapValues fun _ => rateTf

/-! ## The score -/

section Score

variable (cfg : ScoringConfig) (sqrt : ℚ → ℚ) (trades : List TradeRecord) (signalCount : ℤ)

/-- The composite before the reversals: of the figures, or shrunk to the
middle while there are few trades. -/
def baseComposite : ℚ :=
  if cfg.minTrades ≤ trades.length then
    clamp
      (expectancyScore trades * 100 * cfg.weightExpectancy +
        profitFactorScore trades * 100 * cfg.weightPf + winRateScore trades * 100 * cfg.weightWr +
        consistency trades sqrt * 100 * cfg.weightCon +
        frequencyQuality trades signalCount * 100 * cfg.weightFq) 0 100
  else if 0 < trades.length then
    let rawScore := clamp (30 + (winRate trades - 33 / 100) * 50) 15 55
    let sampleConf : ℚ := trades.length / (trades.length + 20)
    clamp (35 * (1 - sampleConf) + rawScore * sampleConf) 15 55
  else 35

/-- What the reversals add to the composite, and whether they are allowed. -/
def reversals : ℚ × Bool :=
  if cfg.revMinTrades ≤ (revTrades trades).length then
    if revWins trades = 0 then (cfg.revPenaltyZero, false)
    else if revWinRate trades < cfg.revAllowWr then (cfg.revPenaltyLow, false)
    else if cfg.revBonusWr ≤ revWinRate trades then (cfg.revBonus, true)
    else (0, true)
  else (0, false)

/-- The composite, before it is rounded. -/
def composite : ℚ :=
  clamp (baseComposite cfg sqrt trades signalCount + (reversals cfg trades).1) 0 100

/-- **`score_symbol`**; the last argument is the time as `current_iso_time`
writes it. -/
def scoreSymbol (symbol now : String) : FullScore where
  symbol
  tier := cfg.assignTier (composite cfg sqrt trades signalCount)
  totalTrades := trades.length
  wins := (winsList trades).length
  losses := (lossesList trades).length
  winRate := round4 (winRate trades)
  totalPnl := round4 (totalPnl trades)
  avgPnl := round4 (avgPnl trades)
  avgWin := round4 (avgWin trades)
  avgLoss := round4 (avgLoss trades)
  profitFactor := round3 (profitFactor trades)
  expectancy := round6 (expectancy trades)
  consistency := round3 (consistency trades sqrt)
  signalCount
  frequencyQuality := round3 (frequencyQuality trades signalCount)
  compositeScore := round1 (composite cfg sqrt trades signalCount)
  dataSufficient := cfg.minTrades ≤ trades.length
  sizeMultiplier := cfg.sizeMultFor (cfg.assignTier (composite cfg sqrt trades signalCount))
  maxLeverage := cfg.maxLevFor (cfg.assignTier (composite cfg sqrt trades signalCount))
  lastUpdated := now
  tfScores := tfScores trades
  revTrades := (revTrades trades).length
  revWins := revWins trades
  revPnl := round4 (revPnl trades)
  revWinRate := round4 (revWinRate trades)
  revAllowed := (reversals cfg trades).2
  revScoreAdj := round1 (reversals cfg trades).1

end Score

/-- The trades of each symbol that has a name. -/
def bySymbol (trades : List TradeRecord) : Table String (List TradeRecord) :=
  Table.tally (·.symbol) (fun group t => group ++ [t]) [] (trades.filter fun t => t.symbol ≠ "")

/-- **`rescore_all`**: the scores of all symbols anew. -/
def rescoreAll (cfg : ScoringConfig) (sqrt : ℚ → ℚ) (now : String → String)
    (trades : List TradeRecord) (s : Scorer) : Scorer :=
  if cfg.enabled then
    { s with
      scores := (bySymbol trades).entries.foldl
        (fun scores e => scores.insert e.1 (scoreSymbol cfg sqrt e.2 0 e.1 (now e.1))) ∅ }
  else s

end Scorer

end WebhookTrader
