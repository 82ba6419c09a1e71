import WebhookTrader.Common.Stages
import WebhookTrader.Persistence.Model.LearnerFile
import WebhookTrader.Risk.Model.Scorer

/-!
# The scorer's files

`symbol_scores.json` and `context_scores.json`: what is written of a
score, what is read back, and a scorer that is started again. A value that
raises ends the reading of its score and leaves what has been read. The
sums of the contexts' closes are in neither file.
-/

namespace WebhookTrader

open Json Stage

/-! ## Scores -/

namespace TfSubScore

/-- A timeframe's part of a score, with its win rate in percent. -/
def toJson (s : TfSubScore) : Json :=
  .obj
    [("trades", .int s.trades), ("wins", .int s.wins),
      ("win_rate", .float (roundHalfAway (s.winRate * 1000) / 10)),
      ("pnl", .float (roundHalfAway (s.pnl * 10000) / 10000))]

def stages (j : Json) : List (Stage Exception TfSubScore) :=
  [assign (j.value getCount "trades" 0) fun n s => { s with trades := n },
    assign (j.value getCount "wins" 0) fun n s => { s with wins := n },
    assign (j.value getDouble "win_rate" 0) fun q s => { s with winRate := q / 100 },
    assign (j.value getDouble "pnl" 0) fun q s => { s with pnl := q }]

/-- It never raises itself. -/
def fromJson (j : Json) : Except Exception TfSubScore := .ok (run (stages j) {})

end TfSubScore

namespace FullScore

def toJson (s : FullScore) : Json :=
  .obj
    [("symbol", .str s.symbol), ("tier", .str s.tier), ("total_trades", .int s.totalTrades),
      ("wins", .int s.wins), ("losses", .int s.losses), ("win_rate", .float s.winRate),
      ("total_pnl", .float s.totalPnl), ("avg_pnl", .float s.avgPnl),
      ("avg_win", .float s.avgWin), ("avg_loss", .float s.avgLoss),
      ("profit_factor", .float s.profitFactor), ("expectancy", .float s.expectancy),
      ("consistency", .float s.consistency), ("signal_count", .int s.signalCount),
      ("frequency_quality", .float s.frequencyQuality),
      ("composite_score", .float s.compositeScore), ("data_sufficient", .bool s.dataSufficient),
      ("size_multiplier", .float s.sizeMultiplier), ("max_leverage", .int s.maxLeverage),
      ("last_updated", .str s.lastUpdated),
      ("tf_scores", .obj (s.tfScores.toPairs TfSubScore.toJson)),
      ("avg_realized_rr", .float s.avgRealizedRr),
      ("net_expectancy_per_trade", .float s.netExpectancyPerTrade),
      ("total_fees", .float s.totalFees),
      ("realized_rr_consistency", .float s.realizedRrConsistency),
      ("realized_trade_count", .int s.realizedTradeCount), ("rev_trades", .int s.revTrades),
      ("rev_wins", .int s.revWins), ("rev_pnl", .float s.revPnl),
      ("rev_win_rate", .float s.revWinRate), ("rev_allowed", .bool s.revAllowed),
      ("rev_score_adj", .float s.revScoreAdj)]

/-- The timeframes' parts, which replace what there was. -/
def tfScoresStage (j : Json) : Stage Exception FullScore :=
  match j.find? "tf_scores" with
  | some (.obj fields) => fun s =>
      ({ s with tfScores := (Table.readEach TfSubScore.fromJson fields ∅).1 }, .ok ())
  | _ => skip

/-- The body of `from_json`'s `try`. -/
def stages (j : Json) : List (Stage Exception FullScore) :=
  [assign (j.value getString "symbol" "") fun t s => { s with symbol := t },
    assign (j.value getString "tier" "C") fun t s => { s with tier := t },
    assign (j.value getCount "total_trades" 0) fun n s => { s with totalTrades := n },
    assign (j.value getCount "wins" 0) fun n s => { s with wins := n },
    assign (j.value getCount "losses" 0) fun n s => { s with losses := n },
    assign (j.value getDouble "win_rate" 0) fun q s => { s with winRate := q },
    assign (j.value getDouble "total_pnl" 0) fun q s => { s with totalPnl := q },
    assign (j.value getDouble "avg_pnl" 0) fun q s => { s with avgPnl := q },
    assign (j.value getDouble "avg_win" 0) fun q s => { s with avgWin := q },
    assign (j.value getDouble "avg_loss" 0) fun q s => { s with avgLoss := q },
    assign (j.value getDouble "profit_factor" 0) fun q s => { s with profitFactor := q },
    assign (j.value getDouble "expectancy" 0) fun q s => { s with expectancy := q },
    assign (j.value getDouble "consistency" 0) fun q s => { s with consistency := q },
    assign (j.value getCount "signal_count" 0) fun n s => { s with signalCount := n },
    assign (j.value getDouble "frequency_quality" 0) fun q s => { s with frequencyQuality := q },
    assign (j.value getDouble "composite_score" 0) fun q s => { s with compositeScore := q },
    assign (j.value getBool "data_sufficient" false) fun b s => { s with dataSufficient := b },
    assign (j.value getDouble "size_multiplier" (1 / 2)) fun q s => { s with sizeMultiplier := q },
    assign (j.value getCount "max_leverage" 10) fun n s => { s with maxLeverage := n },
    assign (j.value getString "last_updated" "") fun t s => { s with lastUpdated := t },
    tfScoresStage j,
    assign (j.value getDouble "avg_realized_rr" 0) fun q s => { s with avgRealizedRr := q },
    assign (j.value getDouble "net_expectancy_per_trade" 0) fun q s =>
      { s with netExpectancyPerTrade := q },
    assign (j.value getDouble "total_fees" 0) fun q s => { s with totalFees := q },
    assign (j.value getDouble "realized_rr_consistency" 0) fun q s =>
      { s with realizedRrConsistency := q },
    assign (j.value getCount "realized_trade_count" 0) fun n s =>
      { s with realizedTradeCount := n },
    assign (j.value getCount "rev_trades" 0) fun n s => { s with revTrades := n },
    assign (j.value getCount "rev_wins" 0) fun n s => { s with revWins := n },
    assign (j.value getDouble "rev_pnl" 0) fun q s => { s with revPnl := q },
    assign (j.value getDouble "rev_win_rate" 0) fun q s => { s with revWinRate := q },
    assign (j.value getBool "rev_allowed" false) fun b s => { s with revAllowed := b },
    assign (j.value getDouble "rev_score_adj" 0) fun q s => { s with revScoreAdj := q }]

/-- It never raises itself. -/
def fromJson (j : Json) : Except Exception FullScore := .ok (run (stages j) {})

end FullScore

/-! ## The files -/

/-- **The scorer's files.** -/
structure ScorerFiles where
  symbolScores : StateFile := .missing
  contextScores : StateFile := .missing

namespace Scorer

/-- The document `save_context_scores_locked` writes, with the time it is
written at. -/
def contextScoresJson (now : String) (s : Scorer) : Json :=
  .obj
    [("last_updated", .str now), ("total_contexts", .int s.contextScores.size),
      ("context_scores", .ofFields (s.contextScores.toPairs FullScore.toJson))]

/-- The scores under a field of a file. -/
def readScores (field : String) : StateFile → Table String FullScore
  | .document j =>
      match j.value Except.ok field (.obj []) with
      | .ok scores => (Table.readEach FullScore.fromJson scores.items ∅).1
      | .error _ => ∅
  | _ => ∅

/-- `load_scores`. -/
def loadScores (file : StateFile) : Table String FullScore := readScores "scores" file

/-- `load_context_scores`. -/
def loadContextScores (file : StateFile) : Table String FullScore :=
  readScores "context_scores" file

/-- **The constructor**, which loads both files and has no sums yet. -/
def load (files : ScorerFiles) : Scorer where
  scores := loadScores files.symbolScores
  contextScores := loadContextScores files.contextScores

end Scorer

/-! ## Recordings and restarts -/

/-- **The scorer and its files.** -/
structure ScorerProcess where
  scorer : Scorer
  files : ScorerFiles

/-- **What happens to a scorer**, with the time as `current_iso_time` writes
it. -/
inductive ScorerOp
  | contextTrade (symbol timeframe direction : String) (pnl : ℚ) (isWin : Bool) (now : String)
  | realizedTrade (symbol timeframe direction : String) (grossPnl feeCost realizedRr : ℚ)
      (now : String)
  | restart
  deriving DecidableEq

namespace ScorerProcess

/-- A scorer that has just been started. -/
def start (files : ScorerFiles) : ScorerProcess := ⟨.load files, files⟩

/-- `save_context_scores_locked`. -/
def saveContextScores (now : String) (p : ScorerProcess) : ScorerProcess :=
  { p with files := { p.files with contextScores := .document (p.scorer.contextScoresJson now) } }

/-- **One operation.** A realized trade is saved where its context has an
entry. -/
def step (cfg : ScorerConfig) (p : ScorerProcess) : ScorerOp → ScorerProcess
  | .contextTrade symbol timeframe direction pnl isWin now =>
      saveContextScores now
        { p with
          scorer := p.scorer.recordContextTrade cfg symbol timeframe direction pnl isWin now }
  | .realizedTrade symbol timeframe direction grossPnl feeCost realizedRr now =>
      let q : ScorerProcess :=
        { p with
          scorer :=
            p.scorer.recordRealizedTrade symbol timeframe direction grossPnl feeCost realizedRr }
      if (p.scorer.getContextScore symbol timeframe direction).isSome then saveContextScores now q
      else q
  | .restart => start p.files

/-- One operation after the other, from a start on some files. -/
def play (cfg : ScorerConfig) (files : ScorerFiles) (ops : List ScorerOp) : ScorerProcess :=
  ops.foldl (step cfg) (start files)

end ScorerProcess

end WebhookTrader
