import Mathlib.Algebra.Order.Ring.Unbundled.Rat
import WebhookTrader.Common.Tally
import WebhookTrader.Engine.Model.Readiness

/-!
# The confidence in each key

`LiveReadinessEngine` keeps a confidence under each symbol and under each
context key, which is how many rounds in a row the key was ready or
proven, and which changes the size of its entries.
-/

namespace WebhookTrader

structure ConfidenceEntry where
  consecutivePasses : ℤ := 0
  confidence : ℤ := 0
  sizeBoost : ℚ := 1
  rollingPnl : ℚ := 0
  rollingWr : ℚ := 0
  rollingCount : ℤ := 0
  demoted : Bool := false
  deriving DecidableEq, Repr

/-- `confidence_to_boost`. -/
def confidenceToBoost (conf : ℤ) : ℚ :=
  if conf ≤ 0 then 9 / 10
  else if conf = 1 then 1
  else if conf = 2 then 105 / 100
  else if conf ≤ 4 then 11 / 10
  else 115 / 100

namespace ConfidenceEntry

/-- The rolling figures of a report entry, in place of what was there. -/
def roll (ce : ConfidenceEntry) (e : ReportEntry) : ConfidenceEntry :=
  let count := min (e.recentTrades.getD e.total) Readiness.rollingWindow
  { ce with
    rollingCount := count
    rollingPnl := e.recentPnl.getD e.totalPnl
    rollingWr := if 0 < count then (min (e.recentWins.getD e.wins) count : ℚ) / count else 0 }

/-- A full window with a loss or with fewer than two wins in five. -/
def shouldDemote (ce : ConfidenceEntry) : Bool :=
  Readiness.rollingWindow ≤ ce.rollingCount && (ce.rollingPnl < 0 || ce.rollingWr < 2 / 5)

/-- The loop's body for one symbol: a ready or proven one is demoted or
passes, any other one loses a pass. -/
def evaluate (maxConfidence : ℤ) (ce : ConfidenceEntry) (r : SymbolReadiness) : ConfidenceEntry :=
  let ce := { ce with demoted := false }
  let ce :=
    if r.level.isLive then
      if ce.shouldDemote then { ce with consecutivePasses := 0, demoted := true }
      else { ce with consecutivePasses := min (ce.consecutivePasses + 1) maxConfidence }
    else if 0 < ce.consecutivePasses then
      { ce with consecutivePasses := ce.consecutivePasses - 1 }
    else ce
  { ce with
    confidence := ce.consecutivePasses
    sizeBoost := confidenceToBoost ce.consecutivePasses }

/-- The pass of a context key. -/
def passContext (maxConfidence : ℤ) (ce : ConfidenceEntry) : ConfidenceEntry :=
  let passes := min (ce.consecutivePasses + 1) maxConfidence
  { ce with
    consecutivePasses := passes
    confidence := passes
    sizeBoost := confidenceToBoost passes }

end ConfidenceEntry

/-- `m_confidence`. -/
abbrev Confidence := Table String ConfidenceEntry

namespace Confidence

variable (cfg : ReadinessConfig) (maxConfidence : ℤ)

/-- `build_rolling`, which skips entries without a symbol. -/
def buildRolling (report : List ReportEntry) (m : Confidence) : Confidence :=
  (report.filter fun e => e.symbol ≠ "").foldl
    (Table.tallyStep (·.symbol) ConfidenceEntry.roll {}) m

/-- One symbol of the loop: its entry, and its place among the eligible
keys. -/
def refreshStep (s : Confidence × List String) (r : SymbolReadiness) :
    Confidence × List String :=
  let ce := (s.1.lookup r.symbol).getD {}
  (s.1.insert r.symbol (ce.evaluate maxConfidence r),
    if r.level.isLive && !ce.shouldDemote then s.2 ++ [r.symbol] else s.2)

/-- The clean-up: entries of no confidence that were seen and are not
eligible. -/
def cleanUp (seen eligible : List String) (m : Confidence) : Confidence :=
  (m.keys.filter fun k =>
    ((m.lookup k).getD {}).confidence = 0 && seen.contains k && !eligible.contains k).foldl
      (fun m k => AList.erase k m) m

/-- `refresh_eligible`, with what it does to the confidence. -/
def refreshEligible (futures spot : List ReportEntry) (m : Confidence) :
    PipelineStatus × List String × Confidence :=
  let all := Readiness.evaluateAll cfg futures spot
  let rolled := buildRolling spot (buildRolling futures m)
  let (m, eligible) := all.foldl (refreshStep maxConfidence) (rolled, [])
  (Readiness.getPipelineStatus cfg all, eligible, cleanUp (all.map (·.symbol)) eligible m)

/-- `enrich_eligible_with_context` on one report: a pass for both directions
of what is ready or proven, and nothing for what is not. -/
def enrich (report : List ReportEntry) (m : Confidence) : Confidence :=
  (Readiness.contextKeys cfg report).foldl
    (Table.tallyStep id (fun ce _ => ce.passContext maxConfidence) {}) m

/-- One cycle: `refresh_eligible`, then `enrich_eligible_with_context`. -/
def cycle (m : Confidence) (r : Reports) : Confidence :=
  enrich cfg maxConfidence r.spotTf (enrich cfg maxConfidence r.futuresTf
    (refreshEligible cfg maxConfidence r.futures r.spot m).2.2)

/-- Cycle after cycle, from nothing. -/
def run (cycles : List Reports) : Confidence := cycles.foldl (cycle cfg maxConfidence) ∅

/-- `get_confidence`. -/
def getConfidence (m : Confidence) (key : String) : ConfidenceEntry := (m.lookup key).getD {}

end Confidence

end WebhookTrader
