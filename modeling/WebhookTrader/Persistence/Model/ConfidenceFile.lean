import Mathlib.Data.List.ModifyLast
import WebhookTrader.Engine.Model.Confidence
import WebhookTrader.Persistence.Model.LearnerFile

/-!
# The confidence file

`confidence_scores.json`: what `refresh_eligible` writes of the confidence
in each key, what the constructor reads back, and a readiness engine that
goes through cycles and starts. The file is written in the middle of a
cycle, before the contexts are enriched.
-/

namespace WebhookTrader

namespace ConfidenceEntry

/-- All of it but whether the key has just been demoted. -/
def toJson (ce : ConfidenceEntry) : Json :=
  .obj
    [("consecutive_passes", .int ce.consecutivePasses), ("confidence", .int ce.confidence),
      ("size_boost", .float ce.sizeBoost), ("rolling_pnl", .float ce.rollingPnl),
      ("rolling_wr", .float ce.rollingWr), ("rolling_count", .int ce.rollingCount)]

def fromJson (j : Json) : Except Exception ConfidenceEntry := do
  let consecutivePasses ← j.value Json.getCount "consecutive_passes" 0
  let confidence ← j.value Json.getCount "confidence" 0
  let sizeBoost ← j.value Json.getDouble "size_boost" 1
  let rollingPnl ← j.value Json.getDouble "rolling_pnl" 0
  let rollingWr ← j.value Json.getDouble "rolling_wr" 0
  let rollingCount ← j.value Json.getCount "rolling_count" 0
  return { consecutivePasses, confidence, sizeBoost, rollingPnl, rollingWr, rollingCount }

end ConfidenceEntry

namespace Confidence

/-- The document `save_confidence` writes. -/
def toJson (m : Confidence) : Json := .ofFields (m.toPairs ConfidenceEntry.toJson)

/-- `load_confidence`: the entries up to the first that raises, and none
where there is nothing to parse. -/
def load : StateFile → Confidence
  | .document j => (Table.readEach ConfidenceEntry.fromJson j.items ∅).1
  | _ => ∅

end Confidence

/-- **The readiness engine and its file.** -/
structure ConfidenceProcess where
  memory : Confidence := ∅
  file : StateFile := .missing

inductive ConfidenceEvent
  /-- One cycle of the periodic thread. -/
  | cycle (r : Reports)
  /-- A new process, whose constructor calls `load_confidence`. One that ends
  after the save of a cycle and before its enrichment is as if it had ended
  after the cycle. -/
  | restart

namespace ConfidenceProcess

variable (cfg : ReadinessConfig) (maxConfidence : ℤ)

def step (p : ConfidenceProcess) : ConfidenceEvent → ConfidenceProcess
  | .cycle r =>
      let refreshed := (Confidence.refreshEligible cfg maxConfidence r.futures r.spot p.memory).2.2
      { memory := Confidence.enrich cfg maxConfidence r.spotTf
          (Confidence.enrich cfg maxConfidence r.futuresTf refreshed)
        file := .document refreshed.toJson }
  | .restart => { p with memory := Confidence.load p.file }

/-- From a start without a file. -/
def run (events : List ConfidenceEvent) : ConfidenceProcess :=
  events.foldl (step cfg maxConfidence) {}

end ConfidenceProcess

/-- A cycle's reports without those by timeframe. -/
def Reports.bySymbol (r : Reports) : Reports := { r with futuresTf := [], spotTf := [] }

namespace ConfidenceEvent

/-- What one event makes of the cycles before it: a restart takes the reports
by timeframe from the last one. -/
def stand (cycles : List Reports) : ConfidenceEvent → List Reports
  | cycle r => cycles ++ [r]
  | restart => cycles.modifyLast Reports.bySymbol

/-- **The cycles that stand**: each one with its reports by timeframe unless a
restart comes right after it. -/
def standing (events : List ConfidenceEvent) : List Reports := events.foldl stand []

end ConfidenceEvent

/-- How often a key passes in the reports by timeframe. -/
def Reports.contextPasses (cfg : ReadinessConfig) (key : String) (r : Reports) : ℕ :=
  (Readiness.contextKeys cfg r.futuresTf ++ Readiness.contextKeys cfg r.spotTf).count key

end WebhookTrader
