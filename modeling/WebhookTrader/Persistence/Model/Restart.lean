import WebhookTrader.Engine.Model.State
import WebhookTrader.Persistence.Model.LearnerFile

/-!
# Recordings and restarts

What the program has in memory of the engine and the learner, the files
it keeps them in, and the four things that happen to them: a close is
recorded, a trade is imported, a shadow trade is closed, and the program
is shut down and started again.
-/

namespace WebhookTrader

/-- What the engine hands to `save_state`: its positions under their keys'
texts. -/
def Shared.saved (ordersExecuted : ℕ) (s : Shared) : SavedState where
  balance := s.balance
  peakBalance := s.peakBalance
  positions := s.positions.entries.foldl (fun saved e => saved.insert e.1.text e.2) ∅
  trades := s.trades
  ordersExecuted

/-- **The program's memory and its files.** -/
structure Installation where
  engine : SavedState
  learner : Learner
  stateDisk : StateDisk
  learnerFile : StateFile

/-- What an engine begins with where there is no file. -/
def SavedState.fresh : SavedState where
  balance := 100
  peakBalance := 100
  positions := ∅
  trades := []
  ordersExecuted := 0

namespace Installation

/-- Nothing has been recorded yet. -/
def fresh : Installation where
  engine := .fresh
  learner := ∅
  stateDisk := {}
  learnerFile := .missing

/-- **The end of `main`**: the engine's `stop` and the learner's `save` write
their files. -/
def shutdown (savedAt : String) (s : Installation) : Installation :=
  { s with
    stateDisk := s.stateDisk.save savedAt s.engine
    learnerFile := .document (s.learner.toJson savedAt) }

/-- **The learner's constructor and the engine's `start`**: the learner loads
its file, the engine its own, and every trade of a valid state is recorded
with the learner. -/
def start (cfg : LearnerConfig) (now : ℕ) (s : Installation) : Installation :=
  let learner := Learner.load s.learnerFile
  match s.stateDisk.load with
  | some loaded =>
      { s with engine := loaded, learner := learner.recordAll cfg now loaded.trades }
  | none => { s with engine := .fresh, learner }

end Installation

/-- **What happens**, with the time of the system clock. -/
inductive RecordOp
  /-- `TradeRecorder::record_trade`. -/
  | closed (now : ℕ) (t : TradeRecord)
  /-- A trade `import_trades` has found to be new. -/
  | imported (now : ℕ) (t : TradeRecord)
  /-- A close of the shadow tracker, which tells the learner alone. -/
  | shadow (now : ℕ) (t : TradeRecord)
  | restart (now : ℕ) (savedAt : String)

namespace RecordOp

/-- It is not a restart. -/
def records : RecordOp → Bool
  | restart .. => false
  | _ => true

/-- One operation. -/
def step (cfg : LearnerConfig) (op : RecordOp) (s : Installation) : Installation :=
  match op with
  | closed now t =>
      { s with
        engine :=
          { s.engine with
            trades := Shared.capTrades (s.engine.trades ++ [t])
            balance := s.engine.balance + t.pnl
            peakBalance := max s.engine.peakBalance (s.engine.balance + t.pnl) }
        learner := s.learner.recordTrade cfg now t }
  | imported now t =>
      { s with
        engine := { s.engine with trades := s.engine.trades ++ [t] }
        learner := s.learner.recordTrade cfg now t }
  | shadow now t => { s with learner := s.learner.recordTrade cfg now t }
  | restart now savedAt => (s.shutdown savedAt).start cfg now

end RecordOp

/-- One operation after the other. -/
def Installation.play (cfg : LearnerConfig) (ops : List RecordOp) (s : Installation) :
    Installation :=
  ops.foldl (fun s op => op.step cfg s) s

end WebhookTrader
