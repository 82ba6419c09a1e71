import WebhookTrader.Persistence.Model.LearnerFile

/-!
# The learner over restarts

The learner with its file, through trades, saves and starts that load the
file, in any order. The save after every tenth trade is one of the saves.
-/

namespace WebhookTrader

/-- **The learner and its file.** -/
structure LearnerProcess where
  learner : Learner := ∅
  file : StateFile := .missing
  /-- The trades that the learner stands for, which the program does not
  keep. -/
  told : TimedTrades := []
  /-- And those that the file stands for. -/
  saved : TimedTrades := []

inductive LearnerEvent
  /-- `record_trade`, at a time of the system clock. -/
  | record (now : ℕ) (t : TradeRecord)
  /-- `save_state_locked`. -/
  | save (savedAt : String)
  /-- A new process, whose constructor calls `load_state`. -/
  | load

namespace LearnerProcess

def step (cfg : LearnerConfig) (p : LearnerProcess) : LearnerEvent → LearnerProcess
  | .record now t =>
      { p with learner := p.learner.recordTrade cfg now t, told := p.told ++ [(now, t)] }
  | .save savedAt =>
      { p with file := .document (p.learner.toJson savedAt), saved := p.told }
  | .load => { p with learner := Learner.load p.file, told := p.saved }

/-- From a start without a file. -/
def run (cfg : LearnerConfig) (events : List LearnerEvent) : LearnerProcess :=
  events.foldl (step cfg) {}

end LearnerProcess

/-- Whether a trade is recorded under a key: none is where learning is switched
off, nor one without a symbol. -/
def recordsUnder (cfg : LearnerConfig) (key : String) (t : TradeRecord) : Bool :=
  cfg.enabled && t.symbol ≠ "" && Learner.makeKey t.symbol t.timeframe = key

def recordedOf (cfg : LearnerConfig) (key : String) (told : TimedTrades) : TimedTrades :=
  told.filter fun e => recordsUnder cfg key e.2

end WebhookTrader
