import WebhookTrader.Engine.Model.Machine
import WebhookTrader.Persistence.StateFile

/-!
# The engine across restarts

A run of the program is a run of the engine cut by restarts. A restart
drops what was running, and the next start finds the book as it was
saved. Beside the run stands a log of what is done on account of which
position: registrations, the sync's marks, and requests.
-/

namespace WebhookTrader

/-- A step of the engine, or a restart with the order number the engine
starts to count from. -/
inductive LifeLabel
  | engine (l : EngineLabel)
  | restart (nextOid : ℕ)

/-- The engine as a restart finds it: `start`'s settings, what was saved,
and the exchange and the clocks as they are. -/
def Shared.restarted (cfg : EngineConfig) (nextOid : ℕ) (s : Shared) : Shared where
  modes := Modes.start cfg.trading.shadowMode
  portRisk := PortfolioRisk.updateBalance s.balance {}
  positions := s.positions.mapValues fun _ p => p.restored
  trades := s.trades
  balance := s.balance
  peakBalance := s.peakBalance
  nextOid
  clock := s.clock
  venue := s.venue

/-- **The program as a system**: first started with an empty book. -/
def lifeSystem (cfg : EngineConfig) : System Engine LifeLabel where
  init s := (engineSystem cfg).init s ∧ s.shared.positions = ∅
  next s
    | .engine l => (engineSystem cfg).next s l
    | .restart nextOid => some ⟨s.shared.restarted cfg nextOid, []⟩

/-! ## On whose account -/

/-- **What is done on account of positions.** -/
inductive Trace
  /-- `register_position`, with its `is_real`. -/
  | registered (key : PositionKey) (isReal : Bool)
  /-- The entries whose symbol and side a sync finds on the exchange. -/
  | marked (keys : List PositionKey)
  /-- `handle_tp` or `handle_sl` sends a request for the position it found. -/
  | sent (key : PositionKey)
  /-- `close_all_positions` has collected these positions. -/
  | collected (positions : List (PositionKey × String × String))
  /-- `close_all_positions` sends a request for a symbol and side. -/
  | sentAll (tag : String × String)
  deriving DecidableEq

namespace Trace

/-- What a closing handler's step does. -/
def ofClose (j : CloseJob) : Option Trace :=
  match j.pc with
  | .request _ _ => some (.sent j.key)
  | _ => none

/-- What a handler's step does. -/
def ofJob (book : Book) : Job → Option Trace
  | .entry j =>
      match j.pc with
      | .registerPaper => some (.registered j.key false)
      | .registerReal => some (.registered j.key true)
      | _ => none
  | .tp j => ofClose j
  | .sl j => ofClose j
  | .closeAll j =>
      match j.pc with
      | .snapshot => some (.collected (book.entries.map fun e => (e.1, e.2.tag)))
      | .request (tag :: _) _ => some (.sentAll tag)
      | _ => none

/-- The keys a sync marks. -/
def held (ex : ExchangeMap) (book : Book) : List PositionKey :=
  (book.entries.filter fun e => ex.holds e.2.tag).map Sigma.fst

/-- What a step of the program does. -/
def obs (s : Engine) : LifeLabel → Option Trace
  | .engine (.work i) => s.jobs[i]?.bind (ofJob s.shared.positions)
  | .engine (.event (.sync quote)) =>
      some (.marked (held (ExchangeMap.ofRows (s.shared.venue.snapshot quote))
        s.shared.positions))
  | _ => none

/-! ## Reading the log -/

/-- The position under a key was registered as paper, by the latest
registration under the key. -/
def bornPaper (key : PositionKey) : List Trace → Bool
  | [] => false
  | registered k isReal :: log => if k = key then !isReal else bornPaper key log
  | _ :: log => bornPaper key log

/-- The position under a key was registered as paper, and no sync has found
its symbol and side on the exchange since. -/
def stillPaper (key : PositionKey) : List Trace → Bool
  | [] => false
  | registered k isReal :: log => if k = key then !isReal else stillPaper key log
  | marked keys :: log => !keys.contains key && stillPaper key log
  | _ :: log => stillPaper key log

/-- The positions a request is sent for: the one that was found, or those
that were collected with the request's symbol and side. -/
def causes (log : List Trace) : Trace → List PositionKey
  | sent key => [key]
  | sentAll tag =>
      log.flatMap fun
        | collected positions => (positions.filter fun p => p.2 = tag).map Prod.fst
        | _ => []
  | _ => []

end Trace

end WebhookTrader
