import WebhookTrader.Common.Interleave
import WebhookTrader.Engine.Model.Exit

/-!
# The engine

Any number of handlers, run by workers over one shared state, with what
else changes that state: the callbacks of the WebSocket, the tasks of the
periodic thread, the clock, and trades that others make on the exchange.
-/

namespace WebhookTrader

/-- **A running handler.** -/
inductive Job
  | entry (j : EntryJob)
  | tp (j : CloseJob)
  | sl (j : CloseJob)
  | closeAll (j : CloseAllJob)

namespace Job

/-- Nothing of the handler has run. -/
def fresh : Job → Bool
  | entry j => j.pc = .lock && !j.eligible && j.admitted = none
  | tp j => j.pc = .lock
  | sl j => j.pc = .lock
  | closeAll j => j.pc = .snapshot

def finished : Job → Bool
  | entry j => j.pc = .finished
  | tp j => j.pc = .finished
  | sl j => j.pc = .finished
  | closeAll j => j.pc = .finished

/-- A handler's step. -/
def step (cfg : EngineConfig) : Job → Shared → Option (Job × Shared)
  | entry j, s => (j.step cfg s).map fun r => (entry r.1, r.2)
  | tp j, s => (j.step cfg (handleTp cfg) s).map fun r => (tp r.1, r.2)
  | sl j, s => (j.step cfg handleSl s).map fun r => (sl r.1, r.2)
  | closeAll j, s => (j.step cfg s).map fun r => (closeAll r.1, r.2)

theorem step_entry {cfg : EngineConfig} (j : EntryJob) (s : Shared) :
    (entry j).step cfg s = (j.step cfg s).map fun r => (entry r.1, r.2) := rfl

theorem step_tp {cfg : EngineConfig} (j : CloseJob) (s : Shared) :
    (tp j).step cfg s = (j.step cfg (handleTp cfg) s).map fun r => (tp r.1, r.2) := rfl

end Job

/-- **What happens beside the handlers.** -/
inductive Event
  | wsPosition (upd : WsPositionUpdate)
  | wsAccount (upd : AccountUpdate)
  | fetchBalance (upd : AccountUpdate)
  /-- A sync, with the prices and leverages of the snapshot. -/
  | sync (quote : String × HoldSide → ℚ × ℤ)
  /-- A check of the switch begins, on some shadow reports. -/
  | check (reports : Reports)
  /-- The switch's next read or write. -/
  | switch
  | resetDaily
  /-- Time passes on both clocks. -/
  | tick (steady system : ℕ)
  /-- The exchange's holding changes by itself. -/
  | holding (symbol : String) (side : HoldSide) (total : ℚ)

namespace Event

/-- The effect of an event. -/
def apply (cfg : EngineConfig) : Event → Shared → Option Shared
  | wsPosition upd, s => some (s.onWsPosition upd)
  | wsAccount upd, s => some (s.onWsAccount upd)
  | fetchBalance upd, s => some (s.fetchRealBalance upd)
  | sync quote, s => some (s.sync quote)
  | check reports, s =>
      if s.periodic = .idle ∧ cfg.trading.autoLive then
        some { s with periodic := Periodic.begin cfg.readiness reports }
      else none
  | switch, s => (s.periodic.step s.modes).map fun r => { s with periodic := r.1, modes := r.2 }
  | resetDaily, s =>
      if s.risk.needsDailyReset s.clock.steady then
        some { s with risk := s.risk.resetDaily s.clock.steady }
      else none
  | tick steady system, s =>
      some { s with clock := ⟨s.clock.steady + steady, s.clock.system + system⟩ }
  | holding symbol side total, s =>
      if 0 ≤ total then some { s with venue := s.venue.hold symbol side total } else none

end Event

/-- **The engine's state**: what is shared, and the handlers. -/
abbrev Engine := Threads Shared Job

abbrev EngineLabel := Threads.Label Job Event

/-- What `start` leaves behind: the modes are the configured ones, the
portfolio manager knows a balance, and nothing runs. -/
structure Shared.Started (cfg : EngineConfig) (s : Shared) : Prop where
  modes : s.modes = Modes.start cfg.trading.shadowMode
  periodic : s.periodic = .idle
  portRisk : ∃ balance, s.portRisk = PortfolioRisk.updateBalance balance {}
  locked : s.locked = []
  recorded : s.recorded = []

/-- **The engine as a system.** The book, the trades and the balance a run
starts with are whatever was restored. -/
def engineSystem (cfg : EngineConfig) : System Engine EngineLabel where
  init s := s.jobs = [] ∧ s.shared.Started cfg
  next := Threads.next Job.fresh (Job.step cfg) (Event.apply cfg)

end WebhookTrader
