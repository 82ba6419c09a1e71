import WebhookTrader.Engine.Model.Workers
import WebhookTrader.Persistence.Model.StateFile

/-!
# The spot account over restarts

`m_spot_state`: a section of a spot handler that changes the account saves
it before it gives up the mutex, and the periodic tasks and `stop` save it
at times of their own. A write may fail. `start` loads what is there and
drops the positions that are not quoted in won.
-/

namespace WebhookTrader

namespace SpotAccount

/-- What the spot handlers hand to `save_state`. -/
def saved (acc : SpotAccount) : SavedState where
  balance := acc.balance
  peakBalance := acc.peakBalance
  positions := acc.positions.rekey PositionKey.text
  trades := acc.trades
  ordersExecuted := 0

/-- The account `start` makes of a valid state. A key is the text it is
saved under, which is read as a key of that text. -/
def ofLoaded (read : String → PositionKey) (loaded : SavedState) : SpotAccount where
  positions := (loaded.positions.rekey read).keep fun p => spotQuoteCurrency p.symbol = "KRW"
  trades := loaded.trades
  balance := loaded.balance
  peakBalance := loaded.peakBalance

/-- **The spot account after `start`.** -/
def restored (read : String → PositionKey) (disk : StateDisk) : SpotAccount :=
  match disk.load with
  | some loaded => ofLoaded read loaded
  | none => {}

end SpotAccount

/-- The section under the account's mutex gets to its `save_state`. -/
def SpotJob.saves (j : SpotJob) (acc : SpotAccount) : Bool :=
  match j.sig.sigType with
  | .entry | .reEntry =>
      !acc.positions.entries.any fun e =>
        e.2.symbol = j.sig.symbol && e.2.exchange = j.sig.exchange && e.2.side = "long"
  | .tp | .sl => (acc.positions.findValue (SpotAccount.sells j.sig)).isSome
  | .unknown => false

/-- The step of the workers is such a section. -/
def Floor.saves (s : Floor) : FloorLabel → Bool
  | .work i =>
      match s.jobs[i]? with
      | some (.spot _ j) => j.pc = .book && j.saves s.shared.spot
      | _ => false
  | _ => false

/-- **How far `save_state` gets**: the old file may have been copied to the
backup, and the new one may have taken its place. -/
structure Write where
  copied : Bool := true
  renamed : Bool := true
  deriving DecidableEq, Repr

/-- The files after a write. -/
def StateDisk.write (w : Write) (savedAt : String) (s : SavedState) (disk : StateDisk) :
    StateDisk where
  main := if w.renamed then .document (s.toJson savedAt) else disk.main
  backup :=
    match w.copied, disk.main with
    | false, _ => disk.backup
    | true, .missing => disk.backup
    | true, file => file

/-- **The workers and the spot account's files.** Beside them stands the
account as it was last written, and whether a write has failed since. -/
structure SpotLife where
  floor : Floor
  disk : StateDisk := {}
  filed : SpotAccount := {}
  missed : Bool := false

namespace SpotLife

/-- `save_state` under the account's mutex. -/
def save (w : Write) (savedAt : String) (s : SpotLife) : SpotLife :=
  { s with
    disk := s.disk.write w savedAt s.floor.shared.spot.saved
    filed := if w.renamed then s.floor.shared.spot else s.filed
    missed := !w.renamed }

/-- What happens. -/
inductive Label
  /-- A step of the workers, with the fate of its write where it has one. -/
  | floor (l : FloorLabel) (w : Write) (savedAt : String)
  /-- A save of the periodic tasks or of `stop`. -/
  | save (w : Write) (savedAt : String)
  /-- A restart, with what else `start` leaves behind. -/
  | restart (d : Desk) (read : String → PositionKey)

/-- **One step.** -/
def next (cfg : DeskConfig) (parse : Text → Option Json) (s : SpotLife) : Label → Option SpotLife
  | .floor l w savedAt =>
      ((floorSystem cfg parse).next s.floor l).map fun floor =>
        if s.floor.saves l then save w savedAt { s with floor } else { s with floor }
  | .save w savedAt => some (s.save w savedAt)
  | .restart d read =>
      some
        { s with
          floor :=
            ⟨{ d with spot := SpotAccount.restored read s.disk },
              List.replicate cfg.workers .idle⟩
          missed := false }

end SpotLife

/-- **The program as a system**: first started without a file. -/
def spotLife (cfg : DeskConfig) (parse : Text → Option Json) : System SpotLife SpotLife.Label where
  init s := ∃ floor, (floorSystem cfg parse).init floor ∧ floor.shared.spot = {} ∧ s = { floor }
  next := SpotLife.next cfg parse

end WebhookTrader
