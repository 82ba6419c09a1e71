import WebhookTrader.Common.Inputs
import WebhookTrader.Persistence.ShadowFile
import WebhookTrader.Shadow.SpotDeeds

/-!
# The spot tracker over restarts

The tracker saves itself at every tenth operation, and when the periodic
thread asks it to; a restart takes up whatever was saved last. With the
tracker goes the history of its deeds, which the program does not keep,
and with the file the tracker and the history it was written of.
-/

namespace WebhookTrader

/-- **The spot tracker and its file.** -/
structure SpotProcess where
  tracker : SpotShadowTracker := {}
  /-- The deeds so far, latest first. -/
  history : List SpotDeed := []
  /-- `m_ops_since_save`. -/
  opsSinceSave : ℕ := 0
  /-- The tracker that wrote the file, and its history then. -/
  saved : Option (SpotShadowTracker × List SpotDeed) := none

/-- **What happens to the tracker.** -/
inductive SpotEvent
  | track (now : ℕ) (sig : WebhookSignal)
  | save
  | restart

namespace SpotProcess

variable (now : ℕ) (sig : WebhookSignal) (p : SpotProcess)

/-- `spot_shadow_state.json`. -/
def file : StateFile := p.saved.elim .missing fun s => .document s.1.toJson

/-- `save_state_locked`. -/
def saveState : SpotProcess := { p with saved := some (p.tracker, p.history) }

/-- `maybe_save`. -/
def maybeSave : SpotProcess :=
  if 10 ≤ p.opsSinceSave + 1 then { p.saveState with opsSinceSave := 0 }
  else { p with opsSinceSave := p.opsSinceSave + 1 }

/-- **`track`**, which ends in `maybe_save` where the signal does something. -/
def track : SpotProcess :=
  match p.tracker.deed now sig with
  | none => p
  | some d => maybeSave { p with tracker := p.tracker.track now sig, history := d :: p.history }

/-- The constructor, which loads the file. -/
def restart : SpotProcess :=
  { tracker := .load p.file, history := p.saved.elim [] (·.2), saved := p.saved }

/-- **One event.** -/
def step (p : SpotProcess) : SpotEvent → SpotProcess
  | .track now sig => p.track now sig
  | .save => p.saveState
  | .restart => p.restart

/-- **Along some events**, from a start without a file. -/
def after (events : List SpotEvent) : SpotProcess := events.foldl step {}

variable {now sig p}

/-! ## Saving does not disturb the tracker -/

@[simp] theorem tracker_maybeSave : p.maybeSave.tracker = p.tracker := by
  unfold maybeSave
  split_ifs <;> rfl

@[simp] theorem history_maybeSave : p.maybeSave.history = p.history := by
  unfold maybeSave
  split_ifs <;> rfl

theorem tracker_track : (p.track now sig).tracker = p.tracker.track now sig := by
  unfold track
  cases hdeed : p.tracker.deed now sig with
  | none =>
      rw [SpotShadowTracker.track_eq, hdeed]
      rfl
  | some d => exact tracker_maybeSave

theorem saved_maybeSave : p.maybeSave.saved = p.saved ∨
    p.maybeSave.saved = some (p.tracker, p.history) := by
  unfold maybeSave
  split_ifs
  · exact .inr rfl
  · exact .inl rfl

/-! ## What holds of the tracker and of its file -/

/-- A property of the tracker with its history, which what was saved has as
well. -/
structure Holds (I : SpotShadowTracker → List SpotDeed → Prop) (p : SpotProcess) : Prop where
  now : I p.tracker p.history
  saved : ∀ s ∈ p.saved, I s.1 s.2

variable {I : SpotShadowTracker → List SpotDeed → Prop}

theorem Holds.maybeSave (h : p.Holds I) : p.maybeSave.Holds I := by
  refine ⟨?_, fun s hs => ?_⟩
  · rw [tracker_maybeSave, history_maybeSave]
    exact h.now
  · rcases p.saved_maybeSave with hold | hnew
    · rw [hold] at hs
      exact h.saved s hs
    · rw [hnew, Option.mem_some_iff] at hs
      subst hs
      exact h.now

theorem Holds.saveState (h : p.Holds I) : p.saveState.Holds I :=
  ⟨h.now, fun s hs => by
    rw [SpotProcess.saveState, Option.mem_some_iff] at hs
    subst hs
    exact h.now⟩

/-- A signal keeps what its deed keeps. -/
theorem Holds.track (h : p.Holds I) (hdeed : ∀ d, p.tracker.deed now sig = some d →
    I (d.apply p.tracker) (d :: p.history)) : (p.track now sig).Holds I := by
  unfold SpotProcess.track
  cases hd : p.tracker.deed now sig with
  | none => exact h
  | some d =>
      have hnow := hdeed d hd
      refine Holds.maybeSave ⟨?_, h.saved⟩
      rw [SpotShadowTracker.track_eq, hd]
      exact hnow

/-- A restart keeps what the file keeps. -/
theorem Holds.restart (h : p.Holds I) (hempty : I {} [])
    (hload : ∀ s ∈ p.saved, I (.load (.document s.1.toJson)) s.2) : p.restart.Holds I := by
  refine ⟨?_, h.saved⟩
  unfold SpotProcess.restart file
  cases hs : p.saved with
  | none => exact hempty
  | some s => exact hload s hs

end SpotProcess

end WebhookTrader
