import WebhookTrader.Common.Run
import WebhookTrader.Persistence.ShadowFile
import WebhookTrader.Shadow.Balance

/-!
# The shadow tracker over restarts

The tracker saves itself at every tenth operation, which can be the close
that a reversal begins with, and when the periodic thread asks it to. A
restart takes up whatever was saved last. The books balance whenever they
are saved, so they balance again after a restart.
-/

namespace WebhookTrader

/-- **The tracker and its file.** -/
structure ShadowProcess where
  tracker : ShadowTracker := {}
  /-- `m_ops_since_save`. -/
  opsSinceSave : ℕ := 0
  file : StateFile := .missing

namespace ShadowProcess

open ShadowTracker (signalKey oppKey)

variable (cfg : LearnerConfig) (now : ℕ) (sig : WebhookSignal) (p : ShadowProcess)

/-! ## The tracker with its saves -/

/-- `save_state_locked`. -/
def saveState : ShadowProcess := { p with file := .document p.tracker.toJson }

/-- `maybe_save`. -/
def maybeSave : ShadowProcess :=
  if 10 ≤ p.opsSinceSave + 1 then { p.saveState with opsSinceSave := 0 }
  else { p with opsSinceSave := p.opsSinceSave + 1 }

/-- `close_position`, with the save at its end. -/
def closePosition (price : ℚ) (reason key : String) (vp : VirtualPosition) : ShadowProcess :=
  maybeSave { p with tracker := p.tracker.closePosition cfg now price reason key vp }

/-- The reversal of `track_entry`. -/
def reverse : ShadowProcess :=
  match p.tracker.positions.lookup (oppKey sig) with
  | some vp => p.closePosition cfg now sig.price "REVERSAL" (oppKey sig) vp
  | none => p

/-- `track_entry`, with the saves of the reversal and of the entry. -/
def trackEntry : ShadowProcess :=
  if (p.tracker.positions.lookup (signalKey sig)).isSome then p
  else
    let p' := p.reverse cfg now sig
    maybeSave { p' with tracker := p'.tracker.enter now sig }

/-- `track_tp` and `track_sl`. -/
def trackExit (reason : String) : ShadowProcess :=
  match p.tracker.match? sig with
  | none => p
  | some (key, vp) => p.closePosition cfg now sig.price reason key vp

/-- **`track`.** -/
def track : ShadowProcess :=
  if sig.marketType = "spot" ∨ sig.symbol = "" then p
  else
    match sig.sigType with
    | .entry | .reEntry => p.trackEntry cfg now sig
    | .tp => p.trackExit cfg now sig "TP"
    | .sl => p.trackExit cfg now sig "SL"
    | .unknown => p

end ShadowProcess

/-- **What happens to the tracker.** A restart comes with whatever the
learner's own file holds. -/
inductive ShadowEvent
  | track (now : ℕ) (sig : WebhookSignal)
  | mark (key : String)
  | save
  | restart (learner : Learner)

/-- **The tracker as a system**, from a start without a file. -/
def shadowProcess (cfg : LearnerConfig) : System ShadowProcess ShadowEvent where
  init p := ∃ learner, p = { tracker := { learner } }
  next p
    | .track now sig => some (p.track cfg now sig)
    | .mark key => some { p with tracker := p.tracker.markLiveEquivalent key }
    | .save => some p.saveState
    | .restart learner =>
        (ShadowTracker.load learner p.file).map fun tracker => { tracker, file := p.file }

namespace ShadowProcess

open ShadowTracker (signalKey oppKey)

variable {cfg : LearnerConfig} {now : ℕ} {sig : WebhookSignal} {p p' : ShadowProcess}
  {l : ShadowEvent}

/-! ## Saving does not disturb the tracker -/

@[simp] theorem tracker_maybeSave : p.maybeSave.tracker = p.tracker := by
  unfold maybeSave
  split_ifs <;> rfl

@[simp] theorem tracker_reverse : (p.reverse cfg now sig).tracker =
    p.tracker.reverse cfg now sig := by
  unfold reverse ShadowTracker.reverse
  cases p.tracker.positions.lookup (oppKey sig) with
  | none => rfl
  | some vp => exact tracker_maybeSave

theorem tracker_trackEntry : (p.trackEntry cfg now sig).tracker =
    p.tracker.trackEntry cfg now sig := by
  unfold trackEntry ShadowTracker.trackEntry
  split_ifs
  · rfl
  · rw [tracker_maybeSave, tracker_reverse]

theorem tracker_trackExit {reason : String} : (p.trackExit cfg now sig reason).tracker =
    p.tracker.trackExit cfg now reason sig := by
  unfold trackExit ShadowTracker.trackExit
  rcases p.tracker.match? sig with - | ⟨key, vp⟩
  · rfl
  · exact tracker_maybeSave

/-- **The tracker with its saves is the tracker.** -/
theorem tracker_track : (p.track cfg now sig).tracker = p.tracker.track cfg now sig := by
  unfold track ShadowTracker.track
  by_cases hmarket : sig.marketType = "spot" ∨ sig.symbol = ""
  · rw [if_pos hmarket, if_pos hmarket]
  · rw [if_neg hmarket, if_neg hmarket]
    cases sig.sigType with
    | entry => exact tracker_trackEntry
    | reEntry => exact tracker_trackEntry
    | tp => exact tracker_trackExit
    | sl => exact tracker_trackExit
    | unknown => rfl

/-! ## What is saved -/

theorem file_maybeSave : p.maybeSave.file = p.file ∨
    p.maybeSave.file = .document p.tracker.toJson := by
  unfold maybeSave
  split_ifs
  · exact .inr rfl
  · exact .inl rfl

/-- The file is left alone, or holds the tracker as it is, or as it is
between a reversal and the entry that follows. -/
theorem file_trackEntry : (p.trackEntry cfg now sig).file = p.file ∨
    (p.trackEntry cfg now sig).file = .document (p.tracker.reverse cfg now sig).toJson ∨
    (p.trackEntry cfg now sig).file = .document (p.tracker.trackEntry cfg now sig).toJson := by
  have hreverse : (p.reverse cfg now sig).file = p.file ∨
      (p.reverse cfg now sig).file = .document (p.tracker.reverse cfg now sig).toJson := by
    unfold reverse ShadowTracker.reverse
    cases p.tracker.positions.lookup (oppKey sig) with
    | none => exact .inl rfl
    | some vp => exact file_maybeSave
  unfold trackEntry ShadowTracker.trackEntry
  split_ifs with hthere
  · exact .inl rfl
  · have hentered := file_maybeSave (p := { p.reverse cfg now sig with
      tracker := (p.reverse cfg now sig).tracker.enter now sig })
    dsimp only at hentered
    rw [tracker_reverse] at hentered
    dsimp only
    rw [tracker_reverse]
    rcases hentered with hkept | hsaved
    · rcases hreverse with hold | hhalf
      · exact .inl (hkept.trans hold)
      · exact .inr (.inl (hkept.trans hhalf))
    · exact .inr (.inr hsaved)

theorem file_trackExit {reason : String} : (p.trackExit cfg now sig reason).file = p.file ∨
    (p.trackExit cfg now sig reason).file =
      .document (p.tracker.trackExit cfg now reason sig).toJson := by
  unfold trackExit ShadowTracker.trackExit
  rcases p.tracker.match? sig with - | ⟨key, vp⟩
  · exact .inl rfl
  · exact file_maybeSave

/-- **What a signal leaves in the file.** -/
theorem file_track : (p.track cfg now sig).file = p.file ∨
    (p.track cfg now sig).file = .document (p.tracker.reverse cfg now sig).toJson ∨
    (p.track cfg now sig).file = .document (p.tracker.track cfg now sig).toJson := by
  unfold track ShadowTracker.track
  by_cases hmarket : sig.marketType = "spot" ∨ sig.symbol = ""
  · rw [if_pos hmarket]
    exact .inl rfl
  · rw [if_neg hmarket, if_neg hmarket]
    cases sig.sigType with
    | entry => exact file_trackEntry
    | reEntry => exact file_trackEntry
    | tp => exact file_trackExit.imp_right .inr
    | sl => exact file_trackExit.imp_right .inr
    | unknown => exact .inl rfl

/-! ## What holds of the tracker and of its file -/

/-- A property of the tracker, which what was saved last has as well. -/
structure Holds (I : ShadowTracker → Prop) (p : ShadowProcess) : Prop where
  tracker : I p.tracker
  file : p.file = .missing ∨ ∃ t : ShadowTracker, I t ∧ p.file = .document t.toJson

/-- **What the tracker keeps**, in whole signals and in reversals, and over
its own file. -/
structure Kept (cfg : LearnerConfig) (I : ShadowTracker → Prop) : Prop where
  empty : ∀ learner, I { learner }
  reverse : ∀ t now sig, I t → I (t.reverse cfg now sig)
  track : ∀ t now sig, I t → I (t.track cfg now sig)
  mark : ∀ t key, I t → I (t.markLiveEquivalent key)
  load : ∀ t learner t', I t → ShadowTracker.load learner (.document t.toJson) = some t' → I t'

variable {I : ShadowTracker → Prop}

theorem Holds.track (h : p.Holds I) (hI : Kept cfg I) : (p.track cfg now sig).Holds I := by
  refine ⟨?_, ?_⟩
  · rw [tracker_track]
    exact hI.track _ _ _ h.tracker
  · have hfile : (p.track cfg now sig).file = p.file ∨ _ := file_track
    rcases hfile with hold | hhalf | hnew
    · rw [hold]
      exact h.file
    · exact .inr ⟨_, hI.reverse _ _ _ h.tracker, hhalf⟩
    · exact .inr ⟨_, hI.track _ _ _ h.tracker, hnew⟩

/-- **Every event keeps what the tracker keeps.** -/
theorem Holds.next (h : p.Holds I) (hI : Kept cfg I)
    (hnext : (shadowProcess cfg).next p l = some p') : p'.Holds I := by
  cases l with
  | track now sig =>
      obtain rfl := Option.some.inj hnext
      exact h.track hI
  | mark key =>
      obtain rfl := Option.some.inj hnext
      exact ⟨hI.mark _ key h.tracker, h.file⟩
  | save =>
      obtain rfl := Option.some.inj hnext
      exact ⟨h.tracker, .inr ⟨p.tracker, h.tracker, rfl⟩⟩
  | restart learner =>
      obtain ⟨tracker, hload, rfl⟩ := Option.map_eq_some_iff.1 hnext
      refine ⟨?_, h.file⟩
      rcases h.file with hfile | ⟨t, ht, hfile⟩
      · rw [hfile, ShadowTracker.load] at hload
        obtain ⟨hkeyed, heq⟩ := Option.dite_none_right_eq_some.1 hload
        obtain rfl := Option.some.inj heq
        exact hI.empty learner
      · rw [hfile] at hload
        exact hI.load t learner tracker ht hload

/-- **Along a run.** -/
theorem holds_of_reachable (h : (shadowProcess cfg).Reachable System.anyStep p)
    (hI : Kept cfg I) : p.Holds I := by
  refine System.Reachable.invariant (fun p hp => ?_) (fun _ _ _ hp _ hnext => hp.next hI hnext) h
  obtain ⟨learner, rfl⟩ := hp
  exact ⟨hI.empty learner, .inl rfl⟩

/-! ## Balance -/

/-- **The books and the file balance**: what was saved last is the document
of balanced books. -/
structure Balanced (p : ShadowProcess) : Prop where
  tracker : p.tracker.Balanced
  file : p.file = .missing ∨ ∃ t : ShadowTracker, t.Balanced ∧ p.file = .document t.toJson

/-- **Books that were saved in balance come back in balance.** -/
theorem balanced_of_restored {t t' : ShadowTracker} (h : t.Balanced) (hrestored : t.RestoredAs t') :
    t'.Balanced := by
  have hentries := hrestored.positions h.named
  have hmem : ∀ e, e ∈ t'.positions.entries ↔ e ∈ t.positions.entries := fun e => by
    rw [hentries, List.mem_reverse]
  have hlookup : ∀ k, t.positions.lookup k = none → t'.positions.lookup k = none := by
    intro k hnone
    cases hk : t'.positions.lookup k with
    | none => rfl
    | some vp =>
        have hthere := AList.mem_lookup_iff.2 ((hmem _).1 (AList.mem_lookup_iff.1 hk))
        rw [hnone] at hthere
        cases hthere
  refine ⟨?_, ?_, fun e he => h.named e ((hmem e).1 he), fun q => ?_⟩
  · have hsize : t'.positions.size = t.positions.size := by
      rw [Table.size, hentries, List.length_reverse, Table.size]
    rw [hrestored.totalEntries, hrestored.totalCloses, hsize]
    exact h.entries
  · rw [hrestored.wins, hrestored.losses, hrestored.totalCloses]
    exact h.outcomes
  · exact (h.oneSided q).imp (hlookup _) (hlookup _)

/-- **A restart succeeds**, and with balanced books. -/
theorem Balanced.restart (h : p.Balanced) (learner : Learner) :
    ∃ tracker, ShadowTracker.load learner p.file = some tracker ∧ tracker.Balanced := by
  rcases h.file with hfile | ⟨t, ht, hfile⟩
  · rw [hfile]
    exact ⟨_, dif_pos VirtualPosition.keyed_empty, ShadowTracker.balanced_empty⟩
  · rw [hfile]
    obtain ⟨t', hload, hrestored⟩ := ShadowTracker.load_toJson learner t
    exact ⟨t', hload, balanced_of_restored ht hrestored⟩

/-- **Balance is kept.** -/
theorem kept_balanced : Kept cfg ShadowTracker.Balanced where
  empty _ := ShadowTracker.balanced_empty
  reverse _ _ _ h := h.reverse
  track _ _ _ h := h.track
  mark _ key h := h.mark key
  load t learner t' h hload := by
    obtain ⟨t₀, hload₀, hrestored⟩ := ShadowTracker.load_toJson learner t
    obtain rfl := Option.some.inj (hload.symm.trans hload₀)
    exact balanced_of_restored h hrestored

theorem balanced_of_reachable (h : (shadowProcess cfg).Reachable System.anyStep p) :
    p.Balanced :=
  have hholds := holds_of_reachable h kept_balanced
  ⟨hholds.tracker, hholds.file⟩

/-- A restart is always possible. -/
theorem restart_isSome (h : (shadowProcess cfg).Reachable System.anyStep p) (learner : Learner) :
    ((shadowProcess cfg).next p (.restart learner)).isSome = true := by
  obtain ⟨tracker, hload, -⟩ := (balanced_of_reachable h).restart learner
  simp [shadowProcess, hload]

end ShadowProcess

/-! ## A reversal around a restart -/

namespace RestartRun

def buy : WebhookSignal where
  symbol := "BTCUSDT"
  timeframe := "15"
  alert := "BUY"
  action := "buy"
  sigType := .entry
  price := 100

def sell : WebhookSignal := { buy with alert := "SELL", action := "sell", price := 110 }

/-- A long position is saved, and reversed after a restart. -/
def events : List ShadowEvent := [.track 0 buy, .save, .restart ∅, .track 60 sell]

end RestartRun

end WebhookTrader
