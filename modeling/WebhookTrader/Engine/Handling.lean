import WebhookTrader.Engine.Books
import WebhookTrader.Engine.Model.Workers
import WebhookTrader.Shadow.Balance

/-!
# What handling a signal does to the books

The futures book, the spot account and the two trackers are seen as one
map from places to sides and amounts. A worker's step changes it at one
place, or at two where the tracker reverses a position, and at none where
it only reads, waits or asks the exchange.
-/

namespace WebhookTrader

/-- **Where a position may be.** -/
inductive Place
  | futures (key : PositionKey)
  | spot (key : PositionKey)
  | shadow (key : String)
  | spotShadow (key : String)
  deriving DecidableEq

namespace Desk

/-- The side and the amount of the position in a place. -/
def held (d : Desk) : Place → Option (String × ℚ)
  | .futures key => (d.engine.positions.lookup key).map fun p => (p.side, p.quantity)
  | .spot key => (d.spot.positions.lookup key).map fun p => (p.side, p.quantity)
  | .shadow key => (d.shadow.positions.lookup key).map fun vp => (vp.side, 1)
  | .spotShadow key => (d.spotShadow.positions.lookup key).map fun vp => ("long", vp.remainingPct)

variable {d d' d'' : Desk} {side : String} {pl : Place}

/-- **No position on a side is closed or reduced.** -/
def Keeps (side : String) (d d' : Desk) : Prop :=
  ∀ pl q, d.held pl = some (side, q) → ∃ q', d'.held pl = some (side, q') ∧ q ≤ q'

/-- **No position on a side is opened.** -/
def AddsNone (side : String) (d d' : Desk) : Prop :=
  ∀ pl q', d'.held pl = some (side, q') → ∃ q, d.held pl = some (side, q)

theorem Keeps.refl : d.Keeps side d := fun _ q hq => ⟨q, hq, le_rfl⟩

theorem Keeps.trans (h : d.Keeps side d') (h' : d'.Keeps side d'') : d.Keeps side d'' := by
  intro pl q hq
  obtain ⟨q', hq', hle⟩ := h pl q hq
  obtain ⟨q'', hq'', hle'⟩ := h' pl q' hq'
  exact ⟨q'', hq'', hle.trans hle'⟩

theorem AddsNone.refl : d.AddsNone side d := fun _ q hq => ⟨q, hq⟩

theorem AddsNone.trans (h : d.AddsNone side d') (h' : d'.AddsNone side d'') :
    d.AddsNone side d'' := by
  intro pl q'' hq''
  obtain ⟨q', hq'⟩ := h' pl q'' hq''
  exact h pl q' hq'

/-- Nothing has changed, except in one place. -/
def Elsewhere (pl : Place) (d d' : Desk) : Prop := ∀ pl', pl' ≠ pl → d'.held pl' = d.held pl'

/-- Where the one position that changes is on another side, the side is
kept. -/
theorem Elsewhere.keeps (h : d.Elsewhere pl d') (hside : ∀ q, d.held pl ≠ some (side, q)) :
    d.Keeps side d' := by
  intro pl' q hq
  by_cases hpl : pl' = pl
  · subst hpl
    exact (hside q hq).elim
  · exact ⟨q, (h pl' hpl).trans hq, le_rfl⟩

theorem Elsewhere.addsNone (h : d.Elsewhere pl d') (hside : ∀ q, d'.held pl ≠ some (side, q)) :
    d.AddsNone side d' := by
  intro pl' q hq
  by_cases hpl : pl' = pl
  · subst hpl
    exact (hside q hq).elim
  · exact ⟨q, (h pl' hpl).symm.trans hq⟩

theorem keeps_of_eq (h : ∀ pl, d'.held pl = d.held pl) : d.Keeps side d' :=
  fun pl q hq => ⟨q, (h pl).trans hq, le_rfl⟩

theorem addsNone_of_eq (h : ∀ pl, d'.held pl = d.held pl) : d.AddsNone side d' :=
  fun pl q hq => ⟨q, (h pl).symm.trans hq⟩

/-! ## One place changes -/

theorem elsewhere_futures {key : PositionKey} {engine : Shared}
    (h : ∀ k, k ≠ key → engine.positions.lookup k = d.engine.positions.lookup k) :
    d.Elsewhere (.futures key) { d with engine } := by
  intro pl hpl
  cases pl with
  | futures k =>
      have hk : k ≠ key := fun heq => hpl (heq ▸ rfl)
      simp only [held, h k hk]
  | _ => rfl

theorem elsewhere_spot {key : PositionKey} {spot : SpotAccount}
    (h : ∀ k, k ≠ key → spot.positions.lookup k = d.spot.positions.lookup k) :
    d.Elsewhere (.spot key) { d with spot } := by
  intro pl hpl
  cases pl with
  | spot k =>
      have hk : k ≠ key := fun heq => hpl (heq ▸ rfl)
      simp only [held, h k hk]
  | _ => rfl

theorem elsewhere_shadow {key : String} {shadow : ShadowTracker}
    (h : ∀ k, k ≠ key → shadow.positions.lookup k = d.shadow.positions.lookup k) :
    d.Elsewhere (.shadow key) { d with shadow } := by
  intro pl hpl
  cases pl with
  | shadow k =>
      have hk : k ≠ key := fun heq => hpl (heq ▸ rfl)
      simp only [held, h k hk]
  | _ => rfl

theorem elsewhere_spotShadow {key : String} {spotShadow : SpotShadowTracker}
    (h : ∀ k, k ≠ key → spotShadow.positions.lookup k = d.spotShadow.positions.lookup k) :
    d.Elsewhere (.spotShadow key) { d with spotShadow } := by
  intro pl hpl
  cases pl with
  | spotShadow k =>
      have hk : k ≠ key := fun heq => hpl (heq ▸ rfl)
      simp only [held, h k hk]
  | _ => rfl

end Desk

/-! ## The trackers -/

namespace ShadowTracker

variable {cfg : LearnerConfig} {now : ℕ} {sig : WebhookSignal} {t : ShadowTracker}
  {key : String} {vp : VirtualPosition} {d : Desk} {side : String}

theorem elsewhere_closePosition {exitPrice : ℚ} {reason : String} :
    d.Elsewhere (.shadow key)
      { d with shadow := d.shadow.closePosition cfg now exitPrice reason key vp } :=
  Desk.elsewhere_shadow fun _ hk => AList.lookup_erase_ne hk

/-- **An exit closes positions on its own side only.** -/
theorem keeps_trackExit {reason : String} (hside : dirToSide sig ≠ side) :
    d.Keeps side { d with shadow := d.shadow.trackExit cfg now reason sig } := by
  unfold trackExit
  split
  · exact .refl
  · rename_i key vp hmatch
    obtain ⟨hlookup, hvp⟩ := match?_eq_some hmatch
    refine elsewhere_closePosition.keeps fun q hq => hside ?_
    simp only [Desk.held, hlookup, Option.map_some, Option.some.injEq, Prod.mk.injEq] at hq
    exact hvp.symm.trans hq.1

/-- A reversal opens nothing. -/
theorem addsNone_reverse :
    d.AddsNone side { d with shadow := d.shadow.reverse cfg now sig } := by
  unfold reverse
  split
  · refine elsewhere_closePosition.addsNone fun q hq => ?_
    simp [Desk.held, closePosition] at hq
  · exact .refl

/-- **An entry opens a position on its own side only.** -/
theorem addsNone_trackEntry (hside : dirToSide sig ≠ side) :
    d.AddsNone side { d with shadow := d.shadow.trackEntry cfg now sig } := by
  unfold trackEntry
  split
  · exact .refl
  · have hentered : Desk.Elsewhere (.shadow (opened now sig).key)
        { d with shadow := d.shadow.reverse cfg now sig }
        { d with shadow := (d.shadow.reverse cfg now sig).enter now sig } :=
      Desk.elsewhere_shadow fun _ hk => AList.lookup_insert_ne hk
    refine addsNone_reverse.trans (hentered.addsNone fun q hq => hside ?_)
    simp only [Desk.held, enter, AList.lookup_insert, Option.map_some, Option.some.injEq,
      Prod.mk.injEq] at hq
    exact hq.1

/-- Of a signal of the spot market or without a symbol, nothing is
tracked. -/
theorem track_of_skipped (h : sig.marketType = "spot" ∨ sig.symbol = "") :
    t.track cfg now sig = t := if_pos h

theorem track_of_exit (h : ¬ (sig.marketType = "spot" ∨ sig.symbol = ""))
    (hexit : sig.sigType = .tp ∨ sig.sigType = .sl) :
    ∃ reason, t.track cfg now sig = t.trackExit cfg now reason sig := by
  rw [track, if_neg h]
  rcases hexit with htype | htype <;> rw [htype] <;> exact ⟨_, rfl⟩

end ShadowTracker

namespace SpotShadowTracker

variable {now : ℕ} {sig : WebhookSignal} {t : SpotShadowTracker} {d : Desk} {side : String}

/-- The tracker has long positions only. -/
theorem held_spotShadow_ne (hside : side ≠ "long") (key : String) (q : ℚ) :
    d.held (.spotShadow key) ≠ some (side, q) := by
  intro hq
  obtain ⟨vp, -, heq⟩ := Option.map_eq_some_iff.1 hq
  exact hside (Prod.mk.inj heq).1.symm

/-- Whatever the tracker does, no short position comes or goes. -/
theorem keeps_of_ne_long {spotShadow : SpotShadowTracker} (hside : side ≠ "long") :
    d.Keeps side { d with spotShadow } ∧ d.AddsNone side { d with spotShadow } := by
  constructor
  · intro pl q hq
    cases pl with
    | spotShadow key => exact (held_spotShadow_ne hside key q hq).elim
    | _ => exact ⟨q, hq, le_rfl⟩
  · intro pl q hq
    cases pl with
    | spotShadow key => exact (held_spotShadow_ne hside key q hq).elim
    | _ => exact ⟨q, hq⟩

/-- **Only a bullish exit closes anything.** -/
theorem track_of_exit (hexit : sig.sigType = .tp ∨ sig.sigType = .sl)
    (hdir : sig.signalDirection ≠ "bull") : t.track now sig = t := by
  unfold track
  split
  · rfl
  · rcases hexit with htype | htype <;> rw [htype]
    · exact if_pos hdir
    · exact if_pos hdir

/-- Only a buy opens anything. -/
theorem track_of_reEntry (htype : sig.sigType = .reEntry) (haction : sig.action ≠ "buy") :
    t.track now sig = t := by
  unfold track
  split
  · rfl
  · rw [htype]
    exact if_pos haction

end SpotShadowTracker

/-! ## Processing one signal -/

namespace Worker

/-- The steps of a worker up to the end of `process_signal`. -/
def handle (cfg : DeskConfig) : Worker → Desk → Option (Worker × Desk)
  | idle, _ => none
  | w, d => w.step cfg d

/-- **`process_signal`**, a number of its steps, with nothing in between. -/
def processSignal (cfg : DeskConfig) (n : ℕ) (q : Queued) (d : Desk) : Worker × Desk :=
  Threads.alone (handle cfg) n (stamp q) d

/-- **A signal that is taken up** is valid and goes to its handler. -/
inductive Routed (q : Queued) : Worker → Prop
  | idle : Routed q idle
  | spot (hvalid : q.sig.isValid = true) (hmarket : q.sig.marketType = "spot") :
      Routed q (.spot q.ticket { sig := q.sig, rd := q.rd })
  | entry (hvalid : q.sig.isValid = true) (hmarket : q.sig.marketType ≠ "spot")
      (htype : q.sig.sigType = .entry ∨ q.sig.sigType = .reEntry) :
      Routed q (.futures q.ticket (.entry { sig := q.sig, rd := q.rd }))
  | tp (hvalid : q.sig.isValid = true) (hmarket : q.sig.marketType ≠ "spot")
      (htype : q.sig.sigType = .tp) :
      Routed q (.futures q.ticket (.tp { sig := q.sig, rd := q.rd }))
  | sl (hvalid : q.sig.isValid = true) (hmarket : q.sig.marketType ≠ "spot")
      (htype : q.sig.sigType = .sl) :
      Routed q (.futures q.ticket (.sl { sig := q.sig, rd := q.rd }))

theorem routed_route (cfg : DeskConfig) (q : Queued) : Routed q (route cfg q) := by
  unfold route
  split_ifs with hvalid hlisted hmarket
  · exact .idle
  · exact .idle
  · exact .spot (by simpa using hvalid) hmarket
  · rw [Bool.not_eq_false] at hvalid
    split
    · exact .entry hvalid hmarket (.inl ‹_›)
    · exact .entry hvalid hmarket (.inr ‹_›)
    · exact .tp hvalid hmarket ‹_›
    · exact .sl hvalid hmarket ‹_›
    · exact .idle

/-- **The steps of a worker.** -/
inductive Move (cfg : DeskConfig) (d : Desk) : Worker → Worker → Desk → Prop
  | wake : Move cfg d .idle (if d.running then .waiting else .stopped) d
  | rest (hqueue : d.queue = []) : Move cfg d .waiting .idle d
  | pop {q : Queued} {queue : List Queued} (hqueue : d.queue = q :: queue) :
      Move cfg d .waiting (.stamp q) { d with queue }
  | stamp (q : Queued) : Move cfg d (.stamp q) (.shadow q d.now) d
  | shadow (q : Queued) (now : ℕ) :
      Move cfg d (.shadow q now) (.spotShadow q now)
        { d with shadow := d.shadow.track cfg.learner d.engine.clock.system q.sig }
  | spotShadow (q : Queued) (now : ℕ) :
      Move cfg d (.spotShadow q now) (.check q now)
        { d with spotShadow := d.spotShadow.track d.engine.clock.system q.sig }
  | stale {q : Queued} {now : ℕ} (hstale : q.sig.isStale now = true) :
      Move cfg d (.check q now) .idle d
  | duplicate {q : Queued} {now : ℕ} (hstale : q.sig.isStale now = false)
      (hfound : (d.recent.admits now (q.sig.fingerprint cfg.hash)).1 = false) :
      Move cfg d (.check q now) .idle
        { d with recent := (d.recent.admits now (q.sig.fingerprint cfg.hash)).2 }
  | pass {q : Queued} {now : ℕ} (hstale : q.sig.isStale now = false)
      (hpass : (d.recent.admits now (q.sig.fingerprint cfg.hash)).1 = true) :
      Move cfg d (.check q now) (Worker.route cfg q)
        { d with recent := (d.recent.admits now (q.sig.fingerprint cfg.hash)).2 }
  | leave (ticket : ℕ) {job : Job} (hfinished : job.finished = true) :
      Move cfg d (.futures ticket job) .idle d
  | futures (ticket : ℕ) {job job' : Job} {engine : Shared} (hfinished : job.finished = false)
      (hstep : job.step cfg.engine d.engine = some (job', engine)) :
      Move cfg d (.futures ticket job) (.futures ticket job') { d with engine }
  | leaveSpot (ticket : ℕ) {job : SpotJob} (hpc : job.pc = .finished) :
      Move cfg d (.spot ticket job) .idle d
  | spot (ticket : ℕ) {job job' : SpotJob} {d' : Desk} (hstep : job.step d = some (job', d')) :
      Move cfg d (.spot ticket job) (.spot ticket job') d'
  | closeAll {job job' : CloseAllJob} {engine : Shared}
      (hstep : job.step cfg.engine d.engine = some (job', engine)) :
      Move cfg d (.closeAll job) (.closeAll job') { d with engine }

variable {cfg : DeskConfig} {w w' : Worker} {d d' : Desk}

theorem move_of_step (h : w.step cfg d = some (w', d')) : Move cfg d w w' d' := by
  cases w <;> simp only [step] at h
  case idle =>
    cases h
    exact .wake
  case waiting =>
    split at h
    · cases h
      exact .rest ‹_›
    · cases h
      exact .pop ‹_›
  case stamp =>
    cases h
    exact .stamp _
  case shadow =>
    cases h
    exact .shadow _ _
  case spotShadow =>
    cases h
    exact .spotShadow _ _
  case check q now =>
    split_ifs at h with hstale hpass
    · cases h
      exact .stale hstale
    · cases h
      exact .pass (by simpa using hstale) hpass
    · cases h
      exact .duplicate (by simpa using hstale) (by simpa using hpass)
  case futures ticket job =>
    split_ifs at h with hfinished
    · cases h
      exact .leave ticket hfinished
    · obtain ⟨⟨job', engine⟩, hstep, heq⟩ := Option.map_eq_some_iff.1 h
      cases heq
      exact .futures ticket (by simpa using hfinished) hstep
  case spot ticket job =>
    split_ifs at h with hpc
    · cases h
      exact .leaveSpot ticket hpc
    · obtain ⟨⟨job', d''⟩, hstep, heq⟩ := Option.map_eq_some_iff.1 h
      cases heq
      exact .spot ticket hstep
  case closeAll job =>
    obtain ⟨⟨job', engine⟩, hstep, heq⟩ := Option.map_eq_some_iff.1 h
    cases heq
    exact .closeAll hstep
  case stopped => cases h

/-- The same of the steps of `process_signal`. -/
theorem move_of_handle (h : w.handle cfg d = some (w', d')) : w ≠ .idle ∧ Move cfg d w w' d' := by
  cases w with
  | idle => cases h
  | _ => exact ⟨by simp, move_of_step h⟩

end Worker

/-! ## Spot handlers -/

/-- The handler has the lock, and is not at its end. -/
def SpotPc.taken : SpotPc → Bool
  | grade => true
  | takeOid => true
  | book => true
  | _ => false

namespace SpotJob

variable {j j' : SpotJob} {d d' : Desk}

/-- **What a spot handler's step does**: at most the account changes, in one
section of a signal that was not refused. -/
inductive Move (j : SpotJob) (d : Desk) : SpotJob → Desk → Prop
  | quiet {j' : SpotJob} {locked : List String} {nextOid : ℕ} (hsig : j'.sig = j.sig)
      (htaken : j'.pc.taken = true → j.refused = false ∨ j.pc.taken = true) :
      Move j d j' { d with engine := { d.engine with locked, nextOid } }
  | account (hpc : j.pc = .book) : Move j d (j.goto .unlock) { d with spot := j.account d }

theorem move_of_step (h : j.step d = some (j', d')) : Move j d j' d' := by
  cases hpc : j.pc <;> simp only [step, hpc] at h
  case lock =>
    split_ifs at h with hrefused
    · cases h
      exact .quiet rfl nofun
    · cases h
      exact .quiet rfl nofun
    all_goals
      cases h
      exact .quiet rfl fun _ => .inl (by simpa using hrefused)
  case grade | takeOid =>
    cases h
    exact .quiet rfl fun _ => .inr (by rw [hpc]; rfl)
  case book =>
    cases h
    exact .account hpc
  case unlock =>
    cases h
    exact .quiet rfl nofun
  case finished => cases h

end SpotJob

end WebhookTrader
