import WebhookTrader.Engine.Handling

/-!
# The direction of a signal

An exit is to close long positions where its direction is bullish and
short ones where it is bearish, and a re-entry is to open them so. Most
handlers take every direction that is not bullish for bearish, and the
spot exits take any. What holds is proved along the steps of a worker
that handles a signal, and of every desk it may start from.
-/

namespace WebhookTrader

/-- The direction that belongs to a side. -/
def HoldSide.direction : HoldSide → String
  | long => "bull"
  | short => "bear"

namespace WebhookSignal

/-- A take-profit or a stop-loss. -/
def isExit (sig : WebhookSignal) : Bool := sig.sigType = .tp || sig.sigType = .sl

theorem isExit_iff {sig : WebhookSignal} :
    sig.isExit = true ↔ sig.sigType = .tp ∨ sig.sigType = .sl := by
  simp [isExit]

/-- **A direction that every handler of the signal reads right.** -/
def isDirected (sig : WebhookSignal) : Bool :=
  let known := sig.signalDirection = "bull" || sig.signalDirection = "bear"
  match sig.sigType with
  | .tp | .sl =>
      if sig.marketType = "spot" then !sig.isValid || sig.signalDirection = "bull"
      else sig.symbol = "" || known
  | .reEntry => sig.marketType = "spot" || sig.symbol = "" || known
  | _ => true

end WebhookSignal

/-- **The law of directions**, between a desk and a later one. -/
structure Directed (sig : WebhookSignal) (d d' : Desk) : Prop where
  exit : sig.isExit = true → ∀ side : HoldSide, sig.signalDirection ≠ side.direction →
    d.Keeps side.text d'
  reEntry : sig.sigType = .reEntry → ∀ side : HoldSide, sig.signalDirection ≠ side.direction →
    d.AddsNone side.text d'

namespace Directed

variable {sig : WebhookSignal} {d d' d'' : Desk}

theorem of_eq (h : ∀ pl, d'.held pl = d.held pl) : Directed sig d d' :=
  ⟨fun _ _ _ => Desk.keeps_of_eq h, fun _ _ _ => Desk.addsNone_of_eq h⟩

theorem refl : Directed sig d d := of_eq fun _ => rfl

theorem trans (h : Directed sig d d') (h' : Directed sig d' d'') : Directed sig d d'' :=
  ⟨fun hexit side hne => (h.exit hexit side hne).trans (h'.exit hexit side hne),
    fun hre side hne => (h.reEntry hre side hne).trans (h'.reEntry hre side hne)⟩

/-- Of an exit, the first half is the law. -/
theorem of_exit (hexit : sig.isExit = true)
    (h : ∀ side : HoldSide, sig.signalDirection ≠ side.direction → d.Keeps side.text d') :
    Directed sig d d' where
  exit _ := h
  reEntry hre := by simp [WebhookSignal.isExit, hre] at hexit

/-- Of an entry, the second half is the law. -/
theorem of_entry (hentry : sig.isExit = false)
    (h : sig.sigType = .reEntry → ∀ side : HoldSide, sig.signalDirection ≠ side.direction →
      d.AddsNone side.text d') : Directed sig d d' where
  exit hexit := by simp [hentry] at hexit
  reEntry := h

end Directed

/-- The side that is read off a known direction is the direction's own. -/
theorem HoldSide.ne_text_of_direction {dir : String} (hdir : dir = "bull" ∨ dir = "bear")
    {side : HoldSide} (hne : dir ≠ side.direction) :
    (if dir = "bull" then "long" else "short") ≠ side.text := by
  rcases hdir with rfl | rfl <;> cases side
  · exact (hne rfl).elim
  · decide
  · decide
  · exact (hne rfl).elim

/-- What the parser makes of a re-entry's direction. -/
def WebhookSignal.ReEntryRead (sig : WebhookSignal) : Prop :=
  sig.sigType = .reEntry → sig.action = if sig.signalDirection = "bull" then "buy" else "sell"

namespace WebhookSignal

variable {sig : WebhookSignal}

theorem ReEntryRead.buy_iff (h : sig.ReEntryRead) (hre : sig.sigType = .reEntry) :
    sig.action = "buy" ↔ sig.signalDirection = "bull" := by
  rw [h hre]
  split_ifs with hbull
  · simp [hbull]
  · simp [hbull]

/-- A directed signal of the futures market that is tracked is bullish or
bearish. -/
theorem known_of_isDirected (h : sig.isDirected = true)
    (htype : sig.isExit = true ∨ sig.sigType = .reEntry) (hmarket : sig.marketType ≠ "spot")
    (hsymbol : sig.symbol ≠ "") : sig.signalDirection = "bull" ∨ sig.signalDirection = "bear" := by
  rw [isExit_iff] at htype
  rcases htype with (htype | htype) | htype <;> simpa [isDirected, htype, hmarket, hsymbol] using h

theorem bull_of_isDirected (h : sig.isDirected = true) (hexit : sig.isExit = true)
    (hmarket : sig.marketType = "spot") (hvalid : sig.isValid = true) :
    sig.signalDirection = "bull" := by
  rw [isExit_iff] at hexit
  rcases hexit with htype | htype <;> simpa [isDirected, htype, hmarket, hvalid] using h

theorem symbol_ne_of_isValid (h : sig.isValid = true) : sig.symbol ≠ "" := by
  intro hsymbol
  simp [isValid, hsymbol] at h

/-- The side an exit closes in the tracker. -/
theorem dirToSide_of_exit (h : sig.isExit = true) :
    ShadowTracker.dirToSide sig = if sig.signalDirection = "bull" then "long" else "short" := by
  rw [isExit_iff] at h
  unfold ShadowTracker.dirToSide
  rcases h with htype | htype <;> rw [htype]

theorem dirToSide_of_reEntry (h : sig.ReEntryRead) (hre : sig.sigType = .reEntry) :
    ShadowTracker.dirToSide sig = if sig.signalDirection = "bull" then "long" else "short" := by
  unfold ShadowTracker.dirToSide
  rw [hre]
  exact if_congr (h.buy_iff hre) rfl rfl

end WebhookSignal

/-! ## The trackers -/

section Trackers

variable {sig : WebhookSignal} {d : Desk} {now : ℕ}

theorem directed_shadow (cfg : LearnerConfig) (hsig : sig.ReEntryRead)
    (hdir : sig.isDirected = true) :
    Directed sig d { d with shadow := d.shadow.track cfg now sig } := by
  by_cases hskip : sig.marketType = "spot" ∨ sig.symbol = ""
  · rw [ShadowTracker.track_of_skipped hskip]
    exact .refl
  have hmarket : sig.marketType ≠ "spot" := fun h => hskip (.inl h)
  have hsymbol : sig.symbol ≠ "" := fun h => hskip (.inr h)
  by_cases hexit : sig.isExit = true
  · have hknown := WebhookSignal.known_of_isDirected hdir (.inl hexit) hmarket hsymbol
    refine .of_exit hexit fun side hne => ?_
    have htrack : ∃ reason, d.shadow.track cfg now sig = d.shadow.trackExit cfg now reason sig :=
      ShadowTracker.track_of_exit hskip (WebhookSignal.isExit_iff.1 hexit)
    obtain ⟨reason, heq⟩ := htrack
    rw [heq]
    refine ShadowTracker.keeps_trackExit ?_
    rw [WebhookSignal.dirToSide_of_exit hexit]
    exact HoldSide.ne_text_of_direction hknown hne
  · refine .of_entry (by simpa using hexit) fun hre side hne => ?_
    have hknown := WebhookSignal.known_of_isDirected hdir (.inr hre) hmarket hsymbol
    have htrack : d.shadow.track cfg now sig = d.shadow.trackEntry cfg now sig := by
      rw [ShadowTracker.track, if_neg hskip, hre]
    rw [htrack]
    refine ShadowTracker.addsNone_trackEntry ?_
    rw [WebhookSignal.dirToSide_of_reEntry hsig hre]
    exact HoldSide.ne_text_of_direction hknown hne

theorem directed_spotShadow (hsig : sig.ReEntryRead) :
    Directed sig d { d with spotShadow := d.spotShadow.track now sig } := by
  by_cases hexit : sig.isExit = true
  · refine .of_exit hexit fun side hne => ?_
    cases side with
    | long =>
        rw [SpotShadowTracker.track_of_exit (WebhookSignal.isExit_iff.1 hexit) hne]
        exact .refl
    | short => exact (SpotShadowTracker.keeps_of_ne_long (by decide)).1
  · refine .of_entry (by simpa using hexit) fun hre side hne => ?_
    cases side with
    | long =>
        rw [SpotShadowTracker.track_of_reEntry hre fun hbuy => hne ((hsig.buy_iff hre).1 hbuy)]
        exact .refl
    | short => exact (SpotShadowTracker.keeps_of_ne_long (by decide)).2

end Trackers

/-! ## The handlers -/

/-- The handler goes by the position it has found. -/
def ClosePc.aims : ClosePc → Bool
  | isReal => true
  | paper => true
  | request _ _ => true
  | settle => true
  | _ => false

/-- What a closing handler goes by is on its own side. -/
def CloseJob.Aimed (j : CloseJob) (s : Shared) : Prop :=
  j.pc.aims = true → ∀ p, s.positions.lookup j.key = some p → p.side = j.holdSide

namespace CloseJob

variable {cfg : EngineConfig} {c : Closing} {j j' : CloseJob} {s s' : Shared} {d : Desk}

/-- A step that leaves the book and the position alone. -/
theorem Aimed.of_same (h : j.Aimed s) (hpc : j'.pc.aims = true → j.pc.aims = true)
    (hkey : j'.key = j.key) (hsig : j'.sig = j.sig) (hbook : s'.positions = s.positions) :
    j'.Aimed s' := by
  intro haims p hp
  rw [hkey, hbook] at hp
  rw [h (hpc haims) p hp, holdSide, holdSide, hsig]

/-- **A handler alone stays aimed**, and what it takes off the book is on its
own side. -/
theorem aimed_step (h : j.Aimed s) (hstep : j.step cfg c s = some (j', s')) :
    j'.Aimed s' ∧ j'.sig = j.sig ∧
      ∀ k p, s.positions.lookup k = some p → p.side ≠ j.holdSide →
        s'.positions.lookup k = some p := by
  have hnone : ∀ {pc : ClosePc} {t : Shared}, pc.aims = false → (j.goto pc).Aimed t :=
    fun hfalse haims => absurd (hfalse.symm.trans haims) Bool.false_ne_true
  -- what is closed is of the handler's own side
  have hsettled : j.pc.aims = true → ∀ k p, s.positions.lookup k = some p → p.side ≠ j.holdSide →
      (j.settle c s).positions.lookup k = some p := by
    intro haims k p hp hne
    have hk : k ≠ j.key := by
      rintro rfl
      exact hne (h haims p hp)
    unfold settle
    split
    · exact hp
    · dsimp only
      split
      · rw [Book.lookup_reduceQuantity_ne hk]
        exact hp
      · rw [AList.lookup_erase_ne hk]
        exact hp
  cases hpc : j.pc <;> simp only [step, hpc] at hstep
  case lock =>
    split_ifs at hstep <;> cases hstep <;> exact ⟨hnone rfl, rfl, fun _ _ hp _ => hp⟩
  case find =>
    split at hstep
    · cases hstep
      exact ⟨hnone rfl, rfl, fun _ _ hp _ => hp⟩
    · rename_i key pos hfound
      cases hstep
      obtain ⟨htag, hlookup⟩ := Table.findValue_eq_some hfound
      simp only [Book.sameTag, Bool.and_eq_true, decide_eq_true_eq] at htag
      refine ⟨fun _ p hp => ?_, rfl, fun _ _ hp _ => hp⟩
      obtain rfl := Option.some.inj (hlookup.symm.trans hp)
      exact htag.2
  case isReal =>
    cases hstep
    exact ⟨h.of_same (fun _ => by rw [hpc]; rfl) rfl rfl rfl, rfl, fun _ _ hp _ => hp⟩
  case request round second =>
    cases hstep
    exact ⟨h.of_same (fun _ => by rw [hpc]; rfl) rfl rfl rfl, rfl, fun _ _ hp _ => hp⟩
  case paper | settle =>
    cases hstep
    exact ⟨hnone rfl, rfl, hsettled (by rw [hpc]; rfl)⟩
  case unlock =>
    cases hstep
    exact ⟨hnone rfl, rfl, fun _ _ hp _ => hp⟩
  case finished => cases hstep

end CloseJob

section Handlers

variable {cfg : EngineConfig} {sig : WebhookSignal} {d d' : Desk} {s' : Shared}

theorem directed_close {c : Closing} {j j' : CloseJob} (hexit : sig.isExit = true)
    (hknown : sig.signalDirection = "bull" ∨ sig.signalDirection = "bear")
    (hsig : j.sig = sig) (haimed : j.Aimed d.engine)
    (hstep : j.step cfg c d.engine = some (j', s')) : Directed sig d { d with engine := s' } := by
  refine .of_exit hexit fun side hne pl q hq => ?_
  have hside : j.holdSide ≠ side.text := by
    rw [CloseJob.holdSide, hsig]
    exact HoldSide.ne_text_of_direction hknown hne
  cases pl with
  | futures key =>
      obtain ⟨p, hp, heq⟩ := Option.map_eq_some_iff.1 hq
      obtain ⟨htext, -⟩ := Prod.mk.inj heq
      have hsame := (CloseJob.aimed_step haimed hstep).2.2 key p hp fun hp' =>
        hside (hp'.symm.trans htext)
      exact ⟨q, Option.map_eq_some_iff.2 ⟨p, hsame, heq⟩, le_rfl⟩
  | _ => exact ⟨q, hq, le_rfl⟩

theorem directed_entry {j j' : EntryJob} (hentry : sig.isExit = false) (hread : sig.ReEntryRead)
    (hknown : sig.sigType = .reEntry →
      sig.signalDirection = "bull" ∨ sig.signalDirection = "bear")
    (hsig : j.sig = sig) (hstep : j.step cfg d.engine = some (j', s')) :
    Directed sig d { d with engine := s' } := by
  refine .of_entry hentry fun hre side hne => ?_
  have hside : j.side ≠ side.text := by
    rw [EntryJob.side, hsig, if_congr (hread.buy_iff hre) rfl rfl]
    exact HoldSide.ne_text_of_direction (hknown hre) hne
  cases EntryJob.move_of_step hstep with
  | register isReal hpc =>
      have helse : d.Elsewhere (.futures j.key) { d with engine := j.register isReal d.engine } :=
        Desk.elsewhere_futures fun k hk => AList.lookup_insert_ne hk
      refine helse.addsNone fun q hq => hside ?_
      simp only [Desk.held, EntryJob.register, AList.lookup_insert, Option.map_some,
        Option.some.injEq, Prod.mk.injEq] at hq
      exact hq.1
  | _ => exact Desk.addsNone_of_eq fun pl => by cases pl <;> rfl

/-- A spot exit changes one long position, if any. -/
theorem elsewhere_sale {acc : SpotAccount → SpotAccount}
    (hacc : acc = SpotAccount.handleTp sig ∨ acc = SpotAccount.handleSl sig) :
    acc d.spot = d.spot ∨ ∃ key pos, d.spot.positions.lookup key = some pos ∧
      pos.side = "long" ∧ d.Elsewhere (.spot key) { d with spot := acc d.spot } := by
  cases hfound : d.spot.positions.findValue (SpotAccount.sells sig) with
  | none =>
      left
      rcases hacc with rfl | rfl
      · simp only [SpotAccount.handleTp, hfound]
      · simp only [SpotAccount.handleSl, hfound]
  | some found =>
      obtain ⟨key, pos⟩ := found
      obtain ⟨hsells, hlookup⟩ := Table.findValue_eq_some hfound
      simp only [SpotAccount.sells, Bool.and_eq_true, decide_eq_true_eq] at hsells
      refine .inr ⟨key, pos, hlookup, hsells.2, Desk.elsewhere_spot fun k hk => ?_⟩
      rcases hacc with rfl | rfl
      · simp only [SpotAccount.handleTp, hfound, SpotAccount.sell]
        split_ifs <;> first | exact AList.lookup_erase_ne hk | exact Table.lookup_modify_ne hk
      · simp only [SpotAccount.handleSl, hfound, SpotAccount.sell]
        exact AList.lookup_erase_ne hk

/-- **The spot account**, where an exit is bullish and a re-entry buys. -/
theorem directed_account {j : SpotJob} (hsig : j.sig = sig)
    (hexit : sig.isExit = true → sig.signalDirection = "bull")
    (hre : sig.sigType = .reEntry → sig.signalDirection = "bull") :
    Directed sig d { d with spot := j.account d } := by
  have hsale : ∀ acc : SpotAccount → SpotAccount,
      acc = SpotAccount.handleTp sig ∨ acc = SpotAccount.handleSl sig →
      sig.isExit = true → Directed sig d { d with spot := acc d.spot } := by
    intro acc hacc his
    refine .of_exit his fun side hne => ?_
    -- the side that is not to change is the short one
    have hshort : side.text ≠ "long" := by
      cases side
      · exact (hne (hexit his)).elim
      · decide
    have hchange : acc d.spot = d.spot ∨ _ := elsewhere_sale hacc
    rcases hchange with hsame | ⟨key, pos, hlookup, hlong, helse⟩
    · exact Desk.keeps_of_eq fun pl => by cases pl <;> simp only [Desk.held, hsame]
    · refine helse.keeps fun q hq => hshort ?_
      simp only [Desk.held, hlookup, Option.map_some, Option.some.injEq, Prod.mk.injEq] at hq
      exact hq.1.symm.trans hlong
  have hbuy : sig.isExit = false → Directed sig d
      { d with spot := d.spot.handleEntry sig j.oid d.engine.clock.system } := by
    intro hentry
    refine .of_entry hentry fun htype side hne => ?_
    have hshort : "long" ≠ side.text := by
      cases side
      · exact (hne (hre htype)).elim
      · decide
    unfold SpotAccount.handleEntry
    split
    · exact .refl
    · have helse : ∀ acc : SpotAccount,
          (∀ k, k ≠ .entry sig.symbol (SpotAccount.timeframe sig) j.oid →
            acc.positions.lookup k = d.spot.positions.lookup k) →
          d.Elsewhere (.spot (.entry sig.symbol (SpotAccount.timeframe sig) j.oid))
            { d with spot := acc } := fun _ h => Desk.elsewhere_spot h
      refine (helse _ fun k hk => AList.lookup_insert_ne hk).addsNone fun q hq => hshort ?_
      simp only [Desk.held, AList.lookup_insert, Option.map_some, Option.some.injEq,
        Prod.mk.injEq] at hq
      exact hq.1
  rw [SpotJob.account, hsig]
  cases htype : sig.sigType with
  | entry | reEntry => exact hbuy (by simp [WebhookSignal.isExit, htype])
  | tp => exact hsale _ (.inl rfl) (by simp [WebhookSignal.isExit, htype])
  | sl => exact hsale _ (.inr rfl) (by simp [WebhookSignal.isExit, htype])
  | unknown => exact .refl

end Handlers

/-! ## The worker -/

/-- **Where a worker may be with a signal**, on a desk. -/
inductive Serving (sig : WebhookSignal) (d : Desk) : Worker → Prop
  | idle : Serving sig d .idle
  | stamp {q : Queued} (hsig : q.sig = sig) : Serving sig d (.stamp q)
  | shadow {q : Queued} (hsig : q.sig = sig) (now : ℕ) : Serving sig d (.shadow q now)
  | spotShadow {q : Queued} (hsig : q.sig = sig) (now : ℕ) : Serving sig d (.spotShadow q now)
  | check {q : Queued} (hsig : q.sig = sig) (now : ℕ) : Serving sig d (.check q now)
  | entry (ticket : ℕ) {j : EntryJob} (hsig : j.sig = sig) (hvalid : sig.isValid = true)
      (hmarket : sig.marketType ≠ "spot") (hentry : sig.isExit = false) :
      Serving sig d (.futures ticket (.entry j))
  | tp (ticket : ℕ) {j : CloseJob} (hsig : j.sig = sig) (hvalid : sig.isValid = true)
      (hmarket : sig.marketType ≠ "spot") (hexit : sig.isExit = true) (haimed : j.Aimed d.engine) :
      Serving sig d (.futures ticket (.tp j))
  | sl (ticket : ℕ) {j : CloseJob} (hsig : j.sig = sig) (hvalid : sig.isValid = true)
      (hmarket : sig.marketType ≠ "spot") (hexit : sig.isExit = true) (haimed : j.Aimed d.engine) :
      Serving sig d (.futures ticket (.sl j))
  | spot (ticket : ℕ) {j : SpotJob} (hsig : j.sig = sig) (hvalid : sig.isValid = true)
      (hmarket : sig.marketType = "spot") (htaken : j.pc.taken = true → j.refused = false) :
      Serving sig d (.spot ticket j)

namespace Serving

variable {cfg : DeskConfig} {sig : WebhookSignal} {d d' : Desk} {w w' : Worker}

theorem of_routed {q : Queued} (hsig : q.sig = sig) (h : Worker.Routed q w) :
    Serving sig d w := by
  subst hsig
  cases h with
  | idle => exact .idle
  | spot hvalid hmarket => exact .spot _ rfl hvalid hmarket nofun
  | entry hvalid hmarket htype =>
      have hentry : q.sig.isExit = false := by
        rcases htype with h | h <;> simp [WebhookSignal.isExit, h]
      exact .entry _ rfl hvalid hmarket hentry
  | tp hvalid hmarket htype =>
      exact .tp _ rfl hvalid hmarket (by simp [WebhookSignal.isExit, htype]) nofun
  | sl hvalid hmarket htype =>
      exact .sl _ rfl hvalid hmarket (by simp [WebhookSignal.isExit, htype]) nofun

/-- A re-entry that is not refused buys. -/
theorem bull_of_not_refused {j : SpotJob} (hread : sig.ReEntryRead) (hsig : j.sig = sig)
    (hrefused : j.refused = false) (hre : sig.sigType = .reEntry) :
    sig.signalDirection = "bull" := by
  by_contra hdir
  have hsell : sig.action = "sell" := (hread hre).trans (if_neg hdir)
  simp [SpotJob.refused, SpotJob.enters, hsig, hre, hsell] at hrefused

/-- A step of an exit's handler. -/
theorem close {c : Closing} {j j' : CloseJob} {s' : Shared} (hdir : sig.isDirected = true)
    (hvalid : sig.isValid = true) (hmarket : sig.marketType ≠ "spot") (hexit : sig.isExit = true)
    (hsig : j.sig = sig) (haimed : j.Aimed d.engine)
    (hstep : j.step cfg.engine c d.engine = some (j', s')) :
    j'.sig = sig ∧ j'.Aimed s' ∧ Directed sig d { d with engine := s' } := by
  have hsymbol : sig.symbol ≠ "" := WebhookSignal.symbol_ne_of_isValid hvalid
  have hknown := WebhookSignal.known_of_isDirected hdir (.inl hexit) hmarket hsymbol
  obtain ⟨haimed', hsig', -⟩ := CloseJob.aimed_step haimed hstep
  exact ⟨hsig'.trans hsig, haimed', directed_close hexit hknown hsig haimed hstep⟩

/-- **One step of handling a directed signal** keeps to the law of
directions. -/
theorem step (hread : sig.ReEntryRead) (hdir : sig.isDirected = true) (hw : Serving sig d w)
    (h : w.handle cfg d = some (w', d')) : Serving sig d' w' ∧ Directed sig d d' := by
  obtain ⟨hidle, hmove⟩ := Worker.move_of_handle h
  cases hw with
  | idle => exact (hidle rfl).elim
  | stamp hsig =>
      cases hmove
      exact ⟨.shadow hsig d.now, .refl⟩
  | shadow hsig now =>
      cases hmove
      rw [hsig]
      exact ⟨.spotShadow hsig now, directed_shadow cfg.learner hread hdir⟩
  | spotShadow hsig now =>
      cases hmove
      rw [hsig]
      exact ⟨.check hsig now, directed_spotShadow hread⟩
  | check hsig now =>
      cases hmove with
      | stale => exact ⟨.idle, .refl⟩
      | duplicate => exact ⟨.idle, .of_eq fun pl => by cases pl <;> rfl⟩
      | pass =>
          exact ⟨of_routed hsig (Worker.routed_route cfg _), .of_eq fun pl => by cases pl <;> rfl⟩
  | entry ticket hsig hvalid hmarket hentry =>
      cases hmove with
      | leave => exact ⟨.idle, .refl⟩
      | futures _ _ hjob =>
          obtain ⟨j', rfl, hstep⟩ := Job.of_step_map hjob
          have hknown := fun hre => WebhookSignal.known_of_isDirected hdir (.inr hre) hmarket
            (WebhookSignal.symbol_ne_of_isValid hvalid)
          exact ⟨.entry ticket ((EntryJob.sig_of_step hstep).trans hsig) hvalid hmarket hentry,
            directed_entry hentry hread hknown hsig hstep⟩
  | tp ticket hsig hvalid hmarket hexit haimed =>
      cases hmove with
      | leave => exact ⟨.idle, .refl⟩
      | futures _ _ hjob =>
          obtain ⟨j', rfl, hstep⟩ := Job.of_step_map hjob
          obtain ⟨hsig', haimed', hdirected⟩ := close hdir hvalid hmarket hexit hsig haimed hstep
          exact ⟨.tp ticket hsig' hvalid hmarket hexit haimed', hdirected⟩
  | sl ticket hsig hvalid hmarket hexit haimed =>
      cases hmove with
      | leave => exact ⟨.idle, .refl⟩
      | futures _ _ hjob =>
          obtain ⟨j', rfl, hstep⟩ := Job.of_step_map hjob
          obtain ⟨hsig', haimed', hdirected⟩ := close hdir hvalid hmarket hexit hsig haimed hstep
          exact ⟨.sl ticket hsig' hvalid hmarket hexit haimed', hdirected⟩
  | @spot ticket j hsig hvalid hmarket htaken =>
      cases hmove with
      | leaveSpot => exact ⟨.idle, .refl⟩
      | spot _ hstep =>
          cases SpotJob.move_of_step hstep with
          | quiet hsig' htaken' =>
              refine ⟨.spot ticket (hsig'.trans hsig) hvalid hmarket fun hpc => ?_,
                .of_eq fun pl => by cases pl <;> rfl⟩
              have hrefused : j.refused = false := (htaken' hpc).elim id htaken
              rw [SpotJob.refused, SpotJob.enters, hsig']
              exact hrefused
          | account hpc =>
              have hrefused := htaken (by rw [hpc]; rfl)
              have hbull := fun hexit => WebhookSignal.bull_of_isDirected hdir hexit hmarket hvalid
              exact ⟨.spot ticket hsig hvalid hmarket nofun,
                directed_account hsig hbull (bull_of_not_refused hread hsig hrefused)⟩

/-- **Processing a directed signal** keeps to the law of directions. -/
theorem processSignal (hread : sig.ReEntryRead) (hdir : sig.isDirected = true) {q : Queued}
    (hsig : q.sig = sig) (n : ℕ) : Directed sig d (Worker.processSignal cfg n q d).2 := by
  refine (Threads.alone_invariant (I := fun w d' => Serving sig d' w ∧ Directed sig d d')
    (fun w d' w' d'' hI hnext => ?_) ⟨.stamp hsig, .refl⟩ n).2
  obtain ⟨hserving, hdirected⟩ := step hread hdir hI.1 hnext
  exact ⟨hserving, hI.2.trans hdirected⟩

end Serving

/-! ## What the parser reads -/

namespace WebhookSignal

theorem detectExchangeMarket_keeps (sig : WebhookSignal) :
    (detectExchangeMarket sig).tradeSide = sig.tradeSide ∧
      (detectExchangeMarket sig).action = sig.action := by
  unfold detectExchangeMarket
  dsimp only
  split_ifs <;> exact ⟨rfl, rfl⟩

/-- A signal in the indicator's format is classified by its alert. -/
theorem exists_of_parseSfx {j : Json} {sig₀ : WebhookSignal} :
    ∀ r, parseSfx j sig₀ = .ok r →
      ∃ raw, r = some (classify raw) ∧ raw.tradeSide = sig₀.tradeSide ∧
        raw.action = sig₀.action := by
  unfold parseSfx
  iterate 16 refine Json.forall_ok_bind fun _ => ?_
  intro r h
  cases h
  exact ⟨_, rfl, detectExchangeMarket_keeps _⟩

theorem reEntryRead_classify (raw : WebhookSignal) : (classify raw).ReEntryRead := by
  intro htype
  unfold classify at htype ⊢
  dsimp only at htype ⊢
  split_ifs at htype ⊢ <;> rfl

/-- **A parsed re-entry** buys just where its direction is bullish. -/
theorem reEntryRead_of_parseSfx {j : Json} {sig₀ sig : WebhookSignal}
    (h : parseSfx j sig₀ = .ok (some sig)) : sig.ReEntryRead := by
  obtain ⟨raw, heq, -⟩ := exists_of_parseSfx _ h
  cases heq
  exact reEntryRead_classify raw

end WebhookSignal

/-! ## The signals that break the law -/

namespace Undirected

variable {cfg : DeskConfig} {sig : WebhookSignal} {q : Queued}

/-- A desk with nothing on it. -/
def blank : Desk where
  engine := { modes := Modes.start true }

/-- A desk whose tracker has a short position of the signal's symbol and
timeframe. -/
def shortDesk (sig : WebhookSignal) : Desk :=
  { blank with shadow := ShadowTracker.enter 0 { sig with sigType := .entry, action := "sell" } {} }

/-- The key it is under. -/
def shortKey (sig : WebhookSignal) : String :=
  VirtualPosition.makeKey sig.symbol (ShadowTracker.timeframe sig) "short"

theorem lookup_shortDesk (sig : WebhookSignal) :
    ∃ vp, (shortDesk sig).shadow.positions.lookup (shortKey sig) = some vp ∧ vp.side = "short" :=
  ⟨_, AList.lookup_insert _, rfl⟩

/-- The second step of the worker lets the tracker follow the signal. -/
theorem processSignal_two (d : Desk) :
    (Worker.processSignal cfg 2 q d).2 =
      { d with shadow := d.shadow.track cfg.learner d.engine.clock.system q.sig } := rfl

/-- **An exit that is not bullish closes a short position.** -/
theorem not_directed_exit (hexit : sig.isExit = true) (hmarket : sig.marketType ≠ "spot")
    (hsymbol : sig.symbol ≠ "") (hbull : sig.signalDirection ≠ "bull")
    (hbear : sig.signalDirection ≠ "bear") (hsig : q.sig = sig) :
    ¬ Directed sig (shortDesk sig) (Worker.processSignal cfg 2 q (shortDesk sig)).2 := by
  intro hdirected
  obtain ⟨vp, hvp, hside⟩ := lookup_shortDesk sig
  have hheld : (shortDesk sig).held (.shadow (shortKey sig)) = some (HoldSide.short.text, 1) := by
    rw [Desk.held, hvp, Option.map_some, hside]
    rfl
  obtain ⟨q', hq', -⟩ := hdirected.exit hexit .short hbear _ _ hheld
  have hkey : ShadowTracker.signalKey sig = shortKey sig := by
    rw [ShadowTracker.signalKey, WebhookSignal.dirToSide_of_exit hexit, if_neg hbull]
    rfl
  have hskip : ¬ (sig.marketType = "spot" ∨ sig.symbol = "") := by
    rw [not_or]
    exact ⟨hmarket, hsymbol⟩
  have htrack : ∃ reason, (shortDesk sig).shadow.track cfg.learner
      (shortDesk sig).engine.clock.system sig =
        (shortDesk sig).shadow.trackExit cfg.learner (shortDesk sig).engine.clock.system reason
          sig :=
    ShadowTracker.track_of_exit hskip (WebhookSignal.isExit_iff.1 hexit)
  obtain ⟨reason, heq⟩ := htrack
  have hmatch : (shortDesk sig).shadow.match? sig = some (shortKey sig, vp) := by
    rw [ShadowTracker.match?, hkey, hvp]
  -- the shadow tracker has closed the short position
  rw [processSignal_two, hsig, heq, ShadowTracker.trackExit, hmatch] at hq'
  simp [Desk.held, ShadowTracker.closePosition] at hq'

/-- **A re-entry that is not bullish opens a short position.** -/
theorem not_directed_reEntry (hread : sig.ReEntryRead) (htype : sig.sigType = .reEntry)
    (hmarket : sig.marketType ≠ "spot") (hsymbol : sig.symbol ≠ "")
    (hbull : sig.signalDirection ≠ "bull") (hbear : sig.signalDirection ≠ "bear")
    (hsig : q.sig = sig) : ¬ Directed sig blank (Worker.processSignal cfg 2 q blank).2 := by
  intro hdirected
  have hskip : ¬ (sig.marketType = "spot" ∨ sig.symbol = "") := by
    rw [not_or]
    exact ⟨hmarket, hsymbol⟩
  have hside : (ShadowTracker.opened blank.engine.clock.system sig).side = "short" := by
    have hdir := WebhookSignal.dirToSide_of_reEntry hread htype
    rw [if_neg hbull] at hdir
    exact hdir
  have hheld : (Worker.processSignal cfg 2 q blank).2.held
      (.shadow (ShadowTracker.opened blank.engine.clock.system sig).key) =
        some (HoldSide.short.text, 1) := by
    rw [processSignal_two, hsig, ShadowTracker.track, if_neg hskip, htype]
    simp only [Desk.held]
    rw [ShadowTracker.trackEntry, if_neg (by simp [blank])]
    rw [ShadowTracker.enter, AList.lookup_insert, Option.map_some, hside]
    rfl
  obtain ⟨q', hq'⟩ := hdirected.reEntry htype .short hbear _ _ hheld
  simp [Desk.held, blank] at hq'

/-- The long position a spot exit of the signal sells. -/
def spotPosition (sig : WebhookSignal) : ManagedPosition where
  symbol := sig.symbol
  side := "long"
  quantity := 1
  exchange := sig.exchange
  marketType := "spot"

def spotKey : PositionKey := .entry "" "" 0

/-- A desk whose spot account has the position, at the time the signal
arrives. -/
def spotDesk (sig : WebhookSignal) : Desk :=
  { blank with
    now := sig.receivedAt
    spot := { positions := AList.insert spotKey (spotPosition sig) ∅ } }

theorem isStale_receivedAt : sig.isStale sig.receivedAt = false := by
  have hage : sig.ageMs sig.receivedAt = 0 := by simp [WebhookSignal.ageMs]
  have hmax : 0 < WebhookSignal.maxAgeMs sig.timeframe := by
    unfold WebhookSignal.maxAgeMs
    dsimp only
    split_ifs <;> norm_num
  simp [WebhookSignal.isStale, hage]

/-- Six steps take a spot exit that the tracker leaves alone to the end of
its section. -/
theorem processSignal_six (hexit : sig.isExit = true) (hmarket : sig.marketType = "spot")
    (hvalid : sig.isValid = true) (hbull : sig.signalDirection ≠ "bull") (hsig : q.sig = sig) :
    (Worker.processSignal cfg 6 q (spotDesk sig)).2.spot =
      ({ sig, rd := q.rd : SpotJob }).account (spotDesk sig) := by
  subst hsig
  have hshadow : (spotDesk q.sig).shadow.track cfg.learner 0 q.sig = (spotDesk q.sig).shadow :=
    ShadowTracker.track_of_skipped (.inl hmarket)
  have hspotShadow : (spotDesk q.sig).spotShadow.track 0 q.sig = (spotDesk q.sig).spotShadow :=
    SpotShadowTracker.track_of_exit (WebhookSignal.isExit_iff.1 hexit) hbull
  have htracked : Worker.processSignal cfg 6 q (spotDesk q.sig) =
      Threads.alone (Worker.handle cfg) 3 (.check q (spotDesk q.sig).now)
        { spotDesk q.sig with
          shadow := (spotDesk q.sig).shadow.track cfg.learner 0 q.sig
          spotShadow := (spotDesk q.sig).spotShadow.track 0 q.sig } := rfl
  rw [htracked, hshadow, hspotShadow]
  -- the signal is fresh, and goes to the spot handler
  have hroute : Worker.route cfg q = .spot q.ticket { sig := q.sig, rd := q.rd } := by
    simp [Worker.route, hvalid, hmarket, Worker.isUnlisted]
  let recent := ((spotDesk q.sig).recent.admits (spotDesk q.sig).now
    (q.sig.fingerprint cfg.hash)).2
  have hcheck : Worker.handle cfg (.check q (spotDesk q.sig).now) (spotDesk q.sig) =
      some (.spot q.ticket { sig := q.sig, rd := q.rd }, { spotDesk q.sig with recent }) := by
    have hfresh : ¬ q.sig.isStale (spotDesk q.sig).now = true := by
      rw [Bool.not_eq_true]
      exact isStale_receivedAt
    have hadmitted : ((spotDesk q.sig).recent.admits (spotDesk q.sig).now
      (q.sig.fingerprint cfg.hash)).1 = true := rfl
    simp only [Worker.handle, Worker.step]
    rw [if_neg hfresh, if_pos hadmitted, hroute]
  have henters : ({ sig := q.sig, rd := q.rd : SpotJob }).enters = false := by
    rcases WebhookSignal.isExit_iff.1 hexit with h | h <;> simp [SpotJob.enters, h]
  have hlock : Worker.handle cfg (.spot q.ticket { sig := q.sig, rd := q.rd })
      { spotDesk q.sig with recent } =
        some (.spot q.ticket { pc := .book, sig := q.sig, rd := q.rd },
          { spotDesk q.sig with
            recent
            engine := { (spotDesk q.sig).engine with locked := [q.sig.symbol] } }) := by
    simp [Worker.handle, Worker.step, SpotJob.step, SpotJob.refused, henters, spotDesk, blank,
      SpotJob.goto]
  rw [Threads.alone, hcheck]
  dsimp only
  rw [Threads.alone, hlock]
  rfl

/-- **A spot exit that is not bullish closes or reduces a long position.** -/
theorem not_directed_spot (hexit : sig.isExit = true) (hmarket : sig.marketType = "spot")
    (hvalid : sig.isValid = true) (hbull : sig.signalDirection ≠ "bull") (hsig : q.sig = sig) :
    ¬ Directed sig (spotDesk sig) (Worker.processSignal cfg 6 q (spotDesk sig)).2 := by
  intro hdirected
  have hlookup : (spotDesk sig).spot.positions.lookup spotKey = some (spotPosition sig) :=
    AList.lookup_insert _
  have hheld : (spotDesk sig).held (.spot spotKey) = some (HoldSide.long.text, 1) := by
    rw [Desk.held, hlookup]
    rfl
  obtain ⟨q', hq', hle⟩ := hdirected.exit hexit .long hbull _ _ hheld
  have hsells : (spotDesk sig).spot.positions.findValue (SpotAccount.sells sig) =
      some (spotKey, spotPosition sig) := by
    simp [spotDesk, Table.findValue, SpotAccount.sells, spotPosition]
  rw [Desk.held, processSignal_six hexit hmarket hvalid hbull hsig, SpotJob.account] at hq'
  rcases WebhookSignal.isExit_iff.1 hexit with htype | htype <;> simp only [htype] at hq'
  · -- a share is sold, of one unit
    simp only [SpotAccount.handleTp, hsells, SpotAccount.sell] at hq'
    split_ifs at hq' <;>
      simp only [AList.lookup_erase, Table.lookup_modify, hlookup, Option.map_none, Option.map_some,
        Option.some.injEq, Prod.mk.injEq, spotPosition, reduceCtorEq] at hq' <;>
      obtain ⟨-, rfl⟩ := hq' <;> norm_num at hle
  · simp [SpotAccount.handleSl, hsells, SpotAccount.sell] at hq'

end Undirected

/-- **When a signal keeps to the law of directions.** For every signal in the
indicator's format: on every desk, just where its direction is one that
its handlers read right. -/
theorem directed_iff {cfg : DeskConfig} {j : Json} {received : ℕ} {sig : WebhookSignal}
    (hparse : WebhookSignal.parseSfx j { receivedAt := received } = .ok (some sig)) :
    (∀ (q : Queued) (d : Desk) (n : ℕ), q.sig = sig →
      Directed sig d (Worker.processSignal cfg n q d).2) ↔ sig.isDirected = true := by
  have hread := WebhookSignal.reEntryRead_of_parseSfx hparse
  constructor
  · intro hall
    by_contra hdir
    let q : Queued := ⟨0, sig, {}⟩
    -- the signal breaks the law on a desk made for it
    have hmarkets : sig.marketType = "spot" ∨ sig.marketType ≠ "spot" := em _
    by_cases hexit : sig.isExit = true
    · rcases hmarkets with hmarket | hmarket
      · have hfail : sig.isValid = true ∧ sig.signalDirection ≠ "bull" := by
          rcases WebhookSignal.isExit_iff.1 hexit with htype | htype <;>
            simpa [WebhookSignal.isDirected, htype, hmarket] using hdir
        exact Undirected.not_directed_spot hexit hmarket hfail.1 hfail.2 rfl (hall q _ 6 rfl)
      · have hfail : sig.symbol ≠ "" ∧ sig.signalDirection ≠ "bull" ∧
            sig.signalDirection ≠ "bear" := by
          rcases WebhookSignal.isExit_iff.1 hexit with htype | htype <;>
            simpa [WebhookSignal.isDirected, htype, hmarket] using hdir
        exact Undirected.not_directed_exit hexit hmarket hfail.1 hfail.2.1 hfail.2.2 rfl
          (hall q _ 2 rfl)
    · have htype : sig.sigType = .reEntry := by
        by_contra hother
        refine hdir ?_
        cases htype : sig.sigType <;> simp_all [WebhookSignal.isDirected, WebhookSignal.isExit]
      have hfail : sig.marketType ≠ "spot" ∧ sig.symbol ≠ "" ∧ sig.signalDirection ≠ "bull" ∧
          sig.signalDirection ≠ "bear" := by
        simpa [WebhookSignal.isDirected, htype, and_assoc] using hdir
      exact Undirected.not_directed_reEntry hread htype hfail.1 hfail.2.1 hfail.2.2.1 hfail.2.2.2
        rfl (hall q _ 2 rfl)
  · exact fun hdir q d n hsig => Serving.processSignal hread hdir hsig n

/-! ### A misspelt direction -/

namespace Undirected

/-- A stop-loss of the perpetual on bitcoin. -/
def stopLoss (direction : String) : Json :=
  .obj [("alert", .str "SL"), ("signal_direction", .str direction), ("ticker", .str "BTCUSDT.P"),
    ("close", .int 50), ("timeframe", .str "15")]

/-- What is read of it. -/
def stopLossSignal (direction : String) : WebhookSignal :=
  (((WebhookSignal.parseSfx (stopLoss direction) {}).toOption).bind id).getD {}

/-- A short paper position on bitcoin. -/
def paperDesk : Desk :=
  { blank with
    engine :=
      { blank.engine with
        positions := AList.insert (.entry "BTCUSDT" "15" 0)
          { symbol := "BTCUSDT", side := "short", entryPrice := 50, quantity := 2 } ∅ } }

end Undirected

theorem directed_iff_bull :
    (∀ (q : Queued) (d : Desk) (n : ℕ), q.sig = Undirected.stopLossSignal "bull" →
      Directed (Undirected.stopLossSignal "bull") d (Worker.processSignal {} n q d).2) ↔
        (Undirected.stopLossSignal "bull").isDirected = true := by
  have hparse : WebhookSignal.parseSfx (Undirected.stopLoss "bull") { receivedAt := 0 } =
      .ok (some (Undirected.stopLossSignal "bull")) := rfl
  exact directed_iff hparse

/-- **A stop-loss for nothing in particular closes a short position**: its
direction is `Bull`. -/
theorem misspelt_direction :
    WebhookSignal.parseSfx (Undirected.stopLoss "Bull") {} =
        .ok (some (Undirected.stopLossSignal "Bull")) ∧
      (Undirected.stopLossSignal "Bull").isValid = true ∧
      Undirected.paperDesk.held (.futures (.entry "BTCUSDT" "15" 0)) = some ("short", 2) ∧
      ((Worker.processSignal {} 9 ⟨0, Undirected.stopLossSignal "Bull", {}⟩
        Undirected.paperDesk).2).held (.futures (.entry "BTCUSDT" "15" 0)) = none ∧
      ¬ Directed (Undirected.stopLossSignal "Bull") Undirected.paperDesk
        (Worker.processSignal {} 9 ⟨0, Undirected.stopLossSignal "Bull", {}⟩
          Undirected.paperDesk).2 := by
  have hbefore : Undirected.paperDesk.held (.futures (.entry "BTCUSDT" "15" 0)) =
      some (HoldSide.short.text, 2) := by decide +kernel
  have hafter : ((Worker.processSignal {} 9 ⟨0, Undirected.stopLossSignal "Bull", {}⟩
      Undirected.paperDesk).2).held (.futures (.entry "BTCUSDT" "15" 0)) = none := by
    decide +kernel
  refine ⟨rfl, by decide +kernel, hbefore, hafter, fun hdirected => ?_⟩
  have hne : (Undirected.stopLossSignal "Bull").signalDirection ≠ HoldSide.short.direction := by
    decide +kernel
  obtain ⟨q', hq', -⟩ := hdirected.exit (by decide +kernel) .short hne _ _ hbefore
  rw [hafter] at hq'
  cases hq'

end WebhookTrader
