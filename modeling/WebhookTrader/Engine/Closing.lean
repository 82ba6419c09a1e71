import WebhookTrader.Engine.Direction

/-!
# Closing signals

A signal that is to close comes from either format: a take-profit or a
stop-loss of the indicator's, or anything generic whose trade side says
so. The first kind opens nothing anywhere. The second is routed as an
entry, and the shadow tracker opens a position for it before anything
else is looked at.
-/

namespace WebhookTrader

/-- The request opens a position. -/
def VenueRequest.opens : VenueRequest → Bool
  | order body => body.tradeSide = .open
  | closePositions .. => false

/-- What a worker's next step asks of the exchange. -/
def Worker.asks (cfg : DeskConfig) : Worker → Option VenueRequest
  | futures _ (.entry j) =>
      match j.pc with
      | .request _ _ => some (.order (j.order cfg.engine))
      | _ => none
  | futures _ (.tp j) =>
      match j.pc with
      | .request _ _ => some ((handleTp cfg.engine).request j)
      | _ => none
  | futures _ (.sl j) =>
      match j.pc with
      | .request _ _ => some (handleSl.request j)
      | _ => none
  | _ => none

/-- **Nothing is opened**: no book has a new entry, and no opening order is
about to be sent. -/
structure OpensNothing (cfg : DeskConfig) (d : Desk) (r : Worker × Desk) : Prop where
  books : ∀ pl, d.held pl = none → r.2.held pl = none
  orders : ∀ req ∈ r.1.asks cfg, req.opens = false

namespace Desk

variable {d d' d'' : Desk} {pl : Place}

/-- No place is taken that was free. -/
def Frees (d d' : Desk) : Prop := ∀ pl, d.held pl = none → d'.held pl = none

theorem Frees.refl : d.Frees d := fun _ h => h

theorem Frees.trans (h : d.Frees d') (h' : d'.Frees d'') : d.Frees d'' :=
  fun pl hnone => h' pl (h pl hnone)

theorem frees_of_eq (h : ∀ pl, d'.held pl = d.held pl) : d.Frees d' :=
  fun pl hnone => (h pl).trans hnone

/-- Where the one place that changes was taken, none is. -/
theorem Elsewhere.frees (h : d.Elsewhere pl d') (htaken : d.held pl ≠ none) : d.Frees d' := by
  intro pl' hnone
  by_cases hpl : pl' = pl
  · subst hpl
    exact (htaken hnone).elim
  · exact (h pl' hpl).trans hnone

end Desk

/-! ## Exits -/

section Exits

variable {sig : WebhookSignal} {d : Desk} {now : ℕ}

theorem frees_shadow (cfg : LearnerConfig) (h : sig.isExit = true ∨ sig.symbol = "") :
    d.Frees { d with shadow := d.shadow.track cfg now sig } := by
  by_cases hskip : sig.marketType = "spot" ∨ sig.symbol = ""
  · rw [ShadowTracker.track_of_skipped hskip]
    exact .refl
  -- what the tracker closes was there
  have hexit : sig.isExit = true := h.resolve_right fun hsymbol => hskip (.inr hsymbol)
  have htrack : ∃ reason, d.shadow.track cfg now sig = d.shadow.trackExit cfg now reason sig :=
    ShadowTracker.track_of_exit hskip (WebhookSignal.isExit_iff.1 hexit)
  obtain ⟨reason, heq⟩ := htrack
  rw [heq, ShadowTracker.trackExit]
  split
  · exact .refl
  · rename_i key vp hmatch
    refine ShadowTracker.elsewhere_closePosition.frees ?_
    simp [Desk.held, (ShadowTracker.match?_eq_some hmatch).1]

/-- What a spot exit closes is there. -/
theorem SpotShadowTracker.lookup_of_match? {t : SpotShadowTracker} {key : String}
    {vp : VirtualSpotPosition} (h : t.match? sig = some (key, vp)) :
    t.positions.lookup key = some vp := by
  simp only [match?] at h
  split at h
  · cases h
    assumption
  · exact (Table.findValue_eq_some h).2

theorem frees_spotShadow (h : sig.isExit = true ∨ sig.symbol = "") :
    d.Frees { d with spotShadow := d.spotShadow.track now sig } := by
  unfold SpotShadowTracker.track
  split
  · exact .refl
  · rename_i hskip
    have hexit : sig.isExit = true := h.resolve_right fun hsymbol => hskip (.inr hsymbol)
    have htaken : ∀ {key : String} {vp : VirtualSpotPosition},
        d.spotShadow.match? sig = some (key, vp) → d.held (.spotShadow key) ≠ none := by
      intro key vp hmatch
      simp [Desk.held, SpotShadowTracker.lookup_of_match? hmatch]
    rcases WebhookSignal.isExit_iff.1 hexit with htype | htype <;> rw [htype]
    · simp only [SpotShadowTracker.trackTp]
      split
      · exact .refl
      · split
        · exact .refl
        · rename_i key vp hmatch
          refine Desk.Elsewhere.frees (Desk.elsewhere_spotShadow fun k hk => ?_) (htaken hmatch)
          split_ifs
          · exact AList.lookup_erase_ne hk
          · simp only [SpotShadowTracker.partialClose]
            split_ifs
            · exact AList.lookup_erase_ne hk
            · exact Table.lookup_modify_ne hk
    · simp only [SpotShadowTracker.trackSl]
      split
      · exact .refl
      · split
        · exact .refl
        · rename_i key vp hmatch
          exact Desk.Elsewhere.frees (Desk.elsewhere_spotShadow fun k hk =>
            AList.lookup_erase_ne hk) (htaken hmatch)

theorem frees_account {j : SpotJob} (hsig : j.sig = sig) (hexit : sig.isExit = true) :
    d.Frees { d with spot := j.account d } := by
  have hsale : ∀ acc : SpotAccount → SpotAccount,
      acc = SpotAccount.handleTp sig ∨ acc = SpotAccount.handleSl sig →
      d.Frees { d with spot := acc d.spot } := by
    intro acc hacc
    have hchange : acc d.spot = d.spot ∨ _ := elsewhere_sale hacc
    rcases hchange with hsame | ⟨key, pos, hlookup, -, helse⟩
    · exact Desk.frees_of_eq fun pl => by cases pl <;> simp only [Desk.held, hsame]
    · exact helse.frees (by simp [Desk.held, hlookup])
  rw [SpotJob.account, hsig]
  rcases WebhookSignal.isExit_iff.1 hexit with htype | htype <;> rw [htype]
  · exact hsale _ (.inl rfl)
  · exact hsale _ (.inr rfl)

theorem frees_close {cfg : EngineConfig} {c : Closing} {j j' : CloseJob} {s' : Shared}
    (hstep : j.step cfg c d.engine = some (j', s')) : d.Frees { d with engine := s' } := by
  intro pl hnone
  cases pl with
  | futures key =>
      simp only [Desk.held, Option.map_eq_none_iff] at hnone ⊢
      by_contra hsome
      obtain ⟨p', hp'⟩ := Option.ne_none_iff_exists'.1 hsome
      obtain ⟨p, hp, -⟩ := CloseJob.part_of_step hstep key p' hp'
      rw [hnone] at hp
      cases hp
  | _ => exact hnone

end Exits

/-! ## The worker -/

/-- **Where a worker may be with an exit**, or with a signal without a
symbol. -/
inductive Exiting (sig : WebhookSignal) : Worker → Prop
  | idle : Exiting sig .idle
  | stamp {q : Queued} (hsig : q.sig = sig) : Exiting sig (.stamp q)
  | shadow {q : Queued} (hsig : q.sig = sig) (now : ℕ) : Exiting sig (.shadow q now)
  | spotShadow {q : Queued} (hsig : q.sig = sig) (now : ℕ) : Exiting sig (.spotShadow q now)
  | check {q : Queued} (hsig : q.sig = sig) (now : ℕ) : Exiting sig (.check q now)
  | tp (ticket : ℕ) (j : CloseJob) : Exiting sig (.futures ticket (.tp j))
  | sl (ticket : ℕ) (j : CloseJob) : Exiting sig (.futures ticket (.sl j))
  | spot (ticket : ℕ) {j : SpotJob} (hsig : j.sig = sig) (hexit : sig.isExit = true) :
      Exiting sig (.spot ticket j)

namespace Exiting

variable {cfg : DeskConfig} {sig : WebhookSignal} {d d' : Desk} {w w' : Worker}

theorem of_routed {q : Queued} (h : q.sig.isExit = true ∨ q.sig.symbol = "")
    (hw : Worker.Routed q w) : Exiting q.sig w := by
  have hexit : q.sig.isValid = true → q.sig.isExit = true := fun hvalid =>
    h.resolve_right (WebhookSignal.symbol_ne_of_isValid hvalid)
  cases hw with
  | idle => exact .idle
  | spot hvalid hmarket => exact .spot _ rfl (hexit hvalid)
  | entry hvalid hmarket htype =>
      have hno := hexit hvalid
      rcases htype with htype | htype <;> simp [WebhookSignal.isExit, htype] at hno
  | tp => exact .tp _ _
  | sl => exact .sl _ _

/-- An exit asks for closes only. -/
theorem closes (hw : Exiting sig w) : ∀ req ∈ w.asks cfg, req.opens = false := by
  intro req hreq
  cases hw with
  | tp ticket j | sl ticket j =>
      simp only [Worker.asks] at hreq
      split at hreq
      · cases hreq
        rfl
      · cases hreq
  | _ => cases hreq

/-- **One step of handling an exit** takes no free place. -/
theorem step (h : sig.isExit = true ∨ sig.symbol = "") (hw : Exiting sig w)
    (hstep : w.handle cfg d = some (w', d')) : Exiting sig w' ∧ d.Frees d' := by
  obtain ⟨hidle, hmove⟩ := Worker.move_of_handle hstep
  cases hw with
  | idle => exact (hidle rfl).elim
  | stamp hsig =>
      cases hmove
      exact ⟨.shadow hsig d.now, .refl⟩
  | shadow hsig now =>
      cases hmove
      rw [hsig]
      exact ⟨.spotShadow hsig now, frees_shadow cfg.learner h⟩
  | spotShadow hsig now =>
      cases hmove
      rw [hsig]
      exact ⟨.check hsig now, frees_spotShadow h⟩
  | check hsig now =>
      subst hsig
      cases hmove with
      | stale => exact ⟨.idle, .refl⟩
      | duplicate => exact ⟨.idle, Desk.frees_of_eq fun pl => by cases pl <;> rfl⟩
      | pass =>
          exact ⟨of_routed h (Worker.routed_route cfg _),
            Desk.frees_of_eq fun pl => by cases pl <;> rfl⟩
  | tp ticket j | sl ticket j =>
      cases hmove with
      | leave => exact ⟨.idle, .refl⟩
      | futures _ _ hjob =>
          obtain ⟨j', rfl, hclose⟩ := Job.of_step_map hjob
          exact ⟨by constructor, frees_close hclose⟩
  | spot ticket hsig hexit =>
      cases hmove with
      | leaveSpot => exact ⟨.idle, .refl⟩
      | spot _ hjob =>
          cases SpotJob.move_of_step hjob with
          | quiet hsig' htaken =>
              exact ⟨.spot ticket (hsig'.trans hsig) hexit,
                Desk.frees_of_eq fun pl => by cases pl <;> rfl⟩
          | account hpc => exact ⟨.spot ticket hsig hexit, frees_account hsig hexit⟩

/-- **Processing an exit opens nothing.** -/
theorem processSignal (h : sig.isExit = true ∨ sig.symbol = "") {q : Queued} (hsig : q.sig = sig)
    (n : ℕ) : OpensNothing cfg d (Worker.processSignal cfg n q d) := by
  have hrun : Exiting sig (Worker.processSignal cfg n q d).1 ∧
      d.Frees (Worker.processSignal cfg n q d).2 := by
    refine Threads.alone_invariant (I := fun w d' => Exiting sig w ∧ d.Frees d')
      (fun w d' w' d'' hI hnext => ?_) ⟨.stamp hsig, .refl⟩ n
    obtain ⟨hw, hfrees⟩ := step h hI.1 hnext
    exact ⟨hw, hI.2.trans hfrees⟩
  exact ⟨hrun.2, hrun.1.closes⟩

end Exiting

/-! ## The two formats -/

namespace WebhookSignal

theorem isExit_classify {raw : WebhookSignal} (hraw : raw.tradeSide = "")
    (h : (classify raw).getTradeSide = .close) : (classify raw).isExit = true := by
  unfold classify at h ⊢
  dsimp only at h ⊢
  split_ifs at h ⊢ <;> first | rfl | simp_all [getTradeSide]

/-- A signal in the generic format is an entry. -/
theorem exists_of_parseGeneric {j : Json} {sig₀ : WebhookSignal} :
    ∀ r, parseGeneric j sig₀ = .ok r →
      ∃ sig, r = some sig ∧ sig.sigType = .entry ∧ sig.marketType = sig₀.marketType := by
  unfold parseGeneric
  iterate 12 refine Json.forall_ok_bind fun _ => ?_
  intro r h
  cases h
  exact ⟨_, rfl, rfl, rfl⟩

/-- **A parsed signal that is to close** is an exit, or a generic entry of
the futures market. -/
theorem of_fromJson_close {parse : Text → Option Json} {now : ℕ} {body : Text}
    {sig : WebhookSignal} (h : fromJson parse now body = .ok (some sig))
    (hclose : sig.getTradeSide = .close) :
    sig.isExit = true ∨ sig.sigType = .entry ∧ sig.marketType = "futures" := by
  unfold fromJson at h
  split at h
  · split_ifs at h
    · obtain ⟨raw, heq, hraw, -⟩ := exists_of_parseSfx _ h
      cases heq
      exact .inl (isExit_classify hraw hclose)
    · obtain ⟨sig', heq, hgeneric⟩ := exists_of_parseGeneric _ h
      cases heq
      exact .inr hgeneric
  · cases h

end WebhookSignal

/-! ## The signals that open something -/

namespace GenericClose

/-- **A generic signal to close opens a shadow position**, before the
handler of an entry is even reached. -/
theorem not_opensNothing {cfg : DeskConfig} {sig : WebhookSignal} {q : Queued}
    (htype : sig.sigType = .entry) (hmarket : sig.marketType = "futures")
    (hsymbol : sig.symbol ≠ "")
    (hsig : q.sig = sig) :
    ¬ OpensNothing cfg Undirected.blank (Worker.processSignal cfg 2 q Undirected.blank) := by
  intro hnothing
  have hskip : ¬ (sig.marketType = "spot" ∨ sig.symbol = "") := by
    rw [not_or]
    exact ⟨hmarket ▸ by decide, hsymbol⟩
  have hfree : Undirected.blank.held
      (.shadow (ShadowTracker.opened Undirected.blank.engine.clock.system sig).key) = none := rfl
  have hheld := hnothing.books _ hfree
  rw [Undirected.processSignal_two, hsig, ShadowTracker.track, if_neg hskip, htype] at hheld
  simp only [Desk.held, Option.map_eq_none_iff] at hheld
  rw [ShadowTracker.trackEntry, if_neg (by simp [Undirected.blank])] at hheld
  rw [ShadowTracker.enter, AList.lookup_insert] at hheld
  cases hheld

end GenericClose

/-- **When a signal to close opens nothing.** For every signal that is read
from a body, in either format: on every desk, just where it was read as
an exit, or has no symbol. -/
theorem opensNothing_iff {cfg : DeskConfig} {parse : Text → Option Json} {now : ℕ} {body : Text}
    {sig : WebhookSignal} (hparse : WebhookSignal.fromJson parse now body = .ok (some sig))
    (hclose : sig.getTradeSide = .close) :
    (∀ (q : Queued) (d : Desk) (n : ℕ), q.sig = sig →
      OpensNothing cfg d (Worker.processSignal cfg n q d)) ↔
        sig.isExit = true ∨ sig.symbol = "" := by
  constructor
  · intro hall
    by_contra hneither
    obtain ⟨hexit, hsymbol⟩ := not_or.1 hneither
    have hgeneric := (WebhookSignal.of_fromJson_close hparse hclose).resolve_left hexit
    obtain ⟨htype, hmarket⟩ := hgeneric
    exact GenericClose.not_opensNothing htype hmarket hsymbol rfl (hall ⟨0, sig, {}⟩ _ 2 rfl)
  · exact fun h q d n hsig => Exiting.processSignal h hsig n

/-! ### A sell order to close -/

namespace GenericClose

/-- The generic signal to close a hundredth of a bitcoin. -/
def closeBitcoin : Json :=
  .obj [("action", .str "sell"), ("symbol", .str "BTCUSDT"), ("trade_side", .str "close"),
    ("price", .int 105), ("qty", .float (1 / 100))]

/-- What a body that holds a value is read as. -/
def readAs (j : Json) : WebhookSignal :=
  (((WebhookSignal.fromJson (fun _ => some j) 0 []).toOption).bind id).getD {}

/-- A desk whose tracker has a long position on bitcoin. -/
def longDesk : Desk :=
  { Undirected.blank with
    shadow := ShadowTracker.enter 0 { readAs closeBitcoin with action := "buy" } {} }

end GenericClose

theorem opensNothing_iff_stopLoss :
    (∀ (q : Queued) (d : Desk) (n : ℕ),
      q.sig = GenericClose.readAs (Undirected.stopLoss "bull") →
        OpensNothing {} d (Worker.processSignal {} n q d)) ↔
      (GenericClose.readAs (Undirected.stopLoss "bull")).isExit = true ∨
        (GenericClose.readAs (Undirected.stopLoss "bull")).symbol = "" := by
  have hparse : WebhookSignal.fromJson (fun _ => some (Undirected.stopLoss "bull")) 0 [] =
      .ok (some (GenericClose.readAs (Undirected.stopLoss "bull"))) := rfl
  exact opensNothing_iff hparse (by decide +kernel)

/-- **A sell order to close a long position opens a short one**, on paper
and in the tracker. -/
theorem close_opens_short :
    WebhookSignal.fromJson (fun _ => some GenericClose.closeBitcoin) 0 [] =
        .ok (some (GenericClose.readAs GenericClose.closeBitcoin)) ∧
      (GenericClose.readAs GenericClose.closeBitcoin).getTradeSide = .close ∧
      (Worker.processSignal {} 18 ⟨0, GenericClose.readAs GenericClose.closeBitcoin, {}⟩
        GenericClose.longDesk).2.held (.futures (.entry "BTCUSDT" "unknown" 0)) =
          some ("short", 2 / 7) ∧
      (Worker.processSignal {} 18 ⟨0, GenericClose.readAs GenericClose.closeBitcoin, {}⟩
        GenericClose.longDesk).2.held (.shadow "BTCUSDT:0:short") = some ("short", 1) ∧
      ¬ OpensNothing {} GenericClose.longDesk
        (Worker.processSignal {} 18 ⟨0, GenericClose.readAs GenericClose.closeBitcoin, {}⟩
          GenericClose.longDesk) := by
  have hafter : (Worker.processSignal {} 18 ⟨0, GenericClose.readAs GenericClose.closeBitcoin, {}⟩
      GenericClose.longDesk).2.held (.futures (.entry "BTCUSDT" "unknown" 0)) =
        some ("short", 2 / 7) := by
    decide +kernel
  refine ⟨rfl, by decide +kernel, hafter, by decide +kernel, fun hnothing => ?_⟩
  have hbefore : GenericClose.longDesk.held (.futures (.entry "BTCUSDT" "unknown" 0)) = none := rfl
  have hnone := hnothing.books _ hbefore
  rw [hafter] at hnone
  cases hnone

end WebhookTrader
