import WebhookTrader.Engine.Model.Machine

/-!
# What a step can do

One inversion per machine: the effects a handler's step can have on what
is shared, and where it leads. The results on runs split on these and do
not unfold the machines.
-/

namespace WebhookTrader

/-! ## Entries -/

namespace EntryPc

/-- The run holds its symbol's lock. -/
def holds : EntryPc → Bool
  | lock => false
  | finished => false
  | _ => true

/-- The run is admitted, and has neither registered its position nor given
up. -/
def reserves : EntryPc → Bool
  | takeOid => true
  | validateBreaker => true
  | validateOrders => true
  | validateSymbol => true
  | dispatchShadow => true
  | dispatchActive => true
  | registerPaper => true
  | placed _ => true
  | request _ _ => true
  | orderDone _ _ => true
  | opened => true
  | registerReal => true
  | _ => false

/-- The run has its order number, and may still register under it. -/
def numbered (pc : EntryPc) : Bool := pc.reserves && pc != takeOid

/-- The run's order is counted as open. -/
def inFlight : EntryPc → Bool
  | request _ _ => true
  | orderDone _ _ => true
  | _ => false

theorem holds_of_reserves {pc : EntryPc} (h : pc.reserves = true) : pc.holds = true := by
  cases pc <;> simp_all [reserves, holds]

theorem holds_of_inFlight {pc : EntryPc} (h : pc.inFlight = true) : pc.holds = true := by
  cases pc <;> simp_all [inFlight, holds]

end EntryPc

namespace EntryJob

/-- **The effects of an entry's step.** -/
inductive Move (cfg : EngineConfig) (j : EntryJob) (s : Shared) : EntryJob → Shared → Prop
  /-- Waiting for the lock ends without it. -/
  | giveUp (hpc : j.pc = .lock) : Move cfg j s (j.goto .finished) s
  | acquire (pc : EntryPc) (hpc : j.pc = .lock) (hfree : j.sig.symbol ∉ s.locked)
      (hholds : pc.holds = true) (hreserves : pc.reserves = false) :
      Move cfg j s (j.goto pc) { s with locked := j.sig.symbol :: s.locked }
  /-- A step that leaves the book, the locks and the portfolio manager
  alone. -/
  | quiet (j' : EntryJob) (risk : RiskManager) (nextOid : ℕ) (venue : Venue)
      (hsig : j'.sig = j.sig) (hholds : j.pc.holds = true) (hholds' : j'.pc.holds = true)
      (hreserves : j'.pc.reserves = true → j.pc.reserves = true) :
      Move cfg j s j' { s with risk, nextOid, venue }
  | reject (hpc : j.pc = .checkEntry) :
      Move cfg j s (j.goto .unlock) { s with portRisk := (j.check cfg s).2 }
  | allow (hpc : j.pc = .checkEntry) (hfree : j.conflicts s.positions = false)
      (hallowed : (j.check cfg s).1.allowed = true) :
      Move cfg j s { j with pc := .takeOid, admitted := some s.modes.riskShadowMode }
        { s with portRisk := (j.check cfg s).2 }
  | register (isReal : Bool) (hpc : j.pc = if isReal then .registerReal else .registerPaper) :
      Move cfg j s (j.goto .unlock) (j.register isReal s)
  | release (hpc : j.pc = .unlock) :
      Move cfg j s (j.goto .finished) { s with locked := s.locked.erase j.sig.symbol }

variable {cfg : EngineConfig} {j j' : EntryJob} {s s' : Shared}

theorem afterOrder_holds {again : Bool} {resp : OrderResponse} :
    (afterOrder again resp).holds = true := by
  unfold afterOrder
  split_ifs <;> rfl

theorem afterAttempt_holds {again second : Bool} {answer : Option Json} :
    (afterAttempt again second answer).holds = true := by
  cases answer
  · cases second <;> rfl
  · rfl

theorem afterAttempt_inFlight {again second : Bool} {answer : Option Json} :
    (afterAttempt again second answer).inFlight = true := by
  cases answer
  · cases second <;> rfl
  · rfl

theorem afterOrder_not_inFlight {again : Bool} {resp : OrderResponse} :
    (afterOrder again resp).inFlight = false := by
  unfold afterOrder
  split_ifs <;> rfl

theorem afterOrder_ne_registerReal {again : Bool} {resp : OrderResponse} :
    afterOrder again resp ≠ .registerReal := by
  unfold afterOrder
  split_ifs <;> exact nofun

/-- A step that only moves on, from a place where the lock is held. -/
theorem Move.of_goto {p pc : EntryPc} (h : some (j.goto pc, s) = some (j', s')) (hpc : j.pc = p)
    (hholds : p.holds = true) (hholds' : pc.holds = true)
    (hreserves : pc.reserves = true → p.reserves = true) : Move cfg j s j' s' := by
  cases h
  subst hpc
  exact .quiet (j.goto pc) s.risk s.nextOid s.venue rfl hholds hholds' hreserves

/-- **Every step of an entry is one of these.** -/
theorem move_of_step (h : j.step cfg s = some (j', s')) : Move cfg j s j' s' := by
  cases hpc : j.pc <;> simp only [step, hpc] at h
  case lock =>
    split_ifs at h with hlocked htimeout
    · cases h
      exact .giveUp hpc
    all_goals
      cases h
      exact .acquire _ hpc (by simpa using hlocked) rfl rfl
  case readActive | tp1Shadow =>
    exact .of_goto h hpc rfl (by split_ifs <;> rfl) (by split_ifs <;> exact id)
  case readEligible =>
    cases h
    exact .quiet _ s.risk s.nextOid s.venue rfl (by rw [hpc]; rfl) rfl (by simp [EntryPc.reserves])
  case tierGate | tfGate | tp1Active | feeGate =>
    split_ifs at h <;> exact .of_goto h hpc rfl rfl id
  case sizing =>
    -- no size, or a size the run keeps
    split at h
    · exact .of_goto h hpc rfl rfl id
    · cases h
      exact .quiet _ s.risk s.nextOid s.venue rfl (by rw [hpc]; rfl) rfl (by rw [hpc]; exact id)
  case checkEntry =>
    split_ifs at h with hconflict hallowed
    · exact .of_goto h hpc rfl rfl id
    · cases h
      exact .allow hpc (by simpa using hconflict) hallowed
    · cases h
      exact .reject hpc
  case takeOid =>
    cases h
    exact .quiet _ s.risk (s.nextOid + 1) s.venue rfl (by rw [hpc]; rfl) rfl (by rw [hpc]; exact id)
  case validateBreaker | validateOrders | validateSymbol | dispatchShadow | dispatchActive =>
    exact .of_goto h hpc rfl (by split_ifs <;> rfl) fun _ => rfl
  case registerPaper =>
    cases h
    exact .register false hpc
  case placed again =>
    cases h
    exact .quiet _ _ s.nextOid s.venue rfl (by rw [hpc]; rfl) rfl (by rw [hpc]; exact id)
  case request again second =>
    cases h
    exact .quiet _ s.risk s.nextOid _ rfl (by rw [hpc]; rfl) afterAttempt_holds
      fun _ => by rw [hpc]; rfl
  case orderDone again resp =>
    cases h
    exact .quiet _ _ s.nextOid s.venue rfl (by rw [hpc]; rfl) afterOrder_holds
      fun _ => by rw [hpc]; rfl
  case opened =>
    cases h
    exact .quiet _ _ s.nextOid s.venue rfl (by rw [hpc]; rfl) rfl fun _ => by rw [hpc]; rfl
  case registerReal =>
    cases h
    exact .register true hpc
  case unlock =>
    cases h
    exact .release hpc
  case finished => cases h

/-- **What an entry's step does to the counters**: the order numbers, the
open orders, and the positions the order-level manager counts. -/
inductive Counts (j : EntryJob) (s : Shared) (j' : EntryJob) (s' : Shared) : Prop
  | number (hpc : j.pc = .takeOid) (hpc' : j'.pc = .validateBreaker) (hoid : j'.oid = s.nextOid)
      (hnext : s'.nextOid = s.nextOid + 1) (hrisk : s'.risk = s.risk)
  | place (again : Bool) (hpc : j.pc = .placed again) (hpc' : j'.pc = .request again false)
      (hoid : j'.oid = j.oid) (hnext : s'.nextOid = s.nextOid)
      (hrisk : s'.risk = s.risk.onOrderPlaced)
  | finish (again : Bool) (resp : OrderResponse) (hpc : j.pc = .orderDone again resp)
      (hpc' : j'.pc = afterOrder again resp) (hoid : j'.oid = j.oid)
      (hnext : s'.nextOid = s.nextOid) (hrisk : s'.risk = s.risk.onOrderDone)
  | count (hpc : j.pc = .opened) (hpc' : j'.pc = .registerReal) (hoid : j'.oid = j.oid)
      (hnext : s'.nextOid = s.nextOid)
      (hrisk : s'.risk = s.risk.onPositionOpened j.sig.symbol j.size j.side)
  /-- Any other step counts nothing. -/
  | still (hoid : j'.oid = j.oid) (hnext : s'.nextOid = s.nextOid) (hrisk : s'.risk = s.risk)
      (hnumbered : j'.pc.numbered = true → j.pc.numbered = true)
      (hflight : j'.pc.inFlight = j.pc.inFlight) (hreal : j'.pc ≠ .registerReal)

/-- A step that only moves on, between places where nothing is counted. -/
theorem Counts.of_goto {p pc : EntryPc} {s₁ s₂ : Shared}
    (h : some (j.goto pc, s₁) = some (j', s₂)) (hpc : j.pc = p)
    (hnext : s₁.nextOid = s.nextOid) (hrisk : s₁.risk = s.risk)
    (hnumbered : pc.numbered = true → p.numbered = true) (hflight : pc.inFlight = p.inFlight)
    (hreal : pc ≠ .registerReal) : Counts j s j' s₂ := by
  cases h
  subst hpc
  exact .still rfl hnext hrisk hnumbered hflight hreal

theorem counts_of_step (h : j.step cfg s = some (j', s')) : Counts j s j' s' := by
  have hnone : ∀ {pc p : EntryPc}, pc.numbered = false → pc.numbered = true → p.numbered = true :=
    fun hfalse htrue => absurd (hfalse.symm.trans htrue) Bool.false_ne_true
  cases hpc : j.pc <;> simp only [step, hpc] at h
  case lock =>
    split_ifs at h <;> exact .of_goto h hpc rfl rfl (hnone rfl) rfl nofun
  case readActive | tierGate | tfGate | tp1Shadow | tp1Active | feeGate =>
    split_ifs at h <;> exact .of_goto h hpc rfl rfl (hnone rfl) rfl nofun
  case validateBreaker | validateOrders | validateSymbol | dispatchShadow | dispatchActive =>
    split_ifs at h <;> exact .of_goto h hpc rfl rfl (fun _ => rfl) rfl nofun
  case registerPaper | registerReal | unlock => exact .of_goto h hpc rfl rfl (hnone rfl) rfl nofun
  case readEligible =>
    cases h
    exact .still rfl rfl rfl (hnone rfl) (by rw [hpc]; rfl) nofun
  case sizing =>
    split at h
    · exact .of_goto h hpc rfl rfl (hnone rfl) rfl nofun
    · cases h
      exact .still rfl rfl rfl (hnone rfl) (by rw [hpc]; rfl) nofun
  case checkEntry =>
    split_ifs at h
    · exact .of_goto h hpc rfl rfl (hnone rfl) rfl nofun
    · cases h
      exact .still rfl rfl rfl (hnone rfl) (by rw [hpc]; rfl) nofun
    · exact .of_goto h hpc rfl rfl (hnone rfl) rfl nofun
  case takeOid =>
    cases h
    exact .number hpc rfl rfl rfl rfl
  case placed again =>
    cases h
    exact .place again hpc rfl rfl rfl rfl
  case request again second =>
    cases h
    refine .still rfl rfl rfl (fun _ => by rw [hpc]; rfl) ?_ ?_
    · rw [hpc]
      exact afterAttempt_inFlight
    · exact fun heq => absurd (congrArg EntryPc.inFlight heq)
        (by rw [afterAttempt_inFlight]; exact nofun)
  case orderDone again resp =>
    cases h
    exact .finish again resp hpc rfl rfl rfl rfl
  case opened =>
    cases h
    exact .count hpc rfl rfl rfl rfl
  case finished => cases h

/-- No step changes the signal. -/
theorem sig_of_step (h : j.step cfg s = some (j', s')) : j'.sig = j.sig := by
  cases move_of_step h with
  | quiet _ _ _ _ hsig => exact hsig
  | _ => rfl

/-- The symbol of an entry that goes on is on neither side of the book. -/
theorem tag_ne_of_conflicts {book : Book} (h : j.conflicts book = false)
    {e : Sigma fun _ : PositionKey => ManagedPosition} (he : e ∈ book.entries) (side : HoldSide) :
    e.2.tag ≠ (j.sig.symbol, side.text) := by
  intro htag
  obtain ⟨hsymbol, hside⟩ := Prod.mk.inj htag
  have hnone := List.any_eq_false.1 h e he
  cases side <;> simp [hsymbol, hside, HoldSide.text] at hnone

/-- The side a run's position is on. -/
def holdSide (j : EntryJob) : HoldSide := .ofOpen j.sig.getSide

theorem side_eq : j.side = j.holdSide.text := by
  unfold side holdSide WebhookSignal.getSide
  split <;> rfl

theorem tag_position {now : Clock} {isReal : Bool} :
    (j.position now isReal).tag = (j.sig.symbol, j.holdSide.text) := Prod.ext rfl side_eq

/-- The order with the run's id. -/
theorem isDuplicate_order (cfg : EngineConfig) {v : Venue} :
    v.isDuplicate (j.order cfg) = true ↔ j.oid ∈ v.clientOids := by
  simp [Venue.isDuplicate, order, placeFuturesOrder, orderRequest, WebhookSignal.toOrderRequest]

/-- **Under a new id** the exchange executes it, whatever it says to a
repeated one. -/
theorem handle_order_of_new {v : Venue} (h : j.oid ∉ v.clientOids) (code : String) :
    v.handle code (.order (j.order cfg)) = (Venue.accepted, v.execute (j.order cfg)) :=
  Venue.handle_order_new code (by simpa using mt (isDuplicate_order cfg).1 h)

theorem clientOids_execute_order {v : Venue} :
    (v.execute (j.order cfg)).clientOids = j.oid :: v.clientOids := Venue.clientOids_execute

end EntryJob

/-! ## Closes -/

/-- What the limits and the look-ups see of a position. -/
def ManagedPosition.shape (p : ManagedPosition) : String × String × String :=
  (p.symbol, p.timeframe, p.side)

/-- **A close of positions**: the book has lost some or some of their
quantity, a trade may be recorded, and nothing else happens. -/
structure Shared.Closes (s s' : Shared) : Prop where
  positions : s'.positions.Within ManagedPosition.shape s.positions
  modes : s'.modes = s.modes
  periodic : s'.periodic = s.periodic
  portRisk : s'.portRisk = s.portRisk
  risk : s'.risk = s.risk
  locked : s'.locked = s.locked
  nextOid : s'.nextOid = s.nextOid
  clock : s'.clock = s.clock
  venue : s'.venue = s.venue

theorem Shared.Closes.refl {s : Shared} : s.Closes s :=
  ⟨.refl, rfl, rfl, rfl, rfl, rfl, rfl, rfl, rfl⟩

/-- A trade is recorded and the book shrinks. -/
theorem Shared.Closes.record {s : Shared} {t : TradeRecord} {positions : Book}
    (h : positions.Within ManagedPosition.shape s.positions) :
    s.Closes { s.recordTrade t with positions } :=
  ⟨h, rfl, rfl, rfl, rfl, rfl, rfl, rfl, rfl⟩

theorem Book.reduceQuantity_within {book : Book} {key : PositionKey} {amount : ℚ} :
    (book.reduceQuantity key amount).Within ManagedPosition.shape book := by
  unfold Book.reduceQuantity
  split
  · exact .refl
  · split_ifs
    · exact .erase
    · exact .modify fun _ => rfl

theorem Book.lookup_reduceQuantity_ne {book : Book} {key k : PositionKey} {amount : ℚ}
    (hne : key ≠ k) : (book.reduceQuantity k amount).lookup key = book.lookup key := by
  unfold reduceQuantity
  split
  · rfl
  · split_ifs
    · exact AList.lookup_erase_ne hne
    · exact Table.lookup_modify_ne hne

namespace ClosePc

/-- The run holds its symbol's lock. -/
def holds : ClosePc → Bool
  | lock => false
  | finished => false
  | _ => true

end ClosePc

namespace CloseJob

/-- **The effects of a closing handler's step.** -/
inductive Move (c : Closing) (j : CloseJob) (s : Shared) : CloseJob → Shared → Prop
  /-- Waiting for the lock ends without it. -/
  | giveUp (hpc : j.pc = .lock) : Move c j s (j.goto .finished) s
  | acquire (hpc : j.pc = .lock) (hfree : j.sig.symbol ∉ s.locked) :
      Move c j s (j.goto .find) { s with locked := j.sig.symbol :: s.locked }
  /-- A step that touches the exchange at most. -/
  | quiet (j' : CloseJob) (venue : Venue) (hsig : j'.sig = j.sig) (hholds : j.pc.holds = true)
      (hholds' : j'.pc.holds = true) : Move c j s j' { s with venue }
  | settle (hholds : j.pc.holds = true) : Move c j s (j.goto .unlock) (j.settle c s)
  | release (hpc : j.pc = .unlock) :
      Move c j s (j.goto .finished) { s with locked := s.locked.erase j.sig.symbol }

variable {cfg : EngineConfig} {c : Closing} {j j' : CloseJob} {s s' : Shared}

theorem nextRound_holds {round : ℕ} : (nextRound round).holds = true := by
  unfold nextRound
  split_ifs <;> rfl

theorem afterAttempt_holds {round : ℕ} {second : Bool} {answer : Option Json} :
    (afterAttempt c round second answer).holds = true := by
  cases answer <;> simp only [afterAttempt] <;> split_ifs <;> first | rfl | exact nextRound_holds

/-- **Every step of a closing handler is one of these.** -/
theorem move_of_step (h : j.step cfg c s = some (j', s')) : Move c j s j' s' := by
  cases hpc : j.pc <;> simp only [step, hpc] at h
  case lock =>
    split_ifs at h with hlocked htimeout
    · cases h
      exact .giveUp hpc
    · cases h
      exact .acquire hpc (by simpa using hlocked)
  case find =>
    split at h <;> cases h <;> exact .quiet _ s.venue rfl (by rw [hpc]; rfl) rfl
  case isReal =>
    cases h
    exact .quiet _ s.venue rfl (by rw [hpc]; rfl) (by unfold goto; split_ifs <;> rfl)
  case paper | settle =>
    cases h
    exact .settle (by rw [hpc]; rfl)
  case request round second =>
    cases h
    exact .quiet _ _ rfl (by rw [hpc]; rfl) afterAttempt_holds
  case unlock =>
    cases h
    exact .release hpc
  case finished => cases h

/-- Unlocking ends a run. -/
theorem ends_of_unlock {P : CloseJob → Shared → Prop} (hpc : j.pc = .unlock)
    (hP : P (j.goto .finished) { s with locked := s.locked.erase j.sig.symbol }) :
    Threads.Ends (step cfg c) P j s := by
  have hstep : step cfg c j s =
      some (j.goto .finished, { s with locked := s.locked.erase j.sig.symbol }) := by
    simp only [step, hpc]
  exact .step hstep (.done rfl hP)

/-- The order a take-profit sends again and again. -/
def partialClose (cfg : EngineConfig) (j : CloseJob) : OrderBody :=
  closePartial cfg.contracts j.sig.symbol j.closeQty j.holdSide

/-- The exchange executes it whenever it arrives. -/
theorem attempt_partialClose (cfg : EngineConfig) (j : CloseJob) (a : Attempt) (v : Venue)
    (code : String) :
    v.attempt code a (.order (j.partialClose cfg)) =
      match a with
      | .lost => (none, v)
      | .unanswered => (none, v.execute (j.partialClose cfg))
      | .delivered => (some Venue.accepted, v.execute (j.partialClose cfg))
      | .refused code => (some (Venue.refusal code), v) := by
  have hnew : v.isDuplicate (j.partialClose cfg) = false := rfl
  cases a <;> simp only [Venue.attempt, Venue.handle_order_new code hnew]

theorem settle_closes : s.Closes (j.settle c s) := by
  unfold settle
  split
  · exact .refl
  · refine .record ?_
    split
    · exact Book.reduceQuantity_within
    · exact .erase

end CloseJob

namespace CloseAllJob

/-- **The effects of a step of `close_all_positions`.** -/
inductive Move (j : CloseAllJob) (s : Shared) : CloseAllJob → Shared → Prop
  | quiet (j' : CloseAllJob) (venue : Venue) : Move j s j' { s with venue }
  | settle (pc : CloseAllPc) (tag : String × String) : Move j s (j.goto pc) (settle tag s)

variable {cfg : EngineConfig} {j j' : CloseAllJob} {s s' : Shared} {tag : String × String}

theorem move_of_step (h : j.step cfg s = some (j', s')) : Move j s j' s' := by
  unfold step at h
  split at h <;> cases h
  case h_5 => exact .settle _ _
  all_goals exact .quiet _ _

theorem settle_closes : s.Closes (settle tag s) := by
  unfold settle
  split
  · exact .refl
  · exact .record .erase

end CloseAllJob

/-! ## Messages from the exchange -/

namespace Shared

variable {s : Shared} {upd : WsPositionUpdate}

theorem onWsPosition_closes : s.Closes (s.onWsPosition upd) := by
  unfold onWsPosition
  split
  · exact .refl
  · split
    · exact .refl
    · exact .record .erase

/-- An account message sets the balance and tells the portfolio manager, or
does nothing. -/
theorem onWsAccount_eq (s : Shared) (acc : AccountUpdate) :
    s.onWsAccount acc = s ∨ ∃ balance peakBalance, s.onWsAccount acc =
      { s with balance, peakBalance, portRisk := s.portRisk.updateBalance balance } := by
  unfold onWsAccount
  split
  · exact .inr ⟨_, _, rfl⟩
  · exact .inl rfl

theorem fetchRealBalance_eq (s : Shared) (acc : AccountUpdate) :
    s.fetchRealBalance acc = s ∨ ∃ balance peakBalance, s.fetchRealBalance acc =
      { s with balance, peakBalance, portRisk := s.portRisk.updateBalance balance } := by
  unfold fetchRealBalance
  split
  · exact .inr ⟨_, _, rfl⟩
  · exact .inl rfl

end Shared

/-! ## The engine -/

namespace Job

/-- A property of an entry, of other handlers vacuous. -/
def ForEntry (P : EntryJob → Prop) : Job → Prop
  | entry j => P j
  | _ => True

instance {P : EntryJob → Prop} [DecidablePred P] : DecidablePred (ForEntry P)
  | entry j => inferInstanceAs (Decidable (P j))
  | tp _ => .isTrue trivial
  | sl _ => .isTrue trivial
  | closeAll _ => .isTrue trivial

/-- **A handler's step, by handler.** -/
inductive Move (cfg : EngineConfig) (s s' : Shared) : Job → Job → Prop
  | entry {j j' : EntryJob} (h : j.Move cfg s j' s') : Move cfg s s' (.entry j) (.entry j')
  | tp {j j' : CloseJob} (h : j.Move (handleTp cfg) s j' s') : Move cfg s s' (.tp j) (.tp j')
  | sl {j j' : CloseJob} (h : j.Move handleSl s j' s') : Move cfg s s' (.sl j) (.sl j')
  | closeAll {j j' : CloseAllJob} (h : j.Move s j' s') : Move cfg s s' (.closeAll j) (.closeAll j')

variable {cfg : EngineConfig} {job job' : Job} {s s' : Shared}

/-- No handler writes a mode or moves the switch. -/
theorem Move.modes (h : Move cfg s s' job job') :
    s'.modes = s.modes ∧ s'.periodic = s.periodic := by
  cases h with
  | entry h => cases h <;> exact ⟨rfl, rfl⟩
  | tp h | sl h =>
      cases h with
      | settle => exact ⟨CloseJob.settle_closes.modes, CloseJob.settle_closes.periodic⟩
      | _ => exact ⟨rfl, rfl⟩
  | closeAll h =>
      cases h with
      | settle => exact ⟨CloseAllJob.settle_closes.modes, CloseAllJob.settle_closes.periodic⟩
      | quiet => exact ⟨rfl, rfl⟩

/-- A step of a handler of one kind, seen as a step of a handler. -/
theorem of_step_map {τ : Type} {f : τ → Job} {o : Option (τ × Shared)}
    (h : (o.map fun r => (f r.1, r.2)) = some (job', s')) :
    ∃ j', job' = f j' ∧ o = some (j', s') := by
  obtain ⟨⟨j', t⟩, hstep, heq⟩ := Option.map_eq_some_iff.1 h
  obtain ⟨rfl, rfl⟩ := Prod.mk.inj heq
  exact ⟨j', rfl, hstep⟩

theorem move_of_step (h : job.step cfg s = some (job', s')) : Move cfg s s' job job' := by
  cases job with
  | entry j =>
      obtain ⟨j', rfl, hstep⟩ := of_step_map h
      exact .entry (EntryJob.move_of_step hstep)
  | tp j =>
      obtain ⟨j', rfl, hstep⟩ := of_step_map h
      exact .tp (CloseJob.move_of_step hstep)
  | sl j =>
      obtain ⟨j', rfl, hstep⟩ := of_step_map h
      exact .sl (CloseJob.move_of_step hstep)
  | closeAll j =>
      obtain ⟨j', rfl, hstep⟩ := of_step_map h
      exact .closeAll (CloseAllJob.move_of_step hstep)

/-- What an entry keeps by its own steps, a handler's step keeps. -/
theorem forEntry_of_step {P : EntryJob → Prop}
    (hstep : ∀ j shared j' shared', P j → j.step cfg shared = some (j', shared') → P j')
    (h : job.step cfg s = some (job', s')) (hP : job.ForEntry P) : job'.ForEntry P := by
  cases job with
  | entry j =>
      obtain ⟨j', rfl, hown⟩ := of_step_map h
      exact hstep j s j' s' hP hown
  | tp j | sl j | closeAll j =>
      obtain ⟨_, rfl, -⟩ := of_step_map h
      trivial

end Job

namespace Event

/-- The event belongs to the switch. -/
def switches : Event → Bool
  | check _ => true
  | switch => true
  | _ => false

/-- **The effects of an event.** -/
inductive Move (s : Shared) : Event → Shared → Prop
  | closes {s' : Shared} (e : Event) (h : s.Closes s') : Move s e s'
  | balance (e : Event) (balance peakBalance : ℚ) :
      Move s e { s with balance, peakBalance, portRisk := s.portRisk.updateBalance balance }
  | sync (quote : String × HoldSide → ℚ × ℤ) : Move s (.sync quote) (s.sync quote)
  | modes {e : Event} (he : e.switches = true) (periodic : Periodic) (modes : Modes) :
      Move s e { s with periodic, modes }
  /-- The order-level manager and the clock, of which the book knows
  nothing. -/
  | apart (e : Event) (risk : RiskManager) (clock : Clock) : Move s e { s with risk, clock }
  | holding (symbol : String) (side : HoldSide) (total : ℚ) (htotal : 0 ≤ total) :
      Move s (.holding symbol side total) { s with venue := s.venue.hold symbol side total }

variable {cfg : EngineConfig} {e : Event} {s s' : Shared}

theorem move_of_apply (h : e.apply cfg s = some s') : Move s e s' := by
  cases e <;> simp only [apply, Option.ite_none_right_eq_some, Option.some.injEq] at h
  case wsPosition upd =>
    subst h
    exact .closes _ Shared.onWsPosition_closes
  case wsAccount upd =>
    subst h
    rcases Shared.onWsAccount_eq s upd with heq | ⟨balance, peakBalance, heq⟩
    · exact heq.symm ▸ .closes _ .refl
    · exact heq.symm ▸ .balance _ balance peakBalance
  case fetchBalance upd =>
    subst h
    rcases Shared.fetchRealBalance_eq s upd with heq | ⟨balance, peakBalance, heq⟩
    · exact heq.symm ▸ .closes _ .refl
    · exact heq.symm ▸ .balance _ balance peakBalance
  case sync quote =>
    subst h
    exact .sync quote
  case check reports =>
    obtain ⟨-, rfl⟩ := h
    exact .modes rfl _ s.modes
  case switch =>
    obtain ⟨_, -, rfl⟩ := Option.map_eq_some_iff.1 h
    exact .modes rfl _ _
  case resetDaily =>
    obtain ⟨-, rfl⟩ := h
    exact .apart _ _ s.clock
  case tick =>
    subst h
    exact .apart _ s.risk _
  case holding symbol side total =>
    obtain ⟨htotal, rfl⟩ := h
    exact .holding symbol side total htotal

/-- **Only the switch's step writes a mode.** -/
theorem modes_of_apply (h : e.apply cfg s = some s') :
    s'.modes = s.modes ∨
      e = .switch ∧ s.periodic.step s.modes = some (s'.periodic, s'.modes) := by
  cases e
  case check reports =>
    simp only [apply, Option.ite_none_right_eq_some, Option.some.injEq] at h
    obtain ⟨-, rfl⟩ := h
    exact .inl rfl
  case switch =>
    obtain ⟨_, hstep, rfl⟩ := Option.map_eq_some_iff.1 h
    exact .inr ⟨rfl, hstep⟩
  all_goals
    cases move_of_apply h with
    | closes _ hcloses => exact .inl hcloses.modes
    | modes hswitches => cases hswitches
    | _ => exact .inl rfl

end Event

namespace Engine

variable {cfg : EngineConfig} {s t : Engine} {l : EngineLabel}

theorem move_of_next (h : (engineSystem cfg).next s l = some t) :
    Threads.Move Job.fresh (Job.step cfg) (Event.apply cfg) s l t :=
  Threads.move_of_next h

/-- **The rule of a run's own property.** What every entry has at its start,
and keeps by its own steps whatever it finds, every entry has. -/
theorem entry_invariant {G : Engine → EngineLabel → Prop} {P : EntryJob → Prop}
    (hstart : ∀ j, j.pc = .lock → P j)
    (hstep : ∀ j shared j' shared', P j → j.step cfg shared = some (j', shared') → P j')
    (h : (engineSystem cfg).Reachable G s) {j : EntryJob} (hj : Job.entry j ∈ s.jobs) : P j := by
  have hinv : ∀ (i : ℕ) (job : Job), s.jobs[i]? = some job → job.ForEntry P := by
    refine h.invariant (I := fun s => ∀ (i : ℕ) (job : Job), s.jobs[i]? = some job →
      job.ForEntry P) (fun s hs i job hi => ?_) fun s l t hs _ hn => ?_
    · rw [hs.1] at hi
      cases hi
    · cases move_of_next hn with
      | start job hfresh =>
          refine Threads.forall_append ?_ hs
          cases job with
          | entry j =>
              simp only [Job.fresh, Bool.and_eq_true, decide_eq_true_eq] at hfresh
              exact hstart j hfresh.1.1
          | _ => trivial
      | work i hjob hwork =>
          exact Threads.forall_set (Job.forEntry_of_step hstep hwork (hs i _ hjob))
            fun k other _ hk => hs k other hk
      | event e _ => exact hs
  obtain ⟨i, hi⟩ := List.getElem?_of_mem hj
  exact hinv i _ hi

end Engine

end WebhookTrader
