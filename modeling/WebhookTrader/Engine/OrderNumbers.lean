import WebhookTrader.Engine.Books
import WebhookTrader.Engine.Model.Life
import WebhookTrader.Engine.Ownership

/-!
# Order numbers over the program's life

An order number is a client order id at the exchange and the end of a
position's key in the book. Within a process the counter only goes up. A
new process counts on from the milliseconds of the system clock, a
thousand numbers to each, so it counts on from where the last one was
unless the clock is set back, or the last one has drawn more than a
thousand numbers a millisecond. Then no number is ever drawn twice: no
order is taken for a repetition of another one, and no position is
registered over another one.
-/

namespace WebhookTrader

/-! ## Where a number is used -/

/-- The order number a key ends in. -/
def PositionKey.number : PositionKey → Option ℕ
  | entry _ _ oid => some oid
  | ext .. => none

/-- A key of the book ends in the number. -/
def Book.Has (oid : ℕ) (book : Book) : Prop := ∃ e ∈ book.entries, oid ∈ e.1.number

/-- The run has its order number, and has not tried to send its order. -/
def EntryPc.unsent : EntryPc → Bool
  | validateBreaker | validateOrders | validateSymbol => true
  | dispatchShadow | dispatchActive | registerPaper => true
  | placed again => !again
  | request again second => !again && !second
  | _ => false

theorem EntryPc.numbered_of_unsent {pc : EntryPc} (h : pc.unsent = true) : pc.numbered = true := by
  cases pc <;> simp_all [unsent, numbered, reserves]

/-- The number the handler has not sent. -/
def Job.unsentNumber : Job → Option ℕ
  | entry j => if j.pc.unsent then some j.oid else none
  | _ => none

theorem Job.number_of_unsent {job : Job} {oid : ℕ} (h : oid ∈ job.unsentNumber) :
    oid ∈ job.number := by
  cases job with
  | entry j =>
      simp only [unsentNumber, number, Option.mem_def, Option.ite_none_right_eq_some] at h ⊢
      exact ⟨EntryPc.numbered_of_unsent h.1, h.2⟩
  | _ => cases h

/-- **A handler's number is new**: no key of the book ends in it, and as long
as it has not been sent the exchange does not know it. -/
structure Job.Unused (s : Shared) (job : Job) : Prop where
  book : ∀ oid ∈ job.number, ¬ s.positions.Has oid
  venue : ∀ oid ∈ job.unsentNumber, oid ∉ s.venue.clientOids

/-! ## What a step does to the numbers in use -/

section Venue

variable {v : Venue} {oid : ℕ}

theorem Venue.clientOids_handle (code : String) (body : OrderBody)
    (h : oid ∈ (v.handle code (.order body)).2.clientOids) :
    oid ∈ body.clientOid ∨ oid ∈ v.clientOids := by
  rw [handle] at h
  split_ifs at h
  · exact .inr h
  · rw [clientOids_execute, List.mem_append, Option.mem_toList] at h
    exact h

theorem Venue.clientOids_closePositions (code symbol holdSide : String) :
    (v.handle code (.closePositions symbol holdSide)).2.clientOids = v.clientOids := by
  rw [handle]
  split
  · rfl
  · split_ifs <;> rfl

/-- An attempt does at most what a request that arrives does. -/
theorem Venue.attempt_cases (code : String) (a : Attempt) (req : VenueRequest) :
    (v.attempt code a req).2 = v ∨ (v.attempt code a req).2 = (v.handle code req).2 := by
  cases a with
  | lost | refused => exact .inl rfl
  | unanswered | delivered => exact .inr rfl

end Venue

namespace Job

variable {cfg : EngineConfig} {job job' : Job} {s s' : Shared} {oid : ℕ}

/-- **The exchange learns the handler's own number at most**, and from a
handler that has then sent it. -/
def Tells (s s' : Shared) (job job' : Job) : Prop :=
  ∀ oid ∈ s'.venue.clientOids, oid ∈ s.venue.clientOids ∨
    oid ∈ job.number ∧ oid ∉ job'.unsentNumber

theorem tells_of_same (h : s'.venue.clientOids = s.venue.clientOids) : Tells s s' job job' :=
  fun _ hoid => .inl (h ▸ hoid)

theorem tells_of_entry {j j' : EntryJob} (h : j.step cfg s = some (j', s')) :
    Tells s s' (.entry j) (.entry j') := by
  cases hpc : j.pc <;> simp only [EntryJob.step, hpc] at h
  case request again second =>
    cases h
    intro oid hoid
    have hunsent : (EntryJob.afterAttempt again second (s.venue.attempt cfg.duplicateCode
        (j.rd.attempts j.sent) (.order (j.order cfg))).1).unsent = false := by
      cases (s.venue.attempt cfg.duplicateCode (j.rd.attempts j.sent) (.order (j.order cfg))).1 with
      | some answer => rfl
      | none =>
          cases second
          · simp [EntryJob.afterAttempt, EntryPc.unsent]
          · rfl
    rcases Venue.attempt_cases cfg.duplicateCode (j.rd.attempts j.sent) (.order (j.order cfg))
      with hsame | hhandled
    · rw [hsame] at hoid
      exact .inl hoid
    · rw [hhandled] at hoid
      refine (Venue.clientOids_handle _ _ hoid).symm.imp id fun hown => ⟨?_, ?_⟩
      · -- the order goes out under the run's number
        obtain rfl : j.oid = oid := Option.some.inj hown
        simp [number, hpc, EntryPc.numbered, EntryPc.reserves]
      · simp [unsentNumber, hunsent]
  case lock | checkEntry | tierGate | tfGate | tp1Active | feeGate =>
    split_ifs at h <;> cases h <;> exact tells_of_same rfl
  case sizing => split at h <;> cases h <;> exact tells_of_same rfl
  case finished => cases h
  all_goals
    cases h
    exact tells_of_same rfl

theorem clientOids_of_close {c : Closing} {j j' : CloseJob}
    (hrequest : ∀ j, (∃ symbol holdSide, c.request j = .closePositions symbol holdSide) ∨
      ∃ body, c.request j = .order body ∧ body.clientOid = none)
    (h : j.step cfg c s = some (j', s')) {oid : ℕ} (hoid : oid ∈ s'.venue.clientOids) :
    oid ∈ s.venue.clientOids := by
  cases hpc : j.pc <;> simp only [CloseJob.step, hpc] at h
  case request round second =>
    cases h
    rcases Venue.attempt_cases (v := s.venue) cfg.duplicateCode (j.rd.attempts j.sent)
      (c.request j) with hsame | hhandled
    · rw [hsame] at hoid
      exact hoid
    · rw [hhandled] at hoid
      rcases hrequest j with ⟨symbol, holdSide, hreq⟩ | ⟨body, hreq, hnone⟩
      · rw [hreq, Venue.clientOids_closePositions] at hoid
        exact hoid
      · rw [hreq] at hoid
        exact (Venue.clientOids_handle _ _ hoid).resolve_left (by simp [hnone])
  case lock => split_ifs at h <;> cases h <;> exact hoid
  case find => split at h <;> cases h <;> exact hoid
  case finished => cases h
  case paper | settle =>
    cases h
    exact (CloseJob.settle_closes (c := c) (j := j)).venue ▸ hoid
  all_goals
    cases h
    exact hoid

theorem clientOids_of_closeAll {j j' : CloseAllJob} (h : j.step cfg s = some (j', s')) :
    s'.venue.clientOids = s.venue.clientOids := by
  unfold CloseAllJob.step at h
  split at h <;> cases h
  case h_3 =>
    rename_i tag todo second _
    rcases Venue.attempt_cases cfg.duplicateCode (j.rd.attempts j.sent)
      (.closePositions tag.1 tag.2) with hsame | hhandled
    · exact congrArg Venue.clientOids hsame
    · exact (congrArg Venue.clientOids hhandled).trans (Venue.clientOids_closePositions _ _ _)
  case h_5 => exact congrArg Venue.clientOids CloseAllJob.settle_closes.venue
  all_goals rfl

theorem tells_of_step (h : job.step cfg s = some (job', s')) : Tells s s' job job' := by
  cases job with
  | entry j =>
      obtain ⟨j', rfl, hstep⟩ := Job.of_step_map h
      exact tells_of_entry hstep
  | tp j =>
      obtain ⟨j', rfl, hstep⟩ := Job.of_step_map h
      exact fun oid hoid => .inl
        (clientOids_of_close (fun j => .inr ⟨_, rfl, rfl⟩) hstep hoid)
  | sl j =>
      obtain ⟨j', rfl, hstep⟩ := Job.of_step_map h
      exact fun oid hoid => .inl
        (clientOids_of_close (fun j => .inl ⟨_, _, rfl⟩) hstep hoid)
  | closeAll j =>
      obtain ⟨j', rfl, hstep⟩ := Job.of_step_map h
      exact tells_of_same (clientOids_of_closeAll hstep)

/-- **A number that is not sent** was not sent before, or is the next one. -/
theorem unsent_of_step (h : job.step cfg s = some (job', s')) (hoid : oid ∈ job'.unsentNumber) :
    oid ∈ job.unsentNumber ∨ oid = s.nextOid := by
  cases job with
  | entry j =>
      obtain ⟨j', rfl, hstep⟩ := Job.of_step_map h
      simp only [unsentNumber, Option.mem_def, Option.ite_none_right_eq_some,
        Option.some.injEq] at hoid ⊢
      obtain ⟨hunsent, rfl⟩ := hoid
      cases hpc : j.pc <;> simp only [EntryJob.step, hpc] at hstep
      case takeOid =>
        cases hstep
        exact .inr rfl
      case request again second =>
        cases hstep
        -- after an attempt the number counts as sent
        exfalso
        revert hunsent
        cases (s.venue.attempt cfg.duplicateCode (j.rd.attempts j.sent) (.order (j.order cfg))).1
        · cases second <;> simp [EntryJob.afterAttempt, EntryPc.unsent]
        · simp [EntryJob.afterAttempt, EntryPc.unsent]
      case placed again =>
        cases hstep
        have hfirst : (EntryPc.request again false).unsent = true := hunsent
        exact .inl ⟨by simpa [EntryPc.unsent] using hfirst, rfl⟩
      case orderDone again resp =>
        cases hstep
        exfalso
        revert hunsent
        simp only [EntryJob.goto, EntryJob.afterOrder]
        split_ifs <;> simp [EntryPc.unsent]
      case sizing => split at hstep <;> cases hstep <;> cases hunsent
      case lock | checkEntry | tierGate | tfGate | tp1Active | feeGate =>
        split_ifs at hstep <;> cases hstep <;> cases hunsent
      case finished => cases hstep
      case readEligible | registerPaper | registerReal | opened | unlock =>
        cases hstep
        cases hunsent
      case readActive | tp1Shadow =>
        cases hstep
        revert hunsent
        simp only [EntryJob.goto]
        split_ifs <;> simp [EntryPc.unsent]
      all_goals
        cases hstep
        exact .inl ⟨rfl, rfl⟩
  | tp j | sl j | closeAll j =>
      obtain ⟨_, rfl, -⟩ := Job.of_step_map h
      cases hoid

/-- **A key with a number** is one there was, or ends in the handler's own,
which the handler has then given up. -/
theorem has_of_step (h : job.step cfg s = some (job', s')) (hhas : s'.positions.Has oid) :
    s.positions.Has oid ∨ oid ∈ job.number ∧ job'.number = none := by
  have hpart : Book.Part s'.positions s.positions → s.positions.Has oid := by
    intro hpart
    obtain ⟨e, he, hoid⟩ := hhas
    obtain ⟨p, hp, -⟩ := hpart e.1 e.2 (AList.mem_lookup_iff.2 he)
    exact ⟨⟨e.1, p⟩, AList.mem_lookup_iff.1 hp, hoid⟩
  cases Job.move_of_step h with
  | entry hmove =>
      cases hmove with
      | register isReal hpc =>
          obtain ⟨e, he, hoid⟩ := hhas
          rcases Table.mem_insert.1 he with rfl | ⟨-, hold⟩
          · refine .inr ⟨?_, rfl⟩
            simp only [number, hpc]
            cases isReal <;> exact hoid
          · exact .inl ⟨e, hold, hoid⟩
      | _ => exact .inl (hpart .refl)
  | tp hmove | sl hmove =>
      cases hmove with
      | settle => exact .inl (hpart CloseJob.settle_part)
      | _ => exact .inl (hpart .refl)
  | closeAll hmove =>
      cases hmove with
      | settle => exact .inl (hpart CloseAllJob.settle_part)
      | quiet => exact .inl (hpart .refl)

end Job

/-- No event tells the exchange a number, or puts one into the book. -/
theorem Event.numbers_of_apply {cfg : EngineConfig} {e : Event} {s s' : Shared} {oid : ℕ}
    (h : e.apply cfg s = some s') : s'.venue.clientOids = s.venue.clientOids ∧
      (s'.positions.Has oid → s.positions.Has oid) := by
  constructor
  · cases Event.move_of_apply h with
    | closes _ hcloses => exact congrArg Venue.clientOids hcloses.venue
    | _ => rfl
  · rintro ⟨e, he, hoid⟩
    rcases Event.book_of_apply h with hpart | ⟨quote, -, heq⟩
    · obtain ⟨p, hp, -⟩ := hpart e.1 e.2 (AList.mem_lookup_iff.2 he)
      exact ⟨⟨e.1, p⟩, AList.mem_lookup_iff.1 hp, hoid⟩
    · -- a sync's own keys have no number
      have hentry : e.1.isExt = false := by
        cases hkey : e.1 with
        | entry => rfl
        | ext => simp [hkey, PositionKey.number] at hoid
      rw [heq] at he
      obtain ⟨e₀, hmem, hkey, -⟩ := Book.entry_of_mem_reconcile (ExchangeMap.keyed_ofRows _) he
        hentry
      exact ⟨e₀, hmem, hkey ▸ hoid⟩

/-! ## The invariant -/

namespace Engine

/-- **Every number in use has been drawn**, and none of them is a handler's
that may still use it. -/
structure Drawn (s : Engine) : Prop where
  owned : s.Owned
  book : ∀ oid, s.shared.positions.Has oid → oid < s.shared.nextOid
  venue : ∀ oid ∈ s.shared.venue.clientOids, oid < s.shared.nextOid
  unused : ∀ (i : ℕ) (job : Job), s.jobs[i]? = some job → job.Unused s.shared

variable {cfg : EngineConfig} {s t : Engine} {l : EngineLabel} {i : ℕ} {job job' : Job}
  {shared' : Shared}

/-- **A handler's step.** -/
theorem Drawn.work (h : s.Drawn) (hjob : s.jobs[i]? = some job)
    (hstep : job.step cfg s.shared = some (job', shared')) :
    Drawn ⟨shared', s.jobs.set i job'⟩ := by
  obtain ⟨hnext, hnumbers⟩ := (Job.transfer_of_step hstep).numbers
  have hown : ∀ oid ∈ job.number, oid < s.shared.nextOid := (h.owned.jobs i job hjob).number
  have hunused := h.unused i job hjob
  refine ⟨h.owned.work hjob (Job.transfer_of_step hstep), fun oid hhas => ?_, fun oid hoid => ?_,
    Threads.forall_set ⟨fun oid hoid hhas => ?_, fun oid hunsent hoid => ?_⟩ ?_⟩
  · rcases Job.has_of_step hstep hhas with hold | ⟨hnew, -⟩
    · exact (h.book oid hold).trans_le hnext
    · exact (hown oid hnew).trans_le hnext
  · rcases Job.tells_of_step hstep oid hoid with hold | ⟨hnew, -⟩
    · exact (h.venue oid hold).trans_le hnext
    · exact (hown oid hnew).trans_le hnext
  · -- its own number is not in the book, or it has given it up
    rcases Job.has_of_step hstep hhas with hold | ⟨-, hnone⟩
    · rcases hnumbers oid hoid with hkept | rfl
      · exact hunused.book oid hkept hold
      · exact (h.book _ hold).false
    · rw [hnone] at hoid
      cases hoid
  · rcases Job.tells_of_step hstep oid hoid with hold | ⟨-, hsent⟩
    · rcases Job.unsent_of_step hstep hunsent with hkept | rfl
      · exact hunused.venue oid hkept hold
      · exact (h.venue _ hold).false
    · exact hsent hunsent
  · -- nobody else has the handler's number
    intro k other hne hother
    have hapart := (h.owned.apart i k job other hne.symm hjob hother).number
    refine ⟨fun oid hoid hhas => ?_, fun oid hunsent hoid => ?_⟩
    · rcases Job.has_of_step hstep hhas with hold | ⟨hnew, -⟩
      · exact (h.unused k other hother).book oid hoid hold
      · exact hapart oid hnew hoid
    · rcases Job.tells_of_step hstep oid hoid with hold | ⟨hnew, -⟩
      · exact (h.unused k other hother).venue oid hunsent hold
      · exact hapart oid hnew (Job.number_of_unsent hunsent)

/-- **Every step of the engine keeps it.** -/
theorem drawn_next (h : s.Drawn) (hnext : (engineSystem cfg).next s l = some t) :
    t.Drawn := by
  have howned := owned_next h.owned hnext
  cases move_of_next hnext with
  | start job hfresh =>
      obtain ⟨-, hnumber⟩ := Job.owns_nothing_of_fresh hfresh
      refine ⟨howned, h.book, h.venue, Threads.forall_append ⟨?_, ?_⟩ h.unused⟩
      · rw [hnumber]
        exact nofun
      · intro oid hunsent
        have hoid := Job.number_of_unsent hunsent
        rw [hnumber] at hoid
        cases hoid
  | work i hjob hstep => exact h.work hjob hstep
  | event e happly =>
      obtain ⟨-, hnext⟩ := Event.owners_of_apply happly
      refine ⟨howned, fun oid hhas => ?_, fun oid hoid => ?_, fun i job hjob =>
        ⟨fun oid hoid hhas => ?_, fun oid hunsent hoid => ?_⟩⟩
      · exact hnext ▸ h.book oid ((Event.numbers_of_apply happly).2 hhas)
      · have hold := (@Event.numbers_of_apply _ _ _ _ oid happly).1
        rw [hnext]
        exact h.venue oid (hold ▸ hoid)
      · exact (h.unused i job hjob).book oid hoid ((Event.numbers_of_apply happly).2 hhas)
      · have hold := (@Event.numbers_of_apply _ _ _ _ oid happly).1
        exact (h.unused i job hjob).venue oid hunsent (hold ▸ hoid)

end Engine

/-! ## The program's life -/

/-- **A restart counts on**: from a number that has not been drawn. -/
def CountsOn (s : Engine) : LifeLabel → Prop
  | .engine _ => True
  | .restart nextOid => s.shared.nextOid ≤ nextOid

instance (s : Engine) : (l : LifeLabel) → Decidable (CountsOn s l)
  | .engine _ => inferInstanceAs (Decidable True)
  | .restart _ => inferInstanceAs (Decidable (_ ≤ _))

/-- A restart keeps the keys. -/
theorem Book.has_restored {book : Book} {oid : ℕ}
    (h : Has oid (book.mapValues fun _ p => p.restored)) : book.Has oid := by
  obtain ⟨e, he, hoid⟩ := h
  obtain ⟨e₀, hmem, rfl⟩ := Table.mem_mapValues.1 he
  exact ⟨e₀, hmem, hoid⟩

/-- **Every step of the program keeps it**, where a restart counts on. -/
theorem Engine.drawn_life {cfg : EngineConfig} {s t : Engine} {l : LifeLabel} (h : s.Drawn)
    (hguard : CountsOn s l) (hnext : (lifeSystem cfg).next s l = some t) : t.Drawn := by
  cases l with
  | engine l => exact drawn_next h hnext
  | restart nextOid =>
      cases hnext
      refine ⟨Threads.Holds.nil trivial rfl, fun oid hhas => ?_, fun oid hoid => ?_,
        fun i job hjob => ?_⟩
      · exact (h.book oid (Book.has_restored hhas)).trans_le hguard
      · exact (h.venue oid hoid).trans_le hguard
      · -- what was running is dropped
        cases (List.getElem?_nil (i := i)).symm.trans hjob

theorem Engine.drawn_of_run {cfg : EngineConfig} {s t : Engine} (hinit : (lifeSystem cfg).init s)
    (hclean : ∀ oid ∈ s.shared.venue.clientOids, oid < s.shared.nextOid)
    (hrun : (lifeSystem cfg).Run CountsOn s t) : t.Drawn := by
  obtain ⟨⟨hjobs, hstarted⟩, hempty⟩ := hinit
  refine hrun.invariant (I := Drawn) (fun s l t h hguard hnext => drawn_life h hguard hnext)
    ⟨Threads.Holds.nil trivial hjobs, ?_, hclean, ?_⟩
  · rintro oid ⟨e, he, -⟩
    rw [hempty] at he
    cases he
  · intro i job hjob
    rw [hjobs] at hjob
    cases hjob

/-- **Order numbers are fresh over the program's life.** In every run whose
restarts count on, an entry that has its number and has not registered is
the only one with it, and no position is under its key; and as long as it
has not tried to send its order, the exchange executes the order when it
arrives, whatever it says to a repetition. -/
theorem order_numbers_fresh {cfg : EngineConfig} {s t : Engine} {i : ℕ} {j : EntryJob}
    (hinit : (lifeSystem cfg).init s)
    (hclean : ∀ oid ∈ s.shared.venue.clientOids, oid < s.shared.nextOid)
    (hrun : (lifeSystem cfg).Run CountsOn s t) (hjob : t.jobs[i]? = some (.entry j))
    (hnumbered : j.pc.numbered = true) :
    t.shared.positions.lookup j.key = none ∧
      (∀ k j', k ≠ i → t.jobs[k]? = some (.entry j') → j'.pc.numbered = true → j'.oid ≠ j.oid) ∧
      (j.pc.unsent = true → ∀ code, t.shared.venue.handle code (.order (j.order cfg)) =
        (Venue.accepted, t.shared.venue.execute (j.order cfg))) := by
  have hdrawn : t.Drawn := Engine.drawn_of_run hinit hclean hrun
  have hnumber : j.oid ∈ (Job.entry j).number := if_pos hnumbered
  obtain ⟨hbook, hvenue⟩ := hdrawn.unused i _ hjob
  refine ⟨?_, fun k j' hne hjob' hnumbered' hsame => ?_, fun hunsent code => ?_⟩
  · rw [Option.eq_none_iff_forall_ne_some]
    intro p hp
    exact hbook j.oid hnumber ⟨⟨j.key, p⟩, AList.mem_lookup_iff.1 hp, rfl⟩
  · refine (hdrawn.owned.apart k i _ _ hne hjob' hjob).number j.oid ?_ hnumber
    exact (if_pos hnumbered').trans (congrArg some hsame)
  · exact EntryJob.handle_order_of_new (hvenue j.oid (if_pos hunsent)) code

/-! ## A restart in the middle of an entry -/

namespace CountingOn

/-- An order is executed, the program is started again before it registers
the position, and the next entry is about to send its order. -/
def labels : List LifeLabel :=
  (.start (LiveRun.buy "BTCUSDT") :: LiveRun.works 0 18).map .engine ++ .restart 7 ::
    (.start (LiveRun.buy "ETHUSDT") :: LiveRun.works 0 15).map .engine

def isPlaced : Job → Bool
  | .entry j => j.pc = .placed false && j.oid = 7
  | _ => false

theorem init_start : (lifeSystem {}).init LiveRun.start := ⟨LiveRun.start_init rfl, rfl⟩

end CountingOn

open CountingOn in
theorem order_numbers_fresh_after_restart :
    ∃ t, (lifeSystem {}).Run CountsOn LiveRun.start t ∧ t.shared.venue.clientOids = [0] ∧
      ∃ j, t.jobs[0]? = some (.entry j) ∧ j.oid = 7 ∧
        t.shared.positions.lookup j.key = none ∧
        (∀ k j', k ≠ 0 → t.jobs[k]? = some (.entry j') → j'.pc.numbered = true →
          j'.oid ≠ j.oid) ∧
        (j.pc.unsent = true → ∀ code, t.shared.venue.handle code (.order (j.order {})) =
          (Venue.accepted, t.shared.venue.execute (j.order {}))) := by
  obtain ⟨t, hrun, hvenue, hplaced⟩ := System.exists_run_of_play (M := lifeSystem {})
    (G := CountsOn) (s := LiveRun.start) labels
    (P := fun t => t.shared.venue.clientOids = [0] ∧ (t.jobs[0]?).any isPlaced = true)
    (by decide +kernel)
  refine ⟨t, hrun, hvenue, ?_⟩
  cases hjob : t.jobs[0]? with
  | none => simp [hjob] at hplaced
  | some job =>
      rw [hjob, Option.any_some] at hplaced
      cases job with
      | entry j =>
          obtain ⟨hpc, hoid⟩ := Bool.and_eq_true_iff.1 hplaced
          have hnumbered : j.pc.numbered = true := by rw [of_decide_eq_true hpc]; rfl
          exact ⟨j, rfl, of_decide_eq_true hoid,
            order_numbers_fresh init_start nofun hrun hjob hnumbered⟩
      | _ => cases hplaced

end WebhookTrader
