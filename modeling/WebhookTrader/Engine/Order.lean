import WebhookTrader.Engine.Deeds

/-!
# The order of signals

Signals are popped in the order in which they were pushed, and handlers
of one symbol exclude one another. What lies between, from the pop to the
lock, nothing orders: a worker may be overtaken there. So the signals of
one symbol take effect one after the other, in the order in which their
handlers take the lock, which is the order of the pushes where there is
one worker.
-/

namespace WebhookTrader

/-! ## Locks -/

/-- The handler has its symbol's lock. -/
def SpotPc.holds : SpotPc → Bool
  | lock => false
  | finished => false
  | _ => true

namespace Worker

/-- The symbol whose lock a worker holds. -/
def lock : Worker → Option String
  | futures _ job => job.lock
  | spot _ job => if job.pc.holds then some job.sig.symbol else none
  | _ => none

/-- **What a step does to locks.** -/
inductive Transfer (s s' : Shared) (w w' : Worker) : Prop
  | keep (hlocked : s'.locked = s.locked) (hlock : ∀ symbol ∈ w'.lock, symbol ∈ w.lock)
  | acquire (symbol : String) (hfree : symbol ∉ s.locked) (hlocked : s'.locked = symbol :: s.locked)
      (hlock : w'.lock = some symbol)
  | release (symbol : String) (hheld : symbol ∈ w.lock)
      (hlocked : s'.locked = s.locked.erase symbol) (hlock : w'.lock = none)

variable {cfg : DeskConfig} {d d' : Desk} {w w' : Worker}

theorem Transfer.of_job {s s' : Shared} {job job' : Job} (h : Job.Transfer s s' job job')
    (hw : w.lock = job.lock) (hw' : w'.lock = job'.lock) : Transfer s s' w w' := by
  cases h with
  | keep hlocked _ hlock | draw hlocked _ hlock =>
      refine .keep hlocked ?_
      rw [hw, hw']
      exact hlock
  | acquire symbol hfree hlocked _ hlock => exact .acquire symbol hfree hlocked (hw'.trans hlock)
  | release symbol hheld hlocked _ hlock =>
      exact .release symbol (hw ▸ hheld) hlocked (hw'.trans hlock)

theorem transfer_of_spot {ticket : ℕ} {j j' : SpotJob} (h : j.step d = some (j', d')) :
    Transfer d.engine d'.engine (.spot ticket j) (.spot ticket j') := by
  have hheld : ∀ pc : SpotPc, pc.holds = true → j.pc.holds = true →
      ∀ symbol ∈ (Worker.spot ticket (j.goto pc)).lock, symbol ∈ (Worker.spot ticket j).lock := by
    intro pc hpc hj symbol hsymbol
    simpa [lock, SpotJob.goto, hpc, hj] using hsymbol
  cases hpc : j.pc <;> simp only [SpotJob.step, hpc] at h
  case lock =>
    split_ifs at h with hrefused hlocked htimeout henters
    · cases h
      exact .keep rfl (by simp [lock, SpotJob.goto, SpotPc.holds])
    · cases h
      exact .keep rfl (by simp [lock, SpotJob.goto, SpotPc.holds])
    · cases h
      exact .acquire j.sig.symbol (by simpa using hlocked) rfl rfl
    · cases h
      exact .acquire j.sig.symbol (by simpa using hlocked) rfl rfl
  case grade =>
    cases h
    refine .keep rfl (hheld _ ?_ (by rw [hpc]; rfl))
    split_ifs <;> rfl
  case takeOid =>
    cases h
    exact .keep rfl (hheld .book rfl (by rw [hpc]; rfl))
  case book =>
    cases h
    exact .keep rfl (hheld .unlock rfl (by rw [hpc]; rfl))
  case unlock =>
    cases h
    exact .release j.sig.symbol (by simp [lock, hpc, SpotPc.holds]) rfl rfl
  case finished => cases h

theorem Routed.lock {q : Queued} (h : Routed q w) : w.lock = none := by
  cases h <;> rfl

/-- **Every step of a worker** takes or gives back one lock at most. -/
theorem Move.transfer (h : Move cfg d w w' d') : Transfer d.engine d'.engine w w' := by
  cases h with
  | wake =>
      refine .keep rfl ?_
      split_ifs <;> simp [lock]
  | pass => exact .keep rfl (by simp [(routed_route cfg _).lock])
  | futures ticket hfinished hstep => exact .of_job (Job.transfer_of_step hstep) rfl rfl
  | spot ticket hstep => exact transfer_of_spot hstep
  | closeAll hstep =>
      rename_i job job' engine
      have hjob : (Job.closeAll job).step cfg.engine d.engine = some (.closeAll job', engine) := by
        rw [Job.step, hstep]
        rfl
      exact .of_job (Job.transfer_of_step hjob) rfl rfl
  | _ => exact .keep rfl (by simp [lock])

end Worker

namespace Floor

/-- **The invariant of locks**: what a worker holds is held, and by no
other. -/
abbrev Locked (s : Floor) : Prop :=
  s.Holds (fun _ => True) (fun d w => ∀ symbol ∈ w.lock, symbol ∈ d.engine.locked)
    fun w w' => ∀ symbol ∈ w.lock, symbol ∉ w'.lock

variable {cfg : DeskConfig} {parse : Text → Option Json} {s s' : Floor} {deed : Option Deed}

theorem locked_of_init (h : (floorSystem cfg parse).init s) : s.Locked := by
  refine ⟨trivial, fun i w hw => ?_, fun i k w w' _ hw _ => ?_⟩
  · simp [idle_of_init h hw, Worker.lock]
  · simp [idle_of_init h hw, Worker.lock]

theorem Locked.work (h : s.Locked) {i : ℕ} {w w' : Worker} {d' : Desk} (hw : s.jobs[i]? = some w)
    (htransfer : Worker.Transfer s.shared.engine d'.engine w w') :
    Locked ⟨d', s.jobs.set i w'⟩ := by
  have hheld := h.jobs i w hw
  cases htransfer with
  | keep hlocked hlock =>
      refine Threads.Holds.work h hw trivial (fun symbol hsymbol => ?_) (fun other hother _ => ?_)
        fun other _ hapart => ⟨fun symbol hsymbol => hapart symbol (hlock symbol hsymbol),
          fun symbol hother hsymbol => hapart symbol (hlock symbol hsymbol) hother⟩
      · rw [hlocked]
        exact hheld symbol (hlock symbol hsymbol)
      · rw [hlocked]
        exact hother
  | acquire symbol hfree hlocked hlock =>
      refine Threads.Holds.work h hw trivial (fun symbol' hsymbol => ?_) (fun other hother _ => ?_)
        fun other hother _ => ?_
      · obtain rfl := Option.some.inj (hlock.symm.trans hsymbol)
        exact hlocked ▸ List.mem_cons_self
      · intro symbol' hsymbol
        exact hlocked ▸ List.mem_cons_of_mem _ (hother symbol' hsymbol)
      · -- nobody holds a free lock
        have hnone : symbol ∉ other.lock := fun hsymbol => hfree (hother symbol hsymbol)
        rw [hlock]
        exact ⟨fun _ hsymbol => Option.some.inj hsymbol ▸ hnone,
          fun symbol' hsymbol' hsymbol => hnone (Option.some.inj hsymbol ▸ hsymbol')⟩
  | release symbol hsymbol hlocked hlock =>
      refine Threads.Holds.work h hw trivial (by simp [hlock]) (fun other hother hapart => ?_)
        fun other _ _ => by simp [hlock]
      intro symbol' hsymbol'
      -- the lock given back is nobody else's
      rw [hlocked, List.mem_erase_of_ne]
      · exact hother symbol' hsymbol'
      · rintro rfl
        exact hapart symbol' hsymbol hsymbol'

/-- **Every step keeps the invariant of locks.** -/
theorem Locked.move (h : s.Locked) (hmove : Move cfg s s' deed) : s'.Locked := by
  cases hmove with
  | start hstart =>
      obtain ⟨job, rfl⟩ := Worker.exists_of_canStart hstart
      exact h.start (by simp [Worker.lock]) fun other => by simp [Worker.lock]
  | work i hw hstep => exact h.work hw hstep.transfer
  | event hevent =>
      cases hevent with
      | engine happly =>
          refine h.event trivial fun i w hw symbol hsymbol => ?_
          show symbol ∈ _
          rw [(Event.owners_of_apply happly).1]
          exact h.jobs i w hw symbol hsymbol
      | accept | refuse | clear | markLive | tick | stop => exact h.event trivial h.jobs

end Floor

/-! ## Turns -/

/-- **A handler's step under its symbol's lock**: the signal's ticket, and
the symbol. Every look at the book is one, and every change. -/
def Deed.act : Deed → Option (ℕ × String)
  | handled ticket job _ => job.lock.map fun symbol => (ticket, symbol)
  | _ => none

/-- The tickets of the signals of a symbol that take effect, step by step,
the latest first. -/
def turns (symbol : String) (log : List Deed) : List ℕ :=
  (log.filterMap Deed.act).filterMap fun act => if act.2 = symbol then some act.1 else none

/-- The tickets that are popped, the latest first. -/
def pops (log : List Deed) : List ℕ :=
  log.filterMap fun
    | .popped _ q _ => some q.ticket
    | _ => none

theorem turns_cons_of_act {deed : Deed} {act : ℕ × String} (h : deed.act = some act)
    (symbol : String) (log : List Deed) :
    turns symbol (deed :: log) =
      if act.2 = symbol then act.1 :: turns symbol log else turns symbol log := by
  rw [turns, List.filterMap_cons, h]
  dsimp only
  rw [List.filterMap_cons]
  split_ifs <;> rfl

theorem turns_toList {deed : Option Deed} (h : ∀ x ∈ deed, x.act = none) (symbol : String)
    (log : List Deed) : turns symbol (deed.toList ++ log) = turns symbol log := by
  cases deed with
  | none => rfl
  | some x =>
      show turns symbol (x :: log) = _
      rw [turns, List.filterMap_cons, h x rfl]
      rfl

namespace Job

variable {cfg : EngineConfig} {s s' : Shared} {job job' : Job} {symbol : String}

theorem lock_of_finished (h : job.finished = true) : job.lock = none := by
  cases job <;> simp_all [finished, lock, EntryPc.holds, ClosePc.holds]

/-- **A handler that has the lock keeps it to its end.** -/
theorem lock_of_step (h : job.step cfg s = some (job', s')) (hlock : job.lock = some symbol) :
    job'.lock = some symbol ∨ job'.finished = true := by
  have hclose : ∀ (c : Closing) (j j' : CloseJob), j.step cfg c s = some (j', s') →
      (if j.pc.holds then some j.sig.symbol else none) = some symbol →
      (if j'.pc.holds then some j'.sig.symbol else none) = some symbol ∨ j'.pc = .finished := by
    intro c j j' hstep hlock
    cases CloseJob.move_of_step hstep with
    | giveUp | release => exact .inr rfl
    | acquire hpc => simp [hpc, ClosePc.holds] at hlock
    | quiet j' venue hsig hholds hholds' =>
        left
        rw [hholds', hsig, if_pos rfl]
        rwa [if_pos hholds] at hlock
    | settle hholds =>
        left
        rwa [if_pos hholds] at hlock
  cases job with
  | entry j =>
      obtain ⟨j', rfl, hstep⟩ := Job.of_step_map h
      have hsig := EntryJob.sig_of_step hstep
      have hheld : j'.pc.holds = true → (entry j').lock = some symbol ∨
          (entry j').finished = true := by
        intro hholds
        left
        simp only [lock, hholds, if_true, hsig]
        simp only [lock, Option.ite_none_right_eq_some] at hlock
        exact hlock.2
      cases EntryJob.move_of_step hstep with
      | giveUp | release => exact .inr rfl
      | acquire _ _ _ hholds => exact hheld hholds
      | quiet _ _ _ _ _ _ hholds' => exact hheld hholds'
      | reject | allow | register => exact hheld rfl
  | tp j =>
      obtain ⟨j', rfl, hstep⟩ := Job.of_step_map h
      exact (hclose _ j j' hstep hlock).imp_right fun hpc => by simp [finished, hpc]
  | sl j =>
      obtain ⟨j', rfl, hstep⟩ := Job.of_step_map h
      exact (hclose _ j j' hstep hlock).imp_right fun hpc => by simp [finished, hpc]
  | closeAll j => cases hlock

/-- The handler of a signal. -/
def ofSignal : Job → Bool
  | closeAll _ => false
  | _ => true

theorem ofSignal_of_step (h : job.step cfg s = some (job', s')) : job'.ofSignal = job.ofSignal := by
  cases job with
  | entry j | tp j | sl j | closeAll j =>
      obtain ⟨j', rfl, -⟩ := Job.of_step_map h
      rfl

/-- **Without the lock, a signal's handler leaves the book alone.** -/
theorem positions_of_step (h : job.step cfg s = some (job', s')) (hsignal : job.ofSignal = true)
    (hlock : job.lock = none) : s'.positions = s.positions := by
  have hclose : ∀ (c : Closing) (j j' : CloseJob), j.step cfg c s = some (j', s') →
      (if j.pc.holds then some j.sig.symbol else none) = none → s'.positions = s.positions := by
    intro c j j' hstep hlock
    cases CloseJob.move_of_step hstep with
    | settle hholds => simp [hholds] at hlock
    | _ => rfl
  cases job with
  | entry j =>
      obtain ⟨j', rfl, hstep⟩ := Job.of_step_map h
      cases EntryJob.move_of_step hstep with
      | register isReal hpc =>
          rw [lock, hpc] at hlock
          cases isReal <;> cases hlock
      | _ => rfl
  | tp j =>
      obtain ⟨j', rfl, hstep⟩ := Job.of_step_map h
      exact hclose _ j j' hstep hlock
  | sl j =>
      obtain ⟨j', rfl, hstep⟩ := Job.of_step_map h
      exact hclose _ j j' hstep hlock
  | closeAll j => cases hsignal

end Job

namespace Worker

/-- The handler has run to its end. -/
def past : Worker → Bool
  | futures _ job => job.finished
  | _ => false

variable {cfg : DeskConfig} {d d' : Desk} {w w' : Worker}

/-- What is no step under a lock. -/
theorem act_deed (i : ℕ) (d : Desk) :
    (∀ x ∈ w.deed i d, x.act = none) ∨ ∃ ticket job symbol, w = .futures ticket job ∧
      job.lock = some symbol ∧ w.deed i d = some (.handled ticket job d) := by
  cases hdeed : w.deed i d with
  | none => exact .inl (by simp)
  | some deed =>
      rcases deed_cases hdeed with ⟨q, -, -, rfl⟩ | ⟨q, now, -, rfl⟩ | ⟨ticket, job, rfl, -, rfl⟩
      · left
        intro x hx
        obtain rfl := Option.some.inj hx
        rfl
      · left
        intro x hx
        obtain rfl := Option.some.inj hx
        rfl
      · cases hlock : job.lock with
        | none =>
            left
            intro x hx
            obtain rfl := Option.some.inj hx
            rw [Deed.act, hlock]
            rfl
        | some symbol => exact .inr ⟨ticket, job, symbol, rfl, hlock, rfl⟩

end Worker

/-- **The signal with a ticket has had its turn**: who has it is at the end,
and nobody gets it. -/
structure Floor.Over (s : Floor) (ticket : ℕ) : Prop where
  issued : ticket < s.shared.tickets
  queue : ∀ q ∈ s.shared.queue, q.ticket ≠ ticket
  jobs : ∀ (i : ℕ) (w : Worker), s.jobs[i]? = some w → ticket ∈ w.ticket → w.past = true

namespace Floor

variable {cfg : DeskConfig} {parse : Text → Option Json} {s s' : Floor} {deed : Option Deed}
  {log : List Deed} {ticket : ℕ}

/-- **What is over stays over.** -/
theorem Over.move (h : s.Over ticket) (hmove : Move cfg s s' deed) : s'.Over ticket := by
  cases hmove with
  | start hstart =>
      obtain ⟨job, rfl⟩ := Worker.exists_of_canStart hstart
      exact ⟨h.issued, h.queue, Threads.forall_append (by simp [Worker.ticket]) h.jobs⟩
  | work i hw hstep =>
      rename_i w w' d'
      obtain ⟨htickets, hcase⟩ := hstep.tickets
      refine ⟨htickets ▸ h.issued, fun q hq => ?_, Threads.forall_set (fun hmem => ?_)
        fun k other _ hk => h.jobs k other hk⟩
      · rcases hcase with ⟨hqueue, -⟩ | ⟨q', -, -, hqueue⟩
        · exact h.queue q (hqueue ▸ hq)
        · exact h.queue q (hqueue ▸ List.mem_cons_of_mem _ hq)
      · rcases hcase with ⟨-, hsub⟩ | ⟨q', -, rfl, hqueue⟩
        · -- who has it goes on to the next signal
          have hpast := h.jobs i w hw (hsub _ hmem)
          cases hstep with
          | leave => cases hmem
          | futures _ hfinished => exact (Bool.false_ne_true (hfinished.symm.trans hpast)).elim
          | _ => cases hpast
        · exact (h.queue q' (hqueue ▸ List.mem_cons_self) (Option.some.inj hmem)).elim
  | event hevent =>
      cases hevent with
      | accept sig rd =>
          refine ⟨h.issued.trans (Nat.lt_succ_self _), fun q hq => ?_, h.jobs⟩
          rcases Desk.mem_queue_onSignal hq with hold | hnew
          · exact h.queue q hold
          · exact hnew ▸ h.issued.ne'
      | refuse | engine | clear | markLive | tick | stop => exact ⟨h.issued, h.queue, h.jobs⟩

/-- **The invariant of turns.** -/
structure Turns (s : Floor) (log : List Deed) : Prop where
  ticketed : s.Ticketed
  locked : s.Locked
  /-- Who has begun still has the lock, or has had its turn. -/
  standing : ∀ symbol, ∀ ticket ∈ turns symbol log, s.Over ticket ∨
    ∃ (i : ℕ) (job : Job), s.jobs[i]? = some (.futures ticket job) ∧ job.lock = some symbol
  /-- Who comes before another has had its turn. -/
  turned : ∀ symbol a b, [b, a].Sublist (turns symbol log) → b ≠ a → s.Over a
  blocks : ∀ symbol a b, [a, b, a].Sublist (turns symbol log) → b = a

/-- A step under no lock. -/
theorem Turns.quiet (h : s.Turns log) (hmove : Move cfg s s' deed)
    (hact : ∀ x ∈ deed, x.act = none)
    (hkeeps : ∀ (i : ℕ) ticket job symbol, s.jobs[i]? = some (.futures ticket job) →
      job.lock = some symbol → s'.jobs[i]? = some (.futures ticket job)) :
    s'.Turns (deed.toList ++ log) := by
  refine ⟨h.ticketed.move hmove, h.locked.move hmove, fun symbol ticket hmem => ?_,
    fun symbol a b hsub hne => ?_, fun symbol a b hsub => ?_⟩
  · rw [turns_toList hact] at hmem
    rcases h.standing symbol ticket hmem with hover | ⟨i, job, hi, hlock⟩
    · exact .inl (hover.move hmove)
    · exact .inr ⟨i, job, hkeeps i ticket job symbol hi hlock, hlock⟩
  · rw [turns_toList hact] at hsub
    exact (h.turned symbol a b hsub hne).move hmove
  · rw [turns_toList hact] at hsub
    exact h.blocks symbol a b hsub

/-- **Who has the lock is alone**: everyone else of the symbol has had its
turn. -/
theorem Turns.over_of_ne (h : s.Turns log) {i ticket : ℕ} {job : Job} {symbol : String}
    (hjob : s.jobs[i]? = some (.futures ticket job)) (hlock : job.lock = some symbol) {a : ℕ}
    (ha : a ∈ turns symbol log) (hne : a ≠ ticket) : s.Over a := by
  refine (h.standing symbol a ha).resolve_right ?_
  rintro ⟨k, job', hk, hlock'⟩
  have hki : i ≠ k := by
    rintro rfl
    rw [hjob] at hk
    cases hk
    exact hne rfl
  exact h.locked.apart i k _ _ hki hjob hk symbol hlock hlock'

/-- A handler that ends has had its turn. -/
theorem Ticketed.over_of_finished (h : s.Ticketed) {i ticket : ℕ} {job job' : Job}
    {engine : Shared} (hjob : s.jobs[i]? = some (.futures ticket job))
    (hend : job'.finished = true) :
    Over ⟨{ s.shared with engine }, s.jobs.set i (.futures ticket job')⟩ ticket := by
  obtain ⟨hissued, hbefore⟩ := h.jobs i _ hjob ticket rfl
  refine ⟨hissued, fun q hq => (hbefore q hq).ne', Threads.forall_set (fun _ => hend) ?_⟩
  intro k other hne hk hmem
  exact (h.apart i k _ _ hne.symm hjob hk ticket rfl hmem).elim

/-- **A step under the lock.** -/
theorem Turns.act (h : s.Turns log) {i ticket : ℕ} {job job' : Job} {symbol : String}
    {engine : Shared} (hjob : s.jobs[i]? = some (.futures ticket job))
    (hlock : job.lock = some symbol) (hfinished : job.finished = false)
    (hstep : job.step cfg.engine s.shared.engine = some (job', engine)) :
    Turns ⟨{ s.shared with engine }, s.jobs.set i (.futures ticket job')⟩
      (.handled ticket job s.shared :: log) := by
  have hmove : Move cfg s ⟨{ s.shared with engine }, s.jobs.set i (.futures ticket job')⟩
      (Worker.deed i s.shared (.futures ticket job)) :=
    .work i hjob (.futures ticket hfinished hstep)
  have hact : (Deed.handled ticket job s.shared).act = some (ticket, symbol) := by
    rw [Deed.act, hlock]
    rfl
  -- a handler that still takes steps has not had its turn
  have hself : ¬ s.Over ticket := by
    intro hover
    have hpast := hover.jobs i _ hjob rfl
    exact Bool.false_ne_true (hfinished.symm.trans hpast)
  have hturn : Over ⟨{ s.shared with engine }, s.jobs.set i (.futures ticket job')⟩ ticket ∨
      job'.lock = some symbol :=
    (Job.lock_of_step hstep hlock).symm.imp_left (h.ticketed.over_of_finished hjob)
  have hi : (s.jobs.set i (.futures ticket job'))[i]? = some (.futures ticket job') := by
    rw [List.getElem?_set_self (List.getElem?_eq_some_iff.1 hjob).1]
  refine ⟨h.ticketed.move hmove, h.locked.move hmove, fun symbol' a ha => ?_,
    fun symbol' a b hsub hne => ?_, fun symbol' a b hsub => ?_⟩
  · rw [turns_cons_of_act hact] at ha
    by_cases hsymbol : symbol = symbol'
    · subst hsymbol
      rw [if_pos rfl] at ha
      by_cases hne : a = ticket
      · subst hne
        exact hturn.imp_right fun hlock' => ⟨i, job', hi, hlock'⟩
      · have hold := (List.mem_cons.1 ha).resolve_left hne
        exact .inl ((h.over_of_ne hjob hlock hold hne).move hmove)
    · rw [if_neg hsymbol] at ha
      refine (h.standing symbol' a ha).imp (fun hover => hover.move hmove) ?_
      rintro ⟨k, job₂, hk, hlock₂⟩
      have hki : i ≠ k := by
        rintro rfl
        rw [hjob] at hk
        cases hk
        exact hsymbol (Option.some.inj (hlock.symm.trans hlock₂))
      refine ⟨k, job₂, ?_, hlock₂⟩
      rw [List.getElem?_set_ne hki]
      exact hk
  · rw [turns_cons_of_act hact] at hsub
    split_ifs at hsub with hsymbol
    · rw [List.cons_sublist_cons'] at hsub
      rcases hsub with hold | ⟨rfl, hmem⟩
      · exact (h.turned symbol' a b hold hne).move hmove
      · subst hsymbol
        have hold := List.singleton_sublist.1 hmem
        exact (h.over_of_ne hjob hlock hold hne.symm).move hmove
    · exact (h.turned symbol' a b hsub hne).move hmove
  · rw [turns_cons_of_act hact] at hsub
    split_ifs at hsub with hsymbol
    · rw [List.cons_sublist_cons'] at hsub
      rcases hsub with hold | ⟨rfl, hpair⟩
      · exact h.blocks symbol' a b hold
      · -- a step of another between two of its own would have ended its turn
        by_contra hne
        exact hself (h.turned symbol' _ b hpair hne)
    · exact h.blocks symbol' a b hsub

/-- **Every step keeps the invariant of turns.** -/
theorem Turns.move (h : s.Turns log) (hmove : Move cfg s s' deed) :
    s'.Turns (deed.toList ++ log) := by
  have hmove' := hmove
  cases hmove with
  | start hstart =>
      refine h.quiet hmove' (by simp) fun i ticket job symbol hi _ => ?_
      rw [List.getElem?_append_left (List.getElem?_eq_some_iff.1 hi).1]
      exact hi
  | work i hw hstep =>
      rename_i w w' d'
      rcases Worker.act_deed (w := w) i s.shared with
        hnone | ⟨ticket, job, symbol, rfl, hlock, hdeed⟩
      · refine h.quiet hmove' hnone fun k ticket job symbol hk hlock => ?_
        have hki : i ≠ k := by
          rintro rfl
          rw [hw] at hk
          cases hk
          have hfinished : ¬ job.finished = true := fun hfinished => by
            rw [Job.lock_of_finished hfinished] at hlock
            cases hlock
          have hdeed : Worker.deed i s.shared (.futures ticket job) =
              some (.handled ticket job s.shared) := if_neg hfinished
          have hact := hnone (.handled ticket job s.shared) hdeed
          rw [Deed.act, hlock] at hact
          cases hact
        show (s.jobs.set i w')[k]? = _
        rw [List.getElem?_set_ne hki]
        exact hk
      · rw [hdeed]
        cases hstep with
        | leave _ hfinished =>
            rw [Job.lock_of_finished hfinished] at hlock
            cases hlock
        | futures _ hfinished hjobstep => exact h.act hw hlock hfinished hjobstep
  | event hevent =>
      refine h.quiet hmove' (fun x hx => ?_) fun _ _ _ _ hi _ => hi
      cases hevent <;> cases hx <;> rfl

theorem turns_of_init (h : (floorSystem cfg parse).init s) : s.Turns [] :=
  ⟨ticketed_of_init h, locked_of_init h, by simp [turns], by simp [turns], by simp [turns]⟩

/-! ### Pops -/

/-- **The invariant of pops**: what is popped came before what waits. -/
structure Popped (s : Floor) (log : List Deed) : Prop where
  ticketed : s.Ticketed
  before : ∀ a ∈ pops log, s.shared.Before a
  sorted : (pops log).Pairwise (· > ·)

theorem pops_toList (hquiet : ∀ x ∈ deed, x.queues = false) (log : List Deed) :
    pops (deed.toList ++ log) = pops log := by
  cases deed with
  | none => rfl
  | some x =>
      have hx := hquiet x rfl
      cases x <;> first | rfl | cases hx

/-- **Every step keeps the invariant of pops.** -/
theorem Popped.move (h : s.Popped log) (hmove : Move cfg s s' deed) :
    s'.Popped (deed.toList ++ log) := by
  have hkept : ∀ a ∈ pops log, s'.shared.Before a := fun a ha =>
    (queueing_of_move hmove).before (h.before a ha)
  refine ⟨h.ticketed.move hmove, fun a ha => ?_, ?_⟩
  · cases queueing_of_move hmove with
    | push => exact hkept a ha
    | pop i hqueue htickets =>
        rcases List.mem_cons.1 ha with rfl | hold
        · exact (h.ticketed.shared.of_cons htickets hqueue).2
        · exact hkept a hold
    | still _ _ hquiet =>
        rw [pops_toList hquiet] at ha
        exact hkept a ha
  · cases queueing_of_move hmove with
    | push => exact h.sorted
    | pop i hqueue =>
        exact List.pairwise_cons.2
          ⟨fun a ha => (h.before a ha).2 _ (hqueue ▸ List.mem_cons_self), h.sorted⟩
    | still _ _ hquiet =>
        rw [pops_toList hquiet]
        exact h.sorted

theorem popped_of_init (h : (floorSystem cfg parse).init s) : s.Popped [] :=
  ⟨ticketed_of_init h, by simp [pops], List.Pairwise.nil⟩

/-! ### Handlers -/

/-- The workers run handlers of signals. -/
structure Handling (s : Floor) (log : List Deed) : Prop where
  jobs : ∀ (i : ℕ) (w : Worker), s.jobs[i]? = some w →
    ∀ ticket job, w = .futures ticket job → job.ofSignal = true
  handled : ∀ ticket job d, .handled ticket job d ∈ log → job.ofSignal = true

theorem Handling.move (h : s.Handling log) (hmove : Move cfg s s' deed) :
    s'.Handling (deed.toList ++ log) := by
  cases hmove with
  | start hstart =>
      obtain ⟨job, rfl⟩ := Worker.exists_of_canStart hstart
      exact ⟨Threads.forall_append (fun _ _ hw => by cases hw) h.jobs, h.handled⟩
  | work i hw hstep =>
      rename_i w w' d'
      have hold := h.jobs i w hw
      refine ⟨Threads.forall_set (fun ticket job heq => ?_) fun k other _ hk => h.jobs k other hk,
        fun ticket job d hmem => ?_⟩
      · cases hstep with
        | wake => split_ifs at heq
        | @pass q now =>
            have hrouted := Worker.routed_route cfg q
            rw [heq] at hrouted
            cases hrouted <;> rfl
        | futures ticket' hfinished hjob =>
            cases heq
            rw [Job.ofSignal_of_step hjob]
            exact hold _ _ rfl
        | _ => cases heq
      · rcases List.mem_append.1 hmem with hnew | hmem
        · rcases Worker.deed_cases (Option.mem_toList.1 hnew) with ⟨q, -, -, heq⟩ |
            ⟨q, now, -, heq⟩ | ⟨ticket', job', hw', -, heq⟩
          · cases heq
          · cases heq
          · cases heq
            exact hold _ _ hw'
        · exact h.handled ticket job d hmem
  | event hevent =>
      refine ⟨h.jobs, fun ticket job d hmem => ?_⟩
      rcases List.mem_append.1 hmem with hnew | hold
      · cases hevent <;> cases Option.mem_toList.1 hnew
      · exact h.handled ticket job d hold

theorem handling_of_init (h : (floorSystem cfg parse).init s) : s.Handling [] := by
  refine ⟨fun i w hw ticket job heq => ?_, by simp⟩
  rw [idle_of_init h hw] at heq
  cases heq

/-! ### One worker -/

/-- **The invariant of a single worker**: the others only close everything,
and what has taken effect came before what has not. -/
structure Single (s : Floor) (log : List Deed) : Prop where
  ticketed : s.Ticketed
  others : ∀ (i : ℕ) (w : Worker), s.jobs[i]? = some w → i = 0 ∨ ∃ job, w = .closeAll job
  before : ∀ symbol, ∀ a ∈ turns symbol log, s.shared.Before a ∧
    ∀ w, s.jobs[0]? = some w → ∀ b ∈ w.ticket, a ≤ b
  sorted : ∀ symbol, (turns symbol log).Pairwise (· ≥ ·)

/-- What has taken effect still comes first after a step. -/
theorem Single.before_move (h : s.Single log) (hmove : Move cfg s s' deed) {symbol : String} {a : ℕ}
    (ha : a ∈ turns symbol log) : s'.shared.Before a ∧
      ∀ w, s'.jobs[0]? = some w → ∀ b ∈ w.ticket, a ≤ b := by
  obtain ⟨hbefore, hfirst⟩ := h.before symbol a ha
  refine ⟨(queueing_of_move hmove).before hbefore, ?_⟩
  cases hmove with
  | start hstart =>
      obtain ⟨job, rfl⟩ := Worker.exists_of_canStart hstart
      intro w hw b hb
      rw [List.getElem?_append] at hw
      split at hw
      · exact hfirst w hw b hb
      · obtain rfl : w = .closeAll job := List.mem_singleton.1 (List.mem_of_getElem? hw)
        cases hb
  | work i hw hstep =>
      rename_i w w' d'
      intro w₀ hw₀ b hb
      by_cases hi : i = 0
      · subst hi
        obtain rfl : w' = w₀ := by
          rw [List.getElem?_set_self (List.getElem?_eq_some_iff.1 hw).1] at hw₀
          exact Option.some.inj hw₀
        -- the worker goes on with its signal, or takes one that came later
        rcases hstep.tickets.2 with ⟨-, hsub⟩ | ⟨q, -, rfl, hqueue⟩
        · exact hfirst w hw b (hsub b hb)
        · obtain rfl := Option.some.inj hb
          exact (hbefore.2 q (hqueue ▸ List.mem_cons_self)).le
      · rw [List.getElem?_set_ne hi] at hw₀
        exact hfirst w₀ hw₀ b hb
  | event => exact hfirst

/-- The others still only close everything. -/
theorem Single.others_move (h : s.Single log) (hmove : Move cfg s s' deed) :
    ∀ (i : ℕ) (w : Worker), s'.jobs[i]? = some w → i = 0 ∨ ∃ job, w = .closeAll job := by
  intro k other hk
  cases hmove with
  | start hstart =>
      rw [List.getElem?_append] at hk
      split at hk
      · exact h.others k other hk
      · obtain rfl := List.mem_singleton.1 (List.mem_of_getElem? hk)
        exact .inr (Worker.exists_of_canStart hstart)
  | work i hw hstep =>
      rename_i w w' d'
      by_cases hki : i = k
      · subst hki
        obtain rfl : w' = other := by
          rw [List.getElem?_set_self (List.getElem?_eq_some_iff.1 hw).1] at hk
          exact Option.some.inj hk
        refine (h.others i w hw).imp_right ?_
        rintro ⟨job, rfl⟩
        cases hstep
        exact ⟨_, rfl⟩
      · rw [List.getElem?_set_ne hki] at hk
        exact h.others k other hk
  | event => exact h.others k other hk

/-- A step under no lock. -/
theorem Single.quiet (h : s.Single log) (hmove : Move cfg s s' deed)
    (hact : ∀ x ∈ deed, x.act = none) : s'.Single (deed.toList ++ log) := by
  refine ⟨h.ticketed.move hmove, h.others_move hmove, fun symbol a ha => ?_, fun symbol => ?_⟩
  · rw [turns_toList hact] at ha
    exact h.before_move hmove ha
  · rw [turns_toList hact]
    exact h.sorted symbol

/-- **A step under the lock**, which is the single worker's. -/
theorem Single.act (h : s.Single log) {ticket : ℕ} {job : Job} {symbol : String} {w' : Worker}
    {d' : Desk} (hw : s.jobs[0]? = some (.futures ticket job)) (hlock : job.lock = some symbol)
    (hstep : Worker.Move cfg s.shared (.futures ticket job) w' d') :
    Single ⟨d', s.jobs.set 0 w'⟩ (.handled ticket job s.shared :: log) := by
  have hmove : Move cfg s ⟨d', s.jobs.set 0 w'⟩ (Worker.deed 0 s.shared (.futures ticket job)) :=
    .work 0 hw hstep
  have hact : (Deed.handled ticket job s.shared).act = some (ticket, symbol) := by
    rw [Deed.act, hlock]
    rfl
  have hticket : d'.Before ticket ∧ ∀ w, (s.jobs.set 0 w')[0]? = some w →
      ∀ b ∈ w.ticket, ticket ≤ b := by
    refine ⟨(queueing_of_move hmove).before (h.ticketed.jobs 0 _ hw ticket rfl), ?_⟩
    intro other hother b hb
    rw [List.getElem?_set_self (List.getElem?_eq_some_iff.1 hw).1] at hother
    obtain rfl := Option.some.inj hother
    rcases hstep.tickets.2 with ⟨-, hsub⟩ | ⟨_, hwait, -⟩
    · exact (Option.some.inj (hsub b hb)).le
    · cases hwait
  refine ⟨h.ticketed.move hmove, h.others_move hmove, fun symbol' a ha => ?_, fun symbol' => ?_⟩
  · rw [turns_cons_of_act hact] at ha
    split_ifs at ha
    · rcases List.mem_cons.1 ha with rfl | hold
      · exact hticket
      · exact h.before_move hmove hold
    · exact h.before_move hmove ha
  · rw [turns_cons_of_act hact]
    split_ifs
    · -- what has taken effect comes before the ticket of the worker
      refine List.pairwise_cons.2 ⟨fun a ha => ?_, h.sorted symbol'⟩
      exact (h.before symbol' a ha).2 _ hw ticket rfl
    · exact h.sorted symbol'

/-- **Every step keeps the invariant of a single worker.** -/
theorem Single.move (h : s.Single log) (hmove : Move cfg s s' deed) :
    s'.Single (deed.toList ++ log) := by
  have hmove' := hmove
  cases hmove with
  | start => exact h.quiet hmove' (by simp)
  | work i hw hstep =>
      rename_i w w' d'
      rcases Worker.act_deed (w := w) i s.shared with
        hnone | ⟨ticket, job, symbol, rfl, hlock, hdeed⟩
      · exact h.quiet hmove' hnone
      · obtain rfl : i = 0 := (h.others i _ hw).resolve_right (by simp)
        rw [hdeed]
        exact h.act hw hlock hstep
  | event hevent =>
      refine h.quiet hmove' fun x hx => ?_
      cases hevent <;> cases hx <;> rfl

theorem single_of_init (hworkers : cfg.workers = 1) (h : (floorSystem cfg parse).init s) :
    s.Single [] := by
  refine ⟨ticketed_of_init h, fun i w hw => ?_, by simp [turns], by simp [turns]⟩
  rw [h.1, hworkers] at hw
  exact .inl (by simpa using (List.getElem?_eq_some_iff.1 hw).1)

end Floor

/-- **The order of signals.** In every run, signals are popped in the order
in which they were pushed; a futures handler that has not its symbol's
lock leaves the book alone; the signals of one symbol take effect one
after the other, each in one turn under the lock; and where there is one
worker, in the order in which they were pushed. -/
theorem signals_in_turn {cfg : DeskConfig} {parse : Text → Option Json} {t : Floor × List Deed}
    (h : (loggedFloor cfg parse).Reachable System.anyStep t) :
    (pops t.2).Pairwise (· > ·) ∧
      (∀ ticket job d, .handled ticket job d ∈ t.2 → job.lock = none → ∀ job' engine,
        job.step cfg.engine d.engine = some (job', engine) →
          engine.positions = d.engine.positions) ∧
      (∀ symbol a b, [a, b, a].Sublist (turns symbol t.2) → b = a) ∧
      (cfg.workers = 1 → ∀ symbol, (turns symbol t.2).Pairwise (· ≥ ·)) := by
  have hpopped : t.1.Popped t.2 :=
    Floor.log_invariant (I := Floor.Popped) (fun _ hs => Floor.popped_of_init hs)
      (fun _ _ _ hI _ hmove => hI.move hmove) h
  have hhandling : t.1.Handling t.2 :=
    Floor.log_invariant (I := Floor.Handling) (fun _ hs => Floor.handling_of_init hs)
      (fun _ _ _ hI _ hmove => hI.move hmove) h
  have hturns : t.1.Turns t.2 :=
    Floor.log_invariant (I := Floor.Turns) (fun _ hs => Floor.turns_of_init hs)
      (fun _ _ _ hI _ hmove => hI.move hmove) h
  refine ⟨hpopped.sorted, fun ticket job d hmem hlock job' engine hstep => ?_, hturns.blocks,
    fun hworkers => ?_⟩
  · exact Job.positions_of_step hstep (hhandling.handled ticket job d hmem) hlock
  · have hsingle : t.1.Single t.2 :=
      Floor.log_invariant (I := Floor.Single) (fun _ hs => Floor.single_of_init hworkers hs)
        (fun _ _ _ hI _ hmove => hI.move hmove) h
    exact hsingle.sorted

/-! ### A stop-loss that overtakes its entry -/

namespace OrderRun

open FloorRun

/-- The first byte says whether it is the buy or the stop-loss. -/
def parse (body : Text) : Option Json := if body = [0] then some (buy "BTCUSDT") else some stopLoss

/-- The buy comes before the stop-loss, and the first worker pops it; the
second one handles the stop-loss first. -/
def overtaken : List FloorLabel :=
  request 0 {} :: request 1 {} :: (works 0 3 ++ works 1 9 ++ works 0 19)

/-- Both come, and one worker handles both. -/
def inTurn : List FloorLabel := request 0 {} :: request 1 {} :: works 0 34

end OrderRun

theorem signals_in_turn_alone :
    (pops (FloorRun.after (FloorRun.shadow 1) OrderRun.parse ∅ OrderRun.inTurn).2).Pairwise
        (· > ·) ∧
      (turns "BTCUSDT"
        (FloorRun.after (FloorRun.shadow 1) OrderRun.parse ∅ OrderRun.inTurn).2).Pairwise
          (· ≥ ·) := by
  have hreachable : (loggedFloor (FloorRun.shadow 1) OrderRun.parse).Reachable System.anyStep
      (FloorRun.after (FloorRun.shadow 1) OrderRun.parse ∅ OrderRun.inTurn) :=
    FloorRun.reachable_after (by decide +kernel)
  obtain ⟨hpops, -, -, hsingle⟩ := signals_in_turn hreachable
  exact ⟨hpops, hsingle rfl "BTCUSDT"⟩

/-- **A stop-loss overtakes the entry it follows**: it finds no position,
and the position that is opened then stays. -/
theorem exit_before_entry :
    (loggedFloor (FloorRun.shadow 4) OrderRun.parse).Reachable System.anyStep
        (FloorRun.after (FloorRun.shadow 4) OrderRun.parse ∅ OrderRun.overtaken) ∧
      [0, 1].Sublist (turns "BTCUSDT"
        (FloorRun.after (FloorRun.shadow 4) OrderRun.parse ∅ OrderRun.overtaken).2) ∧
      ((FloorRun.after (FloorRun.shadow 4) OrderRun.parse ∅
        OrderRun.overtaken).1.shared.engine.positions.entries.map fun e => e.2.tag) =
          [("BTCUSDT", "long")] :=
  ⟨FloorRun.reachable_after (by decide +kernel), by decide +kernel, by decide +kernel⟩

end WebhookTrader
