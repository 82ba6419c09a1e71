import WebhookTrader.Engine.Steps

/-!
# What a handler owns

A handler owns its symbol's lock from the moment it has it until it gives
it back, and an entry its order number from the moment it has drawn it
until it has registered. Nothing that happens in the engine lets two
handlers own the same lock or number, so what a lock or a number protects
need not be argued again.
-/

namespace WebhookTrader

namespace Job

/-! ## Locks -/

/-- The symbol whose lock the handler holds. -/
def lock : Job → Option String
  | entry j => if j.pc.holds then some j.sig.symbol else none
  | tp j => if j.pc.holds then some j.sig.symbol else none
  | sl j => if j.pc.holds then some j.sig.symbol else none
  | closeAll _ => none

/-- No lock is held twice. -/
def Apart (job other : Job) : Prop := ∀ symbol ∈ job.lock, symbol ∉ other.lock

theorem Apart.symm {job other : Job} (h : Apart job other) : Apart other job :=
  fun symbol hother hjob => h symbol hjob hother

/-- Holding no more locks keeps handlers apart. -/
theorem Apart.mono {job job' other : Job} (h : Apart job other)
    (hlock : ∀ symbol ∈ job'.lock, symbol ∈ job.lock) : Apart job' other ∧ Apart other job' :=
  have hapart : Apart job' other := fun symbol hsymbol => h symbol (hlock symbol hsymbol)
  ⟨hapart, hapart.symm⟩

/-! ## Order numbers -/

/-- The order number the handler may still register under. -/
def number : Job → Option ℕ
  | entry j => if j.pc.numbered then some j.oid else none
  | _ => none

/-- **What a handler owns is taken**: its lock is among the held ones, and
its number has been drawn. -/
structure Owns (s : Shared) (job : Job) : Prop where
  lock : ∀ symbol ∈ job.lock, symbol ∈ s.locked
  number : ∀ oid ∈ job.number, oid < s.nextOid

/-- Nothing is owned twice. -/
structure Disjoint (job other : Job) : Prop where
  lock : Apart job other
  number : ∀ oid ∈ job.number, oid ∉ other.number

theorem Disjoint.symm {job other : Job} (h : Disjoint job other) : Disjoint other job :=
  ⟨h.lock.symm, fun oid hother hjob => h.number oid hjob hother⟩

variable {s s' : Shared} {job job' other : Job}

/-- Owning no more keeps handlers disjoint. -/
theorem Disjoint.mono (h : Disjoint job other) (hlock : ∀ symbol ∈ job'.lock, symbol ∈ job.lock)
    (hnumber : ∀ oid ∈ job'.number, oid ∈ job.number) :
    Disjoint job' other ∧ Disjoint other job' :=
  have hdisjoint : Disjoint job' other :=
    ⟨(h.lock.mono hlock).1, fun oid hoid => h.number oid (hnumber oid hoid)⟩
  ⟨hdisjoint, hdisjoint.symm⟩

theorem Owns.mono (h : Owns s job) (hlocked : ∀ symbol ∈ job.lock, symbol ∈ s'.locked)
    (hnext : s.nextOid ≤ s'.nextOid) : Owns s' job :=
  ⟨hlocked, fun oid hoid => (h.number oid hoid).trans_le hnext⟩

/-- A handler that has not started owns nothing. -/
theorem owns_nothing_of_fresh (h : job.fresh = true) : job.lock = none ∧ job.number = none := by
  cases job <;> simp_all [fresh, lock, number, EntryPc.holds, EntryPc.numbered, EntryPc.reserves,
    ClosePc.holds]

/-! ## What a step does to them -/

/-- **The effects of a handler's step on what it owns.** -/
inductive Transfer (s s' : Shared) (job job' : Job) : Prop
  | keep (hlocked : s'.locked = s.locked) (hnext : s'.nextOid = s.nextOid)
      (hlock : ∀ symbol ∈ job'.lock, symbol ∈ job.lock)
      (hnumber : ∀ oid ∈ job'.number, oid ∈ job.number)
  | acquire (symbol : String) (hfree : symbol ∉ s.locked) (hlocked : s'.locked = symbol :: s.locked)
      (hnext : s'.nextOid = s.nextOid) (hlock : job'.lock = some symbol)
      (hnumber : ∀ oid ∈ job'.number, oid ∈ job.number)
  | release (symbol : String) (hheld : symbol ∈ job.lock)
      (hlocked : s'.locked = s.locked.erase symbol) (hnext : s'.nextOid = s.nextOid)
      (hlock : job'.lock = none) (hnumber : ∀ oid ∈ job'.number, oid ∈ job.number)
  | draw (hlocked : s'.locked = s.locked) (hnext : s'.nextOid = s.nextOid + 1)
      (hlock : ∀ symbol ∈ job'.lock, symbol ∈ job.lock)
      (hnumber : ∀ oid ∈ job'.number, oid = s.nextOid)

variable {cfg : EngineConfig}

/-- An entry draws its number in one step, and in every other has none or
the one it had. -/
theorem number_of_step {j j' : EntryJob} (h : j.step cfg s = some (j', s')) :
    (s'.nextOid = s.nextOid ∧ ∀ oid ∈ (entry j').number, oid ∈ (entry j).number) ∨
      (j.pc = .takeOid ∧ s'.nextOid = s.nextOid + 1 ∧
        ∀ oid ∈ (entry j').number, oid = s.nextOid) := by
  have hkept : j'.oid = j.oid → (j'.pc.numbered = true → j.pc.numbered = true) →
      ∀ oid ∈ (entry j').number, oid ∈ (entry j).number := by
    intro hoid hnumbered oid hmem
    simp only [number, Option.mem_def, Option.ite_none_right_eq_some, hoid] at hmem ⊢
    exact ⟨hnumbered hmem.1, hmem.2⟩
  cases EntryJob.counts_of_step h with
  | number hpc hpc' hoid hnext =>
      refine .inr ⟨hpc, hnext, fun oid hmem => ?_⟩
      simp only [number, Option.mem_def, Option.ite_none_right_eq_some, Option.some.injEq] at hmem
      exact hmem.2.symm.trans hoid
  | place again hpc hpc' hoid hnext =>
      exact .inl ⟨hnext, hkept hoid fun _ => by rw [hpc]; rfl⟩
  | finish again resp hpc hpc' hoid hnext =>
      exact .inl ⟨hnext, hkept hoid fun _ => by rw [hpc]; rfl⟩
  | count hpc hpc' hoid hnext => exact .inl ⟨hnext, hkept hoid fun _ => by rw [hpc]; rfl⟩
  | still hoid hnext hrisk hnumbered => exact .inl ⟨hnext, hkept hoid hnumbered⟩

theorem transfer_of_entry {j j' : EntryJob} (h : j.step cfg s = some (j', s')) :
    Transfer s s' (.entry j) (.entry j') := by
  have hsig := EntryJob.sig_of_step h
  have hnumber := number_of_step h
  have hlock : j.pc.holds = true → ∀ symbol ∈ (entry j').lock, symbol ∈ (entry j).lock := by
    intro hholds symbol hsymbol
    simp only [lock, Option.mem_def, Option.ite_none_right_eq_some, hsig] at hsymbol ⊢
    exact ⟨hholds, hsymbol.2⟩
  have hquiet : s'.locked = s.locked → j.pc.holds = true → Transfer s s' (.entry j) (.entry j') := by
    intro hlocked hholds
    rcases hnumber with ⟨hnext, hnumber⟩ | ⟨-, hnext, hnumber⟩
    · exact .keep hlocked hnext (hlock hholds) hnumber
    · exact .draw hlocked hnext (hlock hholds) hnumber
  -- a number is drawn with the lock in hand
  have hstill : j.pc ≠ .takeOid → s'.nextOid = s.nextOid ∧
      ∀ oid ∈ (entry j').number, oid ∈ (entry j).number := fun hne =>
    hnumber.resolve_right fun hdraw => hne hdraw.1
  cases EntryJob.move_of_step h with
  | giveUp hpc =>
      obtain ⟨hnext, hnumber⟩ := hstill (by rw [hpc]; exact nofun)
      exact .keep rfl hnext nofun hnumber
  | acquire pc hpc hfree hholds =>
      obtain ⟨hnext, hnumber⟩ := hstill (by rw [hpc]; exact nofun)
      exact .acquire j.sig.symbol hfree rfl hnext (if_pos hholds) hnumber
  | quiet _ _ _ _ _ hholds => exact hquiet rfl hholds
  | reject hpc | allow hpc => exact hquiet rfl (by rw [hpc]; rfl)
  | register isReal hpc => exact hquiet rfl (by rw [hpc]; cases isReal <;> rfl)
  | release hpc =>
      obtain ⟨hnext, hnumber⟩ := hstill (by rw [hpc]; exact nofun)
      exact .release j.sig.symbol (by simp [lock, hpc, EntryPc.holds]) rfl hnext rfl hnumber

/-- A closing handler, as one of the handlers. -/
theorem transfer_of_close {c : Closing} {f : CloseJob → Job} {j j' : CloseJob}
    (hlock : ∀ j, (f j).lock = if j.pc.holds then some j.sig.symbol else none)
    (hnumber : ∀ j, (f j).number = none) (h : j.Move c s j' s') : Transfer s s' (f j) (f j') := by
  have hnone : ∀ oid ∈ (f j').number, oid ∈ (f j).number := by simp [hnumber]
  cases h with
  | giveUp => exact .keep rfl rfl (by simp [hlock, CloseJob.goto, ClosePc.holds]) hnone
  | acquire _ hfree => exact .acquire j.sig.symbol hfree rfl rfl (by rw [hlock]; rfl) hnone
  | quiet j' _ hsig hholds hholds' =>
      exact .keep rfl rfl (by simp [hlock, hholds, hholds', hsig]) hnone
  | settle hholds =>
      refine .keep CloseJob.settle_closes.locked CloseJob.settle_closes.nextOid ?_ hnone
      intro symbol hsymbol
      rw [hlock] at hsymbol ⊢
      rw [if_pos hholds]
      exact hsymbol
  | release hpc =>
      exact .release j.sig.symbol (by simp [hlock, hpc, ClosePc.holds]) rfl rfl (by rw [hlock]; rfl)
        hnone

theorem transfer_of_step (h : job.step cfg s = some (job', s')) : Transfer s s' job job' := by
  cases job with
  | entry j =>
      obtain ⟨j', rfl, hstep⟩ := Job.of_step_map h
      exact transfer_of_entry hstep
  | tp j =>
      obtain ⟨j', rfl, hstep⟩ := Job.of_step_map h
      exact transfer_of_close (f := Job.tp) (fun _ => rfl) (fun _ => rfl)
        (CloseJob.move_of_step hstep)
  | sl j =>
      obtain ⟨j', rfl, hstep⟩ := Job.of_step_map h
      exact transfer_of_close (f := Job.sl) (fun _ => rfl) (fun _ => rfl)
        (CloseJob.move_of_step hstep)
  | closeAll j =>
      obtain ⟨j', rfl, hstep⟩ := Job.of_step_map h
      cases CloseAllJob.move_of_step hstep with
      | quiet => exact .keep rfl rfl nofun nofun
      | settle =>
          exact .keep CloseAllJob.settle_closes.locked CloseAllJob.settle_closes.nextOid nofun nofun

/-- A step draws the next number at most. -/
theorem Transfer.numbers (h : Transfer s s' job job') :
    s.nextOid ≤ s'.nextOid ∧ ∀ oid ∈ job'.number, oid ∈ job.number ∨ oid = s.nextOid := by
  cases h with
  | keep _ hnext _ hnumber | acquire _ _ _ hnext _ hnumber | release _ _ _ hnext _ hnumber =>
      exact ⟨hnext.ge, fun oid hoid => .inl (hnumber oid hoid)⟩
  | draw _ hnext _ hnumber =>
      exact ⟨hnext ▸ Nat.le_succ _, fun oid hoid => .inr (hnumber oid hoid)⟩

end Job

/-- No event takes or gives back a lock, and none draws a number. -/
theorem Event.owners_of_apply {cfg : EngineConfig} {e : Event} {s s' : Shared}
    (h : e.apply cfg s = some s') : s'.locked = s.locked ∧ s'.nextOid = s.nextOid := by
  cases Event.move_of_apply h with
  | closes _ hcloses => exact ⟨hcloses.locked, hcloses.nextOid⟩
  | _ => exact ⟨rfl, rfl⟩

namespace Engine

/-- **The invariant**: what is owned is taken, and owned once. -/
abbrev Owned (s : Engine) : Prop := s.Holds (fun _ => True) Job.Owns Job.Disjoint

variable {cfg : EngineConfig} {s t : Engine} {l : EngineLabel} {i : ℕ} {job job' : Job}
  {shared' : Shared}

theorem Owned.work (h : s.Owned) (hjob : s.jobs[i]? = some job)
    (htransfer : Job.Transfer s.shared shared' job job') :
    Owned ⟨shared', s.jobs.set i job'⟩ := by
  have howns := h.jobs i job hjob
  cases htransfer with
  | keep hlocked hnext hlock hnumber =>
      refine Threads.Holds.work h hjob trivial ⟨fun symbol hsymbol => ?_, fun oid hoid => ?_⟩ ?_ ?_
      · rw [hlocked]
        exact howns.lock symbol (hlock symbol hsymbol)
      · rw [hnext]
        exact howns.number oid (hnumber oid hoid)
      · exact fun other hother _ => hother.mono (hlocked ▸ hother.lock) hnext.ge
      · exact fun other _ hdisjoint => hdisjoint.mono hlock hnumber
  | acquire symbol hfree hlocked hnext hlock hnumber =>
      refine Threads.Holds.work h hjob trivial ⟨fun symbol' hsymbol => ?_, fun oid hoid => ?_⟩ ?_ ?_
      · obtain rfl := Option.some.inj (hlock.symm.trans hsymbol)
        exact hlocked ▸ List.mem_cons_self
      · rw [hnext]
        exact howns.number oid (hnumber oid hoid)
      · refine fun other hother _ => hother.mono (fun symbol' hsymbol => ?_) hnext.ge
        exact hlocked ▸ List.mem_cons_of_mem _ (hother.lock symbol' hsymbol)
      · intro other hother hdisjoint
        -- nobody holds a free lock
        have hapart : Job.Apart job' other := by
          intro symbol' hsymbol hsymbol'
          obtain rfl := Option.some.inj (hlock.symm.trans hsymbol)
          exact hfree (hother.lock _ hsymbol')
        have hnew : Job.Disjoint job' other :=
          ⟨hapart, fun oid hoid => hdisjoint.number oid (hnumber oid hoid)⟩
        exact ⟨hnew, hnew.symm⟩
  | release symbol hheld hlocked hnext hlock hnumber =>
      have hnone : ∀ symbol ∈ job'.lock, symbol ∈ job.lock := by
        intro symbol' hsymbol
        rw [hlock] at hsymbol
        cases hsymbol
      refine Threads.Holds.work h hjob trivial ⟨fun symbol' hsymbol => ?_, fun oid hoid => ?_⟩ ?_ ?_
      · rw [hlock] at hsymbol
        cases hsymbol
      · rw [hnext]
        exact howns.number oid (hnumber oid hoid)
      · refine fun other hother hdisjoint => hother.mono (fun symbol' hsymbol => ?_) hnext.ge
        -- the lock given back is nobody else's
        rw [hlocked, List.mem_erase_of_ne]
        · exact hother.lock symbol' hsymbol
        · rintro rfl
          exact hdisjoint.lock symbol' hheld hsymbol
      · exact fun other _ hdisjoint => hdisjoint.mono hnone hnumber
  | draw hlocked hnext hlock hnumber =>
      refine Threads.Holds.work h hjob trivial ⟨fun symbol hsymbol => ?_, fun oid hoid => ?_⟩ ?_ ?_
      · rw [hlocked]
        exact howns.lock symbol (hlock symbol hsymbol)
      · rw [hnumber oid hoid, hnext]
        exact Nat.lt_succ_self _
      · exact fun other hother _ => hother.mono (hlocked ▸ hother.lock) (hnext ▸ Nat.le_succ _)
      · intro other hother hdisjoint
        -- every number drawn before is smaller
        have hnew : Job.Disjoint job' other :=
          ⟨(hdisjoint.lock.mono hlock).1, fun oid hoid hoid' =>
            absurd (hnumber oid hoid) (hother.number oid hoid').ne⟩
        exact ⟨hnew, hnew.symm⟩

/-- **Every step keeps the invariant.** -/
theorem owned_next (h : s.Owned) (hnext : (engineSystem cfg).next s l = some t) : t.Owned := by
  cases move_of_next hnext with
  | start job hfresh =>
      obtain ⟨hlock, hnumber⟩ := Job.owns_nothing_of_fresh hfresh
      have hdisjoint : ∀ other, Job.Disjoint job other := fun other =>
        ⟨fun symbol hsymbol => by simp [hlock] at hsymbol,
          fun oid hoid => by simp [hnumber] at hoid⟩
      exact Threads.Holds.start h ⟨by simp [hlock], by simp [hnumber]⟩
        fun other => ⟨hdisjoint other, (hdisjoint other).symm⟩
  | work i hjob hstep => exact h.work hjob (Job.transfer_of_step hstep)
  | event e happly =>
      obtain ⟨hlocked, hnext⟩ := Event.owners_of_apply happly
      exact Threads.Holds.event h trivial fun i job hjob =>
        (h.jobs i job hjob).mono (hlocked ▸ (h.jobs i job hjob).lock) hnext.ge

theorem owned_of_init (h : (engineSystem cfg).init s) : s.Owned := Threads.Holds.nil trivial h.1

theorem owned_of_reachable (h : (engineSystem cfg).Reachable System.anyStep t) : t.Owned :=
  h.invariant (I := Owned) (fun _ hinit => owned_of_init hinit)
    fun _ _ _ howned _ hnext => owned_next howned hnext

end Engine

/-! ## A live engine to run things on -/

namespace LiveRun

/-- A live engine with an empty book. -/
def start : Engine where
  shared := { modes := Modes.start false, balance := 1000, peakBalance := 1000 }

theorem start_init {cfg : EngineConfig} (hlive : cfg.trading.shadowMode = false) :
    (engineSystem cfg).init start :=
  ⟨rfl, ⟨by rw [hlive]; rfl, rfl, ⟨1000, rfl⟩, rfl, rfl⟩⟩

/-- An entry that opens a long position with a real order. -/
def buy (symbol : String) : Job :=
  .entry
    { sig := { symbol, action := "buy", timeframe := "15", price := 50, tp1 := 60 }
      rd := { symbolTier := "A" } }

/-- The signal that closes a long position at a level. -/
def closeSignal (symbol tpLevel : String) : WebhookSignal where
  symbol
  price := 60
  signalDirection := "bull"
  tpLevel

/-- One handler alone, a number of steps. -/
def works (i n : ℕ) : List EngineLabel := List.replicate n (.work i)

end LiveRun

end WebhookTrader
