import WebhookTrader.Engine.Ownership
import WebhookTrader.Engine.Reconcile

/-!
# One entry per symbol and side

An entry looks for its symbol in the book when it is admitted, and the
symbol's lock keeps every other handler of the symbol out until it has
registered its position. A sync takes no lock: what it imports in between
is registered a second time. And where it updates a position in place, it
does not look whether the book has the new side already.
-/

namespace WebhookTrader

/-! ## Gaps -/

namespace Job

/-- The symbol and side of an entry that is admitted and not yet
registered. -/
def gap : Job → Option (String × String)
  | entry j => if j.pc.reserves then some (j.sig.symbol, j.side) else none
  | _ => none

theorem lock_of_gap {job : Job} {tag : String × String} (h : tag ∈ job.gap) :
    tag.1 ∈ job.lock := by
  cases job with
  | entry j =>
      simp only [gap, Option.mem_def, Option.ite_none_right_eq_some, Option.some.injEq] at h
      obtain ⟨hreserves, rfl⟩ := h
      simp [lock, EntryPc.holds_of_reserves hreserves]
  | _ => cases h

/-- **What a handler relies on**: its lock is taken, and the book has
nothing of what it is about to register. -/
structure Sound (s : Shared) (job : Job) : Prop where
  locked : ∀ symbol ∈ job.lock, symbol ∈ s.locked
  absent : ∀ tag ∈ job.gap, ∀ e ∈ s.positions.entries, e.2.tag ≠ tag

variable {s s' : Shared} {job job' other : Job}

/-- Where the book has lost at most, and no lock is gone, a handler goes on
relying on what it did. -/
theorem Sound.mono (h : Sound s job) (hlocked : ∀ symbol ∈ job.lock, symbol ∈ s'.locked)
    (hbook : s'.positions.Within ManagedPosition.shape s.positions) : Sound s' job where
  locked := hlocked
  absent tag htag e he hsame := by
    obtain ⟨e', he', hshape⟩ := hbook.exists_of_mem he
    refine h.absent tag htag e' he' (Eq.trans ?_ hsame)
    simp only [ManagedPosition.shape, Prod.mk.injEq] at hshape
    exact Prod.ext hshape.1 hshape.2.2

end Job

theorem Book.uniqueBy_of_within {book book' : Book} (h : book.UniqueBy ManagedPosition.tag)
    (hbook : book'.Within ManagedPosition.shape book) : book'.UniqueBy ManagedPosition.tag :=
  Table.UniqueBy.within (g := ManagedPosition.shape) (f := fun shape => (shape.1, shape.2.2)) h
    hbook

namespace Engine

/-- **The invariant**: no symbol and side is in the book twice, every
handler may rely on what it relies on, and no lock is held twice. -/
abbrev Kept (s : Engine) : Prop :=
  s.Holds (fun shared => shared.positions.UniqueBy ManagedPosition.tag) Job.Sound Job.Apart

variable {cfg : EngineConfig} {s t : Engine} {i : ℕ} {job job' : Job} {shared' : Shared}
  {symbol : String}

/-! ## A handler's step -/

/-- A step after which the book has lost at most, no lock has changed
hands, and no new gap is open. -/
theorem Kept.quiet (h : s.Kept) (hjob : s.jobs[i]? = some job)
    (hlocked : shared'.locked = s.shared.locked)
    (hbook : shared'.positions.Within ManagedPosition.shape s.shared.positions)
    (hlock : ∀ symbol ∈ job'.lock, symbol ∈ job.lock) (hgap : ∀ tag ∈ job'.gap, tag ∈ job.gap) :
    Kept ⟨shared', s.jobs.set i job'⟩ := by
  have hsound := h.jobs i job hjob
  refine h.work hjob (Book.uniqueBy_of_within h.shared hbook) ?_ ?_ ?_
  · have hkept : Job.Sound shared' job :=
      hsound.mono (fun symbol hsymbol => hlocked ▸ hsound.locked symbol hsymbol) hbook
    exact ⟨fun symbol hsymbol => hkept.locked symbol (hlock symbol hsymbol),
      fun tag htag => hkept.absent tag (hgap tag htag)⟩
  · exact fun other hother _ =>
      hother.mono (fun symbol hsymbol => hlocked ▸ hother.locked symbol hsymbol) hbook
  · exact fun other _ hapart => hapart.mono hlock

/-- Taking a free lock. -/
theorem Kept.acquire (h : s.Kept) (hjob : s.jobs[i]? = some job)
    (hfree : symbol ∉ s.shared.locked) (hlock : job'.lock = some symbol) (hgap : job'.gap = none) :
    Kept ⟨{ s.shared with locked := symbol :: s.shared.locked }, s.jobs.set i job'⟩ := by
  refine h.work hjob h.shared ⟨fun symbol' hsymbol => ?_, fun tag htag => ?_⟩ ?_ ?_
  · obtain rfl := Option.some.inj (hlock ▸ hsymbol)
    exact List.mem_cons_self
  · rw [hgap] at htag
    cases htag
  · exact fun other hother _ =>
      hother.mono
        (fun symbol hsymbol => List.mem_cons_of_mem _ (hother.locked symbol hsymbol)) .refl
  · intro other hother _
    have hapart : Job.Apart job' other := by
      intro symbol' hsymbol hsymbol'
      obtain rfl := Option.some.inj (hlock ▸ hsymbol)
      exact hfree (hother.locked _ hsymbol')
    exact ⟨hapart, hapart.symm⟩

/-- Giving a lock back. -/
theorem Kept.release (h : s.Kept) (hjob : s.jobs[i]? = some job) (hlock : symbol ∈ job.lock)
    (hlock' : job'.lock = none) (hgap : job'.gap = none) :
    Kept ⟨{ s.shared with locked := s.shared.locked.erase symbol }, s.jobs.set i job'⟩ := by
  refine h.work hjob h.shared ⟨fun symbol' hsymbol => ?_, fun tag htag => ?_⟩ ?_ ?_
  · rw [hlock'] at hsymbol
    cases hsymbol
  · rw [hgap] at htag
    cases htag
  · refine fun other hother hapart => hother.mono (fun symbol' hsymbol => ?_) .refl
    -- the erased symbol is nobody else's
    refine (List.mem_erase_of_ne ?_).2 (hother.locked symbol' hsymbol)
    rintro rfl
    exact hapart symbol' hlock hsymbol
  · refine fun other _ hapart => hapart.mono fun symbol' hsymbol => ?_
    rw [hlock'] at hsymbol
    cases hsymbol

/-- An admission opens a gap, for a symbol the book does not have. -/
theorem Kept.allow (h : s.Kept) {j j' : EntryJob} {portRisk : PortfolioRisk}
    (hjob : s.jobs[i]? = some (Job.entry j)) (hholds : j.pc.holds = true) (hsig : j'.sig = j.sig)
    (hfree : j.conflicts s.shared.positions = false) :
    Kept ⟨{ s.shared with portRisk }, s.jobs.set i (.entry j')⟩ := by
  have hlock : ∀ symbol ∈ (Job.entry j').lock, symbol ∈ (Job.entry j).lock := by
    intro symbol hsymbol
    simp only [Job.lock, Option.mem_def, Option.ite_none_right_eq_some, hsig] at hsymbol
    simpa [Job.lock, hholds] using hsymbol.2
  refine h.work hjob h.shared ⟨fun symbol hsymbol => ?_, fun tag htag e he => ?_⟩ ?_ ?_
  · exact (h.jobs i _ hjob).locked symbol (hlock symbol hsymbol)
  · simp only [Job.gap, Option.mem_def, Option.ite_none_right_eq_some, Option.some.injEq] at htag
    obtain ⟨-, rfl⟩ := htag
    have hside : j'.side = j.holdSide.text := by
      rw [← EntryJob.side_eq, EntryJob.side, hsig, EntryJob.side]
    rw [hsig, hside]
    exact EntryJob.tag_ne_of_conflicts hfree he j.holdSide
  · exact fun other hother _ => hother.mono hother.locked .refl
  · exact fun other _ hapart => hapart.mono hlock

/-- **A registration closes the gap.** The book has nothing of the symbol
and side, and the other gaps are of other symbols. -/
theorem Kept.register (h : s.Kept) {j : EntryJob} {isReal : Bool}
    (hjob : s.jobs[i]? = some (Job.entry j)) (hreserves : j.pc.reserves = true) :
    Kept ⟨j.register isReal s.shared, s.jobs.set i (.entry (j.goto .unlock))⟩ := by
  have hsound := h.jobs i _ hjob
  have hgap : (j.sig.symbol, j.side) ∈ (Job.entry j).gap := by simp [Job.gap, hreserves]
  have hlock : j.sig.symbol ∈ (Job.entry j).lock := Job.lock_of_gap hgap
  have hsame : (Job.entry (j.goto .unlock)).lock = (Job.entry j).lock := by
    simp only [Job.lock, EntryPc.holds_of_reserves hreserves]
    rfl
  refine h.work hjob ?_ ⟨fun symbol hsymbol => ?_, fun tag htag => by cases htag⟩ ?_ ?_
  · exact h.shared.insert fun e he _ => hsound.absent _ hgap e he
  · exact hsound.locked symbol (hsame ▸ hsymbol)
  · refine fun other hother hapart => ⟨hother.locked, fun tag htag e he => ?_⟩
    rcases Table.mem_insert.1 he with rfl | ⟨-, hold⟩
    · -- the other gap would be of the same symbol, and hold its lock
      rintro rfl
      exact hapart _ hlock (Job.lock_of_gap htag)
    · exact hother.absent tag htag e hold
  · exact fun other _ hapart => hapart.mono fun symbol hsymbol => hsame ▸ hsymbol

theorem Kept.entry (h : s.Kept) {j j' : EntryJob} (hjob : s.jobs[i]? = some (Job.entry j))
    (hmove : j.Move cfg s.shared j' shared') : Kept ⟨shared', s.jobs.set i (.entry j')⟩ := by
  cases hmove with
  | giveUp =>
      exact h.quiet hjob rfl .refl (fun _ hlock => by cases hlock) fun _ hgap => by cases hgap
  | acquire pc _ hfree hholds hreserves =>
      exact h.acquire hjob hfree (by simp [Job.lock, EntryJob.goto, hholds])
        (by simp [Job.gap, EntryJob.goto, hreserves])
  | quiet j' _ _ _ hsig hholds hholds' hreserves =>
      refine h.quiet hjob rfl .refl (fun symbol hlock => ?_) fun tag hgap => ?_
      · simpa [Job.lock, hholds, hholds', hsig] using hlock
      · simp only [Job.gap, Option.mem_def, Option.ite_none_right_eq_some, hsig, EntryJob.side]
          at hgap ⊢
        exact ⟨hreserves hgap.1, hgap.2⟩
  | reject hpc =>
      exact h.quiet hjob rfl .refl
        (fun symbol hlock => by simpa [Job.lock, hpc, EntryPc.holds, EntryJob.goto] using hlock)
        fun _ hgap => by cases hgap
  | allow hpc hfree => exact h.allow hjob (by rw [hpc]; rfl) rfl hfree
  | register isReal hpc => exact h.register hjob (by rw [hpc]; cases isReal <;> rfl)
  | release hpc =>
      exact h.release hjob (by simp [Job.lock, hpc, EntryPc.holds]) rfl rfl

/-- A closing handler, as one of the handlers. -/
theorem Kept.close (h : s.Kept) {c : Closing} {f : CloseJob → Job} {j j' : CloseJob}
    (hlock : ∀ j, (f j).lock = if j.pc.holds then some j.sig.symbol else none)
    (hgap : ∀ j, (f j).gap = none) (hjob : s.jobs[i]? = some (f j))
    (hmove : j.Move c s.shared j' shared') : Kept ⟨shared', s.jobs.set i (f j')⟩ := by
  have hnone : ∀ tag ∈ (f j').gap, tag ∈ (f j).gap := by simp [hgap]
  cases hmove with
  | giveUp => exact h.quiet hjob rfl .refl (by simp [hlock, CloseJob.goto, ClosePc.holds]) hnone
  | acquire _ hfree => exact h.acquire hjob hfree (by rw [hlock]; rfl) (hgap _)
  | quiet j' _ hsig hholds hholds' =>
      exact h.quiet hjob rfl .refl (by simp [hlock, hholds, hholds', hsig]) hnone
  | settle hholds =>
      exact h.quiet hjob CloseJob.settle_closes.locked CloseJob.settle_closes.positions
        (fun _ hsymbol => by rw [hlock, if_pos hholds]; rwa [hlock] at hsymbol) hnone
  | release hpc =>
      exact h.release hjob (by simp [hlock, hpc, ClosePc.holds]) (by rw [hlock]; rfl) (hgap _)

/-! ## The other steps -/

/-- **A sync meets no gap and no side of the book**: the exchange holds
nothing that an entry is about to register, and no update in place is onto
a side the book has under another key. -/
def SyncKept (s : Engine) : EngineLabel → Prop
  | .event (.sync quote) =>
      (∀ job ∈ s.jobs, ∀ tag ∈ job.gap,
        (ExchangeMap.ofRows (s.shared.venue.snapshot quote)).holds tag = false) ∧
      Book.FlipsFree (ExchangeMap.ofRows (s.shared.venue.snapshot quote)) s.shared.positions
  | _ => True

instance (s : Engine) (l : EngineLabel) : Decidable (SyncKept s l) :=
  match l with
  | .event (.sync _) => inferInstanceAs (Decidable (_ ∧ _))
  | .start _ | .work _ | .event (.wsPosition _) | .event (.wsAccount _)
  | .event (.fetchBalance _) | .event (.check _) | .event .switch | .event .resetDaily
  | .event (.tick ..) | .event (.holding ..) => .isTrue trivial

theorem Kept.event (h : s.Kept) {e : Event} (hguard : SyncKept s (.event e))
    (hmove : Event.Move s.shared e shared') : Kept { s with shared := shared' } := by
  cases hmove with
  | closes _ hcloses =>
      exact Threads.Holds.event h (Book.uniqueBy_of_within h.shared hcloses.positions)
        fun i job hjob => (h.jobs i job hjob).mono
          (fun symbol hsymbol => hcloses.locked ▸ (h.jobs i job hjob).locked symbol hsymbol)
          hcloses.positions
  | sync quote =>
      have hkeyed := ExchangeMap.keyed_ofRows (s.shared.venue.snapshot quote)
      refine Threads.Holds.event h (Book.uniqueBy_reconcile hkeyed h.shared hguard.2)
        fun i job hjob => ⟨(h.jobs i job hjob).locked, fun tag htag e he hsame => ?_⟩
      rcases Book.tag_of_mem_reconcile hkeyed he with ⟨e₀, hmem, hold⟩ | hheld
      · exact (h.jobs i job hjob).absent tag htag e₀ hmem (hold.trans hsame)
      · -- the exchange holds it, and the guard says that no gap is of it
        have hfree := hguard.1 job (List.mem_of_getElem? hjob) tag htag
        rw [← hsame, hheld] at hfree
        cases hfree
  | _ =>
      exact Threads.Holds.event h h.shared fun i job hjob =>
        (h.jobs i job hjob).mono (h.jobs i job hjob).locked .refl

/-- **Every step keeps the invariant**, where a sync meets no gap. -/
theorem kept_next (h : s.Kept) (hguard : SyncKept s l)
    (hnext : (engineSystem cfg).next s l = some t) : t.Kept := by
  cases move_of_next hnext with
  | start job hfresh =>
      have hnone : job.lock = none ∧ job.gap = none := by
        cases job <;> simp_all [Job.fresh, Job.lock, Job.gap, EntryPc.holds, EntryPc.reserves,
          ClosePc.holds]
      have hapart : ∀ other, Job.Apart job other := fun other symbol hsymbol => by
        rw [hnone.1] at hsymbol
        cases hsymbol
      exact Threads.Holds.start h ⟨by simp [hnone.1], by simp [hnone.2]⟩
        fun other => ⟨hapart other, (hapart other).symm⟩
  | work i hjob hstep =>
      cases Job.move_of_step hstep with
      | entry hmove => exact h.entry hjob hmove
      | tp hmove => exact h.close (f := Job.tp) (fun _ => rfl) (fun _ => rfl) hjob hmove
      | sl hmove => exact h.close (f := Job.sl) (fun _ => rfl) (fun _ => rfl) hjob hmove
      | closeAll hmove =>
          cases hmove with
          | quiet => exact h.quiet hjob rfl .refl (by simp [Job.lock]) (by simp [Job.gap])
          | settle =>
              exact h.quiet hjob CloseAllJob.settle_closes.locked
                CloseAllJob.settle_closes.positions (by simp [Job.lock]) (by simp [Job.gap])
  | event e happly => exact h.event hguard (Event.move_of_apply happly)

end Engine

/-- **One entry per symbol and side** in every state of a run that starts
so and whose syncs meet no gap and no side of the book. -/
theorem book_unique {cfg : EngineConfig} {s t : Engine} (hinit : (engineSystem cfg).init s)
    (hs : s.shared.positions.UniqueBy ManagedPosition.tag)
    (h : (engineSystem cfg).Run Engine.SyncKept s t) :
    t.shared.positions.UniqueBy ManagedPosition.tag :=
  (h.invariant (I := Engine.Kept) (fun _ _ _ hk hg hn => Engine.kept_next hk hg hn)
    (Threads.Holds.nil hs hinit.1)).shared

/-! ## A sync between the order and its registration -/

namespace SyncRun

def start : Engine where
  shared := { modes := Modes.start false, balance := 1000, peakBalance := 1000 }

theorem start_init : (engineSystem {}).init start := ⟨rfl, ⟨rfl, rfl, ⟨1000, rfl⟩, rfl, rfl⟩⟩

def buy : Job :=
  .entry
    { sig := { symbol := "BTCUSDT", action := "buy", timeframe := "15", price := 50, tp1 := 60 }
      rd := { symbolTier := "A" } }

def sync : EngineLabel := .event (.sync fun _ => (50, 10))

/-- The order is executed, the sync imports the position, and the run
registers it. -/
def labels : List EngineLabel :=
  .start buy :: List.replicate 17 (.work 0) ++ sync :: List.replicate 3 (.work 0)

end SyncRun

/-- **A position that is in the book twice**: once as the sync imported it,
and once as the run registered it. -/
theorem book_has_twice :
    ∃ t, (engineSystem {}).init SyncRun.start ∧
      (engineSystem {}).Run System.anyStep SyncRun.start t ∧
      t.shared.positions.entries.map (fun e => e.2.tag) =
        [("BTCUSDT", "long"), ("BTCUSDT", "long")] ∧
      ¬ t.shared.positions.UniqueBy ManagedPosition.tag := by
  obtain ⟨t, hrun, htags⟩ := System.exists_run_of_play (M := engineSystem {})
    (G := System.anyStep) (s := SyncRun.start) SyncRun.labels
    (P := fun t => t.shared.positions.entries.map (fun e => e.2.tag) =
      [("BTCUSDT", "long"), ("BTCUSDT", "long")]) (by decide +kernel)
  refine ⟨t, SyncRun.start_init, hrun, htags, fun hunique => ?_⟩
  rw [Table.UniqueBy, htags] at hunique
  exact absurd hunique (by decide)

theorem book_unique_btc :
    ∃ t, (engineSystem {}).Run Engine.SyncKept SyncRun.start t ∧ t.shared.positions.size = 1 ∧
      t.shared.positions.UniqueBy ManagedPosition.tag := by
  obtain ⟨t, hrun, hsize⟩ := System.exists_run_of_play (M := engineSystem {})
    (G := Engine.SyncKept) (s := SyncRun.start)
    (.start SyncRun.buy :: List.replicate 21 (.work 0) ++ [SyncRun.sync])
    (P := fun t => t.shared.positions.size = 1) (by decide +kernel)
  exact ⟨t, hrun, hsize, book_unique SyncRun.start_init Table.uniqueBy_empty hrun⟩

end WebhookTrader
