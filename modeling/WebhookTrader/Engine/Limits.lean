import WebhookTrader.Engine.Steps

/-!
# The portfolio limits and the book

`check_entry` counts the open positions under the position mutex, and the
position is registered in another section under it, after the order. The
runs in between have room in nobody's count. So the book keeps within the
limits in each run in which every admission leaves room for these runs
too, and two runs on two symbols are enough to break them.
-/

namespace WebhookTrader

/-- **The limits of a mode, of a book.** -/
structure WithinLimits (cfg : PortfolioConfig) (shadow : Bool) (book : Book) : Prop where
  concurrent : (book.size : ℤ) ≤ PortfolioRisk.effMaxConcurrent cfg shadow
  sameDir : ∀ side, (book.count (PortfolioRisk.sameDirection side) : ℤ) ≤
    PortfolioRisk.effMaxSameDir cfg shadow
  timeframe : ∀ tf, (book.count (fun p => p.timeframe = tf) : ℤ) ≤ PortfolioRisk.tfLimit cfg tf

/-! ## The load of a kind of position -/

/-- What the limits will see of the position. -/
def EntryJob.shape (j : EntryJob) : String × String × String := (j.sig.symbol, j.tf, j.side)

/-- The run is going to register a position of a kind. -/
def Job.reserves (p : String × String × String → Bool) : Job → Bool
  | .entry j => j.pc.reserves && p j.shape
  | _ => false

namespace Engine

variable {cfg : EngineConfig} {s t : Engine} {l : EngineLabel}
  {p : String × String × String → Bool}

/-- **The load**: the positions of a kind, open or about to be. -/
def load (p : String × String × String → Bool) (s : Engine) : ℕ :=
  s.shared.positions.count (fun pos => p pos.shape) + s.count (Job.reserves p)

/-- The book itself is part of the load. -/
theorem count_le_load : s.shared.positions.count (fun pos => p pos.shape) ≤ s.load p :=
  Nat.le_add_right _ _

/-- How a handler's step moves the load: by what it does to the book and to
its own reservation. -/
theorem load_work {i : ℕ} {job : Job} (job' : Job) (shared' : Shared)
    (hjob : s.jobs[i]? = some job) :
    load p (⟨shared', s.jobs.set i job'⟩ : Engine) +
        s.shared.positions.count (fun pos => p pos.shape) + (if job.reserves p then 1 else 0) =
      s.load p + shared'.positions.count (fun pos => p pos.shape) +
        if job'.reserves p then 1 else 0 := by
  have hcount := Threads.count_set (p := Job.reserves p) job' shared' hjob
  simp only [load]
  omega

/-- A handler's step that leaves the book as it is, or a part of it, and
reserves nothing new. -/
theorem load_work_le {i : ℕ} {job job' : Job} {shared' : Shared} (hjob : s.jobs[i]? = some job)
    (hbook : shared'.positions.Within ManagedPosition.shape s.shared.positions)
    (hres : job'.reserves p = true → job.reserves p = true) :
    load p (⟨shared', s.jobs.set i job'⟩ : Engine) ≤ s.load p := by
  have hload := load_work (p := p) job' shared' hjob
  have hpositions := hbook.count_le p
  cases hnew : job'.reserves p
  · rw [hnew, if_neg Bool.false_ne_true] at hload
    omega
  · rw [hnew, hres hnew] at hload
    omega

/-- **A registration turns its reservation into a position.** -/
theorem load_register_le {i : ℕ} {j : EntryJob} {isReal : Bool}
    (hjob : s.jobs[i]? = some (Job.entry j)) (hres : j.pc.reserves = true) :
    load p (⟨j.register isReal s.shared, s.jobs.set i (.entry (j.goto .unlock))⟩ : Engine) ≤
      s.load p := by
  have hload := load_work (p := p) (Job.entry (j.goto .unlock)) (j.register isReal s.shared) hjob
  have hbook : (j.register isReal s.shared).positions.count (fun pos => p pos.shape) ≤
      s.shared.positions.count (fun pos => p pos.shape) + if p j.shape then 1 else 0 :=
    Table.count_insert_le
  have hgone : Job.reserves p (.entry (j.goto .unlock)) = false := rfl
  have hhere : Job.reserves p (.entry j) = p j.shape := by simp [Job.reserves, hres]
  rw [hgone, hhere, if_neg Bool.false_ne_true] at hload
  omega

/-- A new reservation. -/
theorem load_reserve_le {i : ℕ} {j : EntryJob} {job' : Job} {shared' : Shared}
    (hjob : s.jobs[i]? = some (Job.entry j)) (hres : j.pc.reserves = false)
    (hbook : shared'.positions = s.shared.positions) (hnew : job'.reserves p = p j.shape) :
    load p (⟨shared', s.jobs.set i job'⟩ : Engine) ≤ s.load p + if p j.shape then 1 else 0 := by
  have hload := load_work (p := p) job' shared' hjob
  have hnone : Job.reserves p (.entry j) = false := by simp [Job.reserves, hres]
  rw [hnone, hnew, hbook, if_neg Bool.false_ne_true] at hload
  omega

/-- The step is the admission of an entry. -/
def Admits (cfg : EngineConfig) (s : Engine) (l : EngineLabel) (j : EntryJob) : Prop :=
  ∃ i, l = .work i ∧ s.jobs[i]? = some (Job.entry j) ∧ j.pc = .checkEntry ∧
    j.conflicts s.shared.positions = false ∧ (j.check cfg s.shared).1.allowed = true

/-- **Only an admission adds to a load**, and only one of the kind. A sync
is another matter. -/
theorem load_next (h : (engineSystem cfg).next s l = some t)
    (hsync : ∀ quote, l ≠ .event (.sync quote)) :
    t.load p ≤ s.load p ∨
      ∃ j, Admits cfg s l j ∧ t.load p ≤ s.load p + if p j.shape then 1 else 0 := by
  cases move_of_next h with
  | start job hfresh =>
      have hnone : Job.reserves p job = false := by
        cases job <;> simp_all [Job.fresh, Job.reserves, EntryPc.reserves]
      refine .inl ?_
      simp only [load, Threads.count_start, hnone]
      exact le_rfl
  | work i hjob hstep =>
      cases Job.move_of_step hstep with
      | @entry j _ hmove =>
          cases hmove with
          | giveUp => exact .inl (load_work_le hjob .refl fun hres => by cases hres)
          | acquire pc _ _ _ hreserves =>
              refine .inl (load_work_le hjob .refl fun hres => ?_)
              simp [Job.reserves, EntryJob.goto, hreserves] at hres
          | quiet j' _ _ _ hsig _ _ hreserves =>
              refine .inl (load_work_le hjob .refl fun hres => ?_)
              simp only [Job.reserves, Bool.and_eq_true, EntryJob.shape, EntryJob.tf,
                EntryJob.side, hsig] at hres ⊢
              exact ⟨hreserves hres.1, hres.2⟩
          | reject => exact .inl (load_work_le hjob .refl fun hres => by cases hres)
          | allow hpc hfree hallowed =>
              refine .inr ⟨j, ⟨i, rfl, hjob, hpc, hfree, hallowed⟩, ?_⟩
              exact load_reserve_le hjob (by rw [hpc]; rfl) rfl rfl
          | register isReal hpc =>
              refine .inl (load_register_le hjob ?_)
              rw [hpc]
              cases isReal <;> rfl
          | release => exact .inl (load_work_le hjob .refl fun hres => by cases hres)
      | tp hmove | sl hmove =>
          cases hmove with
          | settle =>
              exact .inl (load_work_le hjob CloseJob.settle_closes.positions
                fun hres => by cases hres)
          | _ => exact .inl (load_work_le hjob .refl fun hres => by cases hres)
      | closeAll hmove =>
          cases hmove with
          | settle =>
              exact .inl (load_work_le hjob CloseAllJob.settle_closes.positions
                fun hres => by cases hres)
          | quiet => exact .inl (load_work_le hjob .refl fun hres => by cases hres)
  | event e happly =>
      refine .inl ?_
      cases Event.move_of_apply happly with
      | closes _ hcloses => exact Nat.add_le_add_right (hcloses.positions.count_le p) _
      | sync quote => exact absurd rfl (hsync quote)
      | _ => exact le_rfl

/-! ## Room -/

/-- The same direction as a side. -/
def sameSide (side : String) : String × String × String → Bool :=
  fun shape => isLongSide side = isLongSide shape.2.2

/-- On a timeframe. -/
def onTimeframe (tf : String) : String × String × String → Bool := fun shape => shape.2.1 = tf

/-- The loads are within the limits. -/
structure LoadWithin (cfg : EngineConfig) (s : Engine) : Prop where
  concurrent : (s.load (fun _ => true) : ℤ) ≤
    PortfolioRisk.effMaxConcurrent cfg.portfolio s.shared.modes.riskShadowMode
  sameDir : ∀ side, (s.load (sameSide side) : ℤ) ≤
    PortfolioRisk.effMaxSameDir cfg.portfolio s.shared.modes.riskShadowMode
  timeframe : ∀ tf, (s.load (onTimeframe tf) : ℤ) ≤ PortfolioRisk.tfLimit cfg.portfolio tf

/-- **Room for one more position**, the reservations counted. -/
structure HasRoom (cfg : EngineConfig) (s : Engine) (j : EntryJob) : Prop where
  concurrent : (s.load (fun _ => true) : ℤ) <
    PortfolioRisk.effMaxConcurrent cfg.portfolio s.shared.modes.riskShadowMode
  sameDir : (s.load (sameSide j.side) : ℤ) <
    PortfolioRisk.effMaxSameDir cfg.portfolio s.shared.modes.riskShadowMode
  timeframe : (s.load (onTimeframe j.tf) : ℤ) < PortfolioRisk.tfLimit cfg.portfolio j.tf

instance {j : EntryJob} : Decidable (s.HasRoom cfg j) :=
  decidable_of_iff (_ ∧ _ ∧ _) ⟨fun ⟨h1, h2, h3⟩ => ⟨h1, h2, h3⟩,
    fun h => ⟨h.concurrent, h.sameDir, h.timeframe⟩⟩

theorem withinLimits_of_load (h : s.LoadWithin cfg) :
    WithinLimits cfg.portfolio s.shared.modes.riskShadowMode s.shared.positions where
  concurrent := by
    rw [Table.size_eq_count]
    exact le_trans (by exact_mod_cast count_le_load (p := fun _ => true)) h.concurrent
  sameDir side := le_trans (by exact_mod_cast count_le_load (p := sameSide side)) (h.sameDir side)
  timeframe tf :=
    le_trans (by exact_mod_cast count_le_load (p := onTimeframe tf)) (h.timeframe tf)

/-- Without handlers the load is the book. -/
theorem load_of_nil (h : s.jobs = []) :
    s.load p = s.shared.positions.count fun pos => p pos.shape := by
  simp [load, Threads.count, h]

theorem loadWithin_of_nil (h : s.jobs = [])
    (hs : WithinLimits cfg.portfolio s.shared.modes.riskShadowMode s.shared.positions) :
    s.LoadWithin cfg where
  concurrent := by
    rw [load_of_nil h, ← Table.size_eq_count]
    exact hs.concurrent
  sameDir side := by
    rw [load_of_nil h]
    exact hs.sameDir side
  timeframe tf := by
    rw [load_of_nil h]
    exact hs.timeframe tf

/-- **The discipline of the limits.** No sync and no switch, and every
admission finds room, the runs between their admission and their
registration counted. -/
def RoomKept (cfg : EngineConfig) (s : Engine) : EngineLabel → Prop
  | .start _ => True
  | .work i => ∀ job ∈ s.jobs[i]?, job.ForEntry fun j =>
      j.pc = .checkEntry → j.conflicts s.shared.positions = false →
        (j.check cfg s.shared).1.allowed = true → s.HasRoom cfg j
  | .event (.sync _) => False
  | .event e => e.switches = false

instance : Decidable (RoomKept cfg s l) :=
  match l with
  | .start _ => .isTrue trivial
  | .work i => inferInstanceAs (Decidable (∀ job ∈ s.jobs[i]?, job.ForEntry _))
  | .event (.sync _) => .isFalse id
  | .event (.wsPosition _) | .event (.wsAccount _) | .event (.fetchBalance _)
  | .event (.check _) | .event .switch | .event .resetDaily | .event (.tick ..)
  | .event (.holding ..) => inferInstanceAs (Decidable (_ = _))

/-- No step in the discipline changes a mode. -/
theorem modes_next (hg : RoomKept cfg s l) (h : (engineSystem cfg).next s l = some t) :
    t.shared.modes = s.shared.modes := by
  cases move_of_next h with
  | start => rfl
  | work i hjob hstep => exact (Job.move_of_step hstep).modes.1
  | event e happly =>
      rcases Event.modes_of_apply happly with hmodes | ⟨rfl, -⟩
      · exact hmodes
      · cases hg

/-- **A disciplined step keeps the loads within the limits.** -/
theorem loadWithin_next (hs : s.LoadWithin cfg) (hg : RoomKept cfg s l)
    (h : (engineSystem cfg).next s l = some t) : t.LoadWithin cfg := by
  have hmodes := modes_next hg h
  have hsync : ∀ quote, l ≠ .event (.sync quote) := by
    rintro quote rfl
    exact hg
  have hroom : ∀ j, Admits cfg s l j → s.HasRoom cfg j := by
    rintro j ⟨i, rfl, hjob, hpc, hfree, hallowed⟩
    exact hg _ hjob hpc hfree hallowed
  refine ⟨?_, fun side => ?_, fun tf => ?_⟩
  · rw [hmodes]
    rcases load_next (p := fun _ => true) h hsync with hle | ⟨j, hj, hle⟩
    · exact le_trans (by exact_mod_cast hle) hs.concurrent
    · have := (hroom j hj).concurrent
      rw [if_pos rfl] at hle
      omega
  · rw [hmodes]
    rcases load_next (p := sameSide side) h hsync with hle | ⟨j, hj, hle⟩
    · exact le_trans (by exact_mod_cast hle) (hs.sameDir side)
    · by_cases hside : sameSide side j.shape = true
      · -- the two sides go the same way, and so do the loads
        have heq : sameSide side = sameSide j.side := by
          have hway : isLongSide side = isLongSide j.side := of_decide_eq_true hside
          funext shape
          simp only [sameSide, hway]
        have := (hroom j hj).sameDir
        rw [if_pos hside] at hle
        rw [heq] at hle ⊢
        omega
      · rw [if_neg hside] at hle
        exact le_trans (by exact_mod_cast hle) (hs.sameDir side)
  · rcases load_next (p := onTimeframe tf) h hsync with hle | ⟨j, hj, hle⟩
    · exact le_trans (by exact_mod_cast hle) (hs.timeframe tf)
    · by_cases htf : onTimeframe tf j.shape = true
      · obtain rfl : j.tf = tf := of_decide_eq_true htf
        have := (hroom j hj).timeframe
        rw [if_pos htf] at hle
        omega
      · rw [if_neg htf] at hle
        exact le_trans (by exact_mod_cast hle) (hs.timeframe tf)

end Engine

/-- **The book keeps within the limits** in every run from a book within
them whose admissions all leave room for the runs between admission and
registration. -/
theorem book_within_limits {cfg : EngineConfig} {s t : Engine} (hinit : (engineSystem cfg).init s)
    (hs : WithinLimits cfg.portfolio s.shared.modes.riskShadowMode s.shared.positions)
    (h : (engineSystem cfg).Run (Engine.RoomKept cfg) s t) :
    WithinLimits cfg.portfolio t.shared.modes.riskShadowMode t.shared.positions :=
  Engine.withinLimits_of_load
    (h.invariant (fun _ _ _ hs hg hn => Engine.loadWithin_next hs hg hn)
      (Engine.loadWithin_of_nil hinit.1 hs))

/-! ## Two symbols and one place -/

namespace RoomRun

/-- Room for one position. -/
def config : EngineConfig where
  portfolio := { maxConcurrent := 1 }

def start : Engine where
  shared := { modes := Modes.start false, balance := 1000, peakBalance := 1000 }

theorem start_init : (engineSystem config).init start :=
  ⟨rfl, ⟨rfl, rfl, ⟨1000, rfl⟩, rfl, rfl⟩⟩

/-- An empty book is within these limits. -/
theorem start_within : WithinLimits config.portfolio false start.shared.positions where
  concurrent := by decide
  sameDir side := (by decide : (0 : ℤ) ≤ 10)
  timeframe tf := (by decide : (0 : ℤ) ≤ 10)

def buy (symbol : String) : Job :=
  .entry
    { sig := { symbol, action := "buy", timeframe := "15", price := 50, tp1 := 60 }
      rd := { symbolTier := "A" } }

/-- Handlers start and work, and nothing else happens. -/
def handlersOnly : Engine → EngineLabel → Prop
  | _, .event _ => False
  | _, _ => True

instance (s : Engine) (l : EngineLabel) : Decidable (handlersOnly s l) :=
  match l with
  | .event _ => .isFalse id
  | .start _ | .work _ => .isTrue trivial

/-- Both runs are admitted before either goes on to its registration. -/
def labels : List EngineLabel :=
  .start (buy "BTCUSDT") :: .start (buy "ETHUSDT") :: List.replicate 9 (.work 0) ++
    List.replicate 20 (.work 1) ++ List.replicate 11 (.work 0)

end RoomRun

/-- **Two positions where there is room for one.** Two runs, on two
symbols, are admitted before either registers its position. -/
theorem book_exceeds_limits :
    WithinLimits RoomRun.config.portfolio RoomRun.start.shared.modes.riskShadowMode
        RoomRun.start.shared.positions ∧
      ∃ t, (engineSystem RoomRun.config).init RoomRun.start ∧
        (engineSystem RoomRun.config).Run RoomRun.handlersOnly RoomRun.start t ∧
        t.shared.positions.entries.map (·.2.symbol) = ["BTCUSDT", "ETHUSDT"] ∧
        ¬ WithinLimits RoomRun.config.portfolio t.shared.modes.riskShadowMode
          t.shared.positions := by
  refine ⟨RoomRun.start_within, ?_⟩
  obtain ⟨t, hrun, hsymbols, hsize⟩ := System.exists_run_of_play
    (M := engineSystem RoomRun.config) (G := RoomRun.handlersOnly) (s := RoomRun.start)
    RoomRun.labels
    (P := fun t => t.shared.positions.entries.map (·.2.symbol) = ["BTCUSDT", "ETHUSDT"] ∧
      ¬ (t.shared.positions.size : ℤ) ≤ PortfolioRisk.effMaxConcurrent RoomRun.config.portfolio
        t.shared.modes.riskShadowMode) (by decide +kernel)
  exact ⟨t, RoomRun.start_init, hrun, hsymbols, fun h => hsize h.concurrent⟩

theorem book_within_limits_btc :
    ∃ t, (engineSystem RoomRun.config).Run (Engine.RoomKept RoomRun.config) RoomRun.start t ∧
      t.shared.positions.size = 1 ∧
      WithinLimits RoomRun.config.portfolio t.shared.modes.riskShadowMode t.shared.positions := by
  obtain ⟨t, hrun, hsize⟩ := System.exists_run_of_play (M := engineSystem RoomRun.config)
    (G := Engine.RoomKept RoomRun.config) (s := RoomRun.start)
    (.start (RoomRun.buy "BTCUSDT") :: List.replicate 21 (.work 0))
    (P := fun t => t.shared.positions.size = 1) (by decide +kernel)
  exact ⟨t, hrun, hsize, book_within_limits RoomRun.start_init RoomRun.start_within hrun⟩

end WebhookTrader
