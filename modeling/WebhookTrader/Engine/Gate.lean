import WebhookTrader.Engine.Steps

/-!
# The gates of a real order

`handle_entry` reads the modes again at each of its gates, and the switch
writes them one after the other in between. Whether a run is exposed, that
is, whether its signal is going to be a real order as the modes stand, can
change while it is under way, and only at two of the switch's writes. A
real order has passed every gate in each run in which these writes find
the runs they expose beyond reproach, and in which nothing is admitted to
be real while the portfolio manager is still told to use paper limits.
-/

namespace WebhookTrader

/-- **What a real order has to pass.** -/
inductive EntryGate
  | tier
  | tfTier
  | tp1
  | fee
  | admission
  deriving DecidableEq, Repr

namespace EntryPc

/-- The gates that lie behind, the last one first. -/
def passed : EntryPc → List EntryGate
  | tfGate => [.tier]
  | tp1Shadow => [.tfTier, .tier]
  | tp1Active => [.tfTier, .tier]
  | feeGate => [.tp1, .tfTier, .tier]
  | sizing => [.fee, .tp1, .tfTier, .tier]
  | checkEntry => [.fee, .tp1, .tfTier, .tier]
  | takeOid => [.admission, .fee, .tp1, .tfTier, .tier]
  | validateBreaker => [.admission, .fee, .tp1, .tfTier, .tier]
  | validateOrders => [.admission, .fee, .tp1, .tfTier, .tier]
  | validateSymbol => [.admission, .fee, .tp1, .tfTier, .tier]
  | dispatchShadow => [.admission, .fee, .tp1, .tfTier, .tier]
  | dispatchActive => [.admission, .fee, .tp1, .tfTier, .tier]
  | placed _ => [.admission, .fee, .tp1, .tfTier, .tier]
  | request _ _ => [.admission, .fee, .tp1, .tfTier, .tier]
  | orderDone _ _ => [.admission, .fee, .tp1, .tfTier, .tier]
  | _ => []

/-- The run is handing its order to `place_futures_order`. -/
def hands : EntryPc → Bool
  | placed _ => true
  | request _ _ => true
  | _ => false

end EntryPc

namespace EntryJob

variable {cfg : EngineConfig} {j j' : EntryJob} {m : Modes} {s s' : Shared} {g : EntryGate}

/-- The signal meets a gate, as a live one; the admission is by
`check_entry` under the live limits. -/
def Meets (cfg : EngineConfig) (j : EntryJob) : EntryGate → Prop
  | .tier => tierMeetsMin j.tier cfg.portfolio.liveMinTier = true
  | .tfTier => j.tfTierOk cfg = true
  | .tp1 => 0 < j.sig.tp1
  | .fee => j.feeApplies = true → j.feeProfitable cfg = true
  | .admission => j.admitted = some false

instance : Decidable (j.Meets cfg g) := by
  cases g <;> unfold Meets <;> infer_instance

/-- **The run is beyond reproach**: it meets every gate behind it. -/
def Met (cfg : EngineConfig) (j : EntryJob) : Prop := ∀ g ∈ j.pc.passed, j.Meets cfg g

instance : Decidable (j.Met cfg) := inferInstanceAs (Decidable (∀ g ∈ _, _))

/-- The modes make a real order of the signal. -/
def Real (j : EntryJob) (m : Modes) : Prop := m.autoLiveActive = false ∨ j.eligible = true

instance : Decidable (j.Real m) := inferInstanceAs (Decidable (_ ∨ _))

/-- **The run is exposed**: left alone, it sends a real order. Behind the
last reads the modes do not matter any more. -/
def Exposed (j : EntryJob) (m : Modes) : Prop :=
  match j.pc with
  | .placed _ => True
  | .request _ _ => True
  | .orderDone _ _ => True
  | .dispatchActive => j.Real m
  | _ => m.shadowMode = false ∧ j.Real m

instance : Decidable (j.Exposed m) := by
  unfold Exposed
  split <;> infer_instance

theorem exposed_of_hands (h : j.pc.hands = true) : j.Exposed m := by
  unfold Exposed
  cases hpc : j.pc <;> simp_all [EntryPc.hands]

/-! ## A run's own steps -/

/-- Where no gate is behind, there is nothing to meet. -/
theorem met_nil (h : j.pc.passed = []) : j.Met cfg := by
  intro g hg
  rw [h] at hg
  cases hg

/-- Moving on without passing a gate. -/
theorem Met.move (h : j.Met cfg) (hpassed : j'.pc.passed = j.pc.passed) (hsig : j'.sig = j.sig)
    (hrd : j'.rd = j.rd) (hadmitted : j'.admitted = j.admitted) : j'.Met cfg := by
  obtain ⟨pc, sig, rd, _, _, _, admitted, _, _⟩ := j
  obtain ⟨pc', sig', rd', _, _, _, admitted', _, _⟩ := j'
  dsimp only at hpassed hsig hrd hadmitted
  subst hsig hrd hadmitted
  intro g hg
  have hmeets := h g (hpassed ▸ hg)
  cases g <;> exact hmeets

/-- Passing one gate and meeting it. -/
theorem Met.pass {pc : EntryPc} (h : j.Met cfg) (hpassed : pc.passed = g :: j.pc.passed)
    (hg : j.Meets cfg g) : (j.goto pc).Met cfg := by
  intro g' hg'
  change g' ∈ pc.passed at hg'
  rw [hpassed] at hg'
  have hmeets : j.Meets cfg g' := by
    rcases List.mem_cons.1 hg' with rfl | hold
    · exact hg
    · exact h g' hold
  cases g' <;> exact hmeets

/-- Exposure depends on the modes and the eligibility only, before the
last reads. -/
theorem exposed_of_pc {pc pc' : EntryPc} (hpc : j.pc = pc)
    (hexp : (j.goto pc').Exposed m ↔ (j.goto pc).Exposed m) (h : (j.goto pc').Exposed m) :
    j.Exposed m := by
  subst hpc
  exact hexp.1 h

theorem afterAttempt_passed {again second : Bool} {answer : Option Json} :
    (afterAttempt again second answer).passed = (EntryPc.request again second).passed := by
  cases answer
  · cases second <;> rfl
  · rfl

/-- An answer is the end of the order, or leads to its retry. -/
theorem afterOrder_cases (again : Bool) (resp : OrderResponse) :
    afterOrder again resp = .placed true ∨ (afterOrder again resp).passed = [] := by
  unfold afterOrder
  split_ifs
  · exact .inl rfl
  · exact .inr rfl
  · exact .inr rfl

/-- **A step keeps an exposed run beyond reproach**, where an admission
that exposes is made under the live limits. -/
theorem met_of_step (h : j.step cfg s = some (j', s'))
    (hmet : j.Exposed s.modes → j.Met cfg)
    (hcheck : j.pc = .checkEntry → j.conflicts s.positions = false →
      (j.check cfg s).1.allowed = true → j.Exposed s.modes → s.modes.riskShadowMode = false) :
    j'.Exposed s.modes → j'.Met cfg := by
  cases hpc : j.pc <;> simp only [step, hpc] at h <;> intro hexp
  case lock | readActive =>
    split_ifs at h <;> cases h <;> exact met_nil rfl
  case readEligible | registerPaper | registerReal | opened | unlock =>
    cases h
    exact met_nil rfl
  case tierGate =>
    split_ifs at h with htier hgrade <;> cases h
    · exact met_nil rfl
    · exact met_nil rfl
    · have hshadow : s.modes.shadowMode = false := hexp.1
      refine (met_nil (by rw [hpc]; rfl)).pass (g := .tier) (by rw [hpc]; rfl) ?_
      simpa [Meets, hshadow] using htier
  case tfGate =>
    split_ifs at h with hreverse htier <;> cases h
    · exact met_nil rfl
    · exact met_nil rfl
    · have hshadow : s.modes.shadowMode = false := hexp.1
      refine (hmet (exposed_of_pc hpc .rfl hexp)).pass (g := .tfTier) (by rw [hpc]; rfl) ?_
      simpa [Meets, hshadow] using htier
  case tp1Shadow =>
    split_ifs at h with hmode <;> cases h
    · -- read with the shadow mode on, and so not exposed now
      exact absurd (hmode.symm.trans hexp.1) (by decide)
    · exact (hmet (exposed_of_pc hpc .rfl hexp)).move (by rw [hpc]; rfl) rfl rfl rfl
  case tp1Active =>
    split_ifs at h with hlive <;> cases h
    · exact met_nil rfl
    · refine (hmet (exposed_of_pc hpc .rfl hexp)).pass (g := .tp1) (by rw [hpc]; rfl) ?_
      have hreal : j.Real s.modes := hexp.2
      rcases hreal with hreal | hreal <;> simpa [Meets, hreal, WebhookSignal.hasTp1] using hlive
  case feeGate =>
    split_ifs at h with hfee <;> cases h
    · exact met_nil rfl
    · have hshadow : s.modes.shadowMode = false := hexp.1
      refine (hmet (exposed_of_pc hpc .rfl hexp)).pass (g := .fee) (by rw [hpc]; rfl) ?_
      intro happlies
      simpa [hshadow, happlies] using hfee
  case sizing =>
    split at h <;> cases h
    · exact met_nil rfl
    · exact (hmet (exposed_of_pc hpc .rfl hexp)).move (by rw [hpc]; rfl) rfl rfl rfl
  case checkEntry =>
    split_ifs at h with hconflict hallowed <;> cases h
    · exact met_nil rfl
    · have hexposed : j.Exposed s.modes := exposed_of_pc hpc .rfl hexp
      have hj : Met cfg { j with admitted := some s.modes.riskShadowMode } := by
        intro g hg
        have hmeets := hmet hexposed g hg
        rw [hpc] at hg
        cases g
        case admission => simp [EntryPc.passed] at hg
        all_goals exact hmeets
      refine hj.pass (g := .admission) (by rw [hpc]; rfl) ?_
      rw [Meets, hcheck hpc (by simpa using hconflict) hallowed hexposed]
    · exact met_nil rfl
  case takeOid =>
    cases h
    exact (hmet (exposed_of_pc hpc .rfl hexp)).move (by rw [hpc]; rfl) rfl rfl rfl
  case validateBreaker | validateOrders | validateSymbol =>
    split_ifs at h <;> cases h
    all_goals first
      | exact met_nil rfl
      | exact (hmet (exposed_of_pc hpc .rfl hexp)).move (by rw [hpc]; rfl) rfl rfl rfl
  case dispatchShadow =>
    split_ifs at h with hmode <;> cases h
    · exact met_nil rfl
    · refine (hmet (exposed_of_pc hpc ?_ hexp)).move (by rw [hpc]; rfl) rfl rfl rfl
      exact ⟨fun hreal => ⟨by simpa using hmode, hreal⟩, And.right⟩
  case dispatchActive =>
    split_ifs at h with hpaper <;> cases h
    · exact met_nil rfl
    · refine (hmet (exposed_of_pc hpc ?_ hexp)).move (by rw [hpc]; rfl) rfl rfl rfl
      refine ⟨fun _ => ?_, fun _ => trivial⟩
      simpa [Exposed, goto, Real, imp_iff_not_or] using hpaper
  case placed again =>
    cases h
    exact (hmet (exposed_of_pc hpc .rfl hexp)).move (by rw [hpc]; rfl) rfl rfl rfl
  case request again second =>
    cases h
    have hexposed : j.Exposed s.modes := exposed_of_hands (by rw [hpc]; rfl)
    refine (hmet hexposed).move ?_ rfl rfl rfl
    rw [hpc]
    exact afterAttempt_passed
  case orderDone again resp =>
    cases h
    have hexposed : j.Exposed s.modes := by simp only [Exposed, hpc]
    rcases afterOrder_cases again resp with heq | hnil
    · refine (hmet hexposed).move ?_ rfl rfl rfl
      rw [hpc, goto, heq]
      rfl
    · exact met_nil hnil
  case finished => cases h

/-! ## The switch's writes -/

/-- **What a write of the switch exposes** was exposed before, except at
the write that turns the shadow mode off and the one that turns the
automatic mode off. -/
theorem exposed_of_switch {m' : Modes} {p p' : Periodic} (h : p.step m = some (p', m'))
    (hexp : j.Exposed m') :
    j.Exposed m ∨ (p = .clearShadow ∧ j.Real m) ∨ (p = .clearActive ∧ j.eligible = false) := by
  cases p <;> simp only [Periodic.step, Option.some.injEq, Prod.mk.injEq, reduceCtorEq] at h <;>
    obtain ⟨-, rfl⟩ := h
  case clearShadow =>
    by_cases hreal : j.Real m
    · exact .inr (.inl ⟨rfl, hreal⟩)
    · refine .inl ?_
      revert hexp
      unfold Exposed
      split <;> first | exact id | exact fun h => absurd h.2 hreal
  case clearActive =>
    by_cases hel : j.eligible = false
    · exact .inr (.inr ⟨rfl, hel⟩)
    · have hreal : j.Real m := .inr (by simpa using hel)
      refine .inl ?_
      revert hexp
      unfold Exposed
      split <;> first | exact fun _ => trivial | exact fun _ => hreal | exact fun h => ⟨h.1, hreal⟩
  case setActive =>
    refine .inl ?_
    have hreal : ∀ h : j.Real { m with autoLiveActive := true }, j.Real m := fun h =>
      .inr (h.resolve_left (by simp))
    revert hexp
    unfold Exposed
    split <;> first | exact id | exact hreal | exact fun h => ⟨h.1, hreal h.2⟩
  case setShadow =>
    refine .inl ?_
    revert hexp
    unfold Exposed
    split <;> first | exact id | exact fun h => absurd h.1 (by simp)
  all_goals exact .inl hexp

end EntryJob

/-! ## The engine -/

variable {cfg : EngineConfig} {s t : Engine} {l : EngineLabel} {j : EntryJob}

/-- **The discipline of the switch.** The two writes that expose find the
runs they expose beyond reproach, and an exposed run is not admitted
between the write of the mode and the portfolio manager's. -/
def GateKept (cfg : EngineConfig) (s : Engine) : EngineLabel → Prop
  | .work i => ∀ job ∈ s.jobs[i]?, job.ForEntry fun j =>
      j.pc = .checkEntry → j.conflicts s.shared.positions = false →
        (j.check cfg s.shared).1.allowed = true → j.Exposed s.shared.modes →
        s.shared.modes.riskShadowMode = false
  | .event .switch => ∀ job ∈ s.jobs, job.ForEntry fun j =>
      s.shared.periodic = .clearShadow ∧ j.Real s.shared.modes ∨
        s.shared.periodic = .clearActive ∧ j.eligible = false → j.Met cfg
  | _ => True

instance : Decidable (GateKept cfg s l) := by
  unfold GateKept
  split <;> infer_instance

/-- Every exposed run is beyond reproach. -/
def ExposedMet (cfg : EngineConfig) (s : Engine) : Prop :=
  ∀ (i : ℕ) (j : EntryJob), s.jobs[i]? = some (Job.entry j) → j.Exposed s.shared.modes → j.Met cfg

/-- **A disciplined step keeps exposed runs beyond reproach.** -/
theorem exposedMet_next (hs : ExposedMet cfg s) (hg : GateKept cfg s l)
    (h : (engineSystem cfg).next s l = some t) : ExposedMet cfg t := by
  intro k j hk hexp
  cases Engine.move_of_next h with
  | start job hfresh =>
      rw [List.getElem?_append] at hk
      split at hk
      · exact hs k j hk hexp
      · -- a run that has just started has no gate behind it
        obtain rfl : Job.entry j = job := List.mem_singleton.1 (List.mem_of_getElem? hk)
        refine EntryJob.met_nil ?_
        simp only [Job.fresh, Bool.and_eq_true, decide_eq_true_eq] at hfresh
        rw [hfresh.1.1]
        rfl
  | work i hjob hstep =>
      have hmodes := (Job.move_of_step hstep).modes.1
      rw [hmodes] at hexp
      rw [List.getElem?_set] at hk
      split at hk
      · rename_i job job' shared' hi
        split at hk
        · obtain rfl := Option.some.inj hk
          cases job <;> simp only [Job.step, Option.map_eq_some_iff, Prod.mk.injEq, reduceCtorEq,
            false_and, and_false, exists_false] at hstep
          obtain ⟨⟨j', s'⟩, hstep, hj', rfl⟩ := hstep
          cases hj'
          exact EntryJob.met_of_step hstep (hs i _ hjob) (hg _ hjob) hexp
        · cases hk
      · exact hs k j hk hexp
  | event e happly =>
      rcases Event.modes_of_apply happly with hmodes | ⟨rfl, hstep⟩
      · exact hs k j hk (hmodes ▸ hexp)
      · rcases EntryJob.exposed_of_switch hstep hexp with hold | hnew
        · exact hs k j hk hold
        · exact hg _ (List.mem_of_getElem? hk) hnew

/-- **Every real order has passed the gates.** In every run that keeps the
discipline of the switch, an order handed to `place_futures_order` is for
a signal whose tier meets the live minimum and its timeframe's, that
carries a take-profit, that passes the fee check wherever it applies, and
that was admitted under the live limits. -/
theorem live_orders_meet_gates (h : (engineSystem cfg).Reachable (GateKept cfg) s)
    (hj : Job.entry j ∈ s.jobs) (hpc : j.pc.hands = true) :
    tierMeetsMin j.tier cfg.portfolio.liveMinTier = true ∧ j.tfTierOk cfg = true ∧
      0 < j.sig.tp1 ∧ (j.feeApplies = true → j.feeProfitable cfg = true) ∧
      j.admitted = some false := by
  have hinv : ExposedMet cfg s := by
    refine h.invariant (fun s hs i j hi => ?_) fun s l t hs hg hn => exposedMet_next hs hg hn
    rw [hs.1] at hi
    cases hi
  obtain ⟨i, hi⟩ := List.getElem?_of_mem hj
  have hmet := hinv i j hi (EntryJob.exposed_of_hands hpc)
  have hpassed : j.pc.passed = [.admission, .fee, .tp1, .tfTier, .tier] := by
    cases hpc' : j.pc <;> simp_all [EntryPc.hands, EntryPc.passed]
  simp only [EntryJob.Met, hpassed, List.forall_mem_cons] at hmet
  obtain ⟨hadmission, hfee, htp1, htf, htier, -⟩ := hmet
  exact ⟨htier, htf, htp1, hfee, hadmission⟩

/-! ## Two workers and the switch -/

namespace SwitchRun

/-- An entry whose order is being handed over, and which has a property. -/
def hands (P : EntryJob → Bool) (s : Engine) : Bool :=
  s.jobs.any fun
    | .entry j => j.pc.hands && P j
    | _ => false

theorem exists_of_hands {P : EntryJob → Bool} (h : hands P s = true) :
    ∃ j, Job.entry j ∈ s.jobs ∧ j.pc.hands = true ∧ P j = true := by
  obtain ⟨job, hmem, hjob⟩ := List.any_eq_true.1 h
  cases job <;> simp only [Bool.and_eq_true, Bool.false_eq_true] at hjob
  exact ⟨_, hmem, hjob.1, hjob.2⟩

def config (shadowMode : Bool) : EngineConfig where
  trading := { shadowMode }

def start (shadowMode : Bool) : Engine where
  shared := { modes := Modes.start shadowMode, balance := 1000, peakBalance := 1000 }

theorem start_init (shadowMode : Bool) :
    (engineSystem (config shadowMode)).init (start shadowMode) :=
  ⟨rfl, ⟨rfl, rfl, ⟨1000, rfl⟩, rfl, rfl⟩⟩

/-- A signal with a take-profit, of a symbol of tier A. -/
def good : Job :=
  .entry
    { sig := { symbol := "ETHUSDT", action := "buy", timeframe := "15", price := 50, tp1 := 60 }
      rd := { symbolTier := "A" } }

/-- A signal without a take-profit, of a symbol of tier C. -/
def bad : Job :=
  .entry
    { sig := { symbol := "BTCUSDT", action := "buy", timeframe := "15", price := 50 }
      rd := {} }

/-- Five proven symbols. -/
def reports : Reports where
  futures := ["BTCUSDT", "ETHUSDT", "SOLUSDT", "XRPUSDT", "ADAUSDT"].map fun symbol =>
    { symbol, grade := "A", total := 20, wins := 15, totalPnl := 10 }

theorem check_reports : Readiness.check {} reports =
    (true, ["BTCUSDT", "ETHUSDT", "SOLUSDT", "XRPUSDT", "ADAUSDT"]) := by
  have hsorted : Readiness.evaluateAll {} reports.futures [] =
      reports.futures.map (Readiness.evaluateSymbol {} "futures") :=
    List.mergeSort_of_pairwise (by decide +kernel)
  have hspot : reports.spot = [] := rfl
  simp only [Readiness.check, Readiness.refreshEligible, hspot, hsorted]
  decide +kernel

/-- The switch after it has read the reports. -/
def checked : Engine where
  shared :=
    { (start true).shared with
      periodic := .publish true ["BTCUSDT", "ETHUSDT", "SOLUSDT", "XRPUSDT", "ADAUSDT"] }

theorem next_checked :
    (engineSystem (config true)).next (start true) (.event (.check reports)) = some checked := by
  have hbegin : Periodic.begin {} reports =
      .publish true ["BTCUSDT", "ETHUSDT", "SOLUSDT", "XRPUSDT", "ADAUSDT"] := by
    rw [Periodic.begin, check_reports]
  simp only [engineSystem, Threads.next, Event.apply, config, start, hbegin]
  rfl

/-- The switch goes up to its write of the shadow mode, the run passes the
gates and is admitted, the switch writes, and the run goes on. -/
def labels : List EngineLabel :=
  List.replicate 4 (.event .switch) ++ .start bad :: List.replicate 9 (.work 0) ++
    .event .switch :: List.replicate 6 (.work 0)

end SwitchRun

/-- **A real order that passed no gate.** An eligible signal of tier C
without a take-profit is let through in shadow mode and admitted under
the shadow limits; the switch turns the mode off, and the run hands a
real order over. -/
theorem live_order_meets_no_gate :
    ∃ s j, (engineSystem (SwitchRun.config true)).Reachable System.anyStep s ∧
      Job.entry j ∈ s.jobs ∧ j.pc.hands = true ∧
      tierMeetsMin j.tier (SwitchRun.config true).portfolio.liveMinTier = false ∧
      ¬ 0 < j.sig.tp1 ∧ j.admitted = some true := by
  obtain ⟨s, hrun, hs⟩ := System.exists_run_of_play (M := engineSystem (SwitchRun.config true))
    (G := System.anyStep) (s := SwitchRun.checked) SwitchRun.labels
    (P := fun s => SwitchRun.hands (fun j =>
      tierMeetsMin j.tier (SwitchRun.config true).portfolio.liveMinTier = false ∧
        ¬ 0 < j.sig.tp1 ∧ j.admitted = some true) s = true) (by decide +kernel)
  have hstart : (engineSystem (SwitchRun.config true)).Run System.anyStep (SwitchRun.start true)
      SwitchRun.checked := System.Run.refl.tail trivial SwitchRun.next_checked
  obtain ⟨j, hmem, hpc, hj⟩ := SwitchRun.exists_of_hands hs
  exact ⟨s, j, ⟨_, SwitchRun.start_init true, hstart.trans hrun⟩, hmem, hpc, of_decide_eq_true hj⟩

theorem live_orders_meet_gates_eth :
    ∃ s j, (engineSystem (SwitchRun.config false)).Reachable
        (GateKept (SwitchRun.config false)) s ∧ Job.entry j ∈ s.jobs ∧ j.pc.hands = true ∧
      tierMeetsMin j.tier "B" = true ∧ j.tfTierOk (SwitchRun.config false) = true ∧
      0 < j.sig.tp1 ∧
      (j.feeApplies = true → j.feeProfitable (SwitchRun.config false) = true) ∧
      j.admitted = some false := by
  obtain ⟨s, hrun, hs⟩ := System.exists_run_of_play (M := engineSystem (SwitchRun.config false))
    (G := GateKept (SwitchRun.config false)) (s := SwitchRun.start false)
    (.start SwitchRun.good :: List.replicate 15 (.work 0))
    (P := fun s => SwitchRun.hands (fun _ => true) s = true) (by decide +kernel)
  obtain ⟨j, hmem, hpc, -⟩ := SwitchRun.exists_of_hands hs
  have hreach : (engineSystem (SwitchRun.config false)).Reachable
      (GateKept (SwitchRun.config false)) s := ⟨_, SwitchRun.start_init false, hrun⟩
  exact ⟨s, j, hreach, hmem, hpc, live_orders_meet_gates hreach hmem hpc⟩

end WebhookTrader
