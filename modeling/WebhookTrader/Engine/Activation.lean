import WebhookTrader.Engine.Demotion
import WebhookTrader.Engine.Gate

/-!
# What the switch to live trading rests on

A check of the switch counts the entries of both reports that are ready
or proven, before any of them is demoted, and publishes the eligible keys
before it writes a mode. So when the shadow mode goes, the reports of the
last check have enough such entries, and those that are not demoted are
eligible for the handlers.
-/

namespace WebhookTrader

/-! ## The count -/

namespace Readiness

variable {cfg : ReadinessConfig} {futures spot : List ReportEntry} {e : ReportEntry}
  {reports : Reports} {symbol : String}

/-- The entry is ready or proven. -/
def isLiveEntry (cfg : ReadinessConfig) (e : ReportEntry) : Bool := (level cfg e).1.isLive

/-- The number of ready symbols and that of proven ones together. -/
theorem countP_isLive (readiness : List SymbolReadiness) :
    (readiness.countP fun r => r.level = .ready) + (readiness.countP fun r => r.level = .proven) =
      readiness.countP fun r => r.level.isLive := by
  induction readiness with
  | nil => rfl
  | cons r readiness ih =>
      simp only [List.countP_cons, ← ih]
      cases r.level <;> simp [ReadinessLevel.isLive] <;> omega

/-- **The status counts the entries of both reports.** -/
theorem canGoLive_iff : (refreshEligible cfg futures spot).1.canGoLive = true ↔
    cfg.minSymbolsForLive ≤ ((futures ++ spot).countP (isLiveEntry cfg) : ℕ) := by
  have hcount : ((evaluateAll cfg futures spot).countP fun r => r.level.isLive) =
      (futures ++ spot).countP (isLiveEntry cfg) := by
    rw [evaluateAll, (List.mergeSort_perm _ _).countP_eq, List.countP_append, List.countP_append,
      List.countP_map, List.countP_map]
    rfl
  simp only [refreshEligible, getPipelineStatus, decide_eq_true_eq]
  rw [countP_isLive, hcount]

/-- What `refresh_eligible` finds eligible, the check publishes. -/
theorem mem_check (h : symbol ∈ (refreshEligible cfg reports.futures reports.spot).2) :
    symbol ∈ (check cfg reports).2 := List.mem_append_left _ (List.mem_append_left _ h)

end Readiness

/-! ## What a handler makes of the keys -/

/-- **The handler computes `is_eligible`**, as things stand, from its read
of `m_auto_live_active` on. -/
def EntryJob.FindsEligible (cfg : EngineConfig) (s : Shared) (j : EntryJob) : Prop :=
  ∃ j₁ j₂, j.step cfg s = some (j₁, s) ∧ j₁.step cfg s = some (j₂, s) ∧
    j₂.pc = .tierGate ∧ j₂.eligible = true

theorem EntryJob.findsEligible {cfg : EngineConfig} {s : Shared} {j : EntryJob}
    (hpc : j.pc = .readActive) (hactive : s.modes.autoLiveActive = true)
    (hkey : j.sig.symbol ∈ s.modes.eligibleKeys) : j.FindsEligible cfg s := by
  have hread : j.step cfg s = some (j.goto .readEligible, s) := by
    simp [step, hpc, hactive]
  refine ⟨_, _, hread, rfl, rfl, ?_⟩
  show (_ || s.modes.eligibleKeys.contains j.sig.symbol) = true
  rw [List.contains_iff_mem.2 hkey, Bool.or_true]

/-! ## The reports of the last check -/

/-- A check that begins leaves its reports. -/
def Engine.checked (_ : Engine) : EngineLabel → Option Reports
  | .event (.check reports) => some reports
  | _ => none

/-- **The engine with the reports of its checks**, the last ones first. -/
abbrev checkedEngine (cfg : EngineConfig) : System (Engine × List Reports) EngineLabel :=
  (engineSystem cfg).logged Engine.checked

/-- **The switch acts on the last reports.** What it is going to publish is
what the check made of them; on its way up, they can go live, and their
keys are published. -/
def Periodic.Backed (cfg : ReadinessConfig) (m : Modes) (log : List Reports) : Periodic → Prop
  | publish can keys => ∃ r, log.head? = some r ∧ Readiness.check cfg r = (can, keys)
  | upShadow | upActive | setActive =>
      ∃ r, log.head? = some r ∧ Readiness.check cfg r = (true, m.eligibleKeys)
  | clearShadow => m.autoLiveActive = true ∧
      ∃ r, log.head? = some r ∧ Readiness.check cfg r = (true, m.eligibleKeys)
  | _ => True

section Backed

variable {cfg : EngineConfig} {s s' : Shared} {m m' : Modes} {p p' : Periodic}
  {log : List Reports}

/-- The switch's own step. -/
theorem Periodic.Backed.step (h : p.Backed cfg.readiness m log)
    (hstep : p.step m = some (p', m')) : p'.Backed cfg.readiness m' log := by
  cases p <;> simp only [Periodic.step, Option.some.injEq, Prod.mk.injEq, reduceCtorEq] at hstep
  all_goals obtain ⟨rfl, rfl⟩ := hstep
  case publish can keys =>
    obtain ⟨r, hr, hcheck⟩ := h
    cases can with
    | true => exact ⟨r, hr, hcheck⟩
    | false => trivial
  case upShadow =>
    split_ifs
    · exact h
    · trivial
  case upActive =>
    split_ifs
    · trivial
    · exact h
  case setActive => exact ⟨rfl, h⟩
  case downActive can => split_ifs <;> trivial
  all_goals trivial

/-- **What an event does to the switch.** -/
theorem Event.periodic_of_apply {e : Event} (h : e.apply cfg s = some s') :
    (∃ reports, e = .check reports ∧
        s' = { s with periodic := Periodic.begin cfg.readiness reports }) ∨
      (∀ reports, e ≠ .check reports) ∧
        (s'.modes = s.modes ∧ s'.periodic = s.periodic ∨
          e = .switch ∧ s.periodic.step s.modes = some (s'.periodic, s'.modes)) := by
  cases e
  case check reports =>
    simp only [apply, Option.ite_none_right_eq_some, Option.some.injEq] at h
    obtain ⟨-, rfl⟩ := h
    exact .inl ⟨reports, rfl, rfl⟩
  case switch =>
    obtain ⟨_, hstep, rfl⟩ := Option.map_eq_some_iff.1 h
    exact .inr ⟨by simp, .inr ⟨rfl, hstep⟩⟩
  all_goals
    refine .inr ⟨by simp, .inl ?_⟩
    cases move_of_apply h with
    | closes _ hcloses => exact ⟨hcloses.modes, hcloses.periodic⟩
    | modes hswitches => cases hswitches
    | _ => exact ⟨rfl, rfl⟩

variable {t t' : Engine × List Reports} {l : EngineLabel}

/-- **Every step keeps the switch on the last reports.** -/
theorem backed_next (h : t.1.shared.periodic.Backed cfg.readiness t.1.shared.modes t.2)
    (hnext : (checkedEngine cfg).next t l = some t') :
    t'.1.shared.periodic.Backed cfg.readiness t'.1.shared.modes t'.2 := by
  obtain ⟨hmove, hlog⟩ := System.next_logged.1 hnext
  rw [hlog]
  obtain ⟨⟨shared', jobs'⟩, log'⟩ := t'
  cases hcase : Engine.move_of_next hmove with
  | start job _ => exact h
  | work i _ hstep =>
      obtain ⟨hmodes, hperiodic⟩ := (Job.move_of_step hstep).modes
      dsimp only
      rw [hmodes, hperiodic]
      exact h
  | event e happly =>
      rcases Event.periodic_of_apply happly with ⟨reports, rfl, rfl⟩ | ⟨hother, hquiet | hswitch⟩
      · exact ⟨reports, rfl, rfl⟩
      · have hnone : Engine.checked t.1 (.event e) = none := by
          cases e <;> first | rfl | exact absurd rfl (hother _)
        rw [hnone, Option.toList_none, List.nil_append]
        dsimp only
        rw [hquiet.1, hquiet.2]
        exact h
      · obtain ⟨rfl, hstep⟩ := hswitch
        exact h.step hstep

/-- **Along a run.** -/
theorem backed_of_reachable (h : (checkedEngine cfg).Reachable System.anyStep t) :
    t.1.shared.periodic.Backed cfg.readiness t.1.shared.modes t.2 := by
  refine System.Reachable.invariant (I := fun t : Engine × List Reports =>
    t.1.shared.periodic.Backed cfg.readiness t.1.shared.modes t.2) (fun t ht => ?_)
    (fun s l u hs _ hn => backed_next hs hn) h
  rw [ht.1.2.periodic]
  trivial

/-- **Only one write turns the shadow mode off.** -/
theorem clearShadow_of_next (hnext : (checkedEngine cfg).next t l = some t')
    (hon : t.1.shared.modes.shadowMode = true) (hoff : t'.1.shared.modes.shadowMode = false) :
    t.1.shared.periodic = .clearShadow ∧ t'.2 = t.2 ∧
      t'.1.shared.modes = { t.1.shared.modes with shadowMode := false } := by
  obtain ⟨hmove, hlog⟩ := System.next_logged.1 hnext
  obtain ⟨⟨shared', jobs'⟩, log'⟩ := t'
  have hchanged : shared'.modes ≠ t.1.shared.modes := by
    intro hsame
    rw [hsame, hon] at hoff
    cases hoff
  cases Engine.move_of_next hmove with
  | start job _ => exact absurd rfl hchanged
  | work i _ hstep => exact absurd (Job.move_of_step hstep).modes.1 hchanged
  | event e happly =>
      obtain ⟨rfl, hstep⟩ := (Event.modes_of_apply happly).resolve_left hchanged
      refine ⟨?_, hlog, ?_⟩
      all_goals
        dsimp only at hoff
        cases hp : t.1.shared.periodic <;> rw [hp] at hstep <;>
          simp only [Periodic.step, Option.some.injEq, Prod.mk.injEq, reduceCtorEq] at hstep
        all_goals obtain ⟨-, hmodes⟩ := hstep
        all_goals rw [← hmodes] at hoff
        all_goals first | rfl | exact hmodes.symm | simp [hon] at hoff

end Backed

/-! ## Five spot entries -/

namespace SpotActivation

/-- Five proven entries, as the spot tracker names them. -/
def spotReports : Reports where
  spot := ["BTCUSDT:15:bitget", "ETHUSDT:15:bitget", "SOLUSDT:15:bitget", "XRPUSDT:15:bitget",
    "ADAUSDT:15:bitget"].map fun symbol =>
      { symbol, grade := "A", total := 20, wins := 15, totalPnl := 10 }

/-- What a check makes of them. -/
def keys : List String := ["BTCUSDT:15:bitget", "ETHUSDT:15:bitget", "SOLUSDT:15:bitget",
  "XRPUSDT:15:bitget", "ADAUSDT:15:bitget"]

theorem check_spotReports : Readiness.check {} spotReports = (true, keys) := by
  have hsorted : Readiness.evaluateAll {} [] spotReports.spot =
      spotReports.spot.map (Readiness.evaluateSymbol {} "spot") :=
    List.mergeSort_of_pairwise (by decide +kernel)
  have hfutures : spotReports.futures = [] := rfl
  simp only [Readiness.check, Readiness.refreshEligible, hfutures, hsorted]
  decide +kernel

/-- The switch after it has read them. -/
def checked : Engine :=
  ⟨{ (SwitchRun.start true).shared with periodic := .publish true keys }, []⟩

theorem next_start : (checkedEngine (SwitchRun.config true)).next (SwitchRun.start true, [])
    (.event (.check spotReports)) = some (checked, [spotReports]) := by
  have hbegin : Periodic.begin {} spotReports = .publish true keys := by
    rw [Periodic.begin, check_spotReports]
  refine System.next_logged.2 ⟨?_, rfl⟩
  simp only [engineSystem, Threads.next, Event.apply, SwitchRun.config, SwitchRun.start, hbegin]
  rfl

/-- The switch up to its write of the shadow mode, and with it. -/
def before : Engine × List Reports :=
  (checkedEngine (SwitchRun.config true)).endOf (checked, [spotReports])
    (List.replicate 4 (.event .switch))

def after : Engine × List Reports :=
  (checkedEngine (SwitchRun.config true)).endOf before [.event .switch]

theorem before_reachable :
    (checkedEngine (SwitchRun.config true)).Reachable System.anyStep before := by
  have hstart : (checkedEngine (SwitchRun.config true)).Run System.anyStep
      (SwitchRun.start true, []) (checked, [spotReports]) :=
    System.Run.refl.tail trivial next_start
  exact ⟨_, ⟨SwitchRun.start_init true, rfl⟩, hstart.trans
    (System.run_endOf _ (by decide +kernel))⟩

theorem next_before : (checkedEngine (SwitchRun.config true)).next before (.event .switch) =
    some after := System.next_endOf (by decide +kernel)

theorem switched : before.1.shared.modes.shadowMode = true ∧
    after.1.shared.modes.shadowMode = false ∧ after.2 = [spotReports] := by decide +kernel

end SpotActivation

end WebhookTrader
