import WebhookTrader.Engine.Steps

/-!
# Realized losses and the circuit breaker

The portfolio manager's breaker is fed by `on_trade_closed`, and no close
of the engine calls it. So the manager's daily sum stays zero and its
breaker stays off in every run: the sum agrees with the trades recorded
today exactly while these sum to zero, and an entry is rejected after a
loss exactly where the other checks reject it.
-/

namespace WebhookTrader

namespace PortfolioRisk

variable {α : Type} {cfg : PortfolioConfig} {shadow : Bool} {now : Clock}
  {positions : Table α ManagedPosition} {e : EntryCheck} {r : PortfolioRisk}

/-- **Nothing has been fed** to the manager. -/
structure Unfed (r : PortfolioRisk) : Prop where
  dailyPnl : r.dailyPnl = 0
  cbActive : r.cbActive = false

theorem Unfed.updateBalance (h : r.Unfed) {balance : ℚ} : (r.updateBalance balance).Unfed :=
  ⟨h.dailyPnl, h.cbActive⟩

theorem Unfed.checkDailyReset (h : r.Unfed) : (r.checkDailyReset now).Unfed := by
  simp only [PortfolioRisk.checkDailyReset]
  split_ifs
  · exact ⟨rfl, h.cbActive⟩
  · exact ⟨rfl, h.cbActive⟩
  · exact h

/-- What `check_entry` asks besides the breaker. -/
def admitsBesideBreaker (cfg : PortfolioConfig) (shadow : Bool)
    (positions : Table α ManagedPosition) (e : EntryCheck) : Bool :=
  e.price * e.qty ≤ hardMaxNotional && (checkLiquidation e).isNone &&
    (checkLimits cfg shadow positions e).allowed

/-- Without an active breaker the manager keeps its daily reset only. -/
theorem checkEntry_of_inactive (h : r.cbActive = false) :
    (checkEntry cfg shadow now positions e r).1.allowed =
        admitsBesideBreaker cfg shadow positions e ∧
      (checkEntry cfg shadow now positions e r).2 = r.checkDailyReset now := by
  have hreset : (r.checkDailyReset now).cbActive = false := by
    simp only [PortfolioRisk.checkDailyReset]
    split_ifs <;> exact h
  have hinactive : ¬ (r.checkDailyReset now).cbActive = true := by
    rw [hreset]
    exact Bool.false_ne_true
  unfold checkEntry admitsBesideBreaker
  dsimp only
  rw [if_neg hinactive]
  split_ifs with hcap
  · simp [not_le.2 hcap]
  · cases hliq : checkLiquidation e with
    | some d => simp [allowed_of_checkLiquidation hliq]
    | none => simp [not_lt.1 hcap]

end PortfolioRisk

/-! ## Nothing feeds the manager -/

variable {cfg : EngineConfig} {s t : Engine} {l : EngineLabel}

/-- **What a step does to the portfolio manager.** It tells it a balance,
or asks it to check an entry. -/
theorem portRisk_of_next (h : (engineSystem cfg).next s l = some t) :
    t.shared.portRisk = s.shared.portRisk ∨
      (∃ balance, t.shared.portRisk = s.shared.portRisk.updateBalance balance) ∨
      ∃ j : EntryJob, t.shared.portRisk = (j.check cfg s.shared).2 := by
  cases Engine.move_of_next h with
  | start job => exact .inl rfl
  | work i hjob hstep =>
      cases Job.move_of_step hstep with
      | entry hmove =>
          cases hmove with
          | reject => exact .inr (.inr ⟨_, rfl⟩)
          | allow => exact .inr (.inr ⟨_, rfl⟩)
          | _ => exact .inl rfl
      | tp hmove | sl hmove =>
          cases hmove with
          | settle => exact .inl CloseJob.settle_closes.portRisk
          | _ => exact .inl rfl
      | closeAll hmove =>
          cases hmove with
          | settle => exact .inl CloseAllJob.settle_closes.portRisk
          | quiet => exact .inl rfl
  | event e happly =>
      cases Event.move_of_apply happly with
      | closes _ hcloses => exact .inl hcloses.portRisk
      | balance _ balance => exact .inr (.inl ⟨balance, rfl⟩)
      | _ => exact .inl rfl

/-- **No run feeds the manager.** -/
theorem unfed_reachable (h : (engineSystem cfg).Reachable System.anyStep s) :
    s.shared.portRisk.Unfed := by
  refine h.invariant (I := fun s => s.shared.portRisk.Unfed) ?_ fun s l t hs _ hn => ?_
  · rintro s ⟨-, hstart⟩
    obtain ⟨balance, heq⟩ := hstart.portRisk
    rw [heq]
    exact ⟨rfl, rfl⟩
  · rcases portRisk_of_next hn with heq | ⟨balance, heq⟩ | ⟨j, heq⟩ <;> rw [heq]
    · exact hs
    · exact hs.updateBalance
    · exact (PortfolioRisk.checkEntry_of_inactive hs.cbActive).2 ▸ hs.checkDailyReset

/-! ## What the breaker should see -/

namespace Shared

/-- The profit of the trades recorded since 00:00 UTC of the current day. -/
def todayPnl (s : Shared) : ℚ :=
  ((s.recorded.filter fun r => Calendar.day r.1 = Calendar.day s.clock.system).map (·.2)).sum

/-- That sum is below the daily loss limit. -/
def LossLimitPassed (cfg : EngineConfig) (s : Shared) : Prop :=
  s.todayPnl < -(cfg.portfolio.cbDailyLossPct / 100 * s.portRisk.initialBalance)

instance (cfg : EngineConfig) (s : Shared) : Decidable (s.LossLimitPassed cfg) :=
  inferInstanceAs (Decidable (_ < _))

end Shared

/-- Every entry checked within the cooldown after a state is refused, in
the sense given. -/
def RefusedAfter (cfg : EngineConfig) (refused : EntryJob → Shared → Prop) (s : Engine) : Prop :=
  ∀ t, (engineSystem cfg).Run System.anyStep s t →
    ((t.shared.clock.steady - s.shared.clock.steady) / PortfolioRisk.minute : ℕ) <
      cfg.portfolio.cbCooldownMin →
    ∀ j, .entry j ∈ t.jobs → j.pc = .checkEntry → refused j t.shared

/-- A step that takes the sum below the limit is followed by refusals. -/
def LossesStop (cfg : EngineConfig) (refused : EntryJob → Shared → Prop) (s : Engine) : Prop :=
  ∀ l t, (engineSystem cfg).next s l = some t → ¬ s.shared.LossLimitPassed cfg →
    t.shared.LossLimitPassed cfg → RefusedAfter cfg refused t

namespace EntryJob

/-- `check_entry` refuses the entry. -/
def Refused (cfg : EngineConfig) (j : EntryJob) (s : Shared) : Prop :=
  (j.check cfg s).1.allowed = false

/-- What `check_entry` asks besides the breaker refuses the entry. -/
def RefusedBesideBreaker (cfg : EngineConfig) (j : EntryJob) (s : Shared) : Prop :=
  PortfolioRisk.admitsBesideBreaker cfg.portfolio s.modes.riskShadowMode s.positions
    (j.entryCheck s) = false

end EntryJob

/-- No run shows the difference. -/
theorem refusedAfter_iff (h : (engineSystem cfg).Reachable System.anyStep s) :
    RefusedAfter cfg (EntryJob.Refused cfg) s ↔
      RefusedAfter cfg (EntryJob.RefusedBesideBreaker cfg) s := by
  refine forall₃_congr fun t hrun _ => forall₃_congr fun j _ _ => ?_
  have hactive := (unfed_reachable (h.run hrun)).cbActive
  rw [EntryJob.Refused, EntryJob.check, (PortfolioRisk.checkEntry_of_inactive hactive).1,
    EntryJob.RefusedBesideBreaker]

/-- **When losses reach the breaker.** In every state a run reaches, the
manager's daily sum is that of today's trades and the limit stops entries
exactly where today's trades sum to zero and the other checks alone stop
the entries the limit should. -/
theorem losses_reach_iff (h : (engineSystem cfg).Reachable System.anyStep s) :
    (s.shared.portRisk.dailyPnl = s.shared.todayPnl ∧
        LossesStop cfg (EntryJob.Refused cfg) s) ↔
      s.shared.todayPnl = 0 ∧ LossesStop cfg (EntryJob.RefusedBesideBreaker cfg) s := by
  refine and_congr ?_ (forall₃_congr fun l t hn => forall₂_congr fun _ _ => ?_)
  · rw [(unfed_reachable h).dailyPnl, eq_comm]
  · exact refusedAfter_iff (h.run (System.Run.refl.tail trivial hn))

/-! ## A loss that stops nothing -/

namespace LossRun

/-- Three coins bought at a hundred. -/
def book : Book :=
  (∅ : Book).insert (.entry "BTCUSDT" "15" 1)
    { symbol := "BTCUSDT", timeframe := "15", side := "long", entryPrice := 100, quantity := 3 }

def start : Engine where
  shared := { modes := Modes.start false, positions := book, balance := 1000, peakBalance := 1000 }

theorem start_init : (engineSystem {}).init start :=
  ⟨rfl, ⟨rfl, rfl, ⟨1000, rfl⟩, rfl, rfl⟩⟩

/-- The stop-loss at eighty, and then an entry up to its admission. -/
def labels : List EngineLabel :=
  [.start (.sl
      { sig := { symbol := "BTCUSDT", signalDirection := "bull", price := 80 }, rd := {} }),
    .work 0, .work 0, .work 0, .work 0,
    .start (.entry
      { sig := { symbol := "ETHUSDT", action := "buy", timeframe := "15", price := 50, tp1 := 60 }
        rd := { symbolTier := "A" } }),
    .work 1, .work 1, .work 1, .work 1, .work 1, .work 1, .work 1, .work 1]

/-- An entry stands before its check and is going to be admitted. -/
def admitsNext (cfg : EngineConfig) (s : Engine) : Bool :=
  s.jobs.any fun
    | .entry j => j.pc = .checkEntry && (j.check cfg s.shared).1.allowed
    | _ => false

end LossRun

/-- **A loss the manager never hears of.** A stop-loss takes today's sum
below five percent of the balance, the manager's sum stays zero, and the
next entry is admitted. -/
theorem losses_unheard :
    ∃ s, (engineSystem {}).Reachable System.anyStep s ∧ s.shared.portRisk.dailyPnl = 0 ∧
      s.shared.LossLimitPassed {} ∧ LossRun.admitsNext {} s = true := by
  obtain ⟨s, hrun, hs⟩ := System.exists_run_of_play (M := engineSystem {}) (G := System.anyStep)
    (s := LossRun.start) LossRun.labels
    (P := fun s => s.shared.portRisk.dailyPnl = 0 ∧ s.shared.LossLimitPassed {} ∧
      LossRun.admitsNext {} s = true) (by decide +kernel)
  exact ⟨s, ⟨_, LossRun.start_init, hrun⟩, hs⟩

theorem losses_reach_iff_start :
    (LossRun.start.shared.portRisk.dailyPnl = LossRun.start.shared.todayPnl ∧
        LossesStop {} (EntryJob.Refused {}) LossRun.start) ↔
      LossRun.start.shared.todayPnl = 0 ∧
        LossesStop {} (EntryJob.RefusedBesideBreaker {}) LossRun.start :=
  losses_reach_iff ⟨_, LossRun.start_init, System.Run.refl⟩

end WebhookTrader
