import Mathlib.Data.List.Induction
import WebhookTrader.Common.Window
import WebhookTrader.Risk.Model.RiskCalls

/-!
# The circuit breaker over time

Losses are put on a queue that is pruned only when another loss comes, and
three sums share one flag. Still the breaker trips where the losses of the
window, the day or the week are too large, and there alone; and it keeps
for its cooldown, since an activation is not timed anew and only
`check_entry` releases it.
-/

namespace WebhookTrader

namespace RiskCall

variable {α : Type}

/-- The loss a call tells of, with its time. -/
def loss : TimedCall α → Option (ℕ × ℚ)
  | (now, tradeClosed pnl) => if pnl < 0 then some (now.steady, pnl) else none
  | _ => none

/-- The losses some calls tell of. -/
def losses (calls : List (TimedCall α)) : List (ℕ × ℚ) := calls.filterMap loss

/-- The balance after a call. -/
def balance (before : ℚ) : TimedCall α → ℚ
  | (_, updateBalance balance) => balance
  | _ => before

/-- **The balance in force** after some calls: the last that was told, and
1000 before the first. -/
def balanceInForce (calls : List (TimedCall α)) : ℚ := calls.foldl balance 1000

/-- The calls are in the order of the steady clock. -/
def Chronological (calls : List (TimedCall α)) : Prop :=
  calls.Pairwise fun c c' => c.1.steady ≤ c'.1.steady

/-- The start of the rapid-loss window. -/
def windowStart (cfg : PortfolioConfig) (now : Clock) : ℤ :=
  now.steady - cfg.rapidLossWindowMin * PortfolioRisk.minute

/-- The time of a loss. -/
def lossTime (l : ℕ × ℚ) : ℤ := l.1

/-- **The losses of the window**, in sum. -/
def recentLoss (cfg : PortfolioConfig) (now : Clock) (calls : List (TimedCall α)) : ℚ :=
  ((Window.since lossTime (windowStart cfg now) (losses calls)).map (·.2)).sum

end RiskCall

namespace PortfolioRisk

open RiskCall

variable {α : Type} {cfg : PortfolioConfig} {now : Clock} {r : PortfolioRisk} {pnl : ℚ}
  {calls past : List (TimedCall α)} {call : TimedCall α} {shadow : Bool}
  {positions : Table α ManagedPosition} {e : EntryCheck}

/-! ## What the parts leave alone -/

@[simp] theorem checkDailyReset_recentLosses :
    (r.checkDailyReset now).recentLosses = r.recentLosses := by
  unfold checkDailyReset
  dsimp only
  split_ifs <;> rfl

@[simp] theorem checkDailyReset_initialBalance :
    (r.checkDailyReset now).initialBalance = r.initialBalance := by
  unfold checkDailyReset
  dsimp only
  split_ifs <;> rfl

@[simp] theorem checkDailyReset_cbActive : (r.checkDailyReset now).cbActive = r.cbActive := by
  unfold checkDailyReset
  dsimp only
  split_ifs <;> rfl

@[simp] theorem checkDailyReset_cbActivatedAt :
    (r.checkDailyReset now).cbActivatedAt = r.cbActivatedAt := by
  unfold checkDailyReset
  dsimp only
  split_ifs <;> rfl

/-! ## A close -/

/-- The breaker after a trigger, or without one. An active breaker is not
timed anew. -/
def tripped (now : Clock) (trigger : Bool) (r : PortfolioRisk) : PortfolioRisk :=
  { r with
    cbActive := r.cbActive || trigger
    cbActivatedAt := if trigger && !r.cbActive then now.steady else r.cbActivatedAt }

@[simp] theorem tripped_dailyPnl {a : Bool} : (r.tripped now a).dailyPnl = r.dailyPnl := rfl

@[simp] theorem tripped_weeklyPnl {a : Bool} : (r.tripped now a).weeklyPnl = r.weeklyPnl := rfl

@[simp] theorem tripped_initialBalance {a : Bool} :
    (r.tripped now a).initialBalance = r.initialBalance := rfl

@[simp] theorem tripped_recentLosses {a : Bool} :
    (r.tripped now a).recentLosses = r.recentLosses := rfl

theorem ite_activate {trigger : Prop} [Decidable trigger] :
    (if trigger then r.activateCircuitBreaker now else r) = r.tripped now (decide trigger) := by
  obtain ⟨dailyPnl, weeklyPnl, balance, active, activatedAt, lastDay, lastWeekDay, recent⟩ := r
  by_cases htrigger : trigger
  · cases active <;> simp [htrigger, tripped, activateCircuitBreaker]
  · simp [htrigger, tripped]

/-- Two triggers at once are one. -/
theorem tripped_tripped {a b : Bool} :
    (r.tripped now a).tripped now b = r.tripped now (a || b) := by
  cases a <;> cases b <;> simp [tripped]

/-- The sums and the queue after a close. -/
def noted (cfg : PortfolioConfig) (now : Clock) (pnl : ℚ) (r : PortfolioRisk) : PortfolioRisk :=
  let r := r.checkDailyReset now
  { r with
    dailyPnl := r.dailyPnl + pnl
    weeklyPnl := r.weeklyPnl + pnl
    recentLosses :=
      if pnl < 0 then
        (r.recentLosses ++ [(now.steady, pnl)]).dropWhile fun l =>
          decide (lossTime l < windowStart cfg now)
      else r.recentLosses }

/-- The triggers of a close, in the state with its sums and the queue. -/
def triggered (cfg : PortfolioConfig) (pnl : ℚ) (r : PortfolioRisk) : Prop :=
  pnl < 0 ∧ (r.recentLosses.map (·.2)).sum < -(r.initialBalance * (cfg.rapidLossPct / 100)) ∨
    r.dailyPnl < -(r.initialBalance * (cfg.cbDailyLossPct / 100)) ∨
    r.weeklyPnl < -(r.initialBalance * (cfg.cbWeeklyLossPct / 100))

instance : Decidable (triggered cfg pnl r) := inferInstanceAs (Decidable (_ ∨ _))

/-- **What a close does**: it is noted, and the triggers are looked at. -/
theorem onTradeClosed_eq : r.onTradeClosed cfg now pnl =
    (r.noted cfg now pnl).tripped now (decide (triggered cfg pnl (r.noted cfg now pnl))) := by
  unfold onTradeClosed noted triggered pruneRecentLosses
  by_cases hloss : pnl < 0
  · simp only [hloss, if_true, true_and, ite_activate, tripped_tripped, Bool.decide_or,
      tripped_dailyPnl, tripped_weeklyPnl, tripped_initialBalance, Bool.or_assoc]
    rfl
  · simp only [hloss, if_false, false_and, false_or, ite_activate, tripped_tripped,
      Bool.decide_or, tripped_weeklyPnl, tripped_initialBalance]

/-! ## An entry check -/

variable (cfg now r shadow positions e) in
/-- **What an entry check does**: the daily reset, and the release of a
breaker whose cooldown is over. Where it does not release an active
breaker it refuses. -/
theorem checkEntry_cases :
    (checkEntry cfg shadow now positions e r).2 = r.checkDailyReset now ∧
        (r.cbActive = true → (checkEntry cfg shadow now positions e r).1.allowed = false) ∨
      (checkEntry cfg shadow now positions e r).2 =
          { r.checkDailyReset now with cbActive := false } ∧
        cfg.cbCooldownMin ≤ ((now.steady - r.cbActivatedAt) / minute : ℕ) := by
  unfold checkEntry
  dsimp only
  split
  · exact .inl ⟨rfl, fun _ => rfl⟩
  split
  · rename_i d hliq
    exact .inl ⟨rfl, fun _ => allowed_of_checkLiquidation hliq⟩
  split
  · -- an active breaker
    simp only [checkCbCooldown, checkDailyReset_cbActivatedAt]
    by_cases hcool : cfg.cbCooldownMin ≤ ((now.steady - r.cbActivatedAt) / minute : ℕ)
    · simp only [if_pos hcool]
      exact .inr ⟨rfl, hcool⟩
    · simp only [if_neg hcool]
      exact .inl ⟨rfl, fun _ => rfl⟩
  · rename_i hactive
    rw [checkDailyReset_cbActive] at hactive
    exact .inl ⟨rfl, fun hon => absurd hon hactive⟩

/-! ## One call -/

theorem after_concat : after cfg (calls ++ [call]) = step cfg (after cfg calls) call :=
  List.foldl_concat ..

theorem losses_concat : losses (calls ++ [call]) = losses calls ++ (loss call).toList := by
  rw [losses, List.filterMap_append]
  cases h : loss call <;> simp [losses, h]

theorem balanceInForce_concat :
    balanceInForce (calls ++ [call]) = balance (balanceInForce calls) call := List.foldl_concat ..

theorem step_initialBalance : (step cfg r call).initialBalance = balance r.initialBalance call := by
  obtain ⟨now, call⟩ := call
  cases call with
  | tradeClosed pnl =>
      simp only [step, onTradeClosed_eq, tripped_initialBalance, noted]
      exact checkDailyReset_initialBalance
  | updateBalance balance => rfl
  | checkEntry shadow positions e =>
      rcases checkEntry_cases cfg now r shadow positions e with ⟨heq, -⟩ | ⟨heq, -⟩ <;> simp only [step, heq, balance] <;>
        exact checkDailyReset_initialBalance

/-- A loss is queued, and the queue pruned to the window. -/
theorem step_recentLosses : (step cfg r call).recentLosses =
    match loss call with
    | some l => (r.recentLosses ++ [l]).dropWhile fun l =>
        decide (lossTime l < windowStart cfg call.1)
    | none => r.recentLosses := by
  obtain ⟨now, call⟩ := call
  cases call with
  | tradeClosed pnl =>
      simp only [step, onTradeClosed_eq, tripped_recentLosses, noted,
        checkDailyReset_recentLosses, loss]
      split_ifs <;> rfl
  | updateBalance balance => rfl
  | checkEntry shadow positions e =>
      rcases checkEntry_cases cfg now r shadow positions e with ⟨heq, -⟩ | ⟨heq, -⟩ <;> simp only [step, heq, loss] <;>
        exact checkDailyReset_recentLosses

/-- Every call so far came before a time. -/
def Before (calls : List (TimedCall α)) (now : Clock) : Prop :=
  ∀ c ∈ calls, c.1.steady ≤ now.steady

/-- **What the manager knows of its calls**: the balance in force, and a
queue that is the history of losses as far as the window goes. -/
structure Knows (cfg : PortfolioConfig) (calls : List (TimedCall α)) (r : PortfolioRisk) :
    Prop where
  balance : r.initialBalance = balanceInForce calls
  window : ∀ now, Before calls now →
    Window.AgreeFrom lossTime (windowStart cfg now) r.recentLosses (losses calls)
  inOrder : Window.InOrder lossTime r.recentLosses
  past : ∀ now, Before calls now → ∀ l ∈ r.recentLosses, lossTime l ≤ now.steady

theorem knows_init : Knows cfg ([] : List (TimedCall α)) {} where
  balance := rfl
  window _ _ := Window.agreeFrom_nil
  inOrder := List.Pairwise.nil
  past _ _ _ hl := absurd hl List.not_mem_nil

theorem before_concat : Before (calls ++ [call]) now ↔
    Before calls now ∧ call.1.steady ≤ now.steady := by
  simp [Before, or_imp, forall_and]

/-- The time of a loss is that of its call. -/
theorem lossTime_of_loss {l : ℕ × ℚ} (h : loss call = some l) : lossTime l = call.1.steady := by
  obtain ⟨now, call⟩ := call
  cases call with
  | tradeClosed pnl =>
      obtain ⟨-, hl⟩ := Option.ite_none_right_eq_some.1 h
      rw [← Option.some.inj hl]
      rfl
  | _ => cases h

/-- **Every call is known.** -/
theorem Knows.step (h : Knows cfg calls r) (hcall : Before calls call.1) :
    Knows cfg (calls ++ [call]) (step cfg r call) := by
  have hbalance : (PortfolioRisk.step cfg r call).initialBalance =
      balanceInForce (calls ++ [call]) := by
    rw [step_initialBalance, balanceInForce_concat, h.balance]
  cases hloss : loss call with
  | none =>
      have hqueue : (PortfolioRisk.step cfg r call).recentLosses = r.recentLosses := by
        rw [step_recentLosses, hloss]
      have hlosses : losses (calls ++ [call]) = losses calls := by
        rw [losses_concat, hloss, Option.toList_none, List.append_nil]
      refine ⟨hbalance, fun now hnow => ?_, ?_, fun now hnow => ?_⟩
      · rw [hqueue, hlosses]
        exact h.window now (before_concat.1 hnow).1
      · rw [hqueue]
        exact h.inOrder
      · rw [hqueue]
        exact h.past now (before_concat.1 hnow).1
  | some l =>
      have hqueue : (PortfolioRisk.step cfg r call).recentLosses =
          (r.recentLosses ++ [l]).dropWhile fun l =>
            decide (lossTime l < windowStart cfg call.1) := by
        rw [step_recentLosses, hloss]
      have hlosses : losses (calls ++ [call]) = losses calls ++ [l] := by
        rw [losses_concat, hloss, Option.toList_some]
      have htime := lossTime_of_loss hloss
      have horder : Window.InOrder lossTime (r.recentLosses ++ [l]) :=
        h.inOrder.push fun l' hl' => htime ▸ h.past call.1 hcall l' hl'
      refine ⟨hbalance, fun now hnow => ?_, ?_, fun now hnow l' hl' => ?_⟩
      · -- the cut is no earlier than the one the queue was pruned at
        have hle : windowStart cfg call.1 ≤ windowStart cfg now := by
          have := (before_concat.1 hnow).2
          unfold windowStart
          omega
        rw [hqueue, hlosses]
        exact ((h.window call.1 hcall).push.prune horder).mono hle
      · rw [hqueue]
        exact horder.prune
      · obtain ⟨hbefore, hlast⟩ := before_concat.1 hnow
        rw [hqueue] at hl'
        rcases List.mem_append.1 ((List.dropWhile_sublist _).subset hl') with hold | hnew
        · exact h.past now hbefore l' hold
        · rw [List.mem_singleton.1 hnew, htime]
          exact_mod_cast hlast

theorem chronological_concat : Chronological (calls ++ [call]) ↔
    Chronological calls ∧ Before calls call.1 := by
  simp [Chronological, List.pairwise_append, Before]

theorem knows_after (h : Chronological calls) : Knows cfg calls (after cfg calls) := by
  induction calls using List.reverseRecOn with
  | nil => exact knows_init
  | append_singleton past call ih =>
      obtain ⟨hpast, hcall⟩ := chronological_concat.1 h
      rw [after_concat]
      exact (ih hpast).step hcall

/-! ## When it trips -/

/-- **The reasons to trip** at a close: the losses of the window, the day's
sum and the week's, with the limits of the balance in force. -/
def MustTrip (cfg : PortfolioConfig) (past : List (TimedCall α)) (now : Clock) (pnl : ℚ) : Prop :=
  pnl < 0 ∧ recentLoss cfg now (past ++ [(now, .tradeClosed pnl)]) <
      -(balanceInForce past * (cfg.rapidLossPct / 100)) ∨
    (after cfg (past ++ [(now, .tradeClosed pnl)])).dailyPnl <
      -(balanceInForce past * (cfg.cbDailyLossPct / 100)) ∨
    (after cfg (past ++ [(now, .tradeClosed pnl)])).weeklyPnl <
      -(balanceInForce past * (cfg.cbWeeklyLossPct / 100))

theorem cbActive_tradeClosed (h : Chronological (past ++ [(now, .tradeClosed pnl)])) :
    (after cfg (past ++ [(now, .tradeClosed pnl)])).cbActive = true ↔
      (after cfg past).cbActive = true ∨ MustTrip cfg past now pnl := by
  obtain ⟨hpast, hbefore⟩ := chronological_concat.1 h
  have hknows : Knows cfg past (after cfg past) := knows_after hpast
  have hafter : after cfg (past ++ [(now, .tradeClosed pnl)]) =
      (after cfg past).onTradeClosed cfg now pnl := after_concat
  have hbalance : ((after cfg past).noted cfg now pnl).initialBalance = balanceInForce past := by
    rw [← hknows.balance]
    exact checkDailyReset_initialBalance
  have hactive : ((after cfg past).noted cfg now pnl).cbActive = (after cfg past).cbActive :=
    checkDailyReset_cbActive
  have hrecent : pnl < 0 → (((after cfg past).noted cfg now pnl).recentLosses.map (·.2)).sum =
      recentLoss cfg now (past ++ [(now, .tradeClosed pnl)]) := by
    intro hloss
    have hnew : loss ((now, .tradeClosed pnl) : TimedCall α) = some (now.steady, pnl) :=
      if_pos hloss
    have horder : Window.InOrder lossTime ((after cfg past).recentLosses ++ [(now.steady, pnl)]) :=
      hknows.inOrder.push (hknows.past now hbefore)
    have hqueue := (hknows.window now hbefore).push.eq_since horder
    rw [recentLoss, losses_concat, hnew, Option.toList_some, ← hqueue]
    simp only [noted, if_pos hloss, checkDailyReset_recentLosses]
  rw [MustTrip, hafter, onTradeClosed_eq, tripped_dailyPnl, tripped_weeklyPnl]
  simp only [tripped, Bool.or_eq_true, decide_eq_true_eq, hactive, triggered, hbalance]
  exact or_congr_right (or_congr_left (and_congr_right fun hloss => by rw [hrecent hloss]))

/-! ## How long it keeps -/

/-- The breaker has been active since a time. -/
structure ActiveSince (a : ℕ) (r : PortfolioRisk) : Prop where
  active : r.cbActive = true
  since : r.cbActivatedAt = a

/-- The cooldown is not over. -/
theorem not_cooled {a steady : ℕ} (hafter : a ≤ steady)
    (hlocked : (steady : ℤ) < a + cfg.cbCooldownMin * minute) :
    ¬ cfg.cbCooldownMin ≤ ((steady - a) / minute : ℕ) := by
  unfold minute at *
  omega

/-- **Until its cooldown is over the breaker keeps**, and an entry check
refuses. -/
theorem ActiveSince.step {a : ℕ} (h : ActiveSince a r) (hafter : a ≤ call.1.steady)
    (hlocked : (call.1.steady : ℤ) < a + cfg.cbCooldownMin * minute) :
    ActiveSince a (step cfg r call) := by
  obtain ⟨now, call⟩ := call
  cases call with
  | tradeClosed pnl =>
      simp only [PortfolioRisk.step, onTradeClosed_eq]
      have hactive : (r.noted cfg now pnl).cbActive = true :=
        checkDailyReset_cbActive.trans h.active
      have hsince : (r.noted cfg now pnl).cbActivatedAt = a :=
        checkDailyReset_cbActivatedAt.trans h.since
      exact ⟨by simp [tripped, hactive], by simp [tripped, hactive, hsince]⟩
  | updateBalance balance => exact ⟨h.active, h.since⟩
  | checkEntry shadow positions e =>
      rcases checkEntry_cases cfg now r shadow positions e with ⟨heq, -⟩ | ⟨-, hcool⟩
      · simp only [PortfolioRisk.step, heq]
        exact ⟨checkDailyReset_cbActive.trans h.active, checkDailyReset_cbActivatedAt.trans h.since⟩
      · rw [h.since] at hcool
        exact absurd hcool (not_cooled hafter hlocked)

theorem ActiveSince.refuses {a : ℕ} (h : ActiveSince a r) (hafter : a ≤ now.steady)
    (hlocked : (now.steady : ℤ) < a + cfg.cbCooldownMin * minute) :
    (checkEntry cfg shadow now positions e r).1.allowed = false := by
  rcases checkEntry_cases cfg now r shadow positions e with ⟨-, hrefuses⟩ | ⟨-, hcool⟩
  · exact hrefuses h.active
  · rw [h.since] at hcool
    exact absurd hcool (not_cooled hafter hlocked)

/-- A call that activates the breaker dates it. -/
theorem activeSince_tradeClosed (hoff : r.cbActive = false)
    (hon : (r.onTradeClosed cfg now pnl).cbActive = true) :
    ActiveSince now.steady (r.onTradeClosed cfg now pnl) := by
  refine ⟨hon, ?_⟩
  have hnoted : (r.noted cfg now pnl).cbActive = false := checkDailyReset_cbActive.trans hoff
  rw [onTradeClosed_eq] at hon ⊢
  simp only [tripped, hnoted, Bool.false_or] at hon
  simp [tripped, hnoted, hon]

theorem ActiveSince.foldl {a : ℕ} {between : List (TimedCall α)} (h : ActiveSince a r)
    (hafter : ∀ c ∈ between, a ≤ c.1.steady)
    (hlocked : ∀ c ∈ between, (c.1.steady : ℤ) < a + cfg.cbCooldownMin * minute) :
    ActiveSince a (between.foldl (PortfolioRisk.step cfg) r) := by
  induction between generalizing r with
  | nil => exact h
  | cons call between ih =>
      obtain ⟨hcall, hafter⟩ := List.forall_mem_cons.1 hafter
      obtain ⟨hcall', hlocked⟩ := List.forall_mem_cons.1 hlocked
      exact ih (h.step hcall hcall') hafter hlocked

end PortfolioRisk

open RiskCall PortfolioRisk in
/-- **The breaker trips just where it must, and locks for its cooldown.** In
every sequence of calls in the order of the steady clock, a close leaves the
breaker active just where it was, or where one of the reasons to trip is
there; and once a close has activated it, every entry check before the
cooldown is over refuses. -/
theorem breaker_trips_and_locks {α : Type} (cfg : PortfolioConfig) (calls : List (TimedCall α))
    (h : Chronological calls) :
    (∀ past now pnl rest, calls = past ++ (now, .tradeClosed pnl) :: rest →
      ((after cfg (past ++ [(now, .tradeClosed pnl)])).cbActive = true ↔
        (after cfg past).cbActive = true ∨ MustTrip cfg past now pnl)) ∧
    ∀ past a pnl between now shadow positions e rest,
      calls = past ++ (a, .tradeClosed pnl) :: between ++
        (now, .checkEntry shadow positions e) :: rest →
      (after cfg past).cbActive = false →
      (after cfg (past ++ [(a, .tradeClosed pnl)])).cbActive = true →
      (now.steady : ℤ) < a.steady + cfg.cbCooldownMin * minute →
        (checkEntry cfg shadow now positions e
          (after cfg (past ++ (a, .tradeClosed pnl) :: between))).1.allowed = false := by
  constructor
  · rintro past now pnl rest rfl
    rw [List.append_cons] at h
    exact cbActive_tradeClosed (List.pairwise_append.1 h).1
  · rintro past a pnl between now shadow positions e rest rfl hoff hon hlocked
    rw [List.append_assoc, Chronological, List.pairwise_append] at h
    obtain ⟨-, hlater, -⟩ := h
    rw [List.cons_append, List.pairwise_cons, List.pairwise_append] at hlater
    obtain ⟨hafter, -, -, hbefore⟩ := hlater
    have hlast : ∀ c ∈ between, c.1.steady ≤ now.steady := fun c hc =>
      hbefore c hc _ List.mem_cons_self
    have hstart := activeSince_tradeClosed hoff (after_concat ▸ hon)
    have hsplit : after cfg (past ++ (a, .tradeClosed pnl) :: between) =
        between.foldl (step cfg) ((after cfg past).onTradeClosed cfg a pnl) := by
      rw [after, List.foldl_append]
      rfl
    rw [hsplit]
    have hsince : ActiveSince a.steady
        (between.foldl (step cfg) ((after cfg past).onTradeClosed cfg a pnl)) := by
      refine hstart.foldl (fun c hc => hafter c (List.mem_append_left _ hc)) fun c hc => ?_
      have hbefore : c.1.steady ≤ now.steady := hlast c hc
      omega
    exact hsince.refuses (hafter _ (List.mem_append_right _ List.mem_cons_self)) hlocked

namespace BreakerRun

/-- Before the first call. -/
def noCalls : List (TimedCall ℕ) := []

/-- A loss of more than a day's limit. -/
def loss : TimedCall ℕ := ({ steady := 0 }, .tradeClosed (-60))

/-- Half of the cooldown later. -/
def later : Clock := { steady := 30 * PortfolioRisk.minute }

def entry : EntryCheck where
  timeframe := "15"
  price := 50000
  qty := 1 / 200
  leverage := 10
  balance := 1000

/-- The entry is asked for among no positions. -/
def check : TimedCall ℕ := (later, .checkEntry false ∅ entry)

end BreakerRun

open RiskCall PortfolioRisk BreakerRun in
theorem breaker_trips_and_locks_loss :
    ((after {} [loss]).cbActive = true ↔
        (after {} noCalls).cbActive = true ∨ MustTrip {} noCalls loss.1 (-60)) ∧
      (checkEntry {} false later (∅ : Table ℕ ManagedPosition) entry
        (after {} [loss])).1.allowed = false := by
  obtain ⟨htrips, hlocks⟩ := breaker_trips_and_locks {} [loss, check] (by
    unfold Chronological
    decide)
  refine ⟨htrips [] _ _ [check] rfl, ?_⟩
  exact hlocks [] loss.1 (-60) [] later false ∅ entry [] rfl rfl (by decide +kernel) (by decide)

end WebhookTrader
