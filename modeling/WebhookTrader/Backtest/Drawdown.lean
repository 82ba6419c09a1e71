import WebhookTrader.Backtest.Margin
import WebhookTrader.Common.Drawdown

/-!
# The drawdown of a backtest

A value is put on the equity curve at every close and the drawdown is kept
beside it, close by close. The fee of an entry is not put there, but no
position is open in the end, so the last close is what the balance is left
at. So the figure that is reported is the worst fall of the curve the run
has drawn, and it bounds what the run has lost.
-/

namespace WebhookTrader

namespace Backtester

open Drawdown

variable {params : BtParams} {b : Backtester} {sig entry : BtSignal} {symbol reason : String}
  {price : ℚ} {signals : List BtSignal}

/-- The high and the drawdown that are kept. -/
def kept (b : Backtester) : Kept ℚ := ⟨b.peakBalance, b.maxDd⟩

/-- **The curve of a run so far**: it starts at the initial balance, what is
kept is of it, and with nothing open it ends at the balance. -/
structure Drawn (params : BtParams) (b : Backtester) : Prop where
  kept : ∃ xs, b.equityCurve = params.initialBalance :: xs ∧
    b.kept = Drawdown.run params.initialBalance xs
  closed : (∀ symbol, b.positions.lookup symbol = none) →
    b.equityCurve.getLast? = some b.balance

theorem drawn_reset (params : BtParams) : Drawn params (reset params) where
  kept := ⟨[], rfl, rfl⟩
  closed _ := rfl

/-- A value on the curve is one step of what is kept. -/
theorem Drawn.updateEquity (h : ∃ xs, b.equityCurve = params.initialBalance :: xs ∧
    b.kept = Drawdown.run params.initialBalance xs) : Drawn params b.updateEquity := by
  obtain ⟨xs, hcurve, hkept⟩ := h
  refine ⟨⟨xs ++ [b.balance], ?_, ?_⟩, fun _ => ?_⟩
  · show b.equityCurve ++ [b.balance] = _
    rw [hcurve, List.cons_append]
  · rw [run_concat, ← hkept]
    rfl
  · show (b.equityCurve ++ [b.balance]).getLast? = some b.balance
    exact List.getLast?_concat

theorem Drawn.closePosition (h : Drawn params b) :
    Drawn params (b.closePosition params symbol price reason) := by
  unfold Backtester.closePosition
  cases b.positions.lookup symbol with
  | none => exact h
  | some pos => exact Drawn.updateEquity h.kept

/-- After an opening something is open. -/
theorem Drawn.enter (h : Drawn params b) : Drawn params (b.enter params entry) := by
  rcases lt_or_ge (b.balance * (95 / 100)) (entryMargin params) with hless | hmargin
  · rw [enter_of_lt hless]
    exact h
  · rw [enter_of_le hmargin]
    refine ⟨h.kept, fun hnone => ?_⟩
    have hsome := hnone entry.symbol
    rw [AList.lookup_insert] at hsome
    cases hsome

theorem Drawn.handleEntry (h : Drawn params b) : Drawn params (b.handleEntry params sig) := by
  unfold Backtester.handleEntry
  cases b.positions.lookup sig.symbol with
  | none => exact h.enter
  | some pos =>
      dsimp only
      split_ifs
      · exact h.closePosition.enter
      · exact h

theorem Drawn.handleTp (h : Drawn params b) : Drawn params (b.handleTp params sig) := by
  unfold Backtester.handleTp
  cases b.positions.lookup sig.symbol with
  | none => exact h
  | some pos =>
      dsimp only
      split_ifs
      · exact h
      · exact Drawn.updateEquity h.kept
      · exact Drawn.updateEquity h.kept

/-- **A signal keeps the curve.** -/
theorem Drawn.processSignal (h : Drawn params b) : Drawn params (b.processSignal params sig) := by
  unfold Backtester.processSignal
  split_ifs
  · exact h.handleEntry
  · exact h.handleTp
  · exact h.closePosition
  · unfold handleReentry
    split_ifs
    · exact h
    · exact h.handleEntry
    · exact h.handleEntry
  · exact h

theorem Drawn.expire (h : Drawn params b) : Drawn params (b.expire params symbol) := by
  unfold Backtester.expire
  cases b.positions.lookup symbol with
  | none => exact h
  | some pos => exact h.closePosition

/-- **The curve of a whole run.** -/
theorem drawn_replay (params : BtParams) (signals : List BtSignal) :
    Drawn params (replay params signals) := by
  have hsignals : ∀ (signals : List BtSignal) {b : Backtester}, Drawn params b →
      Drawn params (signals.foldl (Backtester.processSignal params) b) := by
    intro signals
    induction signals with
    | nil => exact fun h => h
    | cons sig signals ih => exact fun h => ih h.processSignal
  have hkeys : ∀ (keys : List String) {b : Backtester}, Drawn params b →
      Drawn params (keys.foldl (Backtester.expire params) b) := by
    intro keys
    induction keys with
    | nil => exact fun h => h
    | cons key keys ih => exact fun h => ih h.expire
  exact hkeys _ (hsignals signals (drawn_reset params))

/-- **The drawdown of a backtest is that of its curve**, for an initial
balance above zero, with whatever signals: the curve runs from the initial
balance to the final one; what is reported is the greatest of its falls, each
in percent of the high before it; it is at most a hundred percent just where
the curve never goes below zero; and a run that does not end below zero has
lost no larger part of its balance. -/
theorem drawdown_of_curve (params : BtParams) (sharpe : List ℚ → ℚ) (signals : List BtSignal)
    (hpos : 0 < params.initialBalance) :
    (replay params signals).equityCurve.head? = some params.initialBalance ∧
    (replay params signals).equityCurve.getLast? = some (run params sharpe signals).finalBalance ∧
    IsGreatest {d | FallsBy d (replay params signals).equityCurve}
      (run params sharpe signals).maxDrawdownPct ∧
    ((run params sharpe signals).maxDrawdownPct ≤ 100 ↔
      ∀ x ∈ (replay params signals).equityCurve, 0 ≤ x) ∧
    (0 ≤ (run params sharpe signals).finalBalance →
      -(run params sharpe signals).totalReturnPct ≤
        (run params sharpe signals).maxDrawdownPct) := by
  have hdrawn := drawn_replay params signals
  obtain ⟨xs, hcurve, hkept⟩ := hdrawn.kept
  have hlast := hdrawn.closed (positions_replay params signals)
  have hworst : (run params sharpe signals).maxDrawdownPct =
      (Drawdown.run params.initialBalance xs).worst := congrArg Kept.worst hkept
  have hfinal : (run params sharpe signals).finalBalance = (replay params signals).balance := rfl
  rw [hworst, hfinal, hlast, hcurve]
  refine ⟨rfl, rfl, isGreatest_worst hpos xs, worst_le_hundred hpos, fun hnonneg => ?_⟩
  have hreturn : (run params sharpe signals).totalReturnPct =
      ((replay params signals).balance - params.initialBalance) / params.initialBalance * 100 :=
    if_pos hpos
  rw [hcurve] at hlast
  obtain ⟨pre, hsplit⟩ := List.getLast?_eq_some_iff.1 hlast
  have hmem : params.initialBalance ∈ pre ++ [(replay params signals).balance] := by
    rw [← hsplit]
    exact List.mem_cons_self
  have hfall := fall_le_worst hpos hsplit hmem hpos hnonneg
  rwa [hreturn, ← neg_mul, ← neg_div, neg_sub]

/-- A long position that is stopped out after its first take-profit. -/
theorem drawdown_of_curve_stopped :
    let signals : List BtSignal := [⟨"buy", "BTCUSDT", 100, ""⟩, ⟨"TP1", "BTCUSDT", 110, ""⟩,
      ⟨"SL", "BTCUSDT", 90, ""⟩]
    (replay {} signals).equityCurve.head? = some 1000 ∧
    (replay {} signals).equityCurve.getLast? = some (run {} (fun _ => 0) signals).finalBalance ∧
    IsGreatest {d | FallsBy d (replay {} signals).equityCurve}
      (run {} (fun _ => 0) signals).maxDrawdownPct ∧
    ((run {} (fun _ => 0) signals).maxDrawdownPct ≤ 100 ↔
      ∀ x ∈ (replay {} signals).equityCurve, 0 ≤ x) ∧
    (0 ≤ (run {} (fun _ => 0) signals).finalBalance →
      -(run {} (fun _ => 0) signals).totalReturnPct ≤
        (run {} (fun _ => 0) signals).maxDrawdownPct) :=
  drawdown_of_curve {} (fun _ => 0) _ (by decide +kernel)

end Backtester

end WebhookTrader
