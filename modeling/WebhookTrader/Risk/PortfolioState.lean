import Mathlib.Algebra.Order.BigOperators.Group.List
import Mathlib.Tactic.Linarith
import WebhookTrader.Risk.Model.PortfolioState

/-!
# Reporting and checking

The margins `get_state` reports are those `check_entry` decides on. Its
notional is not the one of the hard cap: it has the leverage in it once
more. And a position without a timeframe is reported under a name under
which no check counts it.
-/

namespace WebhookTrader

namespace PortfolioRisk

variable {α : Type} {cfg : PortfolioConfig} {shadow : Bool} {positions : Table α ManagedPosition}
  {balance peakBalance : ℚ} {r : PortfolioRisk} {e : EntryCheck}

/-- **What the limits decide on**: the count and the sum of these names. -/
theorem of_checkLimits_allowed (h : (checkLimits cfg shadow positions e).allowed = true) :
    (tfCount positions e.timeframe : ℤ) < tfLimit cfg (tfName e.timeframe) ∧
      (marginSum positions + e.price * e.qty / e.leverage) * cfg.corrFactor ≤
        e.balance * (cfg.maxCorrRiskPct / 100) ∧
      marginSum positions + e.price * e.qty / e.leverage ≤
        e.balance * (effMarginPct cfg shadow / 100) := by
  simp only [checkLimits, ite_block_allowed, not_le, not_or, not_lt] at h
  obtain ⟨-, -, -, htf, -, ⟨-, hcorr⟩, ⟨-, hmargin⟩, -⟩ := h
  exact ⟨htf, hcorr, hmargin⟩

/-! ## The notional -/

theorem sum_eq_sum_iff {β : Type} {f g : β → ℚ} {xs : List β} (hle : ∀ x ∈ xs, f x ≤ g x) :
    (xs.map g).sum = (xs.map f).sum ↔ ∀ x ∈ xs, g x = f x := by
  induction xs with
  | nil => simp
  | cons x xs ih =>
      obtain ⟨hx, hxs⟩ := List.forall_mem_cons.1 hle
      have hrest : (xs.map f).sum ≤ (xs.map g).sum := List.sum_le_sum hxs
      rw [List.map_cons, List.map_cons, List.sum_cons, List.sum_cons, List.forall_mem_cons,
        ← ih hxs]
      constructor
      · intro heq
        constructor <;> linarith
      · rintro ⟨hhead, htail⟩
        rw [hhead, htail]

/-- The leverage is in the notional once more than in the hard cap's. -/
theorem notional_eq {p : ManagedPosition} (h : 1 ≤ p.leverage) :
    notional p = |p.entryPrice * p.quantity| * p.leverage := by
  have hpos : (0 : ℚ) < p.leverage := by exact_mod_cast h
  rw [notional, abs_mul, abs_of_pos hpos]

theorem notional_eq_iff {p : ManagedPosition} (h : 1 ≤ p.leverage) :
    notional p = |p.entryPrice * p.quantity| ↔
      p.entryPrice * p.quantity = 0 ∨ p.leverage = 1 := by
  rw [notional_eq h, mul_right_eq_self₀, abs_eq_zero, or_comm, Int.cast_eq_one]

theorem abs_le_notional {p : ManagedPosition} (h : 1 ≤ p.leverage) :
    |p.entryPrice * p.quantity| ≤ notional p := by
  rw [notional_eq h]
  exact le_mul_of_one_le_right (abs_nonneg _) (by exact_mod_cast h)

theorem totalNotional_eq_iff (h : ∀ e ∈ positions.entries, 1 ≤ e.2.leverage) :
    (sums positions).totalNotional = notionalSum positions ↔
      ∀ e ∈ positions.entries, e.2.entryPrice * e.2.quantity = 0 ∨ e.2.leverage = 1 := by
  have hsum := sum_eq_sum_iff (f := fun e : Sigma fun _ : α => ManagedPosition =>
    |e.2.entryPrice * e.2.quantity|) (g := fun e => notional e.2)
    fun e he => abs_le_notional (h e he)
  exact hsum.trans (forall₂_congr fun e he => notional_eq_iff (h e he))

/-! ## The timeframes -/

theorem tfName_ne_empty (timeframe : String) : tfName timeframe ≠ "" := by
  unfold tfName
  split_ifs with h
  · decide
  · exact h

/-- The positions whose timeframe has a name are those of that timeframe, and
for the name of none also those without one. -/
theorem countP_tfName {name : String} (hname : name ≠ "") (ps : List ManagedPosition) :
    ps.countP (fun p => tfName p.timeframe = name) =
      ps.countP (fun p => p.timeframe = name) +
        if name = "unknown" then ps.countP fun p => p.timeframe = "" else 0 := by
  induction ps with
  | nil => simp
  | cons p ps ih =>
      simp only [List.countP_cons, ih, decide_eq_true_eq]
      by_cases hempty : p.timeframe = ""
      · rw [hempty, tfName, if_pos rfl, if_neg hname.symm, if_pos rfl]
        by_cases hunknown : name = "unknown"
        · rw [if_pos hunknown, if_pos hunknown, if_pos hunknown.symm]
          omega
        · rw [if_neg hunknown, if_neg hunknown, if_neg (Ne.symm hunknown)]
      · rw [tfName, if_neg hempty, if_neg hempty, Nat.add_zero]
        omega

/-- **What is reported under the name of a timeframe**: what the check counts
for it, and under the name of none those without one besides. -/
theorem lookup_positionsByTf (positions : Table α ManagedPosition) (timeframe : String) :
    ((sums positions).positionsByTf.lookup (tfName timeframe)).getD 0 =
      tfCount positions timeframe + if tfName timeframe = "unknown" then
        positions.count (fun p => p.timeframe = "") else 0 := by
  have htally : ((sums positions).positionsByTf.lookup (tfName timeframe)).getD 0 =
      ((positions.entries.map fun e => e.2).filter fun p =>
        tfName p.timeframe = tfName timeframe).foldl (fun n _ => n + 1)
          ((AList.lookup (tfName timeframe) (∅ : Table String ℕ)).getD 0) :=
    Table.getD_lookup_foldl_tallyStep ∅
  have hcount := countP_tfName (tfName_ne_empty timeframe) (positions.entries.map fun e => e.2)
  rw [List.countP_eq_length_filter, List.countP_map, List.countP_map] at hcount
  rw [List.foldl_add_const, AList.lookup_empty, Option.getD_none, zero_add, one_mul,
    hcount] at htally
  exact htally

/-- **Reporting agrees with the checks**: the margins, the correlated risk,
the count under the name of every timeframe, and the notional. -/
structure Agrees (cfg : PortfolioConfig) (balance : ℚ) (positions : Table α ManagedPosition)
    (peakBalance : ℚ) (r : PortfolioRisk) : Prop where
  margin : (sums positions).totalMarginUsed = marginSum positions
  correlated : (getState cfg balance positions peakBalance r).correlatedRisk =
    marginSum positions * cfg.corrFactor
  timeframes : ∀ timeframe,
    ((getState cfg balance positions peakBalance r).positionsByTf.lookup
      (tfName timeframe)).getD 0 = tfCount positions timeframe
  notional : (sums positions).totalNotional = notionalSum positions

/-- The counts agree just where every position has a timeframe. -/
theorem timeframes_agree_iff :
    (∀ timeframe, ((sums positions).positionsByTf.lookup (tfName timeframe)).getD 0 =
      tfCount positions timeframe) ↔ ∀ e ∈ positions.entries, e.2.timeframe ≠ "" := by
  have hnone : positions.count (fun p => p.timeframe = "") = 0 ↔
      ∀ e ∈ positions.entries, e.2.timeframe ≠ "" := by
    simp [Table.count, List.countP_eq_zero]
  rw [← hnone]
  constructor
  · intro h
    have hunknown := h "unknown"
    rw [lookup_positionsByTf, if_pos (by decide)] at hunknown
    omega
  · intro h timeframe
    rw [lookup_positionsByTf, h, ite_self, Nat.add_zero]

/-- **When reporting agrees with the checks**: for positions with leverages of
one at least, just where every position that has a notional has a leverage
of one, and every position a timeframe. The margins agree always. -/
theorem agrees_iff (cfg : PortfolioConfig) (balance : ℚ) (positions : Table α ManagedPosition)
    (peakBalance : ℚ) (r : PortfolioRisk) (h : ∀ e ∈ positions.entries, 1 ≤ e.2.leverage) :
    Agrees cfg balance positions peakBalance r ↔
      (∀ e ∈ positions.entries, e.2.entryPrice * e.2.quantity = 0 ∨ e.2.leverage = 1) ∧
        ∀ e ∈ positions.entries, e.2.timeframe ≠ "" := by
  rw [← totalNotional_eq_iff h, ← timeframes_agree_iff]
  constructor
  · exact fun hagrees => ⟨hagrees.notional, hagrees.timeframes⟩
  · exact fun ⟨hnotional, htimeframes⟩ => ⟨rfl, rfl, htimeframes, hnotional⟩

/-- A position with the default leverage of ten, and with no timeframe. -/
def plainPosition : ManagedPosition :=
  { symbol := "BTCUSDT", side := "long", entryPrice := 100, quantity := 1 }

theorem agrees_iff_plain :
    Agrees {} 1000 ((∅ : Table String ManagedPosition).insert "BTCUSDT" plainPosition) 0 {} ↔
      (∀ e ∈ ((∅ : Table String ManagedPosition).insert "BTCUSDT" plainPosition).entries,
        e.2.entryPrice * e.2.quantity = 0 ∨ e.2.leverage = 1) ∧
        ∀ e ∈ ((∅ : Table String ManagedPosition).insert "BTCUSDT" plainPosition).entries,
          e.2.timeframe ≠ "" :=
  agrees_iff {} 1000 _ 0 {} (by decide)

/-- **A notional of a hundred is reported as a thousand**, and a position
without a timeframe counts as one of "unknown" that no check counts. -/
theorem plain_disagrees :
    let positions := (∅ : Table String ManagedPosition).insert "BTCUSDT" plainPosition
    (sums positions).totalNotional = 1000 ∧ notionalSum positions = 100 ∧
      (getState {} 1000 positions 0 {}).positionsByTf.lookup (tfName "") = some 1 ∧
      tfCount positions "" = 0 := by
  decide +kernel

end PortfolioRisk

end WebhookTrader
