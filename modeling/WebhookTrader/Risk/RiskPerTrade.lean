import WebhookTrader.Risk.SizeBounds

/-!
# The risk of a trade

The sizing limits what a trade loses at its stop-loss to a share of the
balance, divides that by the leverage, raises it to the smallest trade and
multiplies it afterwards. Whether the loss is within the limit still is
what this file settles.
-/

namespace WebhookTrader

namespace SizerConfig

variable {cfg : SizerConfig} {q : SizerConfig.Query}

/-- The most that a trade is to lose. -/
def riskLimit (cfg : SizerConfig) (q : Query) : ℚ := q.balance * cfg.maxRiskPct

/-- What the tier, the drawdown and the confidence multiply an amount by. -/
def multiplier (cfg : SizerConfig) (q : Query) : ℚ :=
  q.knownScore.sizeMultiplier * cfg.drawdownMultiplier q.currentDdPct * q.confidenceBoost

/-- An amount whose multiple loses no more than the limit at the stop-loss. -/
def Fits (cfg : SizerConfig) (q : Query) (amount : ℚ) : Prop :=
  amount * cfg.multiplier q * q.slDist ≤ cfg.riskLimit q

instance (amount : ℚ) : Decidable (cfg.Fits q amount) := inferInstanceAs (Decidable (_ ≤ _))

/-- **When the risk is limited**: the caps do it, or one of the amounts
does that the size is the least of. The smallest trade has to fit where an
amount is raised to it. -/
def RiskBounded (cfg : SizerConfig) (q : Query) : Prop :=
  cfg.cap q * q.slDist ≤ cfg.riskLimit q ∨
  if 0 ≤ cfg.multiplier q then
    cfg.Fits q (q.available * cfg.maxPct) ∨
    (q.orderLeverage ≠ 0 ∧ cfg.Fits q (cfg.riskLimit q / (q.slDist * q.orderLeverage)) ∧
      cfg.Fits q cfg.minUsdt) ∨
    (cfg.Hybrid q ∧ cfg.Fits q (q.balance * cfg.kellyShare q) ∧ cfg.Fits q cfg.minUsdt)
  else
    -- a negative multiple of the least amount is the largest of the multiples
    cfg.Fits q (q.available * cfg.maxPct) ∧
    (q.orderLeverage ≠ 0 → cfg.Fits q (cfg.riskLimit q / (q.slDist * q.orderLeverage)) ∨
      cfg.Fits q cfg.minUsdt) ∧
    (cfg.Hybrid q → cfg.Fits q (q.balance * cfg.kellyShare q) ∨ cfg.Fits q cfg.minUsdt)

instance : Decidable (cfg.RiskBounded q) := inferInstanceAs (Decidable (_ ∨ ite _ _ _))

/-! ## Amounts that fit -/

section Fits

variable {a b : ℚ} (hdist : 0 < q.slDist)

include hdist

/-- A smaller amount loses no more. -/
theorem fits_antitone (hmult : 0 ≤ cfg.multiplier q) : Antitone (cfg.Fits q) := by
  intro a b hle hfits
  have hmul : a * cfg.multiplier q ≤ b * cfg.multiplier q := mul_le_mul_of_nonneg_right hle hmult
  exact (mul_le_mul_of_nonneg_right hmul hdist.le).trans hfits

/-- Under a negative multiplier it does. -/
theorem fits_monotone (hmult : cfg.multiplier q ≤ 0) : Monotone (cfg.Fits q) := by
  intro a b hle hfits
  have hmul : b * cfg.multiplier q ≤ a * cfg.multiplier q := mul_le_mul_of_nonpos_right hle hmult
  exact (mul_le_mul_of_nonneg_right hmul hdist.le).trans hfits

theorem fits_min (hmult : 0 ≤ cfg.multiplier q) :
    cfg.Fits q (min a b) ↔ cfg.Fits q a ∨ cfg.Fits q b :=
  iff_of_eq ((fits_antitone hdist hmult).map_inf a b)

theorem fits_max (hmult : 0 ≤ cfg.multiplier q) :
    cfg.Fits q (max a b) ↔ cfg.Fits q a ∧ cfg.Fits q b :=
  iff_of_eq ((fits_antitone hdist hmult).map_sup a b)

theorem fits_min_of_nonpos (hmult : cfg.multiplier q ≤ 0) :
    cfg.Fits q (min a b) ↔ cfg.Fits q a ∧ cfg.Fits q b :=
  iff_of_eq ((fits_monotone hdist hmult).map_inf a b)

theorem fits_max_of_nonpos (hmult : cfg.multiplier q ≤ 0) :
    cfg.Fits q (max a b) ↔ cfg.Fits q a ∨ cfg.Fits q b :=
  iff_of_eq ((fits_monotone hdist hmult).map_sup a b)

/-- The amount by risk is of use where there is leverage. -/
theorem fits_riskAmount_iff (hby : q.ByRisk) :
    cfg.Fits q (cfg.riskAmount q q.orderLeverage) ↔
      if q.orderLeverage = 0 then cfg.Fits q (q.available * cfg.maxPct)
      else cfg.Fits q
        (max (cfg.riskLimit q / (q.slDist * q.orderLeverage)) cfg.minUsdt) := by
  have hrisk : q.ByRisk ∧ 0 < q.slDist := ⟨hby, hdist⟩
  rw [riskAmount, if_pos hrisk]
  split_ifs
  · rfl
  · rfl

/-- **The least of the amounts** fits where one of them does, and under a
negative multiplier where all do. -/
theorem fits_base_iff (hby : q.ByRisk) :
    cfg.Fits q (cfg.baseUsdt q q.orderLeverage).1 ↔
      if 0 ≤ cfg.multiplier q then
        cfg.Fits q (q.available * cfg.maxPct) ∨
        (q.orderLeverage ≠ 0 ∧ cfg.Fits q (cfg.riskLimit q / (q.slDist * q.orderLeverage)) ∧
          cfg.Fits q cfg.minUsdt) ∨
        (cfg.Hybrid q ∧ cfg.Fits q (q.balance * cfg.kellyShare q) ∧ cfg.Fits q cfg.minUsdt)
      else
        cfg.Fits q (q.available * cfg.maxPct) ∧
        (q.orderLeverage ≠ 0 → cfg.Fits q (cfg.riskLimit q / (q.slDist * q.orderLeverage)) ∨
          cfg.Fits q cfg.minUsdt) ∧
        (cfg.Hybrid q → cfg.Fits q (q.balance * cfg.kellyShare q) ∨ cfg.Fits q cfg.minUsdt) := by
  have hrisk : cfg.Fits q (cfg.riskAmount q q.orderLeverage) ↔ _ := fits_riskAmount_iff hdist hby
  rw [baseUsdt_fst]
  by_cases hmult : 0 ≤ cfg.multiplier q
  · rw [if_pos hmult]
    rw [fits_max hdist hmult] at hrisk
    by_cases hhybrid : cfg.Hybrid q
    · rw [if_pos hhybrid, fits_min hdist hmult, fits_min hdist hmult, kellyAmount,
        fits_max hdist hmult, hrisk]
      split_ifs <;> grind
    · rw [if_neg hhybrid, fits_min hdist hmult, hrisk]
      split_ifs <;> grind
  · have hneg : cfg.multiplier q ≤ 0 := (not_le.1 hmult).le
    rw [if_neg hmult]
    rw [fits_max_of_nonpos hdist hneg] at hrisk
    by_cases hhybrid : cfg.Hybrid q
    · rw [if_pos hhybrid, fits_min_of_nonpos hdist hneg, fits_min_of_nonpos hdist hneg, kellyAmount,
        fits_max_of_nonpos hdist hneg, hrisk]
      split_ifs <;> grind
    · rw [if_neg hhybrid, fits_min_of_nonpos hdist hneg, hrisk]
      split_ifs <;> grind

end Fits

/-! ## The loss at the stop-loss -/

/-- **The risk per trade is limited** where the caps limit it, or one of
the amounts that the size is the least of, multiplied. -/
theorem loss_at_stop_le_iff (hstop : 0 < q.slPrice) (hne : q.slPrice ≠ q.price)
    (hqty : 0 < (cfg.calcSize q).qty) :
    (cfg.calcSize q).qty * |q.price - q.slPrice| ≤ q.balance * cfg.maxRiskPct ↔
      cfg.RiskBounded q := by
  have hanswers : cfg.Answers q := answers_of_qty_pos hqty
  have hprice : 0 < q.price := hanswers.price_pos
  have hdist : 0 < q.slDist := div_pos (abs_pos.2 (sub_ne_zero.2 hne.symm)) hprice
  have hloss : (cfg.calcSize q).qty * |q.price - q.slPrice| = cfg.amount q * q.slDist := by
    rw [hanswers.qty, Query.slDist]
    ring
  have hwanted : cfg.wanted q * q.slDist ≤ cfg.riskLimit q ↔
      cfg.Fits q (cfg.baseUsdt q q.orderLeverage).1 := by
    rfl
  calc (cfg.calcSize q).qty * |q.price - q.slPrice| ≤ q.balance * cfg.maxRiskPct
      ↔ min (cfg.wanted q) (cfg.cap q) * q.slDist ≤ cfg.riskLimit q := by
        rw [hloss]
        rfl
    _ ↔ cfg.wanted q * q.slDist ≤ cfg.riskLimit q ∨ cfg.cap q * q.slDist ≤ cfg.riskLimit q := by
        rw [min_mul_of_nonneg _ _ hdist.le, min_le_iff]
    _ ↔ cfg.RiskBounded q := by
        rw [hwanted, fits_base_iff hdist ⟨hstop, hprice⟩, or_comm]
        rfl

/-- A stop-loss near the price is within the risk. -/
theorem loss_at_stop_le_near :
    ∃ q : Query, 0 < (calcSize {} q).qty ∧
      (calcSize {} q).qty * |q.price - q.slPrice| ≤ q.balance * (5 / 100) := by
  let q : Query :=
    { balance := 1000, price := 100, slPrice := 95, leverage := 10, currentDdPct := 0 }
  have hqty : 0 < (calcSize {} q).qty := by decide +kernel
  have hbounded : RiskBounded {} q := by decide +kernel
  exact ⟨q, hqty, (loss_at_stop_le_iff (by decide +kernel) (by decide +kernel) hqty).2 hbounded⟩

/-- **A floor above the limit**: on twenty the risk allows for a loss of
one, and the smallest trade loses half as much again. -/
theorem loss_at_stop_above_limit :
    ∃ q : Query, 0 < q.slPrice ∧ 0 < q.price ∧ q.slPrice ≠ q.price ∧ 1 ≤ q.leverage ∧
      0 < q.balance ∧ 0 < (calcSize {} q).qty ∧
      ¬(calcSize {} q).qty * |q.price - q.slPrice| ≤ q.balance * (SizerConfig.maxRiskPct {}) := by
  refine ⟨{ balance := 20, price := 100, slPrice := 70, leverage := 10, currentDdPct := 0 }, ?_⟩
  decide +kernel

end SizerConfig

end WebhookTrader
