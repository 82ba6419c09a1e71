import WebhookTrader.Risk.Sizing

/-!
# Bounds and order of the sizes

The amount of a size is the least of a few amounts, multiplied and capped,
or nothing where it is below the minimum. It is within its bounds, and it
follows the balance and the confidence up and the margin in use and the
drawdown down.
-/

namespace WebhookTrader

namespace SizerConfig

variable {cfg : SizerConfig} {q : SizerConfig.Query} {lev : ℤ}

namespace Query

/-- The score that is gone by, known or assumed. -/
def knownScore (q : Query) : SymbolScore := q.score.getD {}

/-- The sizing looks at the distance to the stop-loss. -/
def ByRisk (q : Query) : Prop := 0 < q.slPrice ∧ 0 < q.price

instance : Decidable q.ByRisk := inferInstanceAs (Decidable (_ ∧ _))

/-- The distance to the stop-loss, as a fraction of the price. -/
def slDist (q : Query) : ℚ := |q.price - q.slPrice| / q.price

/-- A blacklisted symbol. -/
def Blacklisted (q : Query) : Prop := q.score.isSome = true ∧ q.knownScore.tier = "X"

instance : Decidable q.Blacklisted := inferInstanceAs (Decidable (_ ∧ _))

end Query

/-! ## The amounts -/

/-- The Kelly fraction, and zero where the score does not allow for one. -/
def kellyShare (cfg : SizerConfig) (q : Query) : ℚ :=
  if q.knownScore.dataSufficient = true ∧ 0 < q.knownScore.winRate ∧ 0 < q.knownScore.avgLoss then
    cfg.kellyFraction q.knownScore.winRate q.knownScore.avgWin q.knownScore.avgLoss
  else 0

/-- The Kelly amount is one of the amounts. -/
def Hybrid (cfg : SizerConfig) (q : Query) : Prop :=
  q.knownScore.dataSufficient = true ∧ 0 < cfg.kellyShare q

instance : Decidable (cfg.Hybrid q) := inferInstanceAs (Decidable (_ ∧ _))

def kellyAmount (cfg : SizerConfig) (q : Query) : ℚ :=
  max (q.balance * cfg.kellyShare q) cfg.minUsdt

def riskAmount (cfg : SizerConfig) (q : Query) (lev : ℤ) : ℚ :=
  if q.ByRisk ∧ 0 < q.slDist then
    if lev = 0 then q.available * cfg.maxPct
    else max (q.balance * cfg.maxRiskPct / (q.slDist * lev)) cfg.minUsdt
  else q.available * cfg.basePct

/-- **The base amount** is the least of the amounts that apply. -/
theorem baseUsdt_fst : (cfg.baseUsdt q lev).1 =
    if cfg.Hybrid q then
      min (min (cfg.kellyAmount q) (cfg.riskAmount q lev)) (q.available * cfg.maxPct)
    else min (cfg.riskAmount q lev) (q.available * cfg.maxPct) := by
  -- the amounts in the words of the sizing
  have hshare : cfg.kellyShare q = if (q.score.getD {}).dataSufficient = true ∧
      0 < (q.score.getD {}).winRate ∧ 0 < (q.score.getD {}).avgLoss then
    cfg.kellyFraction (q.score.getD {}).winRate (q.score.getD {}).avgWin (q.score.getD {}).avgLoss
    else 0 := rfl
  have hrisk : cfg.riskAmount q lev =
      if 0 < q.slPrice ∧ 0 < q.price ∧ 0 < |q.price - q.slPrice| / q.price then
        if lev = 0 then max (q.balance - q.usedMargin) 0 * cfg.maxPct
        else max (q.balance * cfg.maxRiskPct / (|q.price - q.slPrice| / q.price * lev)) cfg.minUsdt
      else max (q.balance - q.usedMargin) 0 * cfg.basePct := by
    simp only [riskAmount, Query.ByRisk, and_assoc]
    rfl
  unfold baseUsdt
  dsimp only
  rw [← hrisk, ← hshare]
  by_cases hhybrid : cfg.Hybrid q
  · have hkelly : (q.score.getD {}).dataSufficient = true ∧ 0 < (q.score.getD {}).winRate ∧
        0 < (q.score.getD {}).avgLoss := by
      by_contra hnot
      have hpos : 0 < cfg.kellyShare q := hhybrid.2
      rw [hshare, if_neg hnot] at hpos
      exact lt_irrefl 0 hpos
    have hhybrid' : (q.score.getD {}).dataSufficient = true ∧ 0 < cfg.kellyShare q := hhybrid
    rw [if_pos hhybrid, if_pos hhybrid', if_pos hkelly]
    rfl
  · have hhybrid' : ¬((q.score.getD {}).dataSufficient = true ∧ 0 < cfg.kellyShare q) := hhybrid
    rw [if_neg hhybrid, if_neg hhybrid']
    by_cases hby : 0 < q.slPrice ∧ 0 < q.price
    · rw [if_pos hby]
      rfl
    · -- without a stop-loss the amount by risk is the share of the balance
      have hnot : ¬(0 < q.slPrice ∧ 0 < q.price ∧ 0 < |q.price - q.slPrice| / q.price) :=
        fun h => hby ⟨h.1, h.2.1⟩
      rw [if_neg hby, hrisk, if_neg hnot]
      rfl

/-! ## The size -/

theorem abs_roundTo_sub_le (places : ℕ) (x : ℚ) :
    |roundTo places x - x| ≤ 1 / 2 / 10 ^ places := by
  have hpow : (0 : ℚ) < 10 ^ places := by positivity
  have hround : |(roundHalfAway (x * 10 ^ places) : ℚ) - x * 10 ^ places| ≤ 1 / 2 :=
    abs_roundHalfAway_sub_le _
  calc |roundTo places x - x|
      = |((roundHalfAway (x * 10 ^ places) : ℚ) - x * 10 ^ places) / 10 ^ places| := by
        rw [roundTo, sub_div, mul_div_cancel_right₀ _ hpow.ne']
    _ = |(roundHalfAway (x * 10 ^ places) : ℚ) - x * 10 ^ places| / 10 ^ places := by
        rw [abs_div, abs_of_pos hpow]
    _ ≤ 1 / 2 / 10 ^ places := div_le_div_of_nonneg_right hround hpow.le

/-- **No size**: a blacklisted symbol, a halt, and an amount or a balance
below the minimum. -/
def Skips (cfg : SizerConfig) (q : Query) : Prop :=
  q.Blacklisted ∨ cfg.drawdownMultiplier q.currentDdPct ≤ 0 ∨ cfg.amount q < cfg.minUsdt ∨
    q.available < cfg.minUsdt

instance : Decidable (cfg.Skips q) := inferInstanceAs (Decidable (_ ∨ _))

/-- **`calc_size`'s size**, the amount and the leverage with it. -/
theorem calcSize_eq :
    (cfg.calcSize q).qty =
      (if cfg.Skips q then 0 else if 0 < q.price then cfg.amount q / q.price else 0) ∧
    (cfg.calcSize q).usdtAmount = (if cfg.Skips q then 0 else roundTo 2 (cfg.amount q)) ∧
    (cfg.calcSize q).leverage = if q.Blacklisted then 0 else q.orderLeverage := by
  unfold calcSize
  dsimp only
  by_cases hblack : q.Blacklisted
  · have hskips : cfg.Skips q := .inl hblack
    rw [if_pos hskips, if_pos hskips, if_pos hblack]
    have hblack' : q.score.isSome = true ∧ (q.score.getD {}).tier = "X" := hblack
    rw [if_pos hblack']
    exact ⟨rfl, rfl, rfl⟩
  have hblack' : ¬(q.score.isSome = true ∧ (q.score.getD {}).tier = "X") := hblack
  rw [if_neg hblack, if_neg hblack']
  by_cases hstop : cfg.drawdownMultiplier q.currentDdPct ≤ 0
  · have hskips : cfg.Skips q := .inr (.inl hstop)
    rw [if_pos hskips, if_pos hskips, if_pos hstop]
    exact ⟨rfl, rfl, rfl⟩
  rw [if_neg hstop]
  by_cases hbelow : cfg.amount q < cfg.minUsdt ∨ q.available < cfg.minUsdt
  · have hskips : cfg.Skips q := .inr (.inr hbelow)
    rw [if_pos hskips, if_pos hskips]
    refine ⟨?_, ?_, ?_⟩
    · exact congrArg SizeResult.qty (if_pos hbelow)
    · exact congrArg SizeResult.usdtAmount (if_pos hbelow)
    · exact congrArg SizeResult.leverage (if_pos hbelow)
  · have hskips : ¬cfg.Skips q := by
      rintro (h | h | h)
      · exact hblack h
      · exact hstop h
      · exact hbelow h
    rw [if_neg hskips, if_neg hskips]
    refine ⟨?_, ?_, ?_⟩
    · exact congrArg SizeResult.qty (if_neg hbelow)
    · exact congrArg SizeResult.usdtAmount (if_neg hbelow)
    · exact congrArg SizeResult.leverage (if_neg hbelow)

/-- **A size is within its bounds**: there is none, or its worth is between
the smallest trade and the caps and is the amount that is told, up to
rounding. No leverage is above the one asked for, or the symbol's. -/
theorem calcSize_within_bounds (cfg : SizerConfig) (q : Query) (hprice : 0 < q.price)
    (hasked : 1 ≤ q.leverage) (hmax : 1 ≤ q.knownScore.maxLeverage) :
    ((cfg.calcSize q).qty = 0 ∧ (cfg.calcSize q).usdtAmount = 0 ∨
      (cfg.minUsdt ≤ (cfg.calcSize q).qty * q.price ∧
        (cfg.calcSize q).qty * q.price ≤
          min (max (q.balance - q.usedMargin) 0 * cfg.maxPct) cfg.maxUsdtHard) ∧
      |(cfg.calcSize q).usdtAmount - (cfg.calcSize q).qty * q.price| ≤ 5 / 1000) ∧
    (cfg.calcSize q).leverage ≤ q.leverage ∧
    (cfg.calcSize q).leverage ≤ q.knownScore.maxLeverage := by
  obtain ⟨hqty, husdt, hlev⟩ := cfg.calcSize_eq (q := q)
  rw [hqty, husdt, hlev]
  refine ⟨?_, ?_, ?_⟩
  · by_cases hskips : cfg.Skips q
    · left
      rw [if_pos hskips, if_pos hskips]
      exact ⟨rfl, rfl⟩
    · right
      rw [if_neg hskips, if_neg hskips, if_pos hprice]
      rw [div_mul_cancel₀ _ hprice.ne']
      have hmin : cfg.minUsdt ≤ cfg.amount q :=
        not_lt.1 fun h => hskips (.inr (.inr (.inl h)))
      have hround : |roundTo 2 (cfg.amount q) - cfg.amount q| ≤ 5 / 1000 :=
        (abs_roundTo_sub_le 2 _).trans_eq (by norm_num)
      exact ⟨⟨hmin, min_le_right _ _⟩, hround⟩
  · split_ifs
    · omega
    · exact min_le_left _ _
  · split_ifs
    · omega
    · exact min_le_right _ _

/-- An account of a thousand has room for a trade. -/
theorem calcSize_within_bounds_roomy :
    ∃ q : Query, 5 ≤ (calcSize {} q).qty * q.price ∧ (calcSize {} q).qty * q.price ≤ 100 := by
  let q : Query :=
    { balance := 1000, price := 100, slPrice := 95, leverage := 10, currentDdPct := 0 }
  have hqty : (calcSize {} q).qty ≠ 0 := by decide +kernel
  refine ⟨q, ?_⟩
  obtain ⟨hnone | ⟨⟨hmin, hmax⟩, -⟩, -, -⟩ :=
    calcSize_within_bounds {} q (by decide +kernel) (by decide) (by decide)
  · exact absurd hnone.1 hqty
  · exact ⟨hmin, hmax.trans (min_le_right _ _)⟩

/-! ## The order of the sizes -/

/-- **Parameters that are not negative.** -/
structure Sound (cfg : SizerConfig) : Prop where
  kellyFrac : 0 ≤ cfg.kellyFrac
  maxRiskPct : 0 ≤ cfg.maxRiskPct
  minUsdt : 0 ≤ cfg.minUsdt
  maxPct : 0 ≤ cfg.maxPct
  basePct : 0 ≤ cfg.basePct

/-- **The same trade under circumstances that are no worse**: no less
balance and confidence, no more margin in use and drawdown. -/
structure Query.Eases (q q' : Query) : Prop where
  price : q'.price = q.price
  slPrice : q'.slPrice = q.slPrice
  leverage : q'.leverage = q.leverage
  score : q'.score = q.score
  balance : q.balance ≤ q'.balance
  confidence : q.confidenceBoost ≤ q'.confidenceBoost
  usedMargin : q'.usedMargin ≤ q.usedMargin
  drawdown : q'.currentDdPct ≤ q.currentDdPct

theorem Query.available_nonneg (q : Query) : 0 ≤ q.available := le_max_right _ _

theorem kellyFraction_nonneg (h : cfg.Sound) (wr avgW avgL : ℚ) :
    0 ≤ cfg.kellyFraction wr avgW avgL := by
  unfold kellyFraction
  dsimp only
  split_ifs with hnone hf
  · exact le_refl 0
  · exact le_refl 0
  · have hpos : 0 < wr - (1 - wr) / (avgW / avgL) := not_le.1 hf
    exact le_min (mul_nonneg hpos.le h.kellyFrac) h.maxRiskPct

theorem kellyShare_nonneg (h : cfg.Sound) (q : Query) : 0 ≤ cfg.kellyShare q := by
  unfold kellyShare
  split_ifs
  · exact kellyFraction_nonneg h _ _ _
  · exact le_refl 0

theorem riskAmount_nonneg (h : cfg.Sound) (q : Query) (lev : ℤ) : 0 ≤ cfg.riskAmount q lev := by
  unfold riskAmount
  split_ifs
  · exact mul_nonneg q.available_nonneg h.maxPct
  · exact h.minUsdt.trans (le_max_right _ _)
  · exact mul_nonneg q.available_nonneg h.basePct

theorem baseUsdt_nonneg (h : cfg.Sound) (q : Query) (lev : ℤ) : 0 ≤ (cfg.baseUsdt q lev).1 := by
  have hpct : 0 ≤ q.available * cfg.maxPct := mul_nonneg q.available_nonneg h.maxPct
  have hkelly : 0 ≤ cfg.kellyAmount q := h.minUsdt.trans (le_max_right _ _)
  rw [baseUsdt_fst]
  split_ifs
  · exact le_min (le_min hkelly (riskAmount_nonneg h q lev)) hpct
  · exact le_min (riskAmount_nonneg h q lev) hpct

section Eases

variable {q' : Query} (heases : q.Eases q')

include heases

theorem Query.Eases.available : q.available ≤ q'.available := by
  have h1 : q.balance ≤ q'.balance := heases.balance
  have h2 : q'.usedMargin ≤ q.usedMargin := heases.usedMargin
  exact max_le_max (by linarith) (le_refl 0)

theorem Query.Eases.knownScore : q'.knownScore = q.knownScore := by
  rw [Query.knownScore, Query.knownScore, heases.score]

theorem Query.Eases.kellyShare : cfg.kellyShare q' = cfg.kellyShare q := by
  have hknown : q'.knownScore = q.knownScore := heases.knownScore
  rw [SizerConfig.kellyShare, SizerConfig.kellyShare, hknown]

theorem Query.Eases.hybrid_iff : cfg.Hybrid q' ↔ cfg.Hybrid q := by
  have hknown : q'.knownScore = q.knownScore := heases.knownScore
  have hshare : cfg.kellyShare q' = cfg.kellyShare q := heases.kellyShare
  rw [Hybrid, Hybrid, hshare, hknown]

theorem Query.Eases.orderLeverage : q'.orderLeverage = q.orderLeverage := by
  simp only [Query.orderLeverage, heases.score, heases.leverage]

theorem kellyAmount_mono (h : cfg.Sound) : cfg.kellyAmount q ≤ cfg.kellyAmount q' := by
  have hshare : cfg.kellyShare q' = cfg.kellyShare q := heases.kellyShare
  rw [kellyAmount, kellyAmount, hshare]
  exact max_le_max (mul_le_mul_of_nonneg_right heases.balance (kellyShare_nonneg h q))
    (le_refl _)

theorem riskAmount_mono (h : cfg.Sound) (hlev : 0 ≤ lev) :
    cfg.riskAmount q lev ≤ cfg.riskAmount q' lev := by
  have hdist : q'.slDist = q.slDist := by simp only [Query.slDist, heases.price, heases.slPrice]
  have hby : q'.ByRisk ↔ q.ByRisk := by simp only [Query.ByRisk, heases.price, heases.slPrice]
  have hlev' : (0 : ℚ) ≤ lev := by exact_mod_cast hlev
  rw [riskAmount, riskAmount, hdist]
  simp only [hby]
  by_cases hrisk : q.ByRisk ∧ 0 < q.slDist
  · rw [if_pos hrisk, if_pos hrisk]
    split_ifs
    · exact mul_le_mul_of_nonneg_right heases.available h.maxPct
    · -- the risk grows with the balance, and the distance is the same
      have hdiv : 0 ≤ q.slDist * lev := mul_nonneg hrisk.2.le hlev'
      have hrisked : q.balance * cfg.maxRiskPct ≤ q'.balance * cfg.maxRiskPct :=
        mul_le_mul_of_nonneg_right heases.balance h.maxRiskPct
      exact max_le_max (div_le_div_of_nonneg_right hrisked hdiv) (le_refl _)
  · rw [if_neg hrisk, if_neg hrisk]
    exact mul_le_mul_of_nonneg_right heases.available h.basePct

theorem baseUsdt_mono (h : cfg.Sound) (hlev : 0 ≤ lev) :
    (cfg.baseUsdt q lev).1 ≤ (cfg.baseUsdt q' lev).1 := by
  have hhybrid : cfg.Hybrid q' ↔ cfg.Hybrid q := heases.hybrid_iff
  have hrisk : cfg.riskAmount q lev ≤ cfg.riskAmount q' lev := riskAmount_mono heases h hlev
  have hkelly : cfg.kellyAmount q ≤ cfg.kellyAmount q' := kellyAmount_mono heases h
  have hpct : q.available * cfg.maxPct ≤ q'.available * cfg.maxPct :=
    mul_le_mul_of_nonneg_right heases.available h.maxPct
  rw [baseUsdt_fst, baseUsdt_fst]
  simp only [hhybrid]
  split_ifs
  · exact min_le_min (min_le_min hkelly hrisk) hpct
  · exact min_le_min hrisk hpct

/-- The multipliers, while there is no halt. -/
theorem wanted_mono (h : cfg.Sound) (hbraking : cfg.Braking) (hlev : 0 ≤ q.orderLeverage)
    (hmult : 0 ≤ q.knownScore.sizeMultiplier) (hconf : 0 ≤ q.confidenceBoost)
    (hdd : 0 ≤ cfg.drawdownMultiplier q.currentDdPct) : cfg.wanted q ≤ cfg.wanted q' := by
  have hknown : q'.knownScore = q.knownScore := heases.knownScore
  have hdd' : cfg.drawdownMultiplier q.currentDdPct ≤ cfg.drawdownMultiplier q'.currentDdPct :=
    hbraking.antitone heases.drawdown
  have hbase : (cfg.baseUsdt q q.orderLeverage).1 ≤ (cfg.baseUsdt q' q'.orderLeverage).1 := by
    rw [heases.orderLeverage]
    exact baseUsdt_mono heases h hlev
  have htier : q.knownScore.sizeMultiplier * cfg.drawdownMultiplier q.currentDdPct ≤
      q'.knownScore.sizeMultiplier * cfg.drawdownMultiplier q'.currentDdPct := by
    rw [hknown]
    exact mul_le_mul_of_nonneg_left hdd' hmult
  have htier_nonneg : 0 ≤ q.knownScore.sizeMultiplier * cfg.drawdownMultiplier q.currentDdPct :=
    mul_nonneg hmult hdd
  exact mul_le_mul hbase
    (mul_le_mul htier heases.confidence hconf (htier_nonneg.trans htier))
    (mul_nonneg htier_nonneg hconf) (baseUsdt_nonneg h q' _)

theorem cap_mono (h : cfg.Sound) : cfg.cap q ≤ cfg.cap q' :=
  min_le_min (mul_le_mul_of_nonneg_right heases.available h.maxPct) (le_refl _)

end Eases

theorem qty_nonneg (h : cfg.Sound) (q : Query) : 0 ≤ (cfg.calcSize q).qty := by
  rw [calcSize_eq.1]
  split_ifs with hskips hprice
  · exact le_refl 0
  · have hmin : cfg.minUsdt ≤ cfg.amount q := not_lt.1 fun h => hskips (.inr (.inr (.inl h)))
    exact div_nonneg (h.minUsdt.trans hmin) hprice.le
  · exact le_refl 0

/-- **Sizes are monotone**: under circumstances that are no worse the size
is no smaller. -/
theorem calcSize_monotone {q' : Query} (h : cfg.Sound) (hbraking : cfg.Braking)
    (hasked : 1 ≤ q.leverage) (hmax : 0 ≤ q.knownScore.maxLeverage)
    (hmult : 0 ≤ q.knownScore.sizeMultiplier) (hconf : 0 ≤ q.confidenceBoost)
    (heases : q.Eases q') : (cfg.calcSize q).qty ≤ (cfg.calcSize q').qty := by
  by_cases hskips : cfg.Skips q
  · have hnone : (cfg.calcSize q).qty = 0 := by rw [calcSize_eq.1, if_pos hskips]
    rw [hnone]
    exact qty_nonneg h q'
  have hstop : 0 < cfg.drawdownMultiplier q.currentDdPct :=
    not_le.1 fun hle => hskips (.inr (.inl hle))
  have hlev : 0 ≤ q.orderLeverage := le_min (by omega) hmax
  have hamount : cfg.amount q ≤ cfg.amount q' :=
    min_le_min (wanted_mono heases h hbraking hlev hmult hconf hstop.le) (cap_mono heases h)
  -- what has a size has one under circumstances that are no worse
  have hskips' : ¬cfg.Skips q' := by
    rintro (hblack | hstop' | hbelow | hbelow)
    · have hblack' : q.Blacklisted := by
        have hknown : q'.knownScore = q.knownScore := heases.knownScore
        obtain ⟨hsome, htier⟩ := hblack
        rw [heases.score] at hsome
        rw [hknown] at htier
        exact ⟨hsome, htier⟩
      exact hskips (.inl hblack')
    · have hle : cfg.drawdownMultiplier q.currentDdPct ≤ 0 :=
        (hbraking.antitone heases.drawdown).trans hstop'
      exact absurd hstop (not_lt.2 hle)
    · exact hskips (.inr (.inr (.inl (hamount.trans_lt hbelow))))
    · exact hskips (.inr (.inr (.inr (heases.available.trans_lt hbelow))))
  rw [calcSize_eq.1, calcSize_eq.1, if_neg hskips, if_neg hskips', heases.price]
  split_ifs with hprice
  · exact div_le_div_of_nonneg_right hamount hprice.le
  · exact le_refl 0

/-- Ten times the balance gives no smaller a size. -/
theorem calcSize_monotone_balance :
    ∃ q : Query, 0 < (calcSize {} q).qty ∧
      (calcSize {} q).qty ≤ (calcSize {} { q with balance := 10 * q.balance }).qty := by
  let q : Query :=
    { balance := 100, price := 100, slPrice := 95, leverage := 10, currentDdPct := 0 }
  have hqty : 0 < (calcSize {} q).qty := by decide +kernel
  have hsound : Sound {} := ⟨by decide +kernel, by decide +kernel, by decide +kernel,
    by decide +kernel, by decide +kernel⟩
  have hbraking : Braking {} := by decide +kernel
  have heases : q.Eases { q with balance := 10 * q.balance } :=
    ⟨rfl, rfl, rfl, rfl, by decide +kernel, le_refl _, le_refl _, le_refl _⟩
  exact ⟨q, hqty, calcSize_monotone hsound hbraking (by decide) (by decide)
    (by decide +kernel) (by decide +kernel) heases⟩

end SizerConfig

end WebhookTrader
