import WebhookTrader.Risk.Model.Sizing

/-!
# What a size tells

`calc_size` answers with a size or with none. Where it answers with one,
the price is positive and the amount is the wanted one under the caps,
which is all that the handlers' results use of it.
-/

namespace WebhookTrader

namespace SizerConfig

variable {cfg : SizerConfig} {q : SizerConfig.Query}

namespace Query

/-- The leverage of the answer. -/
def orderLeverage (q : Query) : ℤ := min q.leverage (q.score.getD {}).maxLeverage

/-- What is not in use as margin. -/
def available (q : Query) : ℚ := max (q.balance - q.usedMargin) 0

end Query

/-- **The caps**: the largest share of the available balance, and the
largest amount. -/
def cap (cfg : SizerConfig) (q : Query) : ℚ := min (q.available * cfg.maxPct) cfg.maxUsdtHard

/-- The amount before the caps. -/
def wanted (cfg : SizerConfig) (q : Query) : ℚ :=
  (cfg.baseUsdt q q.orderLeverage).1 *
    ((q.score.getD {}).sizeMultiplier * cfg.drawdownMultiplier q.currentDdPct * q.confidenceBoost)

/-- The amount under the caps. -/
def amount (cfg : SizerConfig) (q : Query) : ℚ := min (cfg.wanted q) (cfg.cap q)

/-- **An amount that is multiplied** stays under the cap where it is not
enlarged, or where the wanted amount leaves room. -/
theorem amount_mul_le_cap_iff {m : ℚ} (hpos : 0 < cfg.amount q) :
    cfg.amount q * m ≤ cfg.cap q ↔ m ≤ 1 ∨ cfg.wanted q * m ≤ cfg.cap q := by
  rw [amount] at hpos ⊢
  rcases le_total (cfg.wanted q) (cfg.cap q) with hle | hle
  · rw [min_eq_left hle] at hpos ⊢
    constructor
    · exact .inr
    · rintro (hm | hm)
      · calc cfg.wanted q * m ≤ cfg.wanted q * 1 := mul_le_mul_of_nonneg_left hm hpos.le
          _ ≤ cfg.cap q := by rwa [mul_one]
      · exact hm
  · rw [min_eq_right hle] at hpos ⊢
    have hone : cfg.cap q * m ≤ cfg.cap q ↔ m ≤ 1 := mul_le_iff_le_one_right hpos
    rw [hone]
    constructor
    · exact .inl
    · rintro (hm | hm)
      · exact hm
      · -- the wanted amount is the larger one, and so has no room to grow
        by_contra hlt
        have hgrow : cfg.cap q < cfg.cap q * m := lt_mul_of_one_lt_right hpos (not_le.1 hlt)
        have hwanted : cfg.cap q * m ≤ cfg.wanted q * m :=
          mul_le_mul_of_nonneg_right hle (zero_le_one.trans (not_le.1 hlt).le)
        exact absurd (hgrow.trans_le hwanted) (not_lt.2 hm)

/-- **What a size tells.** -/
structure Answers (cfg : SizerConfig) (q : Query) : Prop where
  price_pos : 0 < q.price
  amount_pos : 0 < cfg.amount q
  qty : (cfg.calcSize q).qty = cfg.amount q / q.price
  usdtAmount : (cfg.calcSize q).usdtAmount = roundTo 2 (cfg.amount q)
  leverage : (cfg.calcSize q).leverage = q.orderLeverage

/-- Only an answer has a quantity. -/
theorem answers_of_qty_pos (h : 0 < (cfg.calcSize q).qty) : cfg.Answers q := by
  have hpos : 0 < (if 0 < q.price then cfg.amount q / q.price else 0) ∧
      (cfg.calcSize q).qty = (if 0 < q.price then cfg.amount q / q.price else 0) ∧
      (cfg.calcSize q).usdtAmount = roundTo 2 (cfg.amount q) ∧
      (cfg.calcSize q).leverage = q.orderLeverage := by
    revert h
    unfold calcSize
    dsimp only
    -- a blacklisted symbol, a halt, and an amount below the minimum have none
    split_ifs
    all_goals first
      | exact fun h => absurd h (lt_irrefl 0)
      | exact fun h => ⟨h, rfl, rfl, rfl⟩
  obtain ⟨hqty, heq, husdt, hlev⟩ := hpos
  split_ifs at hqty heq with hprice
  · have hamount : 0 < cfg.amount q := (div_pos_iff_of_pos_right hprice).1 hqty
    exact ⟨hprice, hamount, heq, husdt, hlev⟩
  · exact absurd hqty (lt_irrefl 0)

/-! ## The drawdown levels -/

/-- **Levels that brake**: the thresholds ascend, and no multiplier is above
the one before it, where the zero beyond the last level is one of them. -/
structure Braking (cfg : SizerConfig) : Prop where
  ascending : (cfg.ddLevels.map Prod.fst).Pairwise (· ≤ ·)
  falling : (cfg.ddLevels.map Prod.snd ++ [0]).Pairwise (· ≥ ·)

instance : Decidable cfg.Braking :=
  decidable_of_iff ((cfg.ddLevels.map Prod.fst).Pairwise (· ≤ ·) ∧
    (cfg.ddLevels.map Prod.snd ++ [0]).Pairwise (· ≥ ·))
    ⟨fun h => ⟨h.1, h.2⟩, fun h => ⟨h.1, h.2⟩⟩

/-- The multiplier of the first level that covers a drawdown falls as the
drawdown grows. -/
theorem levels_antitone {levels : List (ℚ × ℚ)} {dd dd' : ℚ} (hdd : dd ≤ dd')
    (h : (levels.map Prod.snd ++ [0]).Pairwise (· ≥ ·)) :
    ((levels.find? fun lv => dd' ≤ lv.1).map (·.2)).getD 0 ≤
      ((levels.find? fun lv => dd ≤ lv.1).map (·.2)).getD 0 := by
  induction levels with
  | nil => exact le_refl 0
  | cons level levels ih =>
      rw [List.map_cons, List.cons_append, List.pairwise_cons] at h
      obtain ⟨hhead, htail⟩ := h
      by_cases hcovers' : dd' ≤ level.1
      · have hcovers : dd ≤ level.1 := hdd.trans hcovers'
        simp only [List.find?_cons, hcovers, hcovers', decide_true, le_refl]
      by_cases hcovers : dd ≤ level.1
      swap
      · simpa only [List.find?_cons, hcovers, hcovers', decide_false] using ih htail
      -- the smaller drawdown stops here, the larger one further on or nowhere
      simp only [List.find?_cons, hcovers, hcovers', decide_true, decide_false]
      refine hhead _ ?_
      cases hfind : levels.find? fun lv => dd' ≤ lv.1 with
      | none => exact List.mem_append_right _ (List.mem_singleton.2 rfl)
      | some lv =>
          exact List.mem_append_left _ (List.mem_map_of_mem (List.mem_of_find?_eq_some hfind))

/-- **Levels that brake do**: a larger drawdown has no larger multiplier. -/
theorem Braking.antitone (h : cfg.Braking) : Antitone cfg.drawdownMultiplier := fun _ _ hdd =>
  levels_antitone hdd h.falling

example : Braking {} := by decide +kernel

end SizerConfig

end WebhookTrader
