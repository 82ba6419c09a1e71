import WebhookTrader.Risk.SymbolScores

/-!
# Better outcomes

A trade that did not win is replaced by one that did. The mean of the
profits and the win rate are higher for it. The profit factor is the
gross profit over the gross loss, and nothing where there is no loss: it
falls where the trade was the only loss.
-/

namespace WebhookTrader

namespace Scorer

variable {t : TradeRecord} {rest : List TradeRecord} {pnl : ℚ}

/-- The trade with another outcome. -/
def withPnl (t : TradeRecord) (pnl : ℚ) : TradeRecord := { t with pnl }

/-! ## Normalized values -/

/-- A higher value has no lower a score. -/
theorem normalize_mono {value value' low high : ℚ} (h : low < high) (hle : value ≤ value') :
    normalize value low high ≤ normalize value' low high := by
  have hdiff : 0 ≤ high - low := by linarith
  have hscaled : (value - low) / (high - low) ≤ (value' - low) / (high - low) :=
    div_le_div_of_nonneg_right (by linarith) hdiff
  rw [normalize, normalize, if_neg (not_le.2 h), if_neg (not_le.2 h)]
  exact max_le_max (le_refl _) (min_le_min hscaled (le_refl _))

/-- What scores nothing is not above the range. -/
theorem normalize_le_zero_iff {value low high : ℚ} (h : low < high) :
    normalize value low high ≤ 0 ↔ value ≤ low := by
  have hdiff : 0 < high - low := by linarith
  have hscaled : (value - low) / (high - low) ≤ 0 ↔ value ≤ low := by
    rw [div_le_iff₀ hdiff, zero_mul, sub_nonpos]
  rw [normalize, if_neg (not_le.2 h), clamp, max_le_iff, min_le_iff, hscaled]
  constructor
  · rintro ⟨-, hle | hone⟩
    · exact hle
    · exact absurd hone (by norm_num)
  · intro hle
    exact ⟨le_refl _, .inl hle⟩

/-! ## One trade and the others -/

theorem totalPnl_cons : totalPnl (t :: rest) = t.pnl + totalPnl rest := List.sum_cons

theorem grossLoss_cons_of_pos (h : 0 < t.pnl) : grossLoss (t :: rest) = grossLoss rest := by
  rw [grossLoss, lossesList_cons_of_pos h, grossLoss]

theorem grossLoss_cons_of_nonpos (h : ¬0 < t.pnl) :
    grossLoss (t :: rest) = -t.pnl + grossLoss rest := by
  rw [grossLoss_eq, grossLoss_eq, lossesList_cons_of_nonpos h, List.sum_cons, neg_add]

theorem grossProfit_cons_of_pos (h : 0 < t.pnl) :
    grossProfit (t :: rest) = t.pnl + grossProfit rest := by
  rw [grossProfit, winsList_cons_of_pos h, List.sum_cons, grossProfit]

theorem grossProfit_cons_of_nonpos (h : ¬0 < t.pnl) :
    grossProfit (t :: rest) = grossProfit rest := by
  rw [grossProfit, winsList_cons_of_nonpos h, grossProfit]

theorem grossLoss_nonneg (trades : List TradeRecord) : 0 ≤ grossLoss trades := abs_nonneg _

theorem grossProfit_nonneg (trades : List TradeRecord) : 0 ≤ grossProfit trades := by
  refine List.sum_nonneg fun p hp => ?_
  have hwin : 0 < p := of_decide_eq_true (List.mem_filter.1 hp).2
  exact hwin.le

theorem totalPnl_eq (trades : List TradeRecord) :
    totalPnl trades = grossProfit trades - grossLoss trades := by
  rw [grossLoss_eq, ← sum_wins_add_losses, grossProfit]
  ring

/-- **No gross loss** is no trade with a loss. -/
theorem grossLoss_eq_zero_iff (trades : List TradeRecord) :
    grossLoss trades = 0 ↔ ∀ t ∈ trades, 0 ≤ t.pnl := by
  induction trades with
  | nil => simp [grossLoss, lossesList, allPnls]
  | cons t trades ih =>
      rw [List.forall_mem_cons, ← ih]
      by_cases hwin : 0 < t.pnl
      · rw [grossLoss_cons_of_pos hwin]
        exact (and_iff_right hwin.le).symm
      · have hnonneg : 0 ≤ grossLoss trades := grossLoss_nonneg trades
        have hle : t.pnl ≤ 0 := not_lt.1 hwin
        rw [grossLoss_cons_of_nonpos hwin]
        constructor
        · intro hzero
          constructor
          · linarith
          · linarith
        · rintro ⟨hpnl, hzero⟩
          linarith

/-! ## The components -/

/-- A better outcome has a better mean. -/
theorem expectancyScore_le (hle : t.pnl ≤ pnl) :
    expectancyScore (t :: rest) ≤ expectancyScore (withPnl t pnl :: rest) := by
  have hne : 0 < (t :: rest).length := by simp
  have hne' : 0 < (withPnl t pnl :: rest).length := by simp
  refine normalize_mono (by norm_num) ?_
  rw [expectancy_eq_avgPnl, expectancy_eq_avgPnl, avgPnl, avgPnl, if_pos hne, if_pos hne',
    totalPnl_cons, totalPnl_cons]
  have hnum : t.pnl + totalPnl rest ≤ (withPnl t pnl).pnl + totalPnl rest :=
    add_le_add_left hle _
  exact div_le_div_of_nonneg_right hnum (Nat.cast_nonneg _)

/-- A win more is a better rate. -/
theorem winRateScore_le (hloss : t.pnl ≤ 0) (hwin : 0 < pnl) :
    winRateScore (t :: rest) ≤ winRateScore (withPnl t pnl :: rest) := by
  have hne : 0 < (t :: rest).length := by simp
  have hne' : 0 < (withPnl t pnl :: rest).length := by simp
  have hwin' : 0 < (withPnl t pnl).pnl := hwin
  refine normalize_mono (by norm_num) ?_
  rw [winRate, winRate, if_pos hne, if_pos hne', winsList_cons_of_nonpos (not_lt.2 hloss),
    winsList_cons_of_pos hwin']
  have hnum : ((winsList rest).length : ℚ) ≤ ((winsList rest).length + 1 : ℕ) := by
    exact_mod_cast Nat.le_succ _
  exact div_le_div_of_nonneg_right hnum (Nat.cast_nonneg _)

/-- **The profit factor** falls where the trade was the only loss, and the
other profits were more than half of it. -/
theorem profitFactorScore_le_iff (hloss : t.pnl ≤ 0) (hwin : 0 < pnl) :
    profitFactorScore (t :: rest) ≤ profitFactorScore (withPnl t pnl :: rest) ↔
      (t.pnl < 0 → (∀ u ∈ rest, 0 ≤ u.pnl) → (rest.map (·.pnl)).sum ≤ -t.pnl / 2) := by
  have hwin' : 0 < (withPnl t pnl).pnl := hwin
  have hloss' : ¬0 < t.pnl := not_lt.2 hloss
  rw [profitFactorScore, profitFactorScore, profitFactor, profitFactor,
    grossLoss_cons_of_nonpos hloss', grossProfit_cons_of_nonpos hloss',
    grossLoss_cons_of_pos hwin', grossProfit_cons_of_pos hwin']
  have hprofit : 0 ≤ grossProfit rest := grossProfit_nonneg rest
  rcases (grossLoss_nonneg rest).lt_or_eq with hothers | hnone
  · -- the others have a loss, and it is the smaller one
    have hsome : ¬∀ u ∈ rest, 0 ≤ u.pnl :=
      fun hall => hothers.ne' ((grossLoss_eq_zero_iff rest).2 hall)
    have hlarger : 0 < -t.pnl + grossLoss rest := by linarith
    rw [if_pos hothers, if_pos hlarger]
    refine iff_of_true (normalize_mono (by norm_num) ?_) (fun _ hall => absurd hall hsome)
    calc grossProfit rest / (-t.pnl + grossLoss rest)
        ≤ grossProfit rest / grossLoss rest :=
          div_le_div_of_nonneg_left hprofit hothers (by linarith)
      _ ≤ ((withPnl t pnl).pnl + grossProfit rest) / grossLoss rest :=
          div_le_div_of_nonneg_right (by linarith) hothers.le
  · -- there is no loss any more, and the factor is nothing
    have hall : ∀ u ∈ rest, 0 ≤ u.pnl := (grossLoss_eq_zero_iff rest).1 hnone.symm
    have htotal : (rest.map (·.pnl)).sum = grossProfit rest := by
      have htotal' : totalPnl rest = grossProfit rest - grossLoss rest := totalPnl_eq rest
      rw [← hnone, sub_zero] at htotal'
      exact htotal'
    have hzero : normalize 0 (1 / 2) 3 = 0 := by decide +kernel
    rw [← hnone, if_neg (lt_irrefl 0), add_zero, htotal, hzero,
      normalize_le_zero_iff (by norm_num)]
    rcases hloss.lt_or_eq with hneg | heq
    · have hpos : 0 < -t.pnl := by linarith
      rw [if_pos hpos, div_le_iff₀ hpos]
      constructor
      · intro hle _ _
        linarith
      · intro hle
        have hhalf : grossProfit rest ≤ -t.pnl / 2 := hle hneg hall
        linarith
    · rw [heq, neg_zero, if_neg (lt_irrefl 0)]
      exact iff_of_true (by norm_num) (fun hneg => absurd hneg (lt_irrefl 0))

/-! ## A trade among the others -/

/-- **A better outcome scores no worse**, unless it replaces the only loss
of the symbol and the other profits are more than half of that. -/
theorem better_outcome_iff (pre post : List TradeRecord) (t : TradeRecord) (pnl : ℚ)
    (hloss : t.pnl ≤ 0) (hwin : 0 < pnl) :
    (expectancyScore (pre ++ t :: post) ≤ expectancyScore (pre ++ withPnl t pnl :: post) ∧
      profitFactorScore (pre ++ t :: post) ≤ profitFactorScore (pre ++ withPnl t pnl :: post) ∧
      winRateScore (pre ++ t :: post) ≤ winRateScore (pre ++ withPnl t pnl :: post)) ↔
    (t.pnl < 0 → (∀ u ∈ pre ++ post, 0 ≤ u.pnl) →
      ((pre ++ post).map (·.pnl)).sum ≤ -t.pnl / 2) := by
  -- the components do not depend on the order
  have hperm : ∀ u : TradeRecord, (pre ++ u :: post).Perm (u :: (pre ++ post)) :=
    fun _ => List.perm_middle
  have hexpectancy : ∀ u : TradeRecord,
      expectancyScore (pre ++ u :: post) = expectancyScore (u :: (pre ++ post)) := by
    intro u
    rw [expectancyScore, expectancyScore, expectancy_perm (hperm u)]
  have hfactor : ∀ u : TradeRecord,
      profitFactorScore (pre ++ u :: post) = profitFactorScore (u :: (pre ++ post)) := by
    intro u
    rw [profitFactorScore, profitFactorScore, profitFactor_perm (hperm u)]
  have hrate : ∀ u : TradeRecord,
      winRateScore (pre ++ u :: post) = winRateScore (u :: (pre ++ post)) := by
    intro u
    rw [winRateScore, winRateScore, winRate_perm (hperm u)]
  rw [hexpectancy, hexpectancy, hfactor, hfactor, hrate, hrate,
    ← profitFactorScore_le_iff hloss hwin]
  constructor
  · rintro ⟨-, hle, -⟩
    exact hle
  · intro hle
    exact ⟨expectancyScore_le (hloss.trans hwin.le), hle, winRateScore_le hloss hwin⟩

/-- With two losses, one of them may become a win. -/
theorem better_outcome_two_losses :
    ∃ trades trades' : List TradeRecord, profitFactorScore trades ≤ profitFactorScore trades' ∧
      grossLoss trades = 3 ∧ grossLoss trades' = 2 := by
  let one : TradeRecord := { TradeRecord.blank with symbol := "BTCUSDT", pnl := -1 }
  let two : TradeRecord := { TradeRecord.blank with symbol := "BTCUSDT", pnl := -2 }
  have hcond : one.pnl < 0 → (∀ u ∈ [two] ++ [], 0 ≤ u.pnl) →
      (([two] ++ []).map TradeRecord.pnl).sum ≤ -one.pnl / 2 := by
    decide +kernel
  have hscores := (better_outcome_iff [two] [] one 4 (by decide +kernel) (by norm_num)).2 hcond
  exact ⟨[two] ++ [one], [two] ++ [withPnl one 4], hscores.2.1, by decide +kernel,
    by decide +kernel⟩

/-- **A better outcome scores worse**: of a win of three and a loss of one
the profit factor is three, and of two wins it is nothing. -/
theorem better_outcome_scores_worse :
    ∃ (pre : List TradeRecord) (t : TradeRecord) (post : List TradeRecord) (pnl : ℚ),
      t.pnl ≤ 0 ∧ 0 < pnl ∧
      ¬profitFactorScore (pre ++ t :: post) ≤ profitFactorScore (pre ++ withPnl t pnl :: post) := by
  refine ⟨[{ TradeRecord.blank with symbol := "BTCUSDT", pnl := 3 }],
    { TradeRecord.blank with symbol := "BTCUSDT", pnl := -1 }, [], 1, ?_⟩
  decide +kernel

end Scorer

end WebhookTrader
