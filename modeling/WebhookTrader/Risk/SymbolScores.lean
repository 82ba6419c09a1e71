import Mathlib.Algebra.Order.BigOperators.Group.List
import Mathlib.Tactic.FieldSimp
import Mathlib.Tactic.Ring
import Mathlib.Tactic.Linarith
import WebhookTrader.Risk.Model.SymbolScores

/-!
# What the score of a symbol says

The wins and the losses are the trades, and the expectancy that is made of
them is the mean of the profits after all. The scores by timeframe share
the trades out. Nothing but the time of a score depends on the order of
the trades.
-/

namespace WebhookTrader

namespace Scorer

variable {cfg : ScoringConfig} {sqrt : ℚ → ℚ} {trades trades' : List TradeRecord} {signalCount : ℤ}

/-! ## Values in bounds -/

theorem clamp_mem {q low high : ℚ} (h : low ≤ high) :
    low ≤ clamp q low high ∧ clamp q low high ≤ high :=
  ⟨le_max_left _ _, max_le h (min_le_right _ _)⟩

theorem round1_mem {q : ℚ} {a b : ℤ} (h : (a : ℚ) ≤ q ∧ q ≤ b) : a ≤ round1 q ∧ round1 q ≤ b := by
  have hlow : ((a * 10 : ℤ) : ℚ) ≤ q * 10 := by
    push_cast
    linarith [h.1]
  have hhigh : q * 10 ≤ ((b * 10 : ℤ) : ℚ) := by
    push_cast
    linarith [h.2]
  obtain ⟨hround₁, hround₂⟩ := roundHalfAway_mem hlow hhigh
  have hcast₁ : ((a * 10 : ℤ) : ℚ) ≤ roundHalfAway (q * 10) := by exact_mod_cast hround₁
  have hcast₂ : (roundHalfAway (q * 10) : ℚ) ≤ ((b * 10 : ℤ) : ℚ) := by exact_mod_cast hround₂
  push_cast at hcast₁ hcast₂
  unfold round1
  constructor
  · linarith
  · linarith

/-! ## Wins and losses -/

theorem winsList_cons_of_pos {t : TradeRecord} (h : 0 < t.pnl) :
    winsList (t :: trades) = t.pnl :: winsList trades :=
  List.filter_cons_of_pos (decide_eq_true h)

theorem winsList_cons_of_nonpos {t : TradeRecord} (h : ¬0 < t.pnl) :
    winsList (t :: trades) = winsList trades :=
  List.filter_cons_of_neg fun hwin => h (of_decide_eq_true hwin)

theorem lossesList_cons_of_pos {t : TradeRecord} (h : 0 < t.pnl) :
    lossesList (t :: trades) = lossesList trades :=
  List.filter_cons_of_neg fun hloss => of_decide_eq_true hloss h

theorem lossesList_cons_of_nonpos {t : TradeRecord} (h : ¬0 < t.pnl) :
    lossesList (t :: trades) = t.pnl :: lossesList trades :=
  List.filter_cons_of_pos (decide_eq_true h)

theorem wins_add_losses (trades : List TradeRecord) :
    (winsList trades).length + (lossesList trades).length = trades.length := by
  induction trades with
  | nil => rfl
  | cons t trades ih =>
      by_cases hwin : 0 < t.pnl
      · rw [winsList_cons_of_pos hwin, lossesList_cons_of_pos hwin, List.length_cons,
          List.length_cons]
        omega
      · rw [winsList_cons_of_nonpos hwin, lossesList_cons_of_nonpos hwin, List.length_cons,
          List.length_cons]
        omega

theorem sum_wins_add_losses (trades : List TradeRecord) :
    (winsList trades).sum + (lossesList trades).sum = totalPnl trades := by
  induction trades with
  | nil => exact add_zero 0
  | cons t trades ih =>
      have htotal : totalPnl (t :: trades) = t.pnl + totalPnl trades := List.sum_cons
      by_cases hwin : 0 < t.pnl
      · rw [winsList_cons_of_pos hwin, lossesList_cons_of_pos hwin, List.sum_cons, htotal]
        linarith
      · rw [winsList_cons_of_nonpos hwin, lossesList_cons_of_nonpos hwin, List.sum_cons, htotal]
        linarith

theorem sum_lossesList_nonpos (trades : List TradeRecord) : (lossesList trades).sum ≤ 0 := by
  have hle : ∀ p ∈ lossesList trades, p ≤ 0 := by
    intro p hp
    have hloss : ¬0 < p := of_decide_eq_true (List.mem_filter.1 hp).2
    exact not_lt.1 hloss
  exact (List.sum_le_card_nsmul _ 0 hle).trans_eq (nsmul_zero _)

theorem grossLoss_eq (trades : List TradeRecord) : grossLoss trades = -(lossesList trades).sum :=
  abs_of_nonpos (sum_lossesList_nonpos trades)

/-- The winning part of the expectancy. -/
theorem winRate_mul_avgWin (hne : 0 < trades.length) :
    winRate trades * avgWin trades = (winsList trades).sum / trades.length := by
  rw [winRate, if_pos hne, avgWin]
  by_cases hnone : winsList trades = []
  · rw [if_neg (not_not.2 hnone), hnone, List.sum_nil, mul_zero, zero_div]
  · have hwins : ((winsList trades).length : ℚ) ≠ 0 := by
      exact_mod_cast fun h => hnone (List.length_eq_zero_iff.1 h)
    have htrades : (trades.length : ℚ) ≠ 0 := by exact_mod_cast hne.ne'
    rw [if_pos hnone]
    field_simp

/-- The losing part of the expectancy. -/
theorem lossRate_mul_avgLoss (hne : 0 < trades.length) :
    (1 - winRate trades) * avgLoss trades = -(lossesList trades).sum / trades.length := by
  have htrades : (trades.length : ℚ) ≠ 0 := by exact_mod_cast hne.ne'
  have hrate : 1 - winRate trades = ((lossesList trades).length : ℚ) / trades.length := by
    have hsum : ((winsList trades).length : ℚ) + (lossesList trades).length = trades.length := by
      exact_mod_cast wins_add_losses trades
    rw [winRate, if_pos hne, eq_div_iff htrades, sub_mul, one_mul, div_mul_cancel₀ _ htrades]
    linarith
  rw [hrate, avgLoss]
  by_cases hnone : lossesList trades = []
  · rw [if_neg (not_not.2 hnone), hnone, List.sum_nil, mul_zero, neg_zero, zero_div]
  · have hlosses : ((lossesList trades).length : ℚ) ≠ 0 := by
      exact_mod_cast fun h => hnone (List.length_eq_zero_iff.1 h)
    have habs : |(lossesList trades).sum / (lossesList trades).length| =
        -(lossesList trades).sum / (lossesList trades).length := by
      rw [abs_div, Nat.abs_cast, abs_of_nonpos (sum_lossesList_nonpos trades)]
    rw [if_pos hnone, habs]
    field_simp

/-- **The expectancy is the mean of the profits.** -/
theorem expectancy_eq_avgPnl (trades : List TradeRecord) : expectancy trades = avgPnl trades := by
  by_cases hne : 0 < trades.length
  · rw [expectancy, winRate_mul_avgWin hne, lossRate_mul_avgLoss hne, avgPnl, if_pos hne,
      ← sum_wins_add_losses]
    ring
  · obtain rfl : trades = [] := List.length_eq_zero_iff.1 (by omega)
    decide +kernel

/-! ## Timeframes -/

/-- What the timeframes have is what all trades have. -/
theorem sum_tfScores {M : Type} [AddCommMonoid M] {f : TfSubScore → M} {g : TradeRecord → M}
    (hrate : ∀ s, f (rateTf s) = f s) (hzero : f {} = 0)
    (hcount : ∀ s t, f (countTf s t) = f s + g t) (trades : List TradeRecord) :
    ((tfScores trades).entries.map fun e => f e.2).sum = (trades.map g).sum := by
  calc ((tfScores trades).entries.map fun e => f e.2).sum
      = ((Table.tally tfOf countTf {} trades).entries.map fun e => f e.2).sum := by
        rw [tfScores, Table.entries_mapValues, List.map_map]
        exact congrArg List.sum (List.map_congr_left fun e _ => hrate e.2)
    _ = (trades.map g).sum := Table.sum_tally hzero hcount trades

theorem sum_tfScores_trades (trades : List TradeRecord) :
    ((tfScores trades).entries.map fun e => e.2.trades).sum = trades.length := by
  have hsum : ((tfScores trades).entries.map fun e => e.2.trades).sum =
      (trades.map fun _ => (1 : ℤ)).sum :=
    sum_tfScores (fun _ => rfl) rfl (fun _ _ => rfl) trades
  rw [hsum, List.map_const', List.sum_replicate, nsmul_eq_mul, mul_one]

theorem sum_tfScores_wins (trades : List TradeRecord) :
    ((tfScores trades).entries.map fun e => e.2.wins).sum = (winsList trades).length := by
  have hcount : ∀ (s : TfSubScore) (t : TradeRecord),
      (countTf s t).wins = s.wins + if 0 < t.pnl then 1 else 0 := by
    intro s t
    unfold countTf
    split_ifs
    · rfl
    · exact (add_zero _).symm
  rw [sum_tfScores (fun _ => rfl) rfl hcount]
  induction trades with
  | nil => rfl
  | cons t trades ih =>
      rw [List.map_cons, List.sum_cons, ih]
      by_cases hwin : 0 < t.pnl
      · rw [winsList_cons_of_pos hwin, if_pos hwin, List.length_cons]
        omega
      · rw [winsList_cons_of_nonpos hwin, if_neg hwin, zero_add]

theorem sum_tfScores_pnl (trades : List TradeRecord) :
    ((tfScores trades).entries.map fun e => e.2.pnl).sum = totalPnl trades :=
  sum_tfScores (fun _ => rfl) rfl (fun _ _ => rfl) trades

/-! ## The order of the trades -/

section Perm

variable (h : trades'.Perm trades)

include h

theorem allPnls_perm : (allPnls trades').Perm (allPnls trades) := h.map _

theorem winsList_perm : (winsList trades').Perm (winsList trades) := (allPnls_perm h).filter _

theorem lossesList_perm : (lossesList trades').Perm (lossesList trades) :=
  (allPnls_perm h).filter _

theorem totalPnl_perm : totalPnl trades' = totalPnl trades := (allPnls_perm h).sum_eq

theorem winRate_perm : winRate trades' = winRate trades := by
  rw [winRate, winRate, h.length_eq, (winsList_perm h).length_eq]

theorem avgPnl_perm : avgPnl trades' = avgPnl trades := by
  rw [avgPnl, avgPnl, h.length_eq, totalPnl_perm h]

omit h in
/-- Lists in another order are empty together. -/
theorem perm_ne_nil_iff {xs ys : List ℚ} (hperm : xs.Perm ys) : xs ≠ [] ↔ ys ≠ [] := by
  rw [← List.length_pos_iff, ← List.length_pos_iff, hperm.length_eq]

theorem avgWin_perm : avgWin trades' = avgWin trades := by
  have hwins : (winsList trades').Perm (winsList trades) := winsList_perm h
  rw [avgWin, avgWin, hwins.sum_eq, hwins.length_eq]
  simp only [perm_ne_nil_iff hwins]

theorem avgLoss_perm : avgLoss trades' = avgLoss trades := by
  have hlosses : (lossesList trades').Perm (lossesList trades) := lossesList_perm h
  rw [avgLoss, avgLoss, hlosses.sum_eq, hlosses.length_eq]
  simp only [perm_ne_nil_iff hlosses]

theorem profitFactor_perm : profitFactor trades' = profitFactor trades := by
  rw [profitFactor, profitFactor, grossLoss, grossLoss, grossProfit, grossProfit,
    (winsList_perm h).sum_eq, (lossesList_perm h).sum_eq]

theorem expectancy_perm : expectancy trades' = expectancy trades := by
  rw [expectancy, expectancy, winRate_perm h, avgWin_perm h, avgLoss_perm h]

theorem consistency_perm : consistency trades' sqrt = consistency trades sqrt := by
  have hsum : ∀ f : ℚ → ℚ, ((allPnls trades').map f).sum = ((allPnls trades).map f).sum :=
    fun f => ((allPnls_perm h).map f).sum_eq
  simp only [consistency, h.length_eq, totalPnl_perm h, hsum]

theorem frequencyQuality_perm :
    frequencyQuality trades' signalCount = frequencyQuality trades signalCount := by
  rw [frequencyQuality, frequencyQuality, h.length_eq, winRate_perm h]

theorem revTrades_perm : (revTrades trades').Perm (revTrades trades) := h.filter _

theorem revWins_perm : revWins trades' = revWins trades := (revTrades_perm h).countP_eq _

theorem revPnl_perm : revPnl trades' = revPnl trades := ((revTrades_perm h).map _).sum_eq

theorem revWinRate_perm : revWinRate trades' = revWinRate trades := by
  rw [revWinRate, revWinRate, (revTrades_perm h).length_eq, revWins_perm h]

theorem reversals_perm : reversals cfg trades' = reversals cfg trades := by
  rw [reversals, reversals, (revTrades_perm h).length_eq, revWins_perm h, revWinRate_perm h]

theorem composite_perm : composite cfg sqrt trades' signalCount =
    composite cfg sqrt trades signalCount := by
  have hbase : baseComposite cfg sqrt trades' signalCount =
      baseComposite cfg sqrt trades signalCount := by
    simp only [baseComposite, expectancyScore, profitFactorScore, winRateScore, h.length_eq,
      expectancy_perm h, profitFactor_perm h, winRate_perm h, consistency_perm h,
      frequencyQuality_perm h]
  rw [composite, composite, hbase, reversals_perm h]

theorem lookup_tfScores_perm (tf : String) :
    (tfScores trades').lookup tf = (tfScores trades).lookup tf := by
  have hcomm : ∀ (s : TfSubScore) (t t' : TradeRecord),
      countTf (countTf s t) t' = countTf (countTf s t') t := by
    intro s t t'
    simp only [countTf, TfSubScore.mk.injEq, true_and]
    refine ⟨?_, add_right_comm _ _ _⟩
    split_ifs <;> rfl
  rw [tfScores, tfScores, Table.lookup_mapValues, Table.lookup_mapValues,
    Table.lookup_tally_perm h hcomm]

/-- **The order of the trades** changes nothing but the time, and in which
order the timeframes are kept. -/
theorem scoreSymbol_perm (symbol now now' : String) :
    { scoreSymbol cfg sqrt trades' signalCount symbol now' with
      lastUpdated := now, tfScores := tfScores trades } =
    scoreSymbol cfg sqrt trades signalCount symbol now := by
  simp only [scoreSymbol, h.length_eq, (winsList_perm h).length_eq, (lossesList_perm h).length_eq,
    winRate_perm h, totalPnl_perm h, avgPnl_perm h, avgWin_perm h, avgLoss_perm h,
    profitFactor_perm h, expectancy_perm h, consistency_perm h, frequencyQuality_perm h,
    composite_perm h, (revTrades_perm h).length_eq, revWins_perm h, revPnl_perm h,
    revWinRate_perm h, reversals_perm h]

end Perm

/-! ## The score of a symbol -/

theorem foldl_countTf_trades (own : List TradeRecord) (s : TfSubScore) :
    (own.foldl countTf s).trades = s.trades + own.length := by
  induction own generalizing s with
  | nil => exact (add_zero _).symm
  | cons t own ih =>
      have hone : (countTf s t).trades = s.trades + 1 := rfl
      rw [List.foldl_cons, ih, hone, List.length_cons]
      omega

/-- Every trade is counted under its timeframe. -/
theorem trades_tfScores (trades : List TradeRecord) (tf : String) :
    ((tfScores trades).lookup tf).elim 0 TfSubScore.trades =
      (trades.filter fun t => tfOf t = tf).length := by
  rw [tfScores, Table.lookup_mapValues, Table.lookup_tally]
  by_cases hnil : trades.filter (fun t => tfOf t = tf) = []
  · rw [if_pos hnil, hnil]
    rfl
  · rw [if_neg hnil]
    have htrades := foldl_countTf_trades (trades.filter fun t => tfOf t = tf) {}
    exact htrades.trans (zero_add _)

/-- **A score is consistent with its trades.** -/
structure Consistent (cfg : ScoringConfig) (sqrt : ℚ → ℚ) (trades : List TradeRecord)
    (signalCount : ℤ) (symbol now : String) (score : FullScore) : Prop where
  wins_losses : score.wins + score.losses = score.totalTrades
  totalTrades : score.totalTrades = trades.length
  expectancy : score.expectancy = round6 (expectancy trades)
  /-- The expectancy is the mean of the profits, before it is rounded. -/
  expectancy_mean : Scorer.expectancy trades = (trades.map (·.pnl)).sum / trades.length
  /-- The timeframes share out the trades, the wins and the profit. -/
  tf_of : ∀ tf, (score.tfScores.lookup tf).elim 0 TfSubScore.trades =
    (trades.filter fun t => tfOf t = tf).length
  tf_trades : (score.tfScores.entries.map fun e => e.2.trades).sum = score.totalTrades
  tf_wins : (score.tfScores.entries.map fun e => e.2.wins).sum = score.wins
  tf_pnl : (score.tfScores.entries.map fun e => e.2.pnl).sum = (trades.map (·.pnl)).sum
  compositeScore : score.compositeScore = round1 (composite cfg sqrt trades signalCount)
  bounded : 0 ≤ score.compositeScore ∧ score.compositeScore ≤ 100
  tier : score.tier = cfg.assignTier (composite cfg sqrt trades signalCount)
  /-- The order of the trades changes nothing but the time; a table has no
  order of its own. -/
  order : ∀ trades', trades'.Perm trades → ∀ now',
    { scoreSymbol cfg sqrt trades' signalCount symbol now' with
      lastUpdated := now, tfScores := score.tfScores } = score ∧
    ∀ tf, (scoreSymbol cfg sqrt trades' signalCount symbol now').tfScores.lookup tf =
      score.tfScores.lookup tf

/-- **`score_symbol` is consistent** with the trades, whatever the trades,
the configuration and the square root. -/
theorem scoreSymbol_consistent (cfg : ScoringConfig) (sqrt : ℚ → ℚ) (trades : List TradeRecord)
    (signalCount : ℤ) (symbol now : String) :
    Consistent cfg sqrt trades signalCount symbol now
      (scoreSymbol cfg sqrt trades signalCount symbol now) where
  wins_losses := by
    have hsum := wins_add_losses trades
    show ((winsList trades).length : ℤ) + (lossesList trades).length = trades.length
    omega
  totalTrades := rfl
  expectancy := rfl
  expectancy_mean := by
    rw [expectancy_eq_avgPnl, avgPnl]
    split_ifs with hne
    · rfl
    · have hzero : trades.length = 0 := by omega
      rw [hzero, Nat.cast_zero, div_zero]
  tf_of := trades_tfScores trades
  tf_trades := sum_tfScores_trades trades
  tf_wins := sum_tfScores_wins trades
  tf_pnl := sum_tfScores_pnl trades
  compositeScore := rfl
  bounded := by
    have hmem : ((0 : ℤ) : ℚ) ≤ composite cfg sqrt trades signalCount ∧
        composite cfg sqrt trades signalCount ≤ (100 : ℤ) := by
      exact_mod_cast clamp_mem (by norm_num)
    exact_mod_cast round1_mem hmem
  tier := rfl
  order := by
    intro trades' hperm now'
    exact ⟨scoreSymbol_perm hperm symbol now now', lookup_tfScores_perm hperm⟩

/-! ## All symbols -/

theorem foldl_group (own group : List TradeRecord) :
    own.foldl (fun group t => group ++ [t]) group = group ++ own := by
  induction own generalizing group with
  | nil => exact (List.append_nil group).symm
  | cons t own ih => rw [List.foldl_cons, ih, List.append_assoc, List.singleton_append]

/-- **The trades of a symbol**; those without one are left out. -/
theorem lookup_bySymbol (trades : List TradeRecord) (symbol : String) :
    (bySymbol trades).lookup symbol =
      if symbol = "" ∨ trades.filter (fun t => t.symbol = symbol) = [] then none
      else some (trades.filter fun t => t.symbol = symbol) := by
  have hown : (trades.filter fun t => t.symbol ≠ "").filter (fun t => t.symbol = symbol) =
      if symbol = "" then [] else trades.filter fun t => t.symbol = symbol := by
    rw [List.filter_filter]
    split_ifs with hname
    · subst hname
      exact List.filter_eq_nil_iff.2 fun t _ => by simp
    · refine List.filter_congr fun t _ => ?_
      by_cases hsymbol : t.symbol = symbol
      · simp [hsymbol, hname]
      · simp [hsymbol]
  rw [bySymbol, Table.lookup_tally, hown, foldl_group, List.nil_append]
  by_cases hname : symbol = ""
  · simp only [hname, if_true, true_or]
  · simp only [hname, if_false, false_or]

/-- **What a rescoring keeps of a symbol**: the score of its trades. -/
theorem getScore_rescoreAll {s : Scorer} {now : String → String} {symbol : String}
    (henabled : cfg.enabled = true) :
    (rescoreAll cfg sqrt now trades s).getScore symbol =
      if symbol = "" ∨ trades.filter (fun t => t.symbol = symbol) = [] then none
      else some (scoreSymbol cfg sqrt (trades.filter fun t => t.symbol = symbol) 0 symbol
        (now symbol)) := by
  have hlookup : (rescoreAll cfg sqrt now trades s).getScore symbol =
      ((bySymbol trades).lookup symbol).map fun own =>
        scoreSymbol cfg sqrt own 0 symbol (now symbol) := by
    rw [rescoreAll, if_pos henabled]
    exact Table.lookup_foldl_insert_entries
      (fun name own => scoreSymbol cfg sqrt own 0 name (now name)) (bySymbol trades)
  rw [hlookup, lookup_bySymbol]
  split_ifs
  · rfl
  · rfl

end Scorer

end WebhookTrader
