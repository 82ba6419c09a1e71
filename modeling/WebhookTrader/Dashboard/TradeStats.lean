import WebhookTrader.Dashboard.Model.TradeStats
import WebhookTrader.Dashboard.TfAnalytics

/-!
# Three reports of one list

The recorder counts its trades as a whole and by strategy, and the analysis
counts the same list as a whole and by timeframe. None of them loses a
trade. Only what a loss is they do not agree on: the recorder takes a trade
that breaks even for one, the analysis does not.
-/

namespace WebhookTrader

variable {trades : List TradeRecord} {tf : String}

/-- Ones for the elements that are counted. -/
theorem sum_map_ones {α : Type} (p : α → Bool) (xs : List α) :
    (xs.map fun x => if p x then 1 else 0).sum = xs.countP p := by
  induction xs with
  | nil => rfl
  | cons x xs ih => rw [List.map_cons, List.sum_cons, ih, List.countP_cons, add_comm]

/-- What rounding makes of a sum, and of its parts one by one. -/
theorem abs_round4_sub_le (q : ℚ) : |round4 q - q| ≤ 1 / 20000 := by
  have hhalf := abs_roundHalfAway_sub_le (q * 10000)
  have hscaled : round4 q - q = ((roundHalfAway (q * 10000) : ℚ) - q * 10000) / 10000 := by
    rw [round4]
    ring
  rw [hscaled, abs_div, abs_of_pos (by norm_num : (0 : ℚ) < 10000),
    div_le_iff₀ (by norm_num)]
  linarith

theorem abs_sub_le_of_rounded {a b c n : ℚ} (ha : |a - b| ≤ n / 20000) (hc : |c - b| ≤ 1 / 20000) :
    |a - c| ≤ (n + 1) / 20000 := by
  rw [abs_sub_comm] at hc
  rw [add_div]
  exact (abs_sub_le a b c).trans (add_le_add ha hc)

theorem abs_sum_round4_sub_le (qs : List ℚ) :
    |(qs.map round4).sum - qs.sum| ≤ qs.length / 20000 := by
  induction qs with
  | nil => simp
  | cons q qs ih =>
      have hsplit : ((q :: qs).map round4).sum - (q :: qs).sum =
          (round4 q - q) + ((qs.map round4).sum - qs.sum) := by
        rw [List.map_cons, List.sum_cons, List.sum_cons]
        ring
      have hone := abs_round4_sub_le q
      rw [hsplit, List.length_cons, Nat.cast_add, Nat.cast_one, add_div, add_comm (_ / _)]
      exact (abs_add_le _ _).trans (add_le_add hone ih)

/-! ## The analysis -/

namespace TfAnalytics

theorem countTrade_counts (l : Loop) (t : TradeRecord) :
    (countTrade l t).stats.totalTrades = l.stats.totalTrades ∧
      (countTrade l t).stats.wins = l.stats.wins + (if 0 < t.pnl then 1 else 0) ∧
      (countTrade l t).stats.losses = l.stats.losses + (if t.pnl < 0 then 1 else 0) := by
  unfold countTrade countOutcome
  dsimp only
  rcases lt_trichotomy t.pnl 0 with hneg | hzero | hpos
  · rw [if_neg (not_lt.2 hneg.le), if_pos hneg, if_neg (not_lt.2 hneg.le), if_pos hneg]
    exact ⟨rfl, rfl, rfl⟩
  · rw [if_neg hzero.not_gt, if_neg hzero.not_lt, if_neg hzero.not_gt, if_neg hzero.not_lt]
    exact ⟨rfl, rfl, rfl⟩
  · rw [if_pos hpos, if_pos hpos, if_neg (not_lt.2 hpos.le)]
    exact ⟨rfl, rfl, rfl⟩

theorem foldl_countTrade_counts (trades : List TradeRecord) (l : Loop) :
    (trades.foldl countTrade l).stats.totalTrades = l.stats.totalTrades ∧
      (trades.foldl countTrade l).stats.wins =
        l.stats.wins + trades.countP (fun t => 0 < t.pnl) ∧
      (trades.foldl countTrade l).stats.losses =
        l.stats.losses + trades.countP (fun t => t.pnl < 0) := by
  induction trades generalizing l with
  | nil => exact ⟨rfl, rfl, rfl⟩
  | cons t trades ih =>
      obtain ⟨htotal, hwins, hlosses⟩ := countTrade_counts l t
      obtain ⟨htotals, hwons, hlost⟩ := ih (countTrade l t)
      refine ⟨htotals.trans htotal, ?_, ?_⟩
      · rw [List.foldl_cons, hwons, hwins, List.countP_cons]
        simp only [decide_eq_true_eq]
        omega
      · rw [List.foldl_cons, hlost, hlosses, List.countP_cons]
        simp only [decide_eq_true_eq]
        omega

/-- **The counts of some trades.** -/
theorem calcStats_counts :
    (calcStats trades tf).totalTrades = trades.length ∧
      (calcStats trades tf).wins = trades.countP (fun t => 0 < t.pnl) ∧
      (calcStats trades tf).losses = trades.countP (fun t => t.pnl < 0) ∧
      (calcStats trades tf).totalPnl = (trades.map (·.pnl)).sum := by
  obtain ⟨htotal, hwins, hlosses⟩ := foldl_countTrade_counts trades
    { stats := { timeframe := tf, totalTrades := trades.length } }
  have hpnl := (foldl_countTrade_totals trades
    { stats := { timeframe := tf, totalTrades := trades.length } }).1
  rw [zero_add] at hwins hlosses hpnl
  unfold calcStats
  split_ifs with hnil
  · rw [List.isEmpty_iff.1 hnil]
    exact ⟨rfl, rfl, rfl, rfl⟩
  · exact ⟨htotal, hwins, hlosses, hpnl⟩

/-- A count over the rows by timeframe is the count over the trades. -/
theorem sum_byTimeframe {count : TfStats → ℕ} {p : TradeRecord → Bool}
    (hcount : ∀ own tf, count (calcStats own tf) = own.countP p) (trades : List TradeRecord) :
    ((report trades).byTimeframe.map count).sum = trades.countP p := by
  have hsum : ((byTf trades).entries.map fun e => e.2.countP p).sum =
      (trades.map fun t => if p t then 1 else 0).sum :=
    Table.sum_tally (f := fun own : List TradeRecord => own.countP p) rfl
      (fun own t => by rw [List.countP_append, List.countP_singleton]) trades
  have hrows : (report trades).byTimeframe.map count =
      (sorted trades).map fun e => e.2.countP p := by
    simp only [report, List.map_map, Function.comp_def, hcount]
  rw [hrows, sorted, ((List.mergeSort_perm _ _).map _).sum_eq, hsum, sum_map_ones]

end TfAnalytics

/-! ## The strategies -/

namespace TradeRecorder

variable {e : Sigma fun _ : String => StratStats}

theorem foldl_count (own : List TradeRecord) (s : StratStats) :
    (own.foldl StratStats.count s).total = s.total + own.length ∧
      (own.foldl StratStats.count s).wins = s.wins + own.countP fun t => 0 < t.pnl := by
  induction own generalizing s with
  | nil => exact ⟨rfl, rfl⟩
  | cons t own ih =>
      obtain ⟨htotal, hwins⟩ := ih (s.count t)
      rw [List.foldl_cons, htotal, hwins, List.length_cons, List.countP_cons]
      simp only [StratStats.count, decide_eq_true_eq]
      split_ifs <;> omega

/-- A strategy has won no more trades than it has. -/
theorem wins_le_total (h : e ∈ (byStrategy trades).entries) : e.2.wins ≤ e.2.total := by
  rw [(Table.mem_tally.1 h).2]
  obtain ⟨htotal, hwins⟩ := foldl_count (trades.filter fun t => t.strategy = e.1) {}
  rw [htotal, hwins]
  exact Nat.add_le_add_left List.countP_le_length 0

/-- A sum over the rows is one over the strategies. -/
theorem sum_getStrategyStats {M : Type} [AddCommMonoid M] (f : StrategyRow → M)
    (r : TradeRecorder) :
    (r.getStrategyStats.map f).sum =
      ((byStrategy r.trades).entries.map fun e => f (strategyRow e.1 e.2)).sum := by
  have hperm := (List.mergeSort_perm
    ((byStrategy r.trades).entries.map fun e => strategyRow e.1 e.2)
    fun a b => a.totalPnl ≤ b.totalPnl).map f
  rw [getStrategyStats, hperm.sum_eq, List.map_map]
  rfl

theorem sum_total (trades : List TradeRecord) :
    ((byStrategy trades).entries.map fun e => e.2.total).sum = trades.length := by
  have hsum : ((byStrategy trades).entries.map fun e => e.2.total).sum =
      (trades.map fun _ => 1).sum :=
    Table.sum_tally (f := fun s : StratStats => s.total) rfl (fun _ _ => rfl) trades
  rw [hsum]
  simp

theorem sum_wins (trades : List TradeRecord) :
    ((byStrategy trades).entries.map fun e => e.2.wins).sum =
      trades.countP fun t => 0 < t.pnl := by
  have hsum : ((byStrategy trades).entries.map fun e => e.2.wins).sum =
      (trades.map fun t => if decide (0 < t.pnl) then 1 else 0).sum :=
    Table.sum_tally (f := fun s : StratStats => s.wins) rfl (fun s t => by
      simp only [StratStats.count, decide_eq_true_eq]
      split_ifs <;> rfl) trades
  rw [hsum, sum_map_ones]

/-- What is not won is lost. -/
theorem sum_losses (trades : List TradeRecord) :
    ((byStrategy trades).entries.map fun e => e.2.total - e.2.wins).sum =
      trades.length - trades.countP fun t => 0 < t.pnl := by
  have hsum : ((byStrategy trades).entries.map fun e => e.2.total - e.2.wins).sum +
      ((byStrategy trades).entries.map fun e => e.2.wins).sum =
      ((byStrategy trades).entries.map fun e => e.2.total).sum := by
    rw [← List.sum_map_add]
    exact congrArg List.sum (List.map_congr_left fun e he =>
      Nat.sub_add_cancel (wins_le_total he))
  rw [sum_wins, sum_total] at hsum
  omega

/-- **The profits of the strategies**, each rounded, are what all of them
make, up to the rounding. -/
theorem abs_sum_totalPnl_sub_le (r : TradeRecorder) :
    |(r.getStrategyStats.map StrategyRow.totalPnl).sum - (r.trades.map (·.pnl)).sum| ≤
      r.getStrategyStats.length / 20000 := by
  have hsum : ((byStrategy r.trades).entries.map fun e => e.2.totalPnl).sum =
      (r.trades.map (·.pnl)).sum :=
    Table.sum_tally (f := fun s : StratStats => s.totalPnl) rfl (fun _ _ => rfl) r.trades
  have hlength : r.getStrategyStats.length =
      ((byStrategy r.trades).entries.map fun e => e.2.totalPnl).length := by
    rw [getStrategyStats, List.length_mergeSort, List.length_map, List.length_map]
  have hround := abs_sum_round4_sub_le ((byStrategy r.trades).entries.map fun e => e.2.totalPnl)
  rw [List.map_map, hsum, ← hlength] at hround
  rw [sum_getStrategyStats]
  exact hround

/-- The trades that neither won nor lost. -/
def breakEvens (r : TradeRecorder) : ℕ := r.trades.countP fun t => t.pnl = 0

theorem losses_add_breakEvens (trades : List TradeRecord) :
    trades.length - trades.countP (fun t => 0 < t.pnl) =
      trades.countP (fun t => t.pnl < 0) + trades.countP fun t => t.pnl = 0 := by
  induction trades with
  | nil => rfl
  | cons t trades ih =>
      have hle : trades.countP (fun t => 0 < t.pnl) ≤ trades.length := List.countP_le_length
      simp only [List.countP_cons, List.length_cons, decide_eq_true_eq]
      rcases lt_trichotomy t.pnl 0 with hneg | hzero | hpos
      · simp only [hneg, hneg.ne, not_lt.2 hneg.le, if_true, if_false]
        omega
      · simp only [hzero, lt_irrefl, if_true, if_false]
        omega
      · simp only [hpos, hpos.ne', not_lt.2 hpos.le, if_true, if_false]
        omega

/-- **The reports agree.** For every list of trades the answer of `get_stats`,
the rows by strategy, the analysis of all trades and its rows by timeframe
count the same trades and the same wins; the recorder's losses are the
analysis' and the trades that break even; the profit is the same number, and
that of the strategies together up to the rounding of each. -/
theorem reports_agree (r : TradeRecorder) (openPositions ordersExecuted riskSkips : ℕ)
    (shadowMode : Bool) :
    let stats := r.getStats openPositions ordersExecuted riskSkips shadowMode
    let rows := r.getStrategyStats
    let tfs := TfAnalytics.report r.trades
    ((rows.map StrategyRow.totalTrades).sum = stats.totalTrades ∧
      tfs.overall.totalTrades = stats.totalTrades ∧
      (tfs.byTimeframe.map TfStats.totalTrades).sum = stats.totalTrades) ∧
    ((rows.map StrategyRow.wins).sum = stats.wins ∧ tfs.overall.wins = stats.wins ∧
      (tfs.byTimeframe.map TfStats.wins).sum = stats.wins) ∧
    ((rows.map StrategyRow.losses).sum = stats.losses ∧
      tfs.overall.losses + r.breakEvens = stats.losses ∧
      (tfs.byTimeframe.map TfStats.losses).sum + r.breakEvens = stats.losses) ∧
    round4 tfs.overall.totalPnl = stats.totalPnl ∧
    |(rows.map StrategyRow.totalPnl).sum - stats.totalPnl| ≤ (rows.length + 1) / 20000 := by
  have hall : (TfAnalytics.report r.trades).overall = TfAnalytics.calcStats r.trades "all" := rfl
  obtain ⟨htotal, hwins, hlosses, hpnl⟩ := @TfAnalytics.calcStats_counts r.trades "all"
  rw [← hall] at htotal hwins hlosses hpnl
  have htotals : ((TfAnalytics.report r.trades).byTimeframe.map TfStats.totalTrades).sum =
      r.trades.countP fun _ => true :=
    TfAnalytics.sum_byTimeframe (fun own tf => by
      rw [TfAnalytics.calcStats_counts.1, List.countP_true]) r.trades
  have hwons : ((TfAnalytics.report r.trades).byTimeframe.map TfStats.wins).sum =
      r.trades.countP fun t => 0 < t.pnl :=
    TfAnalytics.sum_byTimeframe (fun own tf => TfAnalytics.calcStats_counts.2.1) r.trades
  have hlosts : ((TfAnalytics.report r.trades).byTimeframe.map TfStats.losses).sum =
      r.trades.countP fun t => t.pnl < 0 :=
    TfAnalytics.sum_byTimeframe (fun own tf => TfAnalytics.calcStats_counts.2.2.1) r.trades
  have hlost := losses_add_breakEvens r.trades
  refine ⟨⟨?_, htotal, ?_⟩, ⟨?_, hwins, hwons⟩, ⟨?_, ?_, ?_⟩, congrArg round4 hpnl, ?_⟩
  · exact (sum_getStrategyStats _ r).trans (sum_total r.trades)
  · rw [htotals, List.countP_true]
    rfl
  · exact (sum_getStrategyStats _ r).trans (sum_wins r.trades)
  · exact (sum_getStrategyStats _ r).trans (sum_losses r.trades)
  · rw [hlosses]
    exact hlost.symm
  · rw [hlosts]
    exact hlost.symm
  · have hone := abs_round4_sub_le (r.trades.map (·.pnl)).sum
    have hrows := abs_sum_totalPnl_sub_le r
    have hstats : (r.getStats openPositions ordersExecuted riskSkips shadowMode).totalPnl =
        round4 (r.trades.map (·.pnl)).sum := rfl
    rw [hstats]
    exact abs_sub_le_of_rounded hrows hone

end TradeRecorder

end WebhookTrader
