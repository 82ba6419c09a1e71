import WebhookTrader.Shadow.Model.Report

/-!
# What a report says

A row of a report has the number, the wins and the profit of the trades
counted under its key, and nothing else goes into its grade. A row that
is ready or proven has won half of its trades and made a profit, so its
figures never look like a bad stretch: as long as a report has no recent
figures, nothing in it is demoted.
-/

namespace WebhookTrader

/-! ## Figures -/

/-- The figures of some trades. -/
def SymStats.ofTrades (own : List TradeRecord) : SymStats where
  total := own.length
  wins := own.countP fun t => 0 < t.pnl
  totalPnl := (own.map (·.pnl)).sum

namespace SymStats

theorem foldl_count_aux (own : List TradeRecord) (s : SymStats) :
    own.foldl count s =
      ⟨s.total + own.length, s.wins + own.countP fun t => 0 < t.pnl,
        s.totalPnl + (own.map (·.pnl)).sum⟩ := by
  induction own generalizing s with
  | nil => simp
  | cons t own ih =>
      rw [List.foldl_cons, ih, count, List.length_cons, List.countP_cons, List.map_cons,
        List.sum_cons]
      by_cases hwin : 0 < t.pnl
      · simp only [hwin, if_true, decide_true, mk.injEq]
        refine ⟨by omega, by omega, by ring⟩
      · simp only [hwin, if_false, decide_false, mk.injEq]
        refine ⟨by omega, by simp, by ring⟩

/-- What a tally counts is what there is. -/
theorem foldl_count (own : List TradeRecord) : own.foldl count {} = ofTrades own := by
  rw [foldl_count_aux, ofTrades]
  simp

/-- The figures of one winning trade, a number of times. -/
theorem ofTrades_replicate {t : TradeRecord} (h : 0 < t.pnl) (n : ℕ) :
    ofTrades (List.replicate n t) = ⟨n, n, n * t.pnl⟩ := by
  simp [ofTrades, List.countP_replicate, h]

/-- One more trade that is no win. -/
theorem ofTrades_cons {t : TradeRecord} (h : ¬ 0 < t.pnl) (own : List TradeRecord) :
    ofTrades (t :: own) = ⟨(ofTrades own).total + 1, (ofTrades own).wins,
      t.pnl + (ofTrades own).totalPnl⟩ := by
  simp [ofTrades, h]

end SymStats

/-! ## Rows -/

section Rows

variable {key : TradeRecord → String} {row : String → SymStats → ReportRow}
  {trades : List TradeRecord} {r : ReportRow}

/-- **The rows of a report**: one for each key, with the figures of its
trades. -/
theorem mem_reportOf : r ∈ reportOf key row trades ↔
    ∃ k, (∃ t ∈ trades, key t = k) ∧
      r = row k (.ofTrades (trades.filter fun t => key t = k)) := by
  rw [reportOf, List.mem_mergeSort, List.mem_map]
  constructor
  · rintro ⟨e, he, rfl⟩
    obtain ⟨hsome, hstats⟩ := Table.mem_tally.1 he
    exact ⟨e.1, hsome, by rw [hstats, SymStats.foldl_count]⟩
  · rintro ⟨k, hsome, rfl⟩
    refine ⟨⟨k, (trades.filter fun t => key t = k).foldl SymStats.count {}⟩,
      Table.mem_tally.2 ⟨hsome, rfl⟩, ?_⟩
    dsimp only
    rw [SymStats.foldl_count]

/-- A report by symbol has one row under a name. -/
theorem mem_symbolReport_iff {symbol : String} :
    (r ∈ reportOf key symbolRow trades ∧ r.symbol = symbol) ↔
      (∃ t ∈ trades, key t = symbol) ∧
        r = symbolRow symbol (.ofTrades (trades.filter fun t => key t = symbol)) := by
  rw [mem_reportOf]
  constructor
  · rintro ⟨⟨k, hsome, rfl⟩, hsymbol⟩
    obtain rfl : k = symbol := hsymbol
    exact ⟨hsome, rfl⟩
  · rintro ⟨hsome, rfl⟩
    exact ⟨⟨symbol, hsome, rfl⟩, rfl⟩

end Rows

/-! ## What qualifies -/

/-- **The levels that may trade live.** -/
theorem Readiness.isLive_level_iff {cfg : ReadinessConfig} {e : ReportEntry} :
    (level cfg e).1.isLive = true ↔
      15 ≤ e.total ∧ (0 < e.totalPnl ∨ cfg.requirePositivePnl = false) ∧
        ((e.grade = "A+" ∨ e.grade = "A") ∧
            (cfg.minTradesProven ≤ e.total ∨ cfg.minTradesReady ≤ e.total) ∨
          e.grade = "B" ∧ cfg.minTradesReady ≤ e.total) := by
  have hpnl : ((decide (0 < e.totalPnl) || !cfg.requirePositivePnl) = true) ↔
      (0 < e.totalPnl ∨ cfg.requirePositivePnl = false) := by simp
  by_cases hlive : e.grade = "A+" ∨ e.grade = "A" ∨ e.grade = "B"
  · have h₁ : e.grade ≠ "?" := by rcases hlive with h | h | h <;> rw [h] <;> decide
    have h₂ : ¬ (e.grade = "F" ∨ e.grade = "D") := by
      rcases hlive with h | h | h <;> rw [h] <;> decide
    have h₃ : e.grade ≠ "C" := by rcases hlive with h | h | h <;> rw [h] <;> decide
    have hB : e.grade = "B" ↔ ¬ (e.grade = "A+" ∨ e.grade = "A") := by
      rcases hlive with h | h | h <;> rw [h] <;> decide
    simp only [level, hB, h₁, h₂, h₃, hpnl, false_or, if_false, decide_eq_true_eq]
    split_ifs <;> simp [ReadinessLevel.isLive] <;> grind
  · -- every other grade learns, is promising or blocked
    simp only [not_or] at hlive
    obtain ⟨hA, hA', hB⟩ := hlive
    simp only [level, hA, hA', hB, or_self, if_false, false_and, and_false, iff_false]
    split_ifs <;> simp [ReadinessLevel.isLive]
/-- **When an entry's rolling figures are bad**: a full window with a loss,
or with fewer than eight wins. -/
theorem Readiness.shouldDemote_iff {e : ReportEntry} : shouldDemote e = true ↔
    20 ≤ e.recentTrades.getD e.total ∧
      (e.recentPnl.getD e.totalPnl < 0 ∨ e.recentWins.getD e.wins < 8) := by
  unfold shouldDemote
  generalize e.recentTrades.getD e.total = n
  generalize e.recentWins.getD e.wins = wins
  have hwindow : rollingWindow = 20 := rfl
  simp only [Bool.and_eq_true, Bool.or_eq_true, decide_eq_true_eq]
  rw [hwindow]
  by_cases hfull : 20 ≤ n
  · have hcount : min n 20 = 20 := by omega
    rw [hcount, div_lt_div_iff₀ (by norm_num) (by norm_num)]
    have hwins : ((min wins 20 : ℤ) : ℚ) * 5 < 2 * ((20 : ℤ) : ℚ) ↔ wins < 8 := by
      have hcast : ((min wins 20 : ℤ) : ℚ) * 5 < 2 * ((20 : ℤ) : ℚ) ↔
          min wins 20 * 5 < 2 * (20 : ℤ) := by exact_mod_cast Iff.rfl
      rw [hcast]
      omega
    constructor
    · rintro ⟨-, hbad⟩
      exact ⟨hfull, hbad.imp_right fun h => hwins.1 h.2⟩
    · rintro ⟨-, hbad⟩
      exact ⟨le_rfl, hbad.imp_right fun h => ⟨by norm_num, hwins.2 h⟩⟩
  · have hcount : ¬ 20 ≤ min n 20 := by omega
    simp [hfull, hcount]

namespace SpotShadowTracker

variable {total : ℕ} {totalPnl wr : ℚ}

theorem computeGrade_eq_A_iff :
    (computeGrade total totalPnl wr = "A+" ∨ computeGrade total totalPnl wr = "A") ↔
      5 ≤ total ∧ 55 ≤ wr ∧ 0 < totalPnl := by
  unfold computeGrade
  split_ifs <;> simp <;> grind

theorem computeGrade_eq_B_iff :
    computeGrade total totalPnl wr = "B" ↔
      5 ≤ total ∧ 50 ≤ wr ∧ wr < 55 ∧ 0 < totalPnl := by
  unfold computeGrade
  split_ifs <;> simp <;> grind

end SpotShadowTracker

/-- **Figures that make a key ready or proven.** -/
structure SymStats.Qualifies (cfg : ReadinessConfig) (s : SymStats) : Prop where
  sample : 15 ≤ s.total
  profit : 0 < s.totalPnl
  positive : 0 < round4 s.totalPnl ∨ cfg.requirePositivePnl = false
  rate : 50 ≤ ReportRow.rate s ∧ cfg.minTradesReady ≤ s.total ∨
    55 ≤ ReportRow.rate s ∧ cfg.minTradesProven ≤ s.total

namespace ReportRow

variable {cfg : ReadinessConfig} {symbol timeframe key : String} {s : SymStats}

/-- **The level of a row**: live where its figures qualify. -/
theorem isLive_iff :
    (Readiness.level cfg (ofStats symbol timeframe key s).read).1.isLive = true ↔
      s.Qualifies cfg := by
  have htotal : (ofStats symbol timeframe key s).read.total = s.total := rfl
  have hpnl : (ofStats symbol timeframe key s).read.totalPnl = round4 s.totalPnl := rfl
  have hgrade : (ofStats symbol timeframe key s).read.grade =
      SpotShadowTracker.computeGrade s.total s.totalPnl (rate s) := rfl
  rw [Readiness.isLive_level_iff, htotal, hpnl, hgrade, SpotShadowTracker.computeGrade_eq_A_iff,
    SpotShadowTracker.computeGrade_eq_B_iff]
  constructor
  · rintro ⟨hsample, hpositive, hrate⟩
    refine ⟨by omega, ?_, hpositive, ?_⟩
    · grind
    · grind
  · rintro ⟨hsample, hprofit, hpositive, hrate⟩
    refine ⟨by omega, hpositive, ?_⟩
    have hfive : 5 ≤ s.total := by omega
    rcases le_or_gt 55 (rate s) with hhigh | hlow
    · refine .inl ⟨⟨hfive, hhigh, hprofit⟩, ?_⟩
      grind
    · refine .inr ⟨⟨hfive, ?_, hlow, hprofit⟩, ?_⟩
      · grind
      · grind

/-! ## Nothing that qualifies is demoted -/

theorem round4_nonneg {q : ℚ} (h : 0 ≤ q) : 0 ≤ round4 q := by
  have hfloor : (0 : ℤ) ≤ ⌊q * 10000 + 1 / 2⌋ := Int.floor_nonneg.2 (by positivity)
  have hround : (0 : ℤ) ≤ roundHalfAway (q * 10000) := by
    rw [roundHalfAway, if_pos (by positivity)]
    exact hfloor
  have hcast : (0 : ℚ) ≤ roundHalfAway (q * 10000) := by exact_mod_cast hround
  unfold round4
  positivity

/-- A rate of fifty percent is half of the trades, up to rounding. -/
theorem wins_of_rate (hrate : 50 ≤ rate s) : 4999 * s.total ≤ 10000 * s.wins := by
  unfold rate at hrate
  split_ifs at hrate with htotal
  · have htotal' : (0 : ℚ) < s.total := by exact_mod_cast htotal
    have hratio : (0 : ℚ) ≤ (s.wins : ℚ) / s.total * 10000 := by positivity
    have hround : (5000 : ℚ) ≤ roundHalfAway ((s.wins : ℚ) / s.total * 10000) := by linarith
    rw [roundHalfAway, if_pos hratio] at hround
    have hfloor := Int.floor_le ((s.wins : ℚ) / s.total * 10000 + 1 / 2)
    have hwins : (4999 : ℚ) ≤ (s.wins : ℚ) / s.total * 10000 := by linarith
    rw [div_mul_eq_mul_div, le_div_iff₀ htotal'] at hwins
    have hnat : (4999 : ℚ) * s.total ≤ 10000 * s.wins := by linarith
    exact_mod_cast hnat
  · norm_num at hrate

/-- **A row whose figures qualify is not demoted** by them. -/
theorem shouldDemote_of_qualifies (h : s.Qualifies cfg) :
    Readiness.shouldDemote (ofStats symbol timeframe key s).read = false := by
  have hrate : 50 ≤ rate s := by
    rcases h.rate with ⟨hrate, -⟩ | ⟨hrate, -⟩ <;> linarith
  have hwins := wins_of_rate hrate
  have hpnl := round4_nonneg h.profit.le
  rw [Bool.eq_false_iff, Ne, Readiness.shouldDemote_iff]
  rintro ⟨hfull, hloss | hfew⟩
  · exact absurd hloss (not_lt.2 hpnl)
  · have htotal : (20 : ℤ) ≤ s.total := hfull
    have hlost : (s.wins : ℤ) < 8 := hfew
    omega

end ReportRow

end WebhookTrader
