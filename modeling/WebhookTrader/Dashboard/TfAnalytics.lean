import Mathlib.Algebra.Order.BigOperators.Group.List
import Mathlib.Tactic.Linarith
import Mathlib.Tactic.Positivity
import WebhookTrader.Dashboard.Model.TfAnalytics
import WebhookTrader.Engine.Import

/-!
# Net profit

A close is recorded with the profit its prices make less the fee, and the
fee beside it. The analysis takes the fee off the recorded profit once
more, so that what it reports as net is short of the net profit by the
fees of the trades it is about.
-/

namespace WebhookTrader

namespace TfAnalytics

variable {trades : List TradeRecord} {tf : String} {s : TfStats}

/-! ## The figures -/

theorem countTrade_totals (l : Loop) (t : TradeRecord) :
    (countTrade l t).stats.totalPnl = l.stats.totalPnl + t.pnl ∧
      (countTrade l t).stats.totalFee = l.stats.totalFee + t.fee ∧
      (countTrade l t).stats.timeframe = l.stats.timeframe := by
  unfold countTrade countOutcome
  dsimp only
  split_ifs <;> exact ⟨rfl, rfl, rfl⟩

theorem foldl_countTrade_totals (trades : List TradeRecord) (l : Loop) :
    (trades.foldl countTrade l).stats.totalPnl = l.stats.totalPnl + (trades.map (·.pnl)).sum ∧
      (trades.foldl countTrade l).stats.totalFee = l.stats.totalFee + (trades.map (·.fee)).sum ∧
      (trades.foldl countTrade l).stats.timeframe = l.stats.timeframe := by
  induction trades generalizing l with
  | nil => simp
  | cons t trades ih =>
      obtain ⟨hpnl, hfee, hname⟩ := countTrade_totals l t
      obtain ⟨hpnls, hfees, hnames⟩ := ih (countTrade l t)
      refine ⟨?_, ?_, hnames.trans hname⟩
      · rw [List.foldl_cons, hpnls, hpnl, List.map_cons, List.sum_cons, add_assoc]
      · rw [List.foldl_cons, hfees, hfee, List.map_cons, List.sum_cons, add_assoc]

theorem timeframe_calcStats : (calcStats trades tf).timeframe = tf := by
  unfold calcStats
  split_ifs
  · rfl
  · exact (foldl_countTrade_totals trades _).2.2

/-- **What is reported as net** of some trades: their profits less their
fees. -/
theorem netPnl_calcStats :
    (calcStats trades tf).netPnl = (trades.map (·.pnl)).sum - (trades.map (·.fee)).sum := by
  obtain ⟨hpnl, hfee, -⟩ := foldl_countTrade_totals trades
    { stats := { timeframe := tf, totalTrades := trades.length } }
  rw [zero_add] at hpnl hfee
  unfold calcStats
  split_ifs with hnil
  · rw [List.isEmpty_iff.1 hnil]
    rfl
  · exact congrArg₂ (· - ·) hpnl hfee

/-! ## The rows -/

/-- **The rows by timeframe**: one for each, with the figures of its trades. -/
theorem mem_byTimeframe : s ∈ (report trades).byTimeframe ↔
    ∃ name, (∃ t ∈ trades, PortfolioRisk.tfName t.timeframe = name) ∧
      s = calcStats (trades.filter fun t => PortfolioRisk.tfName t.timeframe = name) name := by
  have happend : ∀ own : List TradeRecord, own.foldl (fun ts t => ts ++ [t]) [] = own := by
    intro own
    rw [List.foldl_append_eq_append, List.nil_append, ← List.flatMap_def, List.flatMap_singleton']
  simp only [report, sorted, byTf, List.mem_map, List.mem_mergeSort]
  constructor
  · rintro ⟨e, he, rfl⟩
    obtain ⟨hsome, htrades⟩ := Table.mem_tally.1 he
    exact ⟨e.1, hsome, by rw [htrades, happend]⟩
  · rintro ⟨name, hsome, rfl⟩
    refine ⟨⟨name, trades.filter fun t => PortfolioRisk.tfName t.timeframe = name⟩,
      Table.mem_tally.2 ⟨hsome, ?_⟩, rfl⟩
    exact (happend _).symm

/-- The ranking has rows of the timeframes. -/
theorem mem_byTimeframe_of_ranking (h : s ∈ (report trades).ranking) :
    s ∈ (report trades).byTimeframe := by
  simp only [report, List.mem_mergeSort, List.mem_map, List.mem_filter] at h ⊢
  obtain ⟨e, ⟨he, -⟩, rfl⟩ := h
  exact ⟨e, he, rfl⟩

end TfAnalytics

/-! ## Recorded closes -/

namespace TradeRecorder

variable {cfg : LearnerConfig} {closes : List (ℕ × Close)}

/-- The closes whose trades are still in the list. -/
def lastCloses (closes : List (ℕ × Close)) : List Close :=
  (closes.drop (closes.length - 2000)).map fun e => e.2

/-- **The list after some closes** has the trades of the last ones. -/
theorem trades_recordCloses (cfg : LearnerConfig) (closes : List (ℕ × Close)) :
    (recordCloses cfg closes {}).trades = (lastCloses closes).map Close.trade := by
  have hall : recordCloses cfg closes {} =
      recordAll cfg (closes.map fun e => (e.1, e.2.trade)) {} := by
    rw [recordAll, List.foldl_map]
    rfl
  rw [hall, trades_recordAll]
  split_ifs with hnil
  · rw [List.map_eq_nil_iff.1 hnil]
    rfl
  · rw [Shared.capTrades_eq, ShadowTracker.capTrades, lastCloses, List.nil_append, List.map_map,
      List.length_map, List.map_map, ← List.map_drop]
    rfl

/-- **A report has the net profit of some closes once**: over all of them, and
over every timeframe, in the rows by timeframe as in the ranking. -/
structure NetOnce (own : List Close) (r : TfAnalytics.Report) : Prop where
  overall : r.overall.netPnl = (own.map fun c => c.gross - c.fee).sum
  reported : ∀ c ∈ own, ∃ s ∈ r.byTimeframe, s.timeframe = PortfolioRisk.tfName c.pos.timeframe
  timeframes : ∀ s, s ∈ r.byTimeframe ∨ s ∈ r.ranking →
    s.netPnl = ((own.filter fun c =>
      PortfolioRisk.tfName c.pos.timeframe = s.timeframe).map fun c => c.gross - c.fee).sum

section Own

variable {own : List Close} {tf : String} {s : TfStats}

/-- Of any closes, what is reported is net once just where the fees come to
nothing. -/
theorem netPnl_eq_iff : (TfAnalytics.calcStats (own.map Close.trade) tf).netPnl =
    (own.map fun c => c.gross - c.fee).sum ↔ (own.map Close.fee).sum = 0 := by
  have hpnl : (own.map Close.trade).map (·.pnl) = own.map fun c => c.gross - c.fee := by
    rw [List.map_map]
    rfl
  have hfee : (own.map Close.trade).map (·.fee) = own.map Close.fee := by
    rw [List.map_map]
    rfl
  rw [TfAnalytics.netPnl_calcStats, hpnl, hfee, sub_eq_self]

/-- The rows by timeframe, of the trades of some closes. -/
theorem mem_byTimeframe_trades : s ∈ (TfAnalytics.report (own.map Close.trade)).byTimeframe ↔
    ∃ name, (∃ c ∈ own, PortfolioRisk.tfName c.pos.timeframe = name) ∧
      s = TfAnalytics.calcStats ((own.filter fun c =>
        PortfolioRisk.tfName c.pos.timeframe = name).map Close.trade) name := by
  rw [TfAnalytics.mem_byTimeframe]
  refine exists_congr fun name => ?_
  have hown : (own.map Close.trade).filter (fun t => PortfolioRisk.tfName t.timeframe = name) =
      (own.filter fun c => PortfolioRisk.tfName c.pos.timeframe = name).map Close.trade :=
    List.filter_map ..
  rw [hown]
  refine and_congr_left fun _ => ?_
  constructor
  · rintro ⟨t, ht, hname⟩
    obtain ⟨c, hc, rfl⟩ := List.mem_map.1 ht
    exact ⟨c, hc, hname⟩
  · rintro ⟨c, hc, hname⟩
    exact ⟨c.trade, List.mem_map_of_mem hc, hname⟩

theorem netOnce_trades_iff : NetOnce own (TfAnalytics.report (own.map Close.trade)) ↔
    ∀ name, ((own.filter fun c =>
      PortfolioRisk.tfName c.pos.timeframe = name).map Close.fee).sum = 0 := by
  constructor
  · intro honce name
    by_cases hsome : ∃ c ∈ own, PortfolioRisk.tfName c.pos.timeframe = name
    · have hnet := honce.timeframes _ (.inl (mem_byTimeframe_trades.2 ⟨name, hsome, rfl⟩))
      rw [TfAnalytics.timeframe_calcStats] at hnet
      exact netPnl_eq_iff.1 hnet
    · -- no row has this name, and no close a fee under it
      have hnil : own.filter (fun c => PortfolioRisk.tfName c.pos.timeframe = name) = [] := by
        simpa [List.filter_eq_nil_iff] using hsome
      rw [hnil]
      rfl
  · intro hfees
    refine ⟨?_, fun c hc => ?_, fun s hs => ?_⟩
    · -- the whole list is its timeframes together
      exact netPnl_eq_iff.2 (Table.sum_eq_zero_of_groups _ hfees)
    · exact ⟨_, mem_byTimeframe_trades.2 ⟨_, ⟨c, hc, rfl⟩, rfl⟩, TfAnalytics.timeframe_calcStats⟩
    · have hmem := hs.elim id TfAnalytics.mem_byTimeframe_of_ranking
      obtain ⟨name, -, rfl⟩ := mem_byTimeframe_trades.1 hmem
      rw [TfAnalytics.timeframe_calcStats]
      exact netPnl_eq_iff.2 (hfees name)

end Own

/-- **When net is net once**: just where, in every timeframe, the fees of the
trades in the list come to nothing. -/
theorem net_once_iff (cfg : LearnerConfig) (closes : List (ℕ × Close)) :
    NetOnce (lastCloses closes) (TfAnalytics.report (recordCloses cfg closes {}).trades) ↔
      ∀ name, (((lastCloses closes).filter fun c =>
        PortfolioRisk.tfName c.pos.timeframe = name).map Close.fee).sum = 0 := by
  rw [trades_recordCloses]
  exact netOnce_trades_iff

/-- **At positive prices and quantities** it never is: every trade adds its
fee. -/
theorem net_once_iff_nil (h : ∀ e ∈ closes, 0 < e.2.exitPrice ∧ 0 < e.2.qty) :
    NetOnce (lastCloses closes) (TfAnalytics.report (recordCloses cfg closes {}).trades) ↔
      closes = [] := by
  rw [trades_recordCloses, netOnce_trades_iff]
  constructor
  · intro hfees
    have hlast : lastCloses closes = [] := by
      by_contra hsome
      obtain ⟨c, rest, hlast⟩ := List.exists_cons_of_ne_nil hsome
      have hpos : ∀ c ∈ lastCloses closes, 0 < c.fee := by
        intro c hc
        obtain ⟨e, he, rfl⟩ := List.mem_map.1 hc
        obtain ⟨hprice, hqty⟩ := h e (List.mem_of_mem_drop he)
        unfold Close.fee Book.calcFee
        positivity
      have htotal := Table.sum_eq_zero_of_groups _ hfees
      rw [hlast] at hpos htotal
      have hrest : 0 ≤ (rest.map Close.fee).sum := List.sum_nonneg fun q hq => by
        obtain ⟨c', hc', rfl⟩ := List.mem_map.1 hq
        exact (hpos c' (List.mem_cons_of_mem _ hc')).le
      rw [List.map_cons, List.sum_cons] at htotal
      linarith [hpos c List.mem_cons_self]
    have hlength := congrArg List.length hlast
    rw [lastCloses, List.length_map, List.length_drop, List.length_nil] at hlength
    exact List.length_eq_zero_iff.1 (by omega)
  · rintro rfl name
    rfl

/-! ## At work -/

/-- One unit, from a hundred to a hundred and ten. -/
def wonClose : Close where
  pos :=
    { symbol := "BTCUSDT"
      timeframe := "1h"
      side := "long"
      entryPrice := 100
      quantity := 1 }
  exitPrice := 110
  exitReason := "TP3"

/-- **A fee of 0.132 is taken twice**: the prices make a profit of ten. -/
theorem fee_taken_twice :
    wonClose.gross - wonClose.fee = 10 - 132 / 1000 ∧
      (TfAnalytics.report (recordCloses {} [(0, wonClose)] {}).trades).overall.netPnl =
        10 - 264 / 1000 ∧
      (TfAnalytics.report (recordCloses {} [(0, wonClose)] {}).trades).byTimeframe.map
        (fun s => (s.timeframe, s.netPnl)) = [("1h", 10 - 264 / 1000)] := by
  rw [trades_recordCloses]
  decide +kernel

end TradeRecorder

end WebhookTrader
