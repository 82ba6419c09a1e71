import WebhookTrader.Shadow.Report

/-!
# The thresholds of readiness

The configuration names the trades and the grades that make a symbol ready
or proven. The evaluation asks for fifteen trades and for one of the two
numbers of trades, and for no grade that is configured; which entries it
promotes past a threshold is what this file settles.
-/

namespace WebhookTrader

namespace Readiness

variable {cfg : ReadinessThresholds} {e : ReportEntry}

/-! ## What the configuration asks for -/

/-- **The thresholds of a ready entry.** -/
structure ReadyHonoured (cfg : ReadinessThresholds) (e : ReportEntry) : Prop where
  trades : max 15 cfg.minTradesReady ≤ e.total
  sample : e.grade = "B" → 25 ≤ e.total
  profit : cfg.requirePositivePnl = true → 0 < e.totalPnl
  grade : gradeToRank cfg.minGradeReady ≤ gradeToRank e.grade

/-- **The thresholds of a proven entry**, beyond those of a ready one. -/
structure ProvenHonoured (cfg : ReadinessThresholds) (e : ReportEntry) : Prop where
  trades : cfg.minTradesProven ≤ e.total
  grade : gradeToRank cfg.minGradeProven ≤ gradeToRank e.grade

/-- The level of an entry is within its thresholds. -/
def Honoured (cfg : ReadinessThresholds) (e : ReportEntry) : Prop :=
  ((level cfg.toReadinessConfig e).1 = .ready ∨ (level cfg.toReadinessConfig e).1 = .proven →
    ReadyHonoured cfg e) ∧
  ((level cfg.toReadinessConfig e).1 = .proven → ProvenHonoured cfg e)

/-! ## What the evaluation asks for -/

/-- Fifteen trades, and a profit where one is required. -/
structure Sampled (cfg : ReadinessConfig) (e : ReportEntry) : Prop where
  trades : 15 ≤ e.total
  profit : 0 < e.totalPnl ∨ cfg.requirePositivePnl = false

/-- **The thresholds hold by themselves**: those the evaluation does not
look at are met by the entries that it promotes. -/
structure Guarded (cfg : ReadinessThresholds) (e : ReportEntry) : Prop where
  /-- A grade B entry with the trades has the larger sample too. -/
  gradeB : e.grade = "B" → cfg.minTradesReady ≤ e.total →
    25 ≤ e.total ∧ gradeToRank cfg.minGradeReady ≤ 5
  /-- A grade A entry with either number of trades has the smaller one. -/
  gradeA : e.grade = "A+" ∨ e.grade = "A" →
    cfg.minTradesReady ≤ e.total ∨ cfg.minTradesProven ≤ e.total →
    cfg.minTradesReady ≤ e.total ∧ gradeToRank cfg.minGradeReady ≤ gradeToRank e.grade
  proven : e.grade = "A+" ∨ e.grade = "A" → cfg.minTradesProven ≤ e.total →
    gradeToRank cfg.minGradeProven ≤ gradeToRank e.grade

theorem isLive_eq_true_iff {l : ReadinessLevel} : l.isLive = true ↔ l = .ready ∨ l = .proven := by
  simp only [ReadinessLevel.isLive, Bool.or_eq_true, decide_eq_true_eq]

/-- **What is proven**: a grade A entry with the larger number of trades. -/
theorem level_eq_proven_iff {cfg : ReadinessConfig} : (level cfg e).1 = .proven ↔
    Sampled cfg e ∧ (e.grade = "A+" ∨ e.grade = "A") ∧ cfg.minTradesProven ≤ e.total := by
  have hpnl : ((decide (0 < e.totalPnl) || !cfg.requirePositivePnl) = true) ↔
      (0 < e.totalPnl ∨ cfg.requirePositivePnl = false) := by simp
  have hsampled : Sampled cfg e ↔
      15 ≤ e.total ∧ (0 < e.totalPnl ∨ cfg.requirePositivePnl = false) :=
    ⟨fun h => ⟨h.trades, h.profit⟩, fun h => ⟨h.1, h.2⟩⟩
  rw [hsampled]
  by_cases hA : e.grade = "A+" ∨ e.grade = "A"
  · have h₁ : e.grade ≠ "?" := by rcases hA with h | h <;> rw [h] <;> decide
    have h₂ : ¬(e.grade = "F" ∨ e.grade = "D") := by rcases hA with h | h <;> rw [h] <;> decide
    have h₃ : e.grade ≠ "C" := by rcases hA with h | h <;> rw [h] <;> decide
    simp only [level, hA, h₁, h₂, h₃, hpnl, false_or, if_false, if_true, true_and,
      decide_eq_true_eq]
    split_ifs <;> simp <;> grind
  · -- no other grade is proven
    simp only [level, hA, false_and, and_false, iff_false, if_false]
    split_ifs <;> simp

/-- **What is ready or proven**: a sampled entry of grade A with either
number of trades, and one of grade B with the smaller one. -/
theorem level_live_iff {cfg : ReadinessConfig} :
    ((level cfg e).1 = .ready ∨ (level cfg e).1 = .proven) ↔ Sampled cfg e ∧
      ((e.grade = "A+" ∨ e.grade = "A") ∧
          (cfg.minTradesReady ≤ e.total ∨ cfg.minTradesProven ≤ e.total) ∨
        e.grade = "B" ∧ cfg.minTradesReady ≤ e.total) := by
  rw [← isLive_eq_true_iff, isLive_level_iff]
  constructor
  · rintro ⟨htrades, hprofit, ⟨hA, henough⟩ | hB⟩
    · exact ⟨⟨htrades, hprofit⟩, .inl ⟨hA, henough.symm⟩⟩
    · exact ⟨⟨htrades, hprofit⟩, .inr hB⟩
  · rintro ⟨hsampled, ⟨hA, henough⟩ | hB⟩
    · exact ⟨hsampled.trades, hsampled.profit, .inl ⟨hA, henough.symm⟩⟩
    · exact ⟨hsampled.trades, hsampled.profit, .inr hB⟩

theorem gradeToRank_B : gradeToRank "B" = 5 := by decide

/-- A sampled entry of a grade that is promoted. -/
theorem readyHonoured_of_sampled (hsampled : Sampled cfg.toReadinessConfig e)
    (htrades : cfg.minTradesReady ≤ e.total) (hsample : e.grade = "B" → 25 ≤ e.total)
    (hgrade : gradeToRank cfg.minGradeReady ≤ gradeToRank e.grade) : ReadyHonoured cfg e where
  trades := max_le hsampled.trades htrades
  sample := hsample
  profit := by
    intro hrequire
    rcases hsampled.profit with hprofit | hfree
    · exact hprofit
    · rw [hrequire] at hfree
      exact absurd hfree (by decide)
  grade := hgrade

/-- **The thresholds are honoured** by an entry that the evaluation does
not promote, and by one whose grade and trades meet them anyway. -/
theorem honoured_iff (cfg : ReadinessThresholds) (e : ReportEntry) :
    Honoured cfg e ↔ (Sampled cfg.toReadinessConfig e → Guarded cfg e) := by
  unfold Honoured
  rw [level_live_iff, level_eq_proven_iff]
  constructor
  · rintro ⟨hready, hproven⟩ hsampled
    refine ⟨?_, ?_, ?_⟩
    · intro hB htrades
      have hhonoured : ReadyHonoured cfg e := hready ⟨hsampled, .inr ⟨hB, htrades⟩⟩
      have hrank : gradeToRank cfg.minGradeReady ≤ gradeToRank "B" := hB ▸ hhonoured.grade
      exact ⟨hhonoured.sample hB, hrank.trans_eq gradeToRank_B⟩
    · intro hA henough
      have hhonoured : ReadyHonoured cfg e := hready ⟨hsampled, .inl ⟨hA, henough⟩⟩
      exact ⟨(le_max_right _ _).trans hhonoured.trades, hhonoured.grade⟩
    · intro hA htrades
      exact (hproven ⟨hsampled, hA, htrades⟩).grade
  · intro hguarded
    refine ⟨?_, ?_⟩
    · rintro ⟨hsampled, ⟨hA, henough⟩ | ⟨hB, htrades⟩⟩
      · obtain ⟨htrades, hgrade⟩ := (hguarded hsampled).gradeA hA henough
        refine readyHonoured_of_sampled hsampled htrades (fun hB => ?_) hgrade
        -- the grade is A
        rw [hB] at hA
        exact absurd hA (by decide)
      · obtain ⟨hsample, hrank⟩ := (hguarded hsampled).gradeB hB htrades
        refine readyHonoured_of_sampled hsampled htrades (fun _ => hsample) ?_
        rw [hB]
        exact hrank.trans_eq gradeToRank_B.symm
    · rintro ⟨hsampled, hA, htrades⟩
      exact ⟨htrades, (hguarded hsampled).proven hA htrades⟩

/-- **A threshold passed by**: eight wins in fifteen trades are a grade B
entry of the report, and ready. -/
theorem honoured_not_small_sample :
    ∃ t : ShadowTracker, ∃ row ∈ t.getSymbolReport, ¬Honoured {} row.read := by
  let win : TradeRecord := { TradeRecord.blank with symbol := "BTCUSDT", pnl := 2 }
  let loss : TradeRecord := { TradeRecord.blank with symbol := "BTCUSDT", pnl := -1 }
  let trades : List TradeRecord := List.replicate 8 win ++ List.replicate 7 loss
  have hrow : symbolRow "BTCUSDT" (.ofTrades (trades.filter fun t => t.symbol = "BTCUSDT")) ∈
      ShadowTracker.getSymbolReport { trades } :=
    mem_reportOf.2 ⟨"BTCUSDT", ⟨win, by decide +kernel, rfl⟩, rfl⟩
  have hready : (level {} (symbolRow "BTCUSDT"
      (.ofTrades (trades.filter fun t => t.symbol = "BTCUSDT"))).read).1 = .ready := by
    decide +kernel
  have hgrade : (symbolRow "BTCUSDT"
      (.ofTrades (trades.filter fun t => t.symbol = "BTCUSDT"))).read.grade = "B" := by
    decide +kernel
  refine ⟨{ trades }, _, hrow, fun hhonoured => ?_⟩
  have hsample : (25 : ℤ) ≤ (15 : ℤ) := (hhonoured.1 (.inl hready)).sample hgrade
  exact absurd hsample (by decide)

end Readiness

end WebhookTrader
