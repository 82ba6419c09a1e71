import Mathlib.Algebra.BigOperators.Fin
import WebhookTrader.Common.Since
import WebhookTrader.Common.Streak
import WebhookTrader.Risk.Model.Evaluate

/-!
# The record of a key

What the learner keeps of a key, against the trades it has been told of
under the key: the counts and histograms, the streaks, the ring of the
last profits, the ranges of what is derived of them, and the blacklist.
Each is kept by a trade more.
-/

namespace WebhookTrader

namespace SymbolLearnData

variable {cfg : LearnerConfig} {past : TimedTrades} {d : SymbolLearnData} {now : ℕ}
  {t : TradeRecord} {pnl : ℚ}

def won (e : ℕ × TradeRecord) : Bool := 0 < e.2.pnl

def lost (e : ℕ × TradeRecord) : Bool := !won e

/-! ## What the sections of `record_trade` leave alone -/

/-- The fields that count. -/
def counts (d : SymbolLearnData) : ℤ × ℤ × ℤ × ℤ × ℤ :=
  (d.totalTrades, d.wins, d.losses, d.consecutiveLosses, d.maxConsecutiveLosses)

/-- The histograms and the ring. -/
def histories (d : SymbolLearnData) :
    (Fin 24 → ℤ × ℤ) × (Fin 4 → ℤ × ℤ) × (Fin 10 → ℚ) × ℤ × ℤ :=
  (d.hourStats, d.sessionStats, d.recentPnls, d.recentIdx, d.recentCount)

/-- A section that leaves the counts, the histories and the blacklist alone. -/
def Leaves (d d' : SymbolLearnData) : Prop :=
  d'.counts = d.counts ∧ d'.histories = d.histories ∧ d'.blacklisted = d.blacklisted

theorem Leaves.trans {d' d'' : SymbolLearnData} (h : Leaves d d') (h' : Leaves d' d'') :
    Leaves d d'' :=
  ⟨h'.1.trans h.1, h'.2.1.trans h.2.1, h'.2.2.trans h.2.2⟩

theorem leaves_recordEma : Leaves d (d.recordEma cfg pnl) := ⟨rfl, rfl, rfl⟩

theorem leaves_recalcOptimalTpsl : Leaves d (d.recalcOptimalTpsl cfg) := by
  rw [recalcOptimalTpsl]
  split_ifs <;> exact ⟨rfl, rfl, rfl⟩

theorem leaves_recordMove : Leaves d (d.recordMove cfg t) := by
  rw [recordMove]
  split_ifs
  · exact Leaves.trans ⟨rfl, rfl, rfl⟩ leaves_recalcOptimalTpsl
  · exact Leaves.trans ⟨rfl, rfl, rfl⟩ leaves_recalcOptimalTpsl
  · exact ⟨rfl, rfl, rfl⟩

theorem leaves_recalcKelly : Leaves d (d.recalcKelly cfg) := ⟨rfl, rfl, rfl⟩

theorem leaves_updateCooldown : Leaves d (d.updateCooldown cfg now) := by
  rw [updateCooldown]
  split <;> exact ⟨rfl, rfl, rfl⟩

/-- The histories are written to without a look at the other fields. -/
theorem histories_record {d' : SymbolLearnData} (h : d'.histories = d.histories) :
    ((d'.recordHour now pnl).recordRecent pnl).histories =
      ((d.recordHour now pnl).recordRecent pnl).histories := by
  simp only [histories, Prod.mk.injEq] at h
  obtain ⟨hhour, hsession, hslots, hidx, hcount⟩ := h
  unfold histories recordRecent recordHour
  dsimp only
  rw [hhour, hsession, hslots, hidx, hcount]

/-- The blacklist after a trade, of the counts after it. -/
def blacklistAfter (cfg : LearnerConfig) (total wins : ℤ) (blacklisted : Bool) : Bool :=
  if cfg.blacklistMin ≤ total then
    if winRate (wins, total) < cfg.blacklistWr then true
    else if blacklisted ∧ cfg.blacklistWr + 5 / 100 ≤ winRate (wins, total) then false
    else blacklisted
  else blacklisted

theorem updateBlacklist_eq : d.updateBlacklist cfg =
    { d with blacklisted := blacklistAfter cfg d.totalTrades d.wins d.blacklisted } := by
  unfold updateBlacklist blacklistAfter winRate
  dsimp only
  split_ifs <;> rfl

/-- **A recorded trade**: the counts, the hour and the ring are written, and
the blacklist is decided on the counts after them. -/
theorem recordTrade_eq (cfg : LearnerConfig) (now : ℕ) (t : TradeRecord) (d : SymbolLearnData) :
    (d.recordTrade cfg now t).counts = (d.recordBasics t.pnl).counts ∧
      (d.recordTrade cfg now t).histories =
        ((d.recordHour now t.pnl).recordRecent t.pnl).histories ∧
      (d.recordTrade cfg now t).blacklisted =
        blacklistAfter cfg (d.recordBasics t.pnl).totalTrades (d.recordBasics t.pnl).wins
          d.blacklisted := by
  let d₁ := recordMove cfg t (recordEma cfg t.pnl (recordBasics t.pnl d))
  let d₂ := recordRecent t.pnl (recordHour now t.pnl d₁)
  let d₃ := updateCooldown cfg now (recalcKelly cfg d₂)
  -- what is written between the counts and the histories leaves both alone
  have hfirst : Leaves (recordBasics t.pnl d) d₁ := leaves_recordEma.trans leaves_recordMove
  have hlast : Leaves d₂ d₃ := leaves_recalcKelly.trans leaves_updateCooldown
  have heq : d.recordTrade cfg now t =
      { d₃ with blacklisted := blacklistAfter cfg d₃.totalTrades d₃.wins d₃.blacklisted } :=
    updateBlacklist_eq
  have hbasics : (recordBasics t.pnl d).histories = d.histories ∧
      (recordBasics t.pnl d).blacklisted = d.blacklisted := by
    unfold recordBasics
    dsimp only
    split_ifs <;> exact ⟨rfl, rfl⟩
  have hcounts : d₃.counts = (d.recordBasics t.pnl).counts := hlast.1.trans hfirst.1
  have hhistories : d₁.histories = d.histories := hfirst.2.1.trans hbasics.1
  have hring : d₂.histories = ((d.recordHour now t.pnl).recordRecent t.pnl).histories :=
    histories_record hhistories
  have hflag : d₃.blacklisted = d.blacklisted := by
    rw [hlast.2.2]
    exact hfirst.2.2.trans hbasics.2
  have htotal : d₃.totalTrades = (d.recordBasics t.pnl).totalTrades := congrArg (·.1) hcounts
  have hwins : d₃.wins = (d.recordBasics t.pnl).wins := congrArg (·.2.1) hcounts
  have hkept : d₃.histories = ((d.recordHour now t.pnl).recordRecent t.pnl).histories :=
    hlast.2.1.trans hring
  rw [heq, ← hcounts, ← hkept, ← htotal, ← hwins, ← hflag]
  exact ⟨rfl, rfl, rfl⟩

/-! ## What a trade adds -/

theorem bump_snd (stats : ℤ × ℤ) : (bump pnl stats).2 = stats.2 + 1 := rfl

/-- **A trade is one more in one place** of a histogram. -/
theorem sum_bump {n : ℕ} (k : Fin n) (stats : Fin n → ℤ × ℤ) :
    ∑ i, (if i = k then bump pnl (stats i) else stats i).2 = (∑ i, (stats i).2) + 1 := by
  have hplace : ∀ i, (if i = k then bump pnl (stats i) else stats i).2 =
      (stats i).2 + if i = k then 1 else 0 := by
    intro i
    split_ifs
    · exact bump_snd _
    · exact (add_zero _).symm
  simp only [hplace, Finset.sum_add_distrib, Finset.sum_ite_eq', Finset.mem_univ, if_true]

theorem bump_nonneg {n : ℕ} {k : Fin n} {stats : Fin n → ℤ × ℤ} (h : ∀ i, 0 ≤ (stats i).2)
    (i : Fin n) : 0 ≤ (if i = k then bump pnl (stats i) else stats i).2 := by
  have hi := h i
  split_ifs
  · rw [bump_snd]
    omega
  · exact hi

/-- The hour of a time, as a place in the histogram. -/
def hourPlace (now : ℕ) : Fin 24 := ⟨hourOf now, Nat.mod_lt _ (by decide)⟩

theorem hourStats_recordHour (now : ℕ) (pnl : ℚ) (d : SymbolLearnData) :
    (d.recordHour now pnl).hourStats = fun i =>
      if i = hourPlace now then bump pnl (d.hourStats i) else d.hourStats i := by
  funext i
  have hiff : i.val = hourOf now ↔ i = hourPlace now := by
    rw [Fin.ext_iff]
    rfl
  show (if i.val = hourOf now then _ else _) = _
  simp only [hiff]

/-- The counts of a key, which every trade moves. -/
structure BasicCounts (past : TimedTrades) (d : SymbolLearnData) : Prop where
  total : d.totalTrades = past.length
  wins : d.wins = past.countP won
  losses : d.losses = past.countP lost
  streak_eq : d.consecutiveLosses = streak lost past
  longest : ∃ n : ℕ, d.maxConsecutiveLosses = n ∧ IsGreatest (runLengths lost past) n

/-- **What the record of a key has in it**, trade by trade. -/
structure Tracked (past : TimedTrades) (d : SymbolLearnData) : Prop extends BasicCounts past d where
  hours_nonneg : ∀ i, 0 ≤ (d.hourStats i).2
  hours : ∑ i, (d.hourStats i).2 = past.length
  sessions_nonneg : ∀ i, 0 ≤ (d.sessionStats i).2
  sessions : ∑ i, (d.sessionStats i).2 = past.length
  idx : d.recentIdx = (past.length % 10 : ℕ)
  count : d.recentCount = (min past.length 10 : ℕ)
  ring : Ring.Holds (past.map fun e => e.2.pnl) d.recentPnls

theorem tracked_new : Tracked [] {} where
  total := rfl
  wins := rfl
  losses := rfl
  streak_eq := rfl
  longest := ⟨0, rfl, isGreatest_runLengths_nil⟩
  hours_nonneg _ := le_rfl
  hours := by decide
  sessions_nonneg _ := le_rfl
  sessions := by decide
  idx := rfl
  count := rfl
  ring := Ring.holds_nil

/-- A won trade ends the run of losses. -/
theorem BasicCounts.win (h : BasicCounts past d) (now : ℕ) {t : TradeRecord} (hwin : 0 < t.pnl) :
    BasicCounts (past ++ [(now, t)]) (d.recordBasics t.pnl) := by
  have hlost : lost (now, t) = false := by simp [lost, won, hwin]
  have hwon : won (now, t) = true := by simp [won, hwin]
  have hstreak : streak lost (past ++ [(now, t)]) = 0 := by
    rw [streak_concat, hlost]
    rfl
  have hlength : (past ++ [(now, t)]).length = past.length + 1 := by simp
  have heq : d.recordBasics t.pnl = { d with
      totalTrades := d.totalTrades + 1
      totalPnl := d.totalPnl + t.pnl
      wins := d.wins + 1
      consecutiveLosses := 0 } := if_pos hwin
  obtain ⟨n, hn, hlongest⟩ := h.longest
  have hlonger := isGreatest_runLengths_concat (y := (now, t)) hlongest
  rw [hstreak, Nat.max_zero] at hlonger
  rw [heq]
  constructor
  case total =>
    rw [hlength, h.total]
    rfl
  case wins =>
    rw [List.countP_append, List.countP_singleton, hwon, h.wins]
    rfl
  case losses =>
    rw [List.countP_append, List.countP_singleton, hlost, h.losses]
    rfl
  case streak_eq =>
    rw [hstreak]
    rfl
  case longest => exact ⟨n, hn, hlonger⟩

/-- Any other trade adds to it. -/
theorem BasicCounts.loss (h : BasicCounts past d) (now : ℕ) {t : TradeRecord} (hwin : ¬ 0 < t.pnl) :
    BasicCounts (past ++ [(now, t)]) (d.recordBasics t.pnl) := by
  have hlost : lost (now, t) = true := by simp [lost, won, hwin]
  have hwon : won (now, t) = false := by simp [won, hwin]
  have hstreak : streak lost (past ++ [(now, t)]) = streak lost past + 1 := by
    rw [streak_concat, hlost, if_pos rfl]
  have hlength : (past ++ [(now, t)]).length = past.length + 1 := by simp
  have heq : d.recordBasics t.pnl = { d with
      totalTrades := d.totalTrades + 1
      totalPnl := d.totalPnl + t.pnl
      losses := d.losses + 1
      consecutiveLosses := d.consecutiveLosses + 1
      maxConsecutiveLosses := max d.maxConsecutiveLosses (d.consecutiveLosses + 1) } :=
    if_neg hwin
  obtain ⟨n, hn, hlongest⟩ := h.longest
  have hlonger := isGreatest_runLengths_concat (y := (now, t)) hlongest
  rw [hstreak] at hlonger
  rw [heq]
  constructor
  case total =>
    rw [hlength, h.total]
    rfl
  case wins =>
    rw [List.countP_append, List.countP_singleton, hwon, h.wins]
    rfl
  case losses =>
    rw [List.countP_append, List.countP_singleton, hlost, h.losses]
    rfl
  case streak_eq =>
    rw [hstreak, h.streak_eq]
    rfl
  case longest =>
    refine ⟨max n (streak lost past + 1), ?_, hlonger⟩
    show max d.maxConsecutiveLosses (d.consecutiveLosses + 1) = _
    rw [hn, h.streak_eq]
    push_cast
    rfl

theorem Tracked.recordBasics (h : Tracked past d) (now : ℕ) (t : TradeRecord) :
    BasicCounts (past ++ [(now, t)]) (d.recordBasics t.pnl) :=
  (em (0 < t.pnl)).elim (h.toBasicCounts.win now) (h.toBasicCounts.loss now)

/-- **A trade is tracked.** -/
theorem Tracked.recordTrade (h : Tracked past d) (cfg : LearnerConfig) (now : ℕ) (t : TradeRecord) :
    Tracked (past ++ [(now, t)]) (d.recordTrade cfg now t) := by
  obtain ⟨hcounts, hhistories, -⟩ := recordTrade_eq cfg now t d
  obtain ⟨htotal, hwins, hlosses, hstreak, hlongest⟩ := h.recordBasics now t
  have hlength : (past ++ [(now, t)]).length = past.length + 1 := by simp
  have hhour : (d.recordTrade cfg now t).hourStats = fun i =>
      if i = hourPlace now then bump t.pnl (d.hourStats i) else d.hourStats i :=
    (congrArg (·.1) hhistories).trans (hourStats_recordHour now t.pnl d)
  have hsession : (d.recordTrade cfg now t).sessionStats = fun i =>
      if i = (MarketSession.ofHour (hourOf now)).index then bump t.pnl (d.sessionStats i)
      else d.sessionStats i := congrArg (·.2.1) hhistories
  constructor
  case toBasicCounts =>
    obtain ⟨n, hn, hgreatest⟩ := hlongest
    exact ⟨(congrArg (·.1) hcounts).trans htotal, (congrArg (·.2.1) hcounts).trans hwins,
      (congrArg (·.2.2.1) hcounts).trans hlosses, (congrArg (·.2.2.2.1) hcounts).trans hstreak,
      n, (congrArg (·.2.2.2.2) hcounts).trans hn, hgreatest⟩
  case hours_nonneg =>
    rw [hhour]
    exact bump_nonneg h.hours_nonneg
  case hours =>
    rw [hhour, hlength]
    exact (sum_bump _ _).trans (by rw [h.hours]; rfl)
  case sessions_nonneg =>
    rw [hsession]
    exact bump_nonneg h.sessions_nonneg
  case sessions =>
    rw [hsession, hlength]
    exact (sum_bump _ _).trans (by rw [h.sessions]; rfl)
  case idx =>
    have hidx : (d.recordTrade cfg now t).recentIdx = (d.recentIdx + 1).tmod 10 :=
      congrArg (·.2.2.2.1) hhistories
    rw [hidx, h.idx, hlength, Int.tmod_eq_emod_of_nonneg (by omega)]
    omega
  case count =>
    have hcount : (d.recordTrade cfg now t).recentCount = min (d.recentCount + 1) 10 :=
      congrArg (·.2.2.2.2) hhistories
    rw [hcount, h.count, hlength]
    omega
  case ring =>
    -- the index is where the next of the history belongs
    have hring : (d.recordTrade cfg now t).recentPnls = fun i =>
        if i.val = (past.map fun e => e.2.pnl).length % 10 then t.pnl else d.recentPnls i := by
      have hslots : (d.recordTrade cfg now t).recentPnls = fun i =>
          if (i.val : ℤ) = d.recentIdx then t.pnl else d.recentPnls i :=
        congrArg (·.2.2.1) hhistories
      funext i
      rw [hslots, List.length_map, h.idx]
      simp only [Nat.cast_inj]
    rw [hring, List.map_append]
    exact h.ring.push

/-! ## What is derived -/

theorem clamp_between {x lo hi : ℚ} (h : lo ≤ hi) : lo ≤ clamp x lo hi ∧ clamp x lo hi ≤ hi := by
  unfold clamp
  split_ifs with hlow hhigh
  · exact ⟨le_rfl, h⟩
  · exact ⟨h, le_rfl⟩
  · exact ⟨not_lt.1 hlow, not_lt.1 hhigh⟩

/-- **The derived values are in their ranges.** -/
structure InRange (cfg : LearnerConfig) (d : SymbolLearnData) : Prop where
  kelly : 0 ≤ cfg.kellyFractionCap →
    0 ≤ d.kellyFraction ∧ d.kellyFraction ≤ cfg.kellyFractionCap
  tp : 3 / 1000 ≤ d.optimalTpPct ∧ d.optimalTpPct ≤ 5 / 100
  sl : 2 / 1000 ≤ d.optimalSlPct ∧ d.optimalSlPct ≤ 3 / 100

theorem inRange_new : InRange cfg {} where
  kelly h := ⟨le_rfl, h⟩
  tp := by constructor <;> norm_num
  sl := by constructor <;> norm_num

theorem InRange.recalcOptimalTpsl (h : InRange cfg d) : InRange cfg (d.recalcOptimalTpsl cfg) := by
  rw [SymbolLearnData.recalcOptimalTpsl]
  split_ifs
  · exact ⟨h.kelly, clamp_between (by norm_num), clamp_between (by norm_num)⟩
  · exact ⟨h.kelly, clamp_between (by norm_num), h.sl⟩
  · exact ⟨h.kelly, h.tp, clamp_between (by norm_num)⟩
  · exact h

theorem InRange.recordMove (h : InRange cfg d) : InRange cfg (d.recordMove cfg t) := by
  rw [SymbolLearnData.recordMove]
  split_ifs
  · exact InRange.recalcOptimalTpsl ⟨h.kelly, h.tp, h.sl⟩
  · exact InRange.recalcOptimalTpsl ⟨h.kelly, h.tp, h.sl⟩
  · exact h

theorem recalcKelly_between (hcap : 0 ≤ cfg.kellyFractionCap) :
    0 ≤ (d.recalcKelly cfg).kellyFraction ∧
      (d.recalcKelly cfg).kellyFraction ≤ cfg.kellyFractionCap := by
  rw [recalcKelly]
  dsimp only
  split_ifs
  · exact ⟨le_rfl, hcap⟩
  · exact clamp_between hcap
  · exact clamp_between hcap
  · exact ⟨le_rfl, hcap⟩

theorem InRange.recordBasics (h : InRange cfg d) : InRange cfg (d.recordBasics pnl) := by
  unfold SymbolLearnData.recordBasics
  dsimp only
  split_ifs <;> exact ⟨h.kelly, h.tp, h.sl⟩

theorem InRange.recordEma (h : InRange cfg d) : InRange cfg (d.recordEma cfg pnl) :=
  ⟨h.kelly, h.tp, h.sl⟩

theorem InRange.recordHour (h : InRange cfg d) : InRange cfg (d.recordHour now pnl) :=
  ⟨h.kelly, h.tp, h.sl⟩

theorem InRange.recordRecent (h : InRange cfg d) : InRange cfg (d.recordRecent pnl) :=
  ⟨h.kelly, h.tp, h.sl⟩

theorem InRange.recalcKelly (h : InRange cfg d) : InRange cfg (d.recalcKelly cfg) :=
  ⟨recalcKelly_between, h.tp, h.sl⟩

theorem InRange.updateCooldown (h : InRange cfg d) : InRange cfg (d.updateCooldown cfg now) := by
  rw [SymbolLearnData.updateCooldown]
  split_ifs
  · exact ⟨h.kelly, h.tp, h.sl⟩
  · exact h

theorem InRange.updateBlacklist (h : InRange cfg d) : InRange cfg (d.updateBlacklist cfg) := by
  rw [updateBlacklist_eq]
  exact ⟨h.kelly, h.tp, h.sl⟩

/-- **A trade keeps them there.** -/
theorem InRange.recordTrade (h : InRange cfg d) (now : ℕ) (t : TradeRecord) :
    InRange cfg (d.recordTrade cfg now t) := by
  have hmove : InRange cfg (SymbolLearnData.recordMove cfg t
      (SymbolLearnData.recordEma cfg t.pnl (d.recordBasics t.pnl))) :=
    h.recordBasics.recordEma.recordMove
  rw [SymbolLearnData.recordTrade, updateFilters]
  exact hmove.recordHour.recordRecent.recalcKelly.updateCooldown.updateBlacklist

/-! ## The record, read -/

/-- The profits of the last ten trades, or of all where there are fewer. -/
def lastPnls (past : TimedTrades) : List ℚ :=
  (past.map fun e => e.2.pnl).drop (past.length - 10)

theorem length_lastPnls : (lastPnls past).length = min past.length 10 := by
  rw [lastPnls, List.length_drop, List.length_map]
  omega

/-- **The record of a key is exact**, for the trades it stands for. -/
structure Exact (cfg : LearnerConfig) (past : TimedTrades) (d : SymbolLearnData) : Prop where
  total : d.totalTrades = past.length
  outcomes : d.wins + d.losses = d.totalTrades
  hours : ∑ i, (d.hourStats i).2 = d.totalTrades
  sessions : ∑ i, (d.sessionStats i).2 = d.totalTrades
  finalRun : d.consecutiveLosses = streak lost past
  longestRun : ∃ n : ℕ, d.maxConsecutiveLosses = n ∧ IsGreatest (runLengths lost past) n
  count : d.recentCount = (min past.length 10 : ℕ)
  slots : (List.ofFn d.recentPnls).take d.recentCount.toNat ~r lastPnls past
  rate : d.recentWinRate = if past = [] then 1 / 2
    else ((lastPnls past).countP fun pnl => 0 < pnl : ℚ) / (lastPnls past).length
  average : d.recentAvgPnl = if past = [] then 0
    else (lastPnls past).sum / (lastPnls past).length
  range : InRange cfg d

theorem countP_won_add_lost (past : TimedTrades) :
    past.countP won + past.countP lost = past.length := by
  have hlost : lost = fun e => decide ¬ won e = true := by
    funext e
    simp [lost]
  rw [hlost]
  exact (List.length_eq_countP_add_countP won).symm

/-- **What is tracked is exact.** -/
theorem Tracked.exact (h : Tracked past d) (hrange : InRange cfg d) : Exact cfg past d := by
  have hcount : d.recentCount.toNat = min past.length 10 := by
    rw [h.count, Int.toNat_natCast]
  -- the count never exceeds the window
  have hwindow : min d.recentCount recentWindow = ((lastPnls past).length : ℤ) := by
    rw [h.count, length_lastPnls, recentWindow]
    omega
  have hslots : Ring.filled (min past.length 10) d.recentPnls ~r lastPnls past := by
    have hrotated := h.ring.isRotated
    rw [List.length_map] at hrotated
    exact hrotated
  have hrecent : d.recentSlots ~r lastPnls past := by
    rw [recentSlots, hwindow, Int.toNat_natCast, length_lastPnls]
    exact hslots
  have hempty : d.recentCount = 0 ↔ past = [] := by
    rw [h.count, ← List.length_eq_zero_iff]
    omega
  constructor
  case total => exact h.total
  case outcomes =>
    rw [h.wins, h.losses, h.total, ← countP_won_add_lost past]
    exact (Nat.cast_add _ _).symm
  case hours => rw [h.hours, h.total]
  case sessions => rw [h.sessions, h.total]
  case finalRun => exact h.streak_eq
  case longestRun => exact h.longest
  case count => exact h.count
  case slots =>
    rw [hcount]
    exact hslots
  case rate =>
    simp only [recentWinRate, hempty, hwindow, hrecent.perm.countP_eq, Int.cast_natCast]
  case average =>
    simp only [recentAvgPnl, hempty, hwindow, hrecent.perm.sum_eq, Int.cast_natCast]
  case range => exact hrange

/-! ## The blacklist -/

/-- The share of wins among some trades. -/
def winRateOf (past : TimedTrades) : ℚ := winRate (past.countP won, past.length)

/-- The trades are enough to enter the blacklist, and too few are won. -/
def EntersBlacklist (cfg : LearnerConfig) (past : TimedTrades) : Prop :=
  cfg.blacklistMin ≤ past.length ∧ winRateOf past < cfg.blacklistWr

/-- Enough are won to leave it. -/
def LeavesBlacklist (cfg : LearnerConfig) (past : TimedTrades) : Prop :=
  cfg.blacklistWr + 5 / 100 ≤ winRateOf past

/-- **Entered and not left since.** -/
def Listed (cfg : LearnerConfig) (past : TimedTrades) : Prop :=
  HeldSince (fun past e => EntersBlacklist cfg (past ++ [e]))
    (fun past e => LeavesBlacklist cfg (past ++ [e])) past

theorem Listed.min_le (h : Listed cfg past) : cfg.blacklistMin ≤ past.length := by
  obtain ⟨m, -, hle, ⟨hmin, -⟩, -⟩ := heldSince_iff_take.1 h
  rw [List.length_take] at hmin
  omega

/-- **The flag is kept** through a trade. -/
theorem blacklisted_recordTrade (h : Tracked past d)
    (hflag : d.blacklisted = true ↔ Listed cfg past) (now : ℕ) (t : TradeRecord) :
    (d.recordTrade cfg now t).blacklisted = true ↔ Listed cfg (past ++ [(now, t)]) := by
  obtain ⟨htotal, hwins, -⟩ := h.recordBasics now t
  have hlength : (past ++ [(now, t)]).length = past.length + 1 := by simp
  have hconcat : Listed cfg (past ++ [(now, t)]) ↔ EntersBlacklist cfg (past ++ [(now, t)]) ∨
      Listed cfg past ∧ ¬ LeavesBlacklist cfg (past ++ [(now, t)]) := heldSince_concat
  have hrate : winRate ((d.recordBasics t.pnl).wins, (d.recordBasics t.pnl).totalTrades) =
      winRateOf (past ++ [(now, t)]) := by rw [hwins, htotal]; rfl
  rw [(recordTrade_eq cfg now t d).2.2, hconcat, blacklistAfter, hrate, htotal, EntersBlacklist,
    LeavesBlacklist]
  by_cases hmin : cfg.blacklistMin ≤ ((past ++ [(now, t)]).length : ℤ)
  · rw [if_pos hmin]
    by_cases hlow : winRateOf (past ++ [(now, t)]) < cfg.blacklistWr
    · rw [if_pos hlow]
      exact iff_of_true rfl (.inl ⟨hmin, hlow⟩)
    · rw [if_neg hlow]
      by_cases hhigh : cfg.blacklistWr + 5 / 100 ≤ winRateOf (past ++ [(now, t)])
      · -- whether it was set or not, the flag is now unset
        have hcleared : (if d.blacklisted = true ∧ cfg.blacklistWr + 5 / 100 ≤
            winRateOf (past ++ [(now, t)]) then false else d.blacklisted) = false := by
          split_ifs with hboth
          · rfl
          · exact Bool.eq_false_iff.2 fun hset => hboth ⟨hset, hhigh⟩
        rw [hcleared]
        refine iff_of_false (by decide) ?_
        rintro (⟨-, hlow'⟩ | ⟨-, hhigh'⟩)
        · exact hlow hlow'
        · exact hhigh' hhigh
      · rw [if_neg fun hboth => hhigh hboth.2, hflag]
        constructor
        · exact fun hlisted => .inr ⟨hlisted, hhigh⟩
        · rintro (⟨-, hlow'⟩ | ⟨hlisted, -⟩)
          · exact absurd hlow' hlow
          · exact hlisted
  · -- before there are enough, the key has not been on the list
    have hnot : ¬ Listed cfg past := fun hlisted => by
      have hle := hlisted.min_le
      rw [hlength] at hmin
      push_cast at hmin
      omega
    rw [if_neg hmin, hflag]
    refine iff_of_false hnot ?_
    rintro (⟨hmin', -⟩ | ⟨hlisted, -⟩)
    · exact hmin hmin'
    · exact hnot hlisted

/-- **What is known of a key**, all together. -/
structure Known (cfg : LearnerConfig) (past : TimedTrades) (d : SymbolLearnData) : Prop where
  tracked : Tracked past d
  range : InRange cfg d
  flag : d.blacklisted = true ↔ Listed cfg past

theorem known_new : Known cfg [] {} where
  tracked := tracked_new
  range := inRange_new
  flag := iff_of_false (by decide) not_heldSince_nil

theorem Known.recordTrade (h : Known cfg past d) (now : ℕ) (t : TradeRecord) :
    Known cfg (past ++ [(now, t)]) (d.recordTrade cfg now t) where
  tracked := h.tracked.recordTrade cfg now t
  range := h.range.recordTrade now t
  flag := blacklisted_recordTrade h.tracked h.flag now t

end SymbolLearnData

end WebhookTrader
