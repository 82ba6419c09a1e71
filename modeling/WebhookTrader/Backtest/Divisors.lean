import WebhookTrader.Backtest.Margin
import WebhookTrader.Backtest.Model.LogParser
import WebhookTrader.Backtest.Model.WalkForward
import WebhookTrader.Backtest.Windows

/-!
# What the walk-forward mode divides by

The parser takes a missing price for zero, and an entry divides by its
price before anything is checked. The leverage an entry divides by is one
of the grid, but for seventy signals: they are too many for a single pass
and too few for a window, and the pair that is recommended then is zero
and zero. Everything else that is divided by is the value of a quantity
that is open.
-/

namespace WebhookTrader

namespace Backtester

variable {params : BtParams} {b : Backtester} {sig entry : BtSignal} {signals : List BtSignal}
  {pos : BtPosition} {symbol reason : String} {price qty : ℚ}

/-! ## What is open has a value -/

/-- **The positions with a positive price of entry have positive
quantities.** -/
def Valued (t : Table String BtPosition) : Prop :=
  ∀ symbol pos, t.lookup symbol = some pos → 0 < pos.entryPrice → 0 < pos.quantity

theorem valued_reset (params : BtParams) : Valued (reset params).positions := by
  intro symbol pos h
  cases h

section Tables

variable {t : Table String BtPosition}

theorem Valued.erase (h : Valued t) : Valued (AList.erase symbol t) :=
  fun s pos hpos => h s pos (Table.of_lookup_erase hpos)

theorem Valued.insert (h : Valued t) (hpos : 0 < pos.entryPrice → 0 < pos.quantity) :
    Valued (AList.insert symbol pos t) := by
  intro s pos' hpos' hprice
  by_cases hs : s = symbol
  · rw [hs, AList.lookup_insert] at hpos'
    obtain rfl := Option.some.inj hpos'
    exact hpos hprice
  · rw [AList.lookup_insert_ne hs] at hpos'
    exact h s pos' hpos' hprice

theorem Valued.modify {f : BtPosition → BtPosition} (h : Valued t)
    (hheld : t.lookup symbol = some pos) (hpos : 0 < (f pos).quantity) :
    Valued (t.modify symbol f) := by
  intro s pos' hpos' hprice
  by_cases hs : s = symbol
  · rw [hs, Table.lookup_modify, hheld] at hpos'
    obtain rfl := Option.some.inj hpos'
    exact hpos
  · rw [Table.lookup_modify_ne hs] at hpos'
    exact h s pos' hpos' hprice

/-- The entry that is rewritten may be taken out. -/
theorem Valued.erase_modify {f : BtPosition → BtPosition} (h : Valued t) :
    Valued (AList.erase symbol (t.modify symbol f)) := by
  intro s pos' hpos'
  by_cases hs : s = symbol
  · rw [hs, AList.lookup_erase] at hpos'
    cases hpos'
  · rw [AList.lookup_erase_ne hs, Table.lookup_modify_ne hs] at hpos'
    exact h s pos' hpos'

end Tables

theorem Valued.closePosition (h : Valued b.positions) :
    Valued (b.closePosition params symbol price reason).positions := by
  unfold Backtester.closePosition
  cases b.positions.lookup symbol with
  | none => exact h
  | some pos => exact h.erase

theorem Valued.enter (h : Valued b.positions) (hamount : 0 < params.tradeAmountUsdt) :
    Valued (b.enter params entry).positions := by
  unfold Backtester.enter
  dsimp only
  split_ifs
  · exact h
  · exact h.insert fun hprice => div_pos hamount hprice

theorem Valued.handleEntry (h : Valued b.positions) (hamount : 0 < params.tradeAmountUsdt) :
    Valued (b.handleEntry params entry).positions := by
  cases hcheck : b.balanceAtCheck params entry with
  | none =>
      rw [handleEntry_of_none hcheck]
      exact h
  | some balance =>
      rw [(handleEntry_of_some hcheck).1]
      exact Valued.enter h.closePosition hamount

/-- What a take-profit leaves open is more than the residue. -/
theorem Valued.handleTp (h : Valued b.positions) :
    Valued (b.handleTp params sig).positions := by
  unfold Backtester.handleTp
  cases hheld : b.positions.lookup sig.symbol with
  | none => exact h
  | some pos =>
      dsimp only
      split_ifs with hqty hsmall
      · exact h
      · exact h.erase_modify
      · -- the residue is positive, so that what is left is
        have hzero : (0 : ℚ) < 1 / 10 ^ 12 := by norm_num
        exact h.modify hheld (hzero.trans (not_le.1 hsmall))

theorem Valued.processSignal (h : Valued b.positions) (hamount : 0 < params.tradeAmountUsdt) :
    Valued (b.processSignal params sig).positions := by
  cases hentry : b.entrySignal sig with
  | some entry =>
      rw [(processSignal_of_entry _ hentry).1]
      exact h.handleEntry hamount
  | none =>
      rw [processSignal_of_no_entry hentry]
      split_ifs
      · exact h.handleTp
      · exact h.closePosition
      · exact h

theorem Valued.expire (h : Valued b.positions) :
    Valued (Backtester.expire params b symbol).positions := by
  unfold Backtester.expire
  cases b.positions.lookup symbol with
  | none => exact h
  | some pos => exact h.closePosition

theorem valued_after (hamount : 0 < params.tradeAmountUsdt) (signals : List BtSignal) :
    Valued (after params signals).positions := by
  induction signals using List.reverseRecOn with
  | nil => exact valued_reset params
  | append_singleton past sig ih =>
      rw [after_append]
      exact ih.processSignal hamount

/-! ## The divisors of a step -/

/-- **No divisor is zero.** -/
def Divisible (divisors : List ℚ) : Prop := ∀ d ∈ divisors, d ≠ 0

theorem divisible_nil : Divisible [] := List.forall_mem_nil _

theorem divisible_append {ds ds' : List ℚ} :
    Divisible (ds ++ ds') ↔ Divisible ds ∧ Divisible ds' := List.forall_mem_append

theorem divisible_trade (h : 0 < pos.entryPrice → 0 < qty) : Divisible (tradeDivisors pos qty) := by
  unfold tradeDivisors
  split_ifs with hprice
  · exact List.forall_mem_singleton.2 (mul_pos (h hprice) hprice).ne'
  · exact divisible_nil

theorem divisible_close (h : Valued b.positions) : Divisible (b.closeDivisors symbol) := by
  unfold closeDivisors
  cases hheld : b.positions.lookup symbol with
  | none => exact divisible_nil
  | some pos => exact divisible_trade (h symbol pos hheld)

theorem divisible_tp : Divisible (b.tpDivisors params sig) := by
  unfold tpDivisors
  cases b.positions.lookup sig.symbol with
  | none => exact divisible_nil
  | some pos =>
      dsimp only
      split_ifs with hqty
      · exact divisible_nil
      · exact divisible_trade fun _ => not_le.1 hqty

/-- An entry that comes to the check divides by its price. -/
theorem divisible_entry_iff (h : Valued b.positions) (hleverage : params.leverage ≠ 0) :
    Divisible (b.entryDivisors params entry) ↔
      ((b.balanceAtCheck params entry).isSome = true → entry.price ≠ 0) := by
  have hcheck : Divisible [entry.price, (params.leverage : ℚ)] ↔ entry.price ≠ 0 := by
    simp [Divisible, hleverage]
  unfold entryDivisors balanceAtCheck
  cases b.positions.lookup entry.symbol with
  | none => simpa using hcheck
  | some pos =>
      dsimp only
      split_ifs
      · rw [divisible_append, and_iff_right (divisible_close h), hcheck]
        simp
      · exact iff_of_true divisible_nil (by simp)

/-- **A signal divides by zero** where it brings an entry without a price to
the check, and nowhere else. -/
theorem divisible_divisors_iff (h : Valued b.positions) (hleverage : params.leverage ≠ 0) :
    Divisible (b.divisors params sig) ↔
      ((b.checkedBalance params sig).isSome = true → sig.price ≠ 0) := by
  unfold divisors checkedBalance
  cases hentry : b.entrySignal sig with
  | some entry =>
      have hprice := (processSignal_of_entry params hentry).2.2
      rw [← hprice]
      exact divisible_entry_iff h hleverage
  | none =>
      refine iff_of_true ?_ (by simp)
      dsimp only
      split_ifs
      · exact divisible_tp
      · exact divisible_close h
      · exact divisible_nil

/-! ## The divisors of a run -/

theorem signalDivisors_concat (params : BtParams) (signals : List BtSignal) (sig : BtSignal)
    (b : Backtester) :
    signalDivisors params (signals ++ [sig]) b = signalDivisors params signals b ++
      (signals.foldl (processSignal params) b).divisors params sig := by
  induction signals generalizing b with
  | nil => exact List.append_nil _
  | cons first signals ih =>
      rw [List.cons_append, signalDivisors, signalDivisors, ih, List.append_assoc]
      rfl

theorem divisible_expiry (keys : List String) (h : Valued b.positions) :
    Divisible (expiryDivisors params keys b) := by
  induction keys generalizing b with
  | nil => exact divisible_nil
  | cons key keys ih => exact divisible_append.2 ⟨divisible_close h, ih h.expire⟩

/-- **Every entry that comes to the check has a price.** -/
def Priced (params : BtParams) (signals : List BtSignal) : Prop :=
  Throughout (fun past sig => ((after params past).checkedBalance params sig).isSome = true →
    sig.price ≠ 0) signals

/-- **When a backtest divides by no zero**: with a positive amount and a
leverage, just where every entry that comes to the check has a price. -/
theorem divisible_run_iff (hamount : 0 < params.tradeAmountUsdt)
    (hleverage : params.leverage ≠ 0) (signals : List BtSignal) :
    Divisible (runDivisors params signals) ↔ Priced params signals := by
  have hsignals : Divisible (signalDivisors params signals (reset params)) ↔
      Priced params signals := by
    unfold Priced
    induction signals using List.reverseRecOn with
    | nil => exact iff_of_true divisible_nil throughout_nil
    | append_singleton past sig ih =>
        rw [signalDivisors_concat, divisible_append, throughout_concat, ih]
        exact and_congr_right fun _ =>
          divisible_divisors_iff (valued_after hamount past) hleverage
  rw [runDivisors, divisible_append, hsignals]
  exact and_iff_left (divisible_expiry _ (valued_after hamount signals))

/-! ### Without a leverage -/

/-- A signal that opens nothing in any state. -/
def Idle (sig : BtSignal) : Prop := sig.isEntry = false ∧ sig.isReentry = false

theorem kind_of_reentry (h : sig.isReentry = true) : (sig.isTp || sig.isSl) = false := by
  unfold BtSignal.isReentry at h
  unfold BtSignal.isTp BtSignal.isSl
  rcases Bool.or_eq_true_iff.1 h with halert | halert
  · rw [of_decide_eq_true halert]
    decide
  · rw [of_decide_eq_true halert]
    decide

/-- With no position open, a signal that opens nothing does nothing. -/
theorem of_idle (h : b.positions = ∅) (hidle : Idle sig) :
    b.processSignal params sig = b ∧ b.divisors params sig = [] ∧
      b.checkedBalance params sig = none := by
  have hnone : b.positions.lookup sig.symbol = none := by
    rw [h]
    rfl
  have hentry : b.entrySignal sig = none := by
    unfold entrySignal
    rw [if_neg (by simp [hidle.1])]
    split_ifs with hclose hreentry
    · rfl
    · simp [hidle.2] at hreentry
    · rfl
  rw [processSignal_of_no_entry hentry, divisors, checkedBalance, hentry]
  dsimp only
  rw [handleTp, handleSl, closePosition, tpDivisors, closeDivisors, hnone]
  split_ifs <;> exact ⟨rfl, rfl, rfl⟩

/-- And any other comes to the check. -/
theorem of_not_idle (h : b.positions = ∅) (hidle : ¬ Idle sig) :
    (params.leverage : ℚ) ∈ b.divisors params sig := by
  have hnone : ∀ symbol, b.positions.lookup symbol = none := by
    intro symbol
    rw [h]
    rfl
  have hentry : ∃ entry, b.entrySignal sig = some entry := by
    unfold entrySignal
    by_cases hopen : sig.isEntry = true
    · exact ⟨sig, if_pos hopen⟩
    · have hreentry : sig.isReentry = true := by
        by_contra hnot
        exact hidle ⟨by simpa using hopen, by simpa using hnot⟩
      rw [if_neg hopen, if_neg (by simp [kind_of_reentry hreentry]),
        if_pos (by simp [hreentry, hnone])]
      exact ⟨_, rfl⟩
  obtain ⟨entry, hentry⟩ := hentry
  rw [divisors, hentry]
  dsimp only
  rw [entryDivisors, hnone]
  exact List.mem_cons_of_mem _ (List.mem_singleton_self _)

theorem after_of_idle (h : ∀ sig ∈ signals, Idle sig) : after params signals = reset params := by
  induction signals using List.reverseRecOn with
  | nil => rfl
  | append_singleton past sig ih =>
      rw [after_append, ih fun sig hsig => h sig (List.mem_append_left _ hsig)]
      exact (of_idle rfl (h sig (List.mem_append_right _ (List.mem_singleton_self sig)))).1

theorem priced_of_idle (h : ∀ sig ∈ signals, Idle sig) : Priced params signals := by
  unfold Priced
  induction signals using List.reverseRecOn with
  | nil => exact throughout_nil
  | append_singleton past sig ih =>
      obtain ⟨hpast, hsig⟩ := List.forall_mem_append.1 h
      refine throughout_concat.2 ⟨ih hpast, ?_⟩
      rw [after_of_idle hpast, (of_idle rfl (hsig sig (List.mem_singleton_self sig))).2.2]
      exact fun hsome => absurd hsome Bool.false_ne_true

/-- **With no leverage** a backtest divides by no zero just where no signal
opens anything. -/
theorem divisible_run_of_zero (hleverage : params.leverage = 0) (signals : List BtSignal) :
    Divisible (runDivisors params signals) ↔ ∀ sig ∈ signals, Idle sig := by
  have hsignals : Divisible (signalDivisors params signals (reset params)) ↔
      ∀ sig ∈ signals, Idle sig := by
    induction signals using List.reverseRecOn with
    | nil => exact iff_of_true divisible_nil (List.forall_mem_nil _)
    | append_singleton past sig ih =>
        rw [signalDivisors_concat, divisible_append, ih, List.forall_mem_append,
          List.forall_mem_singleton]
        refine and_congr_right fun hpast => ?_
        have hreset : past.foldl (processSignal params) (reset params) = reset params :=
          after_of_idle hpast
        rw [hreset]
        constructor
        · intro hdivisible
          by_contra hidle
          exact hdivisible _ (of_not_idle rfl hidle) (by rw [hleverage, Int.cast_zero])
        · intro hidle
          rw [(of_idle rfl hidle).2.1]
          exact divisible_nil
  rw [runDivisors, divisible_append, hsignals]
  refine and_iff_left_of_imp fun hidle => ?_
  rw [after_of_idle hidle]
  exact divisible_nil

end Backtester

/-! ## The backtests of the walk-forward mode -/

namespace WalkForward

open WFConfig
open Backtester (Divisible Priced Idle runDivisors divisible_run_iff divisible_run_of_zero
  priced_of_idle)

variable {sharpe : List ℚ → ℚ} {order : MapOrder} {balance : ℚ} {signals : List BtSignal}

theorem sound_config (balance : ℚ) : (config balance).Sound where
  amounts := List.cons_ne_nil _ _
  leverages := List.cons_ne_nil _ _
  ratio := by norm_num [config]
  minima := by
    show (0 : ℤ) < 50 ∧ (0 : ℤ) < 20
    decide
  ints := by
    show ∀ l ∈ ([3, 5, 7, 10, 15, 20, 25] : List ℤ), -(2 ^ 31) ≤ l ∧ l < 2 ^ 31
    decide

theorem pos_of_mem_grid {p : ℚ × ℤ} (h : p ∈ (config balance).grid) : 0 < p.1 ∧ 0 < p.2 := by
  have hamounts : ∀ amount ∈ (config balance).amountGrid, 0 < amount := by
    show ∀ amount ∈ ([5, 10, 15, 20, 30, 50, 75, 100] : List ℚ), 0 < amount
    norm_num
  have hleverages : ∀ l ∈ (config balance).leverageGrid, 0 < l := by
    show ∀ l ∈ ([3, 5, 7, 10, 15, 20, 25] : List ℤ), 0 < l
    decide
  obtain ⟨hamount, hleverage⟩ := mem_grid.1 h
  exact ⟨hamounts _ hamount, hleverages _ hleverage⟩

/-- A part of a size, cut to an integer. -/
theorem truncate_part {m a b : ℤ} (hm : 0 ≤ m) (ha : 0 ≤ a) (hb : 0 < b) :
    b * Json.truncate ((m : ℚ) * (a / b)) ≤ a * m ∧
      a * m < b * (Json.truncate ((m : ℚ) * (a / b)) + 1) := by
  have hm' : (0 : ℚ) ≤ m := by exact_mod_cast hm
  have ha' : (0 : ℚ) ≤ a := by exact_mod_cast ha
  have hb' : (0 : ℚ) < b := by exact_mod_cast hb
  have hpart : (b : ℚ) * (m * (a / b)) = a * m := by field_simp
  rw [truncate_of_nonneg (mul_nonneg hm' (div_nonneg ha' hb'.le))]
  have hlow := mul_le_mul_of_nonneg_left (Int.floor_le ((m : ℚ) * (a / b))) hb'.le
  have hhigh := mul_lt_mul_of_pos_left (Int.lt_floor_add_one ((m : ℚ) * (a / b))) hb'
  rw [hpart] at hlow hhigh
  constructor
  · exact_mod_cast hlow
  · exact_mod_cast hhigh

/-- **Seventy signals alone** are too many for a single pass and too few for a
window. -/
theorem fits_iff {n : ℤ} (h : 70 ≤ n) :
    (config balance).isSize n + (config balance).oosSize n ≤ n ↔ n ≠ 70 := by
  have hhalf := truncate_part (m := n) (a := 1) (b := 2) (by omega) (by decide) (by decide)
  have htotal : (config balance).totalWindow n = max 70 (Json.truncate ((n : ℚ) * (1 / 2))) := rfl
  have hshare := truncate_part (m := (config balance).totalWindow n) (a := 7) (b := 10)
    (by rw [htotal]; omega) (by decide) (by decide)
  have his : (config balance).isSize n =
      max (Json.truncate ((config balance).totalWindow n * (7 / 10))) 50 := rfl
  have hoos : (config balance).oosSize n = max ((config balance).totalWindow n -
      Json.truncate ((config balance).totalWindow n * (7 / 10))) 20 := rfl
  push_cast at hhalf hshare
  rw [his, hoos]
  omega

/-- A single pass recommends what its search has found. -/
theorem recommended_singlePass (cfg : WFConfig) :
    ((cfg.singlePassOptimize sharpe signals).recommendedAmount,
      (cfg.singlePassOptimize sharpe signals).recommendedLeverage) =
      (cfg.gridSearch sharpe signals).pair := rfl

/-- The sum of the minima. -/
theorem minima_config (balance : ℚ) :
    (config balance).minIsSignals + (config balance).minOosSignals = 70 := rfl

/-- **What is recommended is of the grid**, but for seventy signals. -/
theorem recommended_mem_grid (hn : (signals.length : ℤ) ≠ 70) {r : WFResult}
    (h : (config balance).optimize sharpe order signals = .ok r) :
    (r.recommendedAmount, r.recommendedLeverage) ∈ (config balance).grid := by
  have hsound := sound_config balance
  unfold optimize at h
  rw [minima_config] at h
  split_ifs at h with hfew
  · obtain rfl := Except.ok.inj h
    rw [recommended_singlePass]
    exact pair_gridSearch_mem hsound signals
  · have hfits : (config balance).Fits signals := (fits_iff (not_lt.1 hfew)).2 hn
    have hwhole : ∀ amount ∈ (config balance).amountGrid, (castInt amount : ℚ) = amount := by
      show ∀ amount ∈ ([5, 10, 15, 20, 30, 50, 75, 100] : List ℚ), (castInt amount : ℚ) = amount
      decide +kernel
    obtain ⟨r', hr', -, -, hgrid⟩ := (tested_windows_iff hsound hfits).2
      (cutsAreTried_of_whole hsound hwhole) order
    obtain rfl : r = r' := Except.ok.inj (h.symm.trans hr')
    exact hgrid

/-- **Every backtest has an amount and a leverage**, but for seventy
signals. -/
theorem pos_of_mem_backtests (hn : (signals.length : ℤ) ≠ 70) {t : Backtest}
    (ht : t ∈ backtests sharpe order balance signals) :
    0 < t.1.tradeAmountUsdt ∧ 0 < t.1.leverage := by
  have hsound := sound_config balance
  have hsearch : ∀ part, t ∈ (config balance).gridBacktests part →
      0 < t.1.tradeAmountUsdt ∧ 0 < t.1.leverage := by
    intro part hpart
    obtain ⟨pair, hpair, rfl⟩ := List.mem_map.1 hpart
    exact pos_of_mem_grid hpair
  unfold backtests at ht
  rcases List.mem_append.1 ht with htried | hlast
  · unfold optimizeBacktests at htried
    split_ifs at htried
    · rcases List.mem_append.1 htried with hgrid | hbest
      · exact hsearch _ hgrid
      · have hbest := List.mem_singleton.1 hbest
        rw [hbest]
        exact pos_of_mem_grid (p := GridResult.pair _) (pair_gridSearch_mem hsound signals)
    · obtain ⟨w, hw, hwindow⟩ := List.mem_flatMap.1 htried
      rcases List.mem_append.1 hwindow with hgrid | hbest
      · exact hsearch _ hgrid
      · obtain rfl := List.mem_singleton.1 hbest
        exact pos_of_mem_grid (pairOf_mem_grid hsound hw)
  · split at hlast
    · rename_i r hr
      obtain rfl := List.mem_singleton.1 hlast
      exact pos_of_mem_grid (recommended_mem_grid hn hr)
    · cases hlast

/-- **The figures that are reported** are those of one of the backtests. -/
theorem mem_backtests_of_runWf {r : WFResult} {metrics : BtMetrics}
    (h : runWf sharpe order balance signals = .ok (r, metrics)) :
    metrics = Backtester.run (finalParams balance r) sharpe signals ∧
      (finalParams balance r, signals) ∈ backtests sharpe order balance signals := by
  unfold runWf at h
  cases hr : (config balance).optimize sharpe order signals with
  | error e =>
      rw [hr] at h
      cases h
  | ok r' =>
      rw [hr] at h
      cases h
      refine ⟨rfl, List.mem_append_right _ ?_⟩
      rw [hr]
      exact List.mem_singleton_self _

/-- **Of seventy signals** there is one backtest, with nothing of
anything. -/
theorem backtests_of_seventy (hn : (signals.length : ℤ) = 70) :
    backtests sharpe order balance signals = [(finalParams balance {}, signals)] := by
  have hnone : (config balance).windows sharpe signals = [] := by
    refine windows_eq_nil_iff.2 fun hfits => ?_
    exact (fits_iff hn.ge).1 hfits hn
  have hmany : ¬ (signals.length : ℤ) <
      (config balance).minIsSignals + (config balance).minOosSignals := by
    rw [minima_config, hn]
    exact lt_irrefl _
  rw [backtests, optimizeBacktests, optimize, if_neg hmany, if_neg hmany, hnone]
  rfl

end WalkForward

end WebhookTrader
