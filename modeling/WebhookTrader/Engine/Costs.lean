import WebhookTrader.Engine.Exits
import WebhookTrader.Engine.Model.TradeRecorder
import WebhookTrader.Engine.Profit

/-!
# The fee check and the fees

The check of an entry takes the taker's fee from the configuration, adds
the slippage, and asks for a multiple of both as the distance to the
take-profit. The recorder takes a fee of its own from every close, twelve
hundredths of a percent of the exit's value. So whether an order that has
passed the check makes a profit where its take-profit is reached hangs on
the multiple: it has to ask for a little more than the recorder takes.
-/

namespace WebhookTrader

/-! ## What the check asks for -/

namespace FeeConfig

variable {cfg : FeeConfig} {symbol : String} {entry exit ratio qty : ℚ}

/-- The distance to the take-profit that the check asks for, as a share of
the price. -/
def requiredMove (cfg : FeeConfig) (symbol : String) (ratio : ℚ) : ℚ :=
  (if 0 < ratio then ratio else cfg.minTpRatio) * (cfg.breakEvenPct symbol / 100)

theorem isTpProfitable_iff (hcost : 0 < cfg.breakEvenPct symbol) (hentry : 0 < entry) :
    cfg.isTpProfitable symbol entry exit ratio = true ↔
      cfg.requiredMove symbol ratio * entry ≤ |exit - entry| := by
  unfold isTpProfitable requiredMove
  dsimp only
  rw [if_pos hcost, decide_eq_true_eq, le_div_iff₀ hcost, div_mul_eq_mul_div,
    le_div_iff₀ hentry]
  constructor
  · intro h
    linarith
  · intro h
    linarith

/-- **The check covers the fees** of the recorder. -/
def Covers (cfg : FeeConfig) (symbol : String) (ratio : ℚ) : Prop :=
  12 / 9988 < cfg.requiredMove symbol ratio

instance : Decidable (cfg.Covers symbol ratio) := inferInstanceAs (Decidable (_ < _))

end FeeConfig

/-! ## What is recorded of a close -/

namespace Close

variable {c : Close}

/-- The exit is on the profit side of the entry. -/
def Gains (c : Close) : Prop :=
  if c.pos.side = "long" then c.pos.entryPrice < c.exitPrice
  else c.exitPrice < c.pos.entryPrice

/-- **The recorded profit**: that of the prices, and without the fee. -/
theorem pnl_trade (hentry : 0 < c.pos.entryPrice) (hqty : 0 < c.qty) :
    c.trade.pnl =
      ((if c.pos.side = "long" then 1 else -1) * (c.exitPrice - c.pos.entryPrice) -
        c.exitPrice * (12 / 10000)) * c.qty := by
  have hgross : c.gross =
      (if c.pos.side = "long" then 1 else -1) * (c.exitPrice - c.pos.entryPrice) * c.qty :=
    Book.calcPnl_of_pos hentry hqty
  have hpnl : c.trade.pnl = c.gross - c.fee := rfl
  rw [hpnl, hgross, fee, Book.calcFee]
  ring

/-- A close on the wrong side is recorded as a loss. -/
theorem pnl_neg_of_not_gains (hentry : 0 < c.pos.entryPrice) (hexit : 0 < c.exitPrice)
    (hqty : 0 < c.qty) (h : ¬ c.Gains) : c.trade.pnl < 0 := by
  rw [pnl_trade hentry hqty]
  refine mul_neg_of_neg_of_pos ?_ hqty
  unfold Gains at h
  split_ifs at h ⊢
  · linarith
  · linarith

/-- A close on the right side is recorded as a gain, where it is far enough
away. -/
theorem pnl_pos_of_move (hentry : 0 < c.pos.entryPrice) (hqty : 0 < c.qty) (h : c.Gains)
    {move : ℚ} (hmove : 12 / 9988 < move)
    (hfar : move * c.pos.entryPrice ≤ |c.exitPrice - c.pos.entryPrice|) : 0 < c.trade.pnl := by
  have hfar' : 12 / 9988 * c.pos.entryPrice < |c.exitPrice - c.pos.entryPrice| :=
    (mul_lt_mul_of_pos_right hmove hentry).trans_le hfar
  rw [pnl_trade hentry hqty]
  refine mul_pos ?_ hqty
  unfold Gains at h
  split_ifs at h ⊢
  · rw [abs_of_pos (sub_pos.2 h)] at hfar'
    linarith
  · rw [abs_of_neg (sub_neg.2 h)] at hfar'
    linarith

end Close

/-- **The check covers the fees** just where nothing that passes it loses:
whatever position is closed on its profit side, at a price that passes the
check, is recorded with a profit. -/
theorem FeeConfig.covers_iff {cfg : FeeConfig} {symbol : String} {ratio : ℚ}
    (hcost : 0 < cfg.breakEvenPct symbol) :
    cfg.Covers symbol ratio ↔
      ∀ c : Close, 0 < c.pos.entryPrice → 0 < c.qty → c.Gains →
        cfg.isTpProfitable symbol c.pos.entryPrice c.exitPrice ratio = true → 0 < c.trade.pnl := by
  constructor
  · intro hcovers c hentry hqty hgains hpasses
    exact Close.pnl_pos_of_move hentry hqty hgains hcovers
      ((isTpProfitable_iff hcost hentry).1 hpasses)
  · intro hall
    by_contra hnot
    -- a long position that moves as far as it may without covering the fee
    have hmove : max (cfg.requiredMove symbol ratio) (1 / 9988) ≤ 12 / 9988 :=
      max_le (not_lt.1 hnot) (by norm_num)
    have hpos : 1 / 9988 ≤ max (cfg.requiredMove symbol ratio) (1 / 9988) := le_max_right _ _
    have hasked : cfg.requiredMove symbol ratio ≤ max (cfg.requiredMove symbol ratio) (1 / 9988) :=
      le_max_left _ _
    generalize max (cfg.requiredMove symbol ratio) (1 / 9988) = move at hmove hpos hasked
    let c : Close :=
      { pos := { symbol, timeframe := "", side := "long", entryPrice := 1, quantity := 1 }
        exitPrice := 1 + move
        exitReason := "TP1" }
    have hentry : 0 < c.pos.entryPrice := one_pos
    have hqty : 0 < c.qty := one_pos
    have hgains : c.Gains := by
      show (1 : ℚ) < 1 + move
      linarith
    have hpasses : cfg.isTpProfitable symbol c.pos.entryPrice c.exitPrice ratio = true := by
      rw [isTpProfitable_iff hcost hentry]
      show cfg.requiredMove symbol ratio * 1 ≤ |1 + move - 1|
      rw [add_sub_cancel_left, abs_of_nonneg (by linarith), mul_one]
      exact hasked
    have hprofit := hall c hentry hqty hgains hpasses
    rw [Close.pnl_trade hentry hqty] at hprofit
    have hless : (1 * (1 + move - 1) - (1 + move) * (12 / 10000)) * 1 ≤ 0 := by linarith
    exact not_lt.2 hless hprofit

/-- The default multiple covers the fees. -/
example : ({} : FeeConfig).Covers "BTCUSDT" 0 := by decide +kernel

/-! ## Whole runs -/

namespace EntryJob

variable {cfg : EngineConfig} {j : EntryJob} {s : Engine}

/-- The multiple of the costs that the timeframe's filter asks for; zero
leaves it to the check. -/
def costRatio (cfg : EngineConfig) (j : EntryJob) : ℚ :=
  ((j.filter cfg).map (·.minTpToCostRatio)).getD 0

/-- A close at the take-profit of the position that the order is registered
with, or of a part of it. -/
def atTakeProfit (j : EntryJob) (now : Clock) (qty : ℚ) : Close where
  pos := j.position now true
  exitPrice := j.tp1Price
  exitReason := "TP1"
  closeQty := qty

/-- **What a real order makes at its take-profit.** In every run that keeps
the discipline of the switch, where the costs are positive and the check
covers the fees, an order handed to `place_futures_order` has its profit
recorded as a gain when the take-profit is reached, whatever part of it is
closed, just where that is on the profit side; else as a loss. -/
theorem takeProfit_gains_iff (h : (engineSystem cfg).Reachable (GateKept cfg) s)
    (hj : Job.entry j ∈ s.jobs) (hpc : j.pc.hands = true)
    (hcost : 0 < cfg.fees.breakEvenPct j.sig.symbol)
    (hcovers : cfg.fees.Covers j.sig.symbol (j.costRatio cfg)) (now : Clock) {qty : ℚ}
    (hqty : 0 < qty) :
    (0 < (j.atTakeProfit now qty).trade.pnl ↔ j.TpSane) ∧
      (¬ j.TpSane → (j.atTakeProfit now qty).trade.pnl < 0) := by
  have hmet : j.Met cfg := by
    have hinv : ExposedMet cfg s := by
      refine h.invariant (fun s hs i j hi => ?_) fun s l t hs hg hn => exposedMet_next hs hg hn
      rw [hs.1] at hi
      cases hi
    obtain ⟨i, hi⟩ := List.getElem?_of_mem hj
    exact hinv i j hi (exposed_of_hands hpc)
  have hpassed : EntryGate.fee ∈ j.pc.passed ∧ EntryGate.tp1 ∈ j.pc.passed := by
    cases hpc' : j.pc <;> simp_all [EntryPc.hands, EntryPc.passed]
  have htp : 0 < j.sig.tp1 := hmet .tp1 hpassed.2
  have hprice : 0 < j.sig.price :=
    ((vetted_of_reachable (h.mono fun _ _ _ => trivial) hj).sized
      (EntryPc.sized_of_reserves (EntryPc.reserves_of_hands hpc))).1
  have happlies : j.feeApplies = true := by
    rw [feeApplies, Bool.and_eq_true]
    exact ⟨decide_eq_true htp, decide_eq_true hprice⟩
  have hpasses : j.feeProfitable cfg = true := hmet .fee hpassed.1 happlies
  -- the close at the take-profit, in the signal's terms
  have hexit : j.tp1Price = j.sig.tp1 := if_pos (decide_eq_true htp)
  have hclosed : 0 < (j.atTakeProfit now qty).qty :=
    hqty.trans_eq (if_neg (not_le.2 hqty) : (j.atTakeProfit now qty).qty = qty).symm
  have hside : j.side = "long" ↔ j.sig.action = "buy" := by
    unfold side
    split_ifs with hbuy
    · exact iff_of_true rfl hbuy
    · exact iff_of_false (by decide) hbuy
  have hgains : (j.atTakeProfit now qty).Gains ↔ j.TpSane := by
    have hhas : j.sig.hasTp1 = true := decide_eq_true htp
    show (if j.side = "long" then j.sig.price < j.tp1Price else j.tp1Price < j.sig.price) ↔ _
    simp only [TpSane, hhas, forall_const, hside, hexit]
  have hloss : ¬ j.TpSane → (j.atTakeProfit now qty).trade.pnl < 0 := fun hsane =>
    Close.pnl_neg_of_not_gains hprice (show 0 < j.tp1Price from hexit ▸ htp)
      hclosed fun hg => hsane (hgains.1 hg)
  refine ⟨⟨fun hpos => ?_, fun hsane => ?_⟩, hloss⟩
  · by_contra hsane
    exact not_lt.2 (hloss hsane).le hpos
  · refine (FeeConfig.covers_iff hcost).1 hcovers (j.atTakeProfit now qty) hprice hclosed
      (hgains.2 hsane) ?_
    show cfg.fees.isTpProfitable j.sig.symbol j.sig.price j.tp1Price (j.costRatio cfg) = true
    rw [hexit]
    exact hpasses

end EntryJob

open SwitchRun in
/-- A buy at 50 with its take-profit at 60 is handed over, and half a unit of
it would be recorded with a profit there. -/
theorem takeProfit_gains_eth :
    ∃ s j, (engineSystem (config false)).Reachable (GateKept (config false)) s ∧
      Job.entry j ∈ s.jobs ∧ j.pc.hands = true ∧
      ((0 < (j.atTakeProfit {} (1 / 2)).trade.pnl ↔ j.TpSane) ∧
        (¬ j.TpSane → (j.atTakeProfit {} (1 / 2)).trade.pnl < 0)) := by
  obtain ⟨s, hrun, hs⟩ := System.exists_run_of_play (M := engineSystem (config false))
    (G := GateKept (config false)) (s := start false)
    (.start good :: List.replicate 15 (.work 0))
    (P := fun s => hands (fun j => decide (0 < (config false).fees.breakEvenPct j.sig.symbol ∧
      (config false).fees.Covers j.sig.symbol (j.costRatio (config false)))) s = true)
    (by decide +kernel)
  obtain ⟨j, hmem, hpc, hj⟩ := exists_of_hands hs
  obtain ⟨hcost, hcovers⟩ := of_decide_eq_true hj
  have hreach : (engineSystem (config false)).Reachable (GateKept (config false)) s :=
    ⟨_, start_init false, hrun⟩
  exact ⟨s, j, hreach, hmem, hpc,
    EntryJob.takeProfit_gains_iff hreach hmem hpc hcost hcovers {} (by norm_num)⟩

end WebhookTrader
