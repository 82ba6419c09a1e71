import WebhookTrader.Engine.Gate
import WebhookTrader.Engine.Sizing

/-!
# The exits of a real order

`check_entry` compares the signal's stop-loss with the liquidation price
only, the fee check takes the distance to the take-profit on either side,
and the backup's stop-loss is put in after both. So an order that is
handed over has been sized at a positive price and cleared of an early
liquidation, and whether its exits are sane depends on the signal and the
configuration in just the way said here.
-/

namespace WebhookTrader

/-- The order has its size and leverage. -/
def EntryPc.sized (pc : EntryPc) : Bool := pc = .checkEntry || pc.reserves

namespace EntryPc

theorem sized_of_reserves {pc : EntryPc} (h : pc.reserves = true) : pc.sized = true := by
  rw [sized, h, Bool.or_true]

theorem reserves_of_hands {pc : EntryPc} (h : pc.hands = true) : pc.reserves = true := by
  cases pc <;> simp_all [hands, reserves]

end EntryPc

namespace EntryJob

variable {cfg : EngineConfig} {j j' : EntryJob} {s s' : Shared}

/-! ## What an order has passed -/

/-- The leverage the sizer answers with. -/
def askedLeverage (cfg : EngineConfig) (j : EntryJob) : ℤ :=
  match j.rd.bestScore with
  | some score => min cfg.trading.defaultLeverage score.maxLeverage
  | none => min cfg.trading.defaultLeverage 10

theorem orderLeverage_sizeQuery :
    (j.sizeQuery cfg s).orderLeverage = j.askedLeverage cfg := by
  rw [SizerConfig.Query.orderLeverage, sizeQuery, askedLeverage]
  cases j.rd.bestScore with
  | none => rfl
  | some score => exact min_eq_left (min_le_right _ _)

/-- **What a run has passed**: the sizing, and then the liquidation check. -/
structure Vetted (cfg : EngineConfig) (j : EntryJob) : Prop where
  sized : j.pc.sized = true → 0 < j.sig.price ∧ j.leverage = j.askedLeverage cfg
  cleared : j.pc.reserves = true → ∀ s, PortfolioRisk.checkLiquidation (j.entryCheck s) = none

/-- Before the sizing there is nothing to have passed. -/
theorem vetted_of_not_sized (h : j.pc.sized = false) : j.Vetted cfg where
  sized hsized := absurd (h.symm.trans hsized) Bool.false_ne_true
  cleared hreserves :=
    absurd (h.symm.trans (EntryPc.sized_of_reserves hreserves)) Bool.false_ne_true

/-- Moving on, with the signal, the readings and the leverage as they are. -/
theorem Vetted.move (h : j.Vetted cfg) (hsig : j'.sig = j.sig) (hrd : j'.rd = j.rd)
    (hleverage : j'.leverage = j.leverage) (hreserves : j'.pc.reserves = true → j.pc.reserves = true)
    (hcheck : j'.pc ≠ .checkEntry) : j'.Vetted cfg := by
  have hold : j'.pc.sized = true → j.pc.reserves = true := by
    intro hsized
    rw [EntryPc.sized, Bool.or_eq_true, decide_eq_true_eq] at hsized
    exact hreserves (hsized.resolve_left hcheck)
  constructor
  · intro hsized
    rw [hsig, hleverage, askedLeverage, hrd]
    exact h.sized (EntryPc.sized_of_reserves (hold hsized))
  · intro hres s
    have hcleared := h.cleared (hreserves hres) s
    simp only [PortfolioRisk.checkLiquidation, entryCheck, slPrice, side, hsig, hleverage]
      at hcleared ⊢
    exact hcleared

theorem Vetted.of_goto {pc p : EntryPc} {s₁ : Shared} (h : j.Vetted cfg)
    (hgo : some (j.goto pc, s₁) = some (j', s')) (hpc : j.pc = p)
    (hreserves : pc.reserves = true → p.reserves = true) (hcheck : pc ≠ .checkEntry) :
    j'.Vetted cfg := by
  cases hgo
  subst hpc
  exact h.move rfl rfl rfl hreserves hcheck

theorem afterAttempt_ne_checkEntry {again second : Bool} {answer : Option Json} :
    afterAttempt again second answer ≠ .checkEntry := fun heq =>
  absurd (afterAttempt_inFlight.symm.trans (congrArg EntryPc.inFlight heq)) nofun

theorem afterOrder_ne_checkEntry {again : Bool} {resp : OrderResponse} :
    afterOrder again resp ≠ .checkEntry := by
  unfold afterOrder
  split_ifs <;> exact nofun

/-- **Every step keeps a run vetted.** -/
theorem vetted_of_step (hj : j.Vetted cfg) (h : j.step cfg s = some (j', s')) : j'.Vetted cfg := by
  cases hpc : j.pc
  case sizing =>
    -- the one step that sizes
    by_cases hunsized : j.Unsized cfg s
    · rw [(step_sizing hpc).1 hunsized] at h
      exact hj.of_goto h hpc id (by rintro ⟨⟩)
    · rw [(step_sizing hpc).2 hunsized] at h
      cases h
      have hanswers := answers_of_not_unsized hunsized
      refine ⟨fun _ => ⟨hanswers.price_pos, ?_⟩, (by rintro ⟨⟩)⟩
      exact hanswers.leverage.trans orderLeverage_sizeQuery
  case checkEntry =>
    -- the one step that clears
    simp only [step, hpc] at h
    split_ifs at h with hconflict hallowed
    · exact hj.of_goto h hpc (by rintro ⟨⟩) (by rintro ⟨⟩)
    · cases h
      refine ⟨fun _ => hj.sized (by rw [hpc]; rfl), fun _ t => ?_⟩
      have hcleared := PortfolioRisk.checkLiquidation_of_allowed hallowed
      exact hcleared
    · exact hj.of_goto h hpc (by rintro ⟨⟩) (by rintro ⟨⟩)
  all_goals simp only [step, hpc] at h
  case lock | readActive | tierGate | tfGate | tp1Shadow | tp1Active | feeGate =>
    split_ifs at h <;> exact hj.of_goto h hpc (by rintro ⟨⟩) (by rintro ⟨⟩)
  case validateBreaker | validateOrders | validateSymbol | dispatchShadow | dispatchActive =>
    split_ifs at h <;> exact hj.of_goto h hpc (fun _ => rfl) (by rintro ⟨⟩)
  case registerPaper | registerReal | unlock => exact hj.of_goto h hpc (by rintro ⟨⟩) (by rintro ⟨⟩)
  case placed again => exact hj.of_goto h hpc id (by rintro ⟨⟩)
  case orderDone again resp => exact hj.of_goto h hpc (fun _ => rfl) afterOrder_ne_checkEntry
  case opened => exact hj.of_goto h hpc id (by rintro ⟨⟩)
  case readEligible =>
    cases h
    exact hj.move rfl rfl rfl (by rintro ⟨⟩) (by rintro ⟨⟩)
  case takeOid =>
    cases h
    exact hj.move rfl rfl rfl (fun _ => by rw [hpc]; rfl) (by rintro ⟨⟩)
  case request again second =>
    cases h
    exact hj.move rfl rfl rfl (fun _ => by rw [hpc]; rfl) afterAttempt_ne_checkEntry
  case finished => cases h

/-! ## Sane exits -/

/-- **The exits an order carries are sane**: the attached take-profit is on
the profit side, and the attached stop-loss on the loss side and not
beyond the estimated liquidation. -/
structure SaneExits (cfg : EngineConfig) (j : EntryJob) : Prop where
  takeProfit : 0 < j.tp1Price →
    if j.sig.action = "buy" then j.sig.price < j.tp1Price else j.tp1Price < j.sig.price
  stopLoss : 0 < j.presetSl cfg →
    if j.sig.action = "buy" then
      j.sig.price * (1 - 9 / 10 / j.leverage) ≤ j.presetSl cfg ∧ j.presetSl cfg < j.sig.price
    else
      j.sig.price < j.presetSl cfg ∧ j.presetSl cfg ≤ j.sig.price * (1 + 9 / 10 / j.leverage)

/-- The signal's take-profit is on the profit side, where it has one. -/
def TpSane (j : EntryJob) : Prop :=
  j.sig.hasTp1 = true →
    if j.sig.action = "buy" then j.sig.price < j.sig.tp1 else j.sig.tp1 < j.sig.price

/-- The signal's stop-loss is on the loss side, where it has one, and else
the backup's is reached before the liquidation. A backup of the whole
price attaches nothing to a buy. -/
def SlSane (cfg : EngineConfig) (j : EntryJob) : Prop :=
  if j.sig.hasSl = true then
    if j.sig.action = "buy" then j.sig.sl < j.sig.price else j.sig.price < j.sig.sl
  else
    cfg.trading.backupSlPct ≤ 0 ∨
      cfg.trading.backupSlPct * j.askedLeverage cfg ≤ 9 / 10 ∨
      j.sig.action = "buy" ∧ 1 ≤ cfg.trading.backupSlPct

theorem isLongSide_side : isLongSide j.side = true ↔ j.sig.action = "buy" := by
  unfold side
  split_ifs with hbuy
  · exact iff_of_true (by decide) hbuy
  · exact iff_of_false (by decide) hbuy

/-- What the liquidation check says of a stop-loss. -/
theorem liquidation_of_cleared (hcleared : PortfolioRisk.checkLiquidation (j.entryCheck s) = none)
    (hsl : 0 < j.slPrice) (hleverage : 1 ≤ j.leverage) :
    if j.sig.action = "buy" then j.sig.price * (1 - 9 / 10 / j.leverage) ≤ j.slPrice
    else j.slPrice ≤ j.sig.price * (1 + 9 / 10 / j.leverage) := by
  have hpos : 0 < (j.entryCheck s).slPrice ∧ 0 < (j.entryCheck s).leverage :=
    ⟨hsl, show 0 < j.leverage by omega⟩
  rw [PortfolioRisk.checkLiquidation, if_pos hpos] at hcleared
  have hside : isLongSide (j.entryCheck s).side = true ↔ j.sig.action = "buy" :=
    isLongSide_side
  simp only [hside] at hcleared
  split_ifs at hcleared ⊢ with hbuy hlow hhigh
  · exact not_lt.1 hlow
  · exact not_lt.1 hhigh

/-- A stop-loss of the signal is attached as it is. -/
theorem presetSl_of_hasSl (h : j.sig.hasSl = true) : j.presetSl cfg = j.sig.sl := by
  have hsl : j.slPrice = j.sig.sl := if_pos h
  have hpos : 0 < j.sig.sl := of_decide_eq_true h
  rw [presetSl, hsl, if_neg fun hbackup => absurd hbackup.1 (not_le.2 hpos)]

/-- Without one the backup's is attached, where there is a backup. -/
theorem presetSl_of_not_hasSl (h : ¬ j.sig.hasSl = true) (hprice : 0 < j.sig.price) :
    j.presetSl cfg =
      if 0 < cfg.trading.backupSlPct then
        if j.sig.action = "buy" then j.sig.price * (1 - cfg.trading.backupSlPct)
        else j.sig.price * (1 + cfg.trading.backupSlPct)
      else 0 := by
  have hsl : j.slPrice = 0 := if_neg h
  simp only [presetSl, hsl, le_refl, hprice, true_and, and_true]

/-- **A backup stop-loss** is before the liquidation price where its share
of the price, leveraged, leaves a tenth of the margin. -/
theorem backup_le_iff (pct : ℚ) {price : ℚ} {leverage : ℤ} (hprice : 0 < price)
    (hleverage : 1 ≤ leverage) :
    (price * (1 - 9 / 10 / leverage) ≤ price * (1 - pct) ↔ pct * leverage ≤ 9 / 10) ∧
      (price * (1 + pct) ≤ price * (1 + 9 / 10 / leverage) ↔ pct * leverage ≤ 9 / 10) := by
  have hpos : (0 : ℚ) < leverage := by exact_mod_cast (show 0 < leverage by omega)
  rw [mul_le_mul_iff_right₀ hprice, mul_le_mul_iff_right₀ hprice, sub_le_sub_iff_left,
    add_le_add_iff_left, le_div_iff₀ hpos]
  exact ⟨.rfl, .rfl⟩

theorem takeProfit_iff :
    (0 < j.tp1Price →
      if j.sig.action = "buy" then j.sig.price < j.tp1Price else j.tp1Price < j.sig.price) ↔
      j.TpSane := by
  rw [TpSane, tp1Price]
  by_cases htp : j.sig.hasTp1 = true
  · have hpos : 0 < j.sig.tp1 := of_decide_eq_true htp
    simp only [htp, hpos, if_true, forall_const]
  · simp only [htp, Bool.false_eq_true, if_false, lt_irrefl, false_imp_iff]

theorem stopLoss_iff (hprice : 0 < j.sig.price) (hleverage : 1 ≤ j.leverage)
    (hasked : j.leverage = j.askedLeverage cfg)
    (hcleared : PortfolioRisk.checkLiquidation (j.entryCheck s) = none) :
    (0 < j.presetSl cfg →
      if j.sig.action = "buy" then
        j.sig.price * (1 - 9 / 10 / j.leverage) ≤ j.presetSl cfg ∧ j.presetSl cfg < j.sig.price
      else
        j.sig.price < j.presetSl cfg ∧ j.presetSl cfg ≤ j.sig.price * (1 + 9 / 10 / j.leverage)) ↔
      j.SlSane cfg := by
  rw [SlSane, ← hasked]
  by_cases hsl : j.sig.hasSl = true
  · -- the liquidation is out of the way, and the loss side is left
    have hpos : 0 < j.sig.sl := of_decide_eq_true hsl
    have hslPrice : j.slPrice = j.sig.sl := if_pos hsl
    have hliq := liquidation_of_cleared hcleared (hslPrice ▸ hpos) hleverage
    rw [hslPrice] at hliq
    rw [presetSl_of_hasSl hsl, if_pos hsl]
    split_ifs at hliq ⊢
    · exact ⟨fun h => (h hpos).2, fun h _ => ⟨hliq, h⟩⟩
    · exact ⟨fun h => (h hpos).1, fun h _ => ⟨h, hliq⟩⟩
  rw [presetSl_of_not_hasSl hsl hprice, if_neg hsl]
  by_cases hpct : 0 < cfg.trading.backupSlPct
  swap
  · simp only [hpct, if_false, lt_irrefl, false_imp_iff, not_lt.1 hpct, true_or]
  simp only [hpct, if_true, not_le.2 hpct, false_or]
  have hbackup := backup_le_iff cfg.trading.backupSlPct hprice hleverage
  by_cases hbuy : j.sig.action = "buy"
  · have hloss : j.sig.price * (1 - cfg.trading.backupSlPct) < j.sig.price :=
      mul_lt_of_lt_one_right hprice (by linarith)
    have hattached : 0 < j.sig.price * (1 - cfg.trading.backupSlPct) ↔
        cfg.trading.backupSlPct < 1 := by
      rw [mul_pos_iff_of_pos_left hprice, sub_pos]
    simp only [hbuy, if_true, true_and, hbackup.1, hloss, and_true, hattached, imp_iff_not_or,
      not_lt]
    exact or_comm
  · have hloss : j.sig.price < j.sig.price * (1 + cfg.trading.backupSlPct) :=
      lt_mul_of_one_lt_right hprice (by linarith)
    simp only [hbuy, if_false, false_and, or_false, hbackup.2, hloss, true_and, hprice.trans hloss,
      forall_const]

/-- What is attached at all: the signal's exits, and else the backup's
stop-loss. -/
theorem attached_iff (hprice : 0 < j.sig.price) :
    0 < j.tp1Price ∧ 0 < j.presetSl cfg ↔
      j.sig.hasTp1 = true ∧ (j.sig.hasSl = true ∨ 0 < cfg.trading.backupSlPct ∧
        (j.sig.action = "buy" → cfg.trading.backupSlPct < 1)) := by
  refine and_congr ?_ ?_
  · rw [tp1Price]
    split_ifs with htp
    · exact iff_of_true (of_decide_eq_true htp) htp
    · exact iff_of_false (lt_irrefl 0) htp
  · by_cases hsl : j.sig.hasSl = true
    · rw [presetSl_of_hasSl hsl]
      exact iff_of_true (of_decide_eq_true hsl) (.inl hsl)
    rw [presetSl_of_not_hasSl hsl hprice]
    simp only [hsl, Bool.false_eq_true, false_or]
    by_cases hpct : 0 < cfg.trading.backupSlPct
    swap
    · simp only [hpct, if_false, lt_irrefl, false_and]
    simp only [hpct, if_true, true_and]
    split_ifs with hbuy
    · rw [mul_pos_iff_of_pos_left hprice, sub_pos]
      exact ⟨fun h _ => h, fun h => h hbuy⟩
    · have hpos : 0 < j.sig.price * (1 + cfg.trading.backupSlPct) :=
        mul_pos hprice (by linarith)
      exact iff_of_true hpos fun hbuy' => absurd hbuy' hbuy

theorem vetted_of_reachable {s : Engine} (h : (engineSystem cfg).Reachable System.anyStep s)
    (hj : Job.entry j ∈ s.jobs) : j.Vetted cfg := by
  refine Engine.entry_invariant (fun j hlock => ?_) (fun j s j' s' hj hstep => ?_) h hj
  · exact vetted_of_not_sized (by rw [hlock]; rfl)
  · exact vetted_of_step hj hstep

/-- **When the exits of a real order are sane.** Of whatever order is being
handed to `place_futures_order`, they are where the signal's take-profit
and stop-loss are on their sides of the price, and a backup's stop-loss
comes before the liquidation. Both are there where the signal has a
take-profit, and a stop-loss or a backup. -/
theorem saneExits_iff {s : Engine} (h : (engineSystem cfg).Reachable System.anyStep s)
    (hj : Job.entry j ∈ s.jobs) (hpc : j.pc.hands = true) (hleverage : 1 ≤ j.leverage) :
    (j.SaneExits cfg ↔ j.TpSane ∧ j.SlSane cfg) ∧
      (0 < j.tp1Price ∧ 0 < j.presetSl cfg ↔
        j.sig.hasTp1 = true ∧ (j.sig.hasSl = true ∨ 0 < cfg.trading.backupSlPct ∧
          (j.sig.action = "buy" → cfg.trading.backupSlPct < 1))) := by
  have hvetted := vetted_of_reachable h hj
  have hreserves := EntryPc.reserves_of_hands hpc
  obtain ⟨hprice, hasked⟩ := hvetted.sized (EntryPc.sized_of_reserves hreserves)
  have hcleared := hvetted.cleared hreserves s.shared
  have hstop := stopLoss_iff hprice hleverage hasked hcleared
  refine ⟨?_, attached_iff hprice⟩
  constructor
  · rintro ⟨htp, hsl⟩
    exact ⟨takeProfit_iff.1 htp, hstop.1 hsl⟩
  · rintro ⟨htp, hsl⟩
    exact ⟨takeProfit_iff.2 htp, hstop.2 hsl⟩

end EntryJob

/-! ## Three signals at a hundred -/

namespace ExitsRun

def config (backupSlPct : ℚ) : EngineConfig where
  trading := { backupSlPct }

/-- A buy at a hundred, with its exits. -/
def buy (tp1 sl : ℚ) : Job :=
  .entry
    { sig := { symbol := "BTCUSDT", action := "buy", timeframe := "15", price := 100, tp1, sl }
      rd := { symbolTier := "A" } }

/-- The run up to the hand-over of its order. -/
def handOver (tp1 sl : ℚ) : List EngineLabel :=
  .start (buy tp1 sl) :: List.replicate 15 (.work 0)

instance (cfg : EngineConfig) (j : EntryJob) : Decidable (j.SaneExits cfg) :=
  decidable_of_iff
    ((0 < j.tp1Price →
      if j.sig.action = "buy" then j.sig.price < j.tp1Price else j.tp1Price < j.sig.price) ∧
    (0 < j.presetSl cfg →
      if j.sig.action = "buy" then
        j.sig.price * (1 - 9 / 10 / j.leverage) ≤ j.presetSl cfg ∧ j.presetSl cfg < j.sig.price
      else
        j.sig.price < j.presetSl cfg ∧ j.presetSl cfg ≤ j.sig.price * (1 + 9 / 10 / j.leverage)))
    ⟨fun h => ⟨h.1, h.2⟩, fun h => ⟨h.1, h.2⟩⟩

/-- The run comes to the hand-over, and the order there has a property. -/
theorem exists_handOver (backupSlPct tp1 sl : ℚ) (P : EntryJob → Prop) [DecidablePred P]
    (h : ((engineSystem (config backupSlPct)).play System.anyStep (SwitchRun.start false)
      (handOver tp1 sl)).any
        (fun s => decide (SwitchRun.hands (fun j => decide (P j)) s = true)) = true) :
    ∃ s j, (engineSystem (config backupSlPct)).Reachable System.anyStep s ∧
      Job.entry j ∈ s.jobs ∧ j.pc.hands = true ∧ P j := by
  obtain ⟨s, hrun, hs⟩ := System.exists_run_of_play _ h
  obtain ⟨j, hmem, hpc, hj⟩ := SwitchRun.exists_of_hands hs
  have hinit : (engineSystem (config backupSlPct)).init (SwitchRun.start false) :=
    ⟨rfl, ⟨rfl, rfl, ⟨1000, rfl⟩, rfl, rfl⟩⟩
  exact ⟨s, j, ⟨_, hinit, hrun⟩, hmem, hpc, of_decide_eq_true hj⟩

/-- A buy at 100 with this take-profit and this stop-loss is handed over with
exits that are not sane. -/
def HandsOverInsane (backupSlPct tp1 sl : ℚ) : Prop :=
  ∃ s j, (engineSystem (config backupSlPct)).Reachable System.anyStep s ∧
    Job.entry j ∈ s.jobs ∧ j.pc.hands = true ∧ (1 ≤ j.leverage ∧ j.sig.action = "buy" ∧
      j.sig.price = 100 ∧ j.sig.tp1 = tp1 ∧ j.sig.sl = sl ∧ ¬ j.SaneExits (config backupSlPct))

end ExitsRun

open ExitsRun in
theorem saneExits_iff_btc :
    ∃ s j, (engineSystem (config (3 / 100))).Reachable System.anyStep s ∧
      Job.entry j ∈ s.jobs ∧ j.pc.hands = true ∧ j.SaneExits (config (3 / 100)) := by
  obtain ⟨s, j, hreach, hmem, hpc, hleverage, htp, hsl⟩ :=
    exists_handOver (3 / 100) 110 0
      (fun j => 1 ≤ j.leverage ∧ (j.sig.action = "buy" ∧ j.sig.price < j.sig.tp1) ∧
        j.sig.hasSl = false ∧ 3 / 100 * (j.askedLeverage (config (3 / 100)) : ℚ) ≤ 9 / 10)
      (by decide +kernel)
  refine ⟨s, j, hreach, hmem, hpc,
    (EntryJob.saneExits_iff hreach hmem hpc hleverage).1.2 ⟨fun _ => ?_, ?_⟩⟩
  · rw [if_pos htp.1]
    exact htp.2
  · rw [EntryJob.SlSane, if_neg (by rw [hsl.1]; exact Bool.false_ne_true)]
    exact .inr (.inl hsl.2)

open ExitsRun in
/-- **Exits on the wrong side.** A buy at 100 with its take-profit at 90, one
with its stop-loss at 105, and one without a stop-loss under a backup of a
tenth, at ten times leverage, are all handed over. -/
theorem insane_exits_handed_over :
    HandsOverInsane (3 / 100) 90 95 ∧ HandsOverInsane (3 / 100) 110 105 ∧
      HandsOverInsane (1 / 10) 110 0 :=
  ⟨exists_handOver (3 / 100) 90 95 _ (by decide +kernel),
    exists_handOver (3 / 100) 110 105 _ (by decide +kernel),
    exists_handOver (1 / 10) 110 0 _ (by decide +kernel)⟩

end WebhookTrader
