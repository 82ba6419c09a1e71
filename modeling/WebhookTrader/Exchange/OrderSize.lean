import WebhookTrader.Exchange.Model.Rest
import WebhookTrader.Risk.Model.Portfolio
import WebhookTrader.Risk.Model.Manager

/-!
# The size of an order that is sent

After the risk checks the quantity is rounded down to the contract's step
and then raised to the contract's minimum, on purpose, so what is sent is
at most the larger of the approved quantity and the minimum. The printing
that follows keeps a quantity exactly where the places counted from the
step suffice for it; only such contracts are considered here.
-/

namespace WebhookTrader

namespace Contracts

variable {contracts : Contracts} {symbol : String} {qty : ℚ}

/-- **A contract with usable numbers**, or none at all, which gets the
defaults. -/
def Usable (contracts : Contracts) (symbol : String) : Prop :=
  ∀ info, contracts.lookup symbol = some info → 0 < info.sizeMultiplier ∧ 0 < info.minTradeNum

theorem Usable.sizeMultiplier_pos (h : contracts.Usable symbol) :
    0 < contracts.sizeMultiplier symbol := by
  rw [sizeMultiplier]
  cases hlookup : contracts.lookup symbol with
  | none => norm_num
  | some info => exact (h info hlookup).1

theorem Usable.getMinQty_pos (h : contracts.Usable symbol) : 0 < contracts.getMinQty symbol := by
  rw [getMinQty]
  cases hlookup : contracts.lookup symbol with
  | none => norm_num
  | some info => exact (h info hlookup).2

theorem roundQty_eq (h : 0 < contracts.sizeMultiplier symbol) :
    contracts.roundQty symbol qty = floorTo (contracts.sizeMultiplier symbol) qty := by
  rw [roundQty, if_neg h.not_ge]

/-- The quantity handed to the printer, in one formula. -/
theorem orderQty_eq (h : 0 < contracts.sizeMultiplier symbol) :
    contracts.orderQty symbol qty =
      max (floorTo (contracts.sizeMultiplier symbol) qty) (contracts.getMinQty symbol) := by
  rw [orderQty, roundQty_eq h]
  split_ifs with hlt
  · exact (max_eq_right hlt.le).symm
  · exact (max_eq_left (not_lt.1 hlt)).symm

/-- **Rounding down and raising to the minimum** leaves at most the larger
of the quantity and the minimum. -/
theorem orderQty_le (qty : ℚ) (h : 0 < contracts.sizeMultiplier symbol) :
    contracts.orderQty symbol qty ≤ max qty (contracts.getMinQty symbol) := by
  rw [orderQty_eq h]
  exact max_le_max_right _ (floorTo_le h)

/-- **The printer's places suffice** for the contract's step and minimum. -/
structure Printable (contracts : Contracts) (symbol : String) : Prop where
  step : Numeral.Exact (contracts.decimals symbol) (contracts.sizeMultiplier symbol)
  minimum : Numeral.Exact (contracts.decimals symbol) (contracts.getMinQty symbol)

/-- On such a contract the text denotes the quantity. -/
theorem value_orderSize (h : 0 < contracts.sizeMultiplier symbol)
    (hp : contracts.Printable symbol) :
    (contracts.orderSize symbol qty).value = contracts.orderQty symbol qty := by
  refine Numeral.value_printf ?_
  rw [orderQty_eq h]
  exact (hp.step.floorTo qty).max hp.minimum

end Contracts

section Approved

variable {contracts : Contracts} {req : OrderRequest} {cfg : PortfolioConfig} {shadow : Bool}
  {now : Clock} {positions : Table String ManagedPosition} {e : EntryCheck} {r : PortfolioRisk}
  {limits : RiskLimits} {m : RiskManager}

/-- **What is sent of an approved entry.** The quantity handed to the
printer is at most the approved one or the contract's minimum. Where the
printer's places suffice, the request's size is the approved quantity
rounded down to the step, or the minimum where that is more; so the
notional exceeds the hard cap by no more than the minimum asks for. -/
theorem size_of_approved (presetTp presetSl : ℚ) (husable : contracts.Usable req.symbol)
    (hqty : e.qty = req.quantity)
    (hcheck : (PortfolioRisk.checkEntry cfg shadow now positions e r).1.allowed = true)
    (hvalid : m.validate limits req.symbol (req.tradeSide = .open) req.quantity = true) :
    let size := (placeFuturesOrder contracts req presetTp presetSl).size.value
    let minimum := contracts.getMinQty req.symbol
    0 < req.quantity ∧ contracts.orderQty req.symbol req.quantity ≤ max req.quantity minimum ∧
      (contracts.Printable req.symbol →
        size = max (floorTo (contracts.sizeMultiplier req.symbol) req.quantity) minimum ∧
          size ≤ max req.quantity minimum ∧
          e.price * size ≤ max PortfolioRisk.hardMaxNotional (e.price * minimum)) := by
  have hstep := husable.sizeMultiplier_pos
  have hle := Contracts.orderQty_le req.quantity hstep
  have hcap : e.price * req.quantity ≤ PortfolioRisk.hardMaxNotional :=
    hqty ▸ (PortfolioRisk.of_checkEntry_allowed hcheck).1
  have hpos : 0 < req.quantity := by
    simp only [RiskManager.validate, RiskManager.validSize, Bool.and_eq_true,
      decide_eq_true_eq] at hvalid
    exact hvalid.1.1.2.1
  intro size minimum
  refine ⟨hpos, hle, fun hprint => ?_⟩
  have hvalue : size = contracts.orderQty req.symbol req.quantity :=
    Contracts.value_orderSize hstep hprint
  refine ⟨hvalue.trans (Contracts.orderQty_eq hstep), hvalue.trans_le hle, ?_⟩
  have hnonneg : 0 ≤ size := by
    rw [hvalue, Contracts.orderQty_eq hstep]
    exact le_max_of_le_right husable.getMinQty_pos.le
  rcases le_total 0 e.price with hprice | hprice
  · calc e.price * size ≤ e.price * max req.quantity minimum :=
          mul_le_mul_of_nonneg_left (hvalue.trans_le hle) hprice
      _ = max (e.price * req.quantity) (e.price * minimum) := mul_max_of_nonneg _ _ hprice
      _ ≤ max PortfolioRisk.hardMaxNotional (e.price * minimum) := max_le_max_right _ hcap
  · calc e.price * size ≤ 0 := mul_nonpos_of_nonpos_of_nonneg hprice hnonneg
      _ ≤ PortfolioRisk.hardMaxNotional := by norm_num [PortfolioRisk.hardMaxNotional]
      _ ≤ max PortfolioRisk.hardMaxNotional (e.price * minimum) := le_max_left _ _

/-- A contract traded in whole coins, five at least. -/
def wholeCoins : Contracts := AList.singleton "PENGUUSDT" { sizeMultiplier := 1, minTradeNum := 5 }

/-- Two coins at three dollars each. -/
def twoCoins : OrderRequest where
  symbol := "PENGUUSDT"
  side := .buy
  tradeSide := .open
  price := 3
  quantity := 2
  clientOrderId := 0

def twoCoinsCheck : EntryCheck where
  timeframe := "15"
  price := 3
  qty := 2
  leverage := 10
  balance := 1000

theorem wholeCoins_usable : wholeCoins.Usable twoCoins.symbol := by
  intro info h
  have hlookup : wholeCoins.lookup twoCoins.symbol =
      some { sizeMultiplier := 1, minTradeNum := 5 } := rfl
  rw [hlookup] at h
  cases h
  norm_num

theorem twoCoins_allowed :
    (PortfolioRisk.checkEntry {} false {} (∅ : Table String ManagedPosition) twoCoinsCheck
      {}).1.allowed = true := by
  decide +kernel

theorem twoCoins_valid :
    RiskManager.validate {} twoCoins.symbol true twoCoins.quantity {} = true := by
  decide +kernel

theorem size_of_approved_twoCoins :
    0 < twoCoins.quantity ∧
      wholeCoins.orderQty twoCoins.symbol twoCoins.quantity ≤
        max twoCoins.quantity (wholeCoins.getMinQty twoCoins.symbol) :=
  have h := size_of_approved 0 0 wholeCoins_usable rfl twoCoins_allowed twoCoins_valid
  ⟨h.1, h.2.1⟩

/-- **More is sent than was approved** where the minimum is not met: five
coins for two. -/
theorem size_exceeds_approved :
    wholeCoins.Usable twoCoins.symbol ∧
      (PortfolioRisk.checkEntry {} false {} (∅ : Table String ManagedPosition) twoCoinsCheck
        {}).1.allowed = true ∧
      RiskManager.validate {} twoCoins.symbol true twoCoins.quantity {} = true ∧
      ¬ (placeFuturesOrder wholeCoins twoCoins 0 0).size.value ≤ twoCoins.quantity :=
  ⟨wholeCoins_usable, twoCoins_allowed, twoCoins_valid, by decide +kernel⟩

end Approved

end WebhookTrader
