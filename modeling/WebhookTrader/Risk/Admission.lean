import WebhookTrader.Common.Checks
import WebhookTrader.Risk.Model.Portfolio

/-!
# What the entry checks admit

The checks look at the open positions and at the entry apart. Said of the
portfolio the entry leads to, they are the caps of that portfolio: its
positions, those on the entry's side and timeframe, and their margins. An
entry that is refused is refused for the first of them that fails.
-/

namespace WebhookTrader

/-- **The position an entry leads to.** -/
def EntryCheck.position (e : EntryCheck) (symbol : String) : ManagedPosition where
  symbol
  timeframe := PortfolioRisk.tfName e.timeframe
  side := e.side
  entryPrice := e.price
  quantity := e.qty
  leverage := e.leverage
  slPrice := e.slPrice

/-- The check an entry has failed. -/
def RiskDecision.failed (d : RiskDecision) : Option String :=
  if d.allowed then none else some d.checkFailed

namespace PortfolioRisk

variable {α : Type} {cfg : PortfolioConfig} {shadow : Bool} {now : Clock}
  {positions : Table α ManagedPosition} {e : EntryCheck} {r : PortfolioRisk} {key : α}
  {symbol : String}

/-! ## The caps of a portfolio -/

/-- A stop-loss is given, and lies beyond the estimated liquidation price. -/
def BeyondLiquidation (e : EntryCheck) : Prop :=
  0 < e.slPrice ∧
    if isLongSide e.side then e.slPrice < e.price * (1 - 9 / 10 / e.leverage)
    else e.price * (1 + 9 / 10 / e.leverage) < e.slPrice

/-- The caps of a portfolio, as far as they are those of an entry's side and
timeframe. -/
def caps (cfg : PortfolioConfig) (shadow : Bool) (portfolio : Table α ManagedPosition)
    (e : EntryCheck) : List (String × Prop) :=
  let tf := tfName e.timeframe
  [("max_concurrent_positions", (portfolio.size : ℤ) ≤ effMaxConcurrent cfg shadow),
    ("max_same_direction",
      (portfolio.count (sameDirection e.side) : ℤ) ≤ effMaxSameDir cfg shadow),
    ("max_positions", (portfolio.size : ℤ) ≤ effMaxTotal cfg shadow),
    ("tf_position_limit", (portfolio.count (fun p => p.timeframe = tf) : ℤ) ≤ tfLimit cfg tf),
    ("tf_exposure", (portfolio.sum fun p => if p.timeframe = tf then margin p else 0) ≤
      e.balance * ((cfg.tfExposurePct.lookup tf).getD 30 / 100)),
    ("correlation_risk",
      portfolio.sum margin * cfg.corrFactor ≤ e.balance * (cfg.maxCorrRiskPct / 100)),
    ("margin_limit", portfolio.sum margin ≤ e.balance * (effMarginPct cfg shadow / 100))]

/-- **What must hold of an entry and of the portfolio with it**, under the
names of the checks and in their order. -/
def conditions (cfg : PortfolioConfig) (shadow : Bool) (portfolio : Table α ManagedPosition)
    (e : EntryCheck) : List (String × Prop) :=
  ("hard_notional_cap", e.price * e.qty ≤ hardMaxNotional) ::
    ("sl_beyond_liquidation", ¬ BeyondLiquidation e) :: caps cfg shadow portfolio e

/-- The breaker is off, or its cooldown is over. -/
def BreakerPasses (cfg : PortfolioConfig) (now : Clock) (r : PortfolioRisk) : Prop :=
  r.cbActive = false ∨ cfg.cbCooldownMin ≤ ((now.steady - r.cbActivatedAt) / minute : ℕ)

/-! ## The checks, one by one -/

/-- A block, or what the rest of the checks says. -/
theorem yields_ite {v c : Prop} [Decidable v] (hv : v ↔ ¬ c) {check reason : String}
    {checks : List (String × Prop)} {d : RiskDecision} (h : Checks.Yields checks d.failed) :
    Checks.Yields ((check, c) :: checks) (if v then block check reason else d).failed := by
  split_ifs with hblock
  · exact .fails (hv.1 hblock)
  · exact .holds (not_not.1 fun hc => hblock (hv.2 hc)) h

/-- The liquidation check blocks what lies beyond the estimate. -/
theorem checkLiquidation_cases (hlev : 1 ≤ e.leverage) :
    checkLiquidation e = none ∧ ¬ BeyondLiquidation e ∨
      ∃ reason, checkLiquidation e = some (block "sl_beyond_liquidation" reason) ∧
        BeyondLiquidation e := by
  have hpos : 0 < e.leverage := hlev
  unfold checkLiquidation BeyondLiquidation
  by_cases hsl : 0 < e.slPrice
  · rw [if_pos ⟨hsl, hpos⟩]
    dsimp only
    split_ifs with hlong hbeyond hbeyond
    · exact .inr ⟨_, rfl, hsl, hbeyond⟩
    · exact .inl ⟨rfl, fun h => hbeyond h.2⟩
    · exact .inr ⟨_, rfl, hsl, hbeyond⟩
    · exact .inl ⟨rfl, fun h => hbeyond h.2⟩
  · rw [if_neg fun h => hsl h.1]
    exact .inl ⟨rfl, fun h => hsl h.1⟩

/-- Positions with leverage have finite margins. -/
theorem not_endless (hstored : ∀ x ∈ positions.entries, 1 ≤ x.2.leverage)
    {q : ManagedPosition → Bool} : ¬ 0 < positions.count fun p => q p && endless p := by
  rw [Nat.not_lt, Nat.le_zero, Table.count, List.countP_eq_zero]
  intro x hx
  have hlev := hstored x hx
  simp only [endless, Bool.and_eq_true, decide_eq_true_eq, not_and]
  omega

/-- The margin of the position an entry leads to. -/
theorem margin_position (hprice : 0 < e.price) (hqty : 0 < e.qty) :
    margin (e.position symbol) = e.price * e.qty / e.leverage := by
  rw [margin]
  show |e.price * e.qty| / _ = _
  rw [abs_of_pos (mul_pos hprice hqty)]
  rfl

section Candidate

variable [DecidableEq α]

variable (cfg shadow symbol) in
/-- **The checks against the open positions** are the caps of the portfolio
with the entry's position. -/
theorem yields_checkLimits (hfresh : positions.lookup key = none) (hprice : 0 < e.price)
    (hqty : 0 < e.qty) (hlev : 1 ≤ e.leverage)
    (hstored : ∀ x ∈ positions.entries, 1 ≤ x.2.leverage) :
    Checks.Yields (caps cfg shadow (positions.insert key (e.position symbol)) e)
      (checkLimits cfg shadow positions e).failed := by
  have hside : sameDirection e.side (e.position symbol) = true := by
    simp [sameDirection, EntryCheck.position]
  have htf : (e.position symbol).timeframe = tfName e.timeframe := rfl
  have hmargin : margin (e.position symbol) = e.price * e.qty / e.leverage :=
    margin_position hprice hqty
  have hlever : ¬ e.leverage = 0 := by omega
  have hendless := not_endless hstored (q := fun _ => true)
  have htfEndless := not_endless hstored (q := fun p => p.timeframe = tfName e.timeframe)
  simp only [Bool.true_and] at hendless
  unfold caps checkLimits
  dsimp only
  rw [Table.size_insert hfresh, Table.count_insert hfresh, Table.count_insert hfresh,
    Table.sum_insert hfresh, Table.sum_insert hfresh, hside, htf, hmargin]
  simp only [hlever, hendless, htfEndless, decide_false, decide_true, Bool.false_and,
    Bool.false_or, Bool.false_eq_true, false_or, if_true]
  refine yields_ite ?_ (yields_ite ?_ (yields_ite ?_ (yields_ite ?_ (yields_ite ?_
    (yields_ite ?_ (yields_ite ?_ .passed))))))
  · push_cast
    omega
  · push_cast
    omega
  · push_cast
    omega
  · push_cast
    omega
  · rw [not_le, add_comm]
  · rw [not_le, add_comm]
  · rw [not_le, add_comm]

variable (cfg shadow symbol) in
/-- **What `check_entry` answers**: the first condition that fails. -/
theorem yields_checkEntry (hfresh : positions.lookup key = none) (hprice : 0 < e.price)
    (hqty : 0 < e.qty) (hlev : 1 ≤ e.leverage)
    (hstored : ∀ x ∈ positions.entries, 1 ≤ x.2.leverage) (hbreaker : BreakerPasses cfg now r) :
    Checks.Yields (conditions cfg shadow (positions.insert key (e.position symbol)) e)
      (checkEntry cfg shadow now positions e r).1.failed := by
  have hlimits := yields_checkLimits cfg shadow symbol hfresh
    hprice hqty hlev hstored
  -- the daily reset does not touch the breaker
  have hreset : BreakerPasses cfg now (r.checkDailyReset now) := by
    unfold checkDailyReset
    dsimp only
    split_ifs <;> exact hbreaker
  unfold checkEntry
  dsimp only
  by_cases hcap : hardMaxNotional < e.price * e.qty
  · rw [if_pos hcap]
    exact .fails (not_le.2 hcap)
  rw [if_neg hcap]
  refine .holds (not_lt.1 hcap) ?_
  rcases checkLiquidation_cases hlev with ⟨hnone, hwithin⟩ | ⟨reason, hsome, hbeyond⟩
  · rw [hnone]
    refine .holds hwithin ?_
    rcases hreset with hoff | hcool
    · simp only [hoff, Bool.false_eq_true, if_false]
      exact hlimits
    · simp only [checkCbCooldown, if_pos hcool, if_true]
      split_ifs <;> exact hlimits
  · rw [hsome]
    exact .fails (not_not.2 hbeyond)

end Candidate

end PortfolioRisk

open PortfolioRisk in
/-- **`check_entry` admits what leaves every cap of the portfolio kept**, and
names the first condition that fails where it refuses. For any portfolio,
mode and configuration, with the breaker off or its cooldown over. -/
theorem checkEntry_admits_iff {α : Type} [DecidableEq α] (cfg : PortfolioConfig) (shadow : Bool)
    (now : Clock) (positions : Table α ManagedPosition) (e : EntryCheck) (r : PortfolioRisk)
    (key : α) (symbol : String) (hfresh : positions.lookup key = none) (hprice : 0 < e.price)
    (hqty : 0 < e.qty) (hlev : 1 ≤ e.leverage)
    (hstored : ∀ x ∈ positions.entries, 1 ≤ x.2.leverage) (hbreaker : BreakerPasses cfg now r) :
    ((checkEntry cfg shadow now positions e r).1.allowed = true ↔
      ∀ check ∈ conditions cfg shadow (positions.insert key (e.position symbol)) e, check.2) ∧
    ((checkEntry cfg shadow now positions e r).1.allowed = false →
      ∃ before c rest, conditions cfg shadow (positions.insert key (e.position symbol)) e =
          before ++ ((checkEntry cfg shadow now positions e r).1.checkFailed, c) :: rest ∧
        ¬ c ∧ ∀ check ∈ before, check.2) := by
  have hyields := yields_checkEntry cfg shadow symbol hfresh hprice
    hqty hlev hstored hbreaker
  constructor
  · rw [← hyields.eq_none_iff, RiskDecision.failed]
    split_ifs with hallowed
    · exact iff_of_true hallowed rfl
    · exact iff_of_false hallowed nofun
  · intro hrefused
    rw [RiskDecision.failed, hrefused] at hyields
    exact hyields.first

namespace AdmissionRun

/-- A position on the hourly chart. -/
def held : ManagedPosition where
  symbol := "ETHUSDT"
  timeframe := "60"
  side := "long"
  entryPrice := 100
  quantity := 1

/-- An entry of half the hard cap. -/
def entry : EntryCheck where
  timeframe := ""
  price := 50000
  qty := 1 / 200
  leverage := 10
  balance := 1000
  slPrice := 49000

end AdmissionRun

open PortfolioRisk AdmissionRun in
/-- A fresh manager admits the entry next to the position, and refuses it
where one position is all there may be. -/
theorem checkEntry_admits_btc :
    (∀ check ∈ conditions {} false
        ((AList.singleton 0 held : Table ℕ ManagedPosition).insert 1 (entry.position "BTCUSDT"))
        entry, check.2) ∧
      ∃ before c rest, conditions { maxConcurrent := 1 } false
          ((AList.singleton 0 held : Table ℕ ManagedPosition).insert 1
            (entry.position "BTCUSDT")) entry =
          before ++ ("max_concurrent_positions", c) :: rest ∧ ¬ c ∧
        ∀ check ∈ before, check.2 := by
  have hadmits : ∀ cfg : PortfolioConfig, _ := fun cfg =>
    checkEntry_admits_iff cfg false {} (AList.singleton 0 held : Table ℕ ManagedPosition) entry {} 1
      "BTCUSDT" (by decide +kernel) (by decide +kernel) (by decide +kernel) (by decide)
      (by decide +kernel) (.inl rfl)
  refine ⟨(hadmits {}).1.1 (by decide +kernel), ?_⟩
  have hname : (checkEntry { maxConcurrent := 1 } false {}
      (AList.singleton 0 held : Table ℕ ManagedPosition) entry {}).1.checkFailed =
        "max_concurrent_positions" := by decide +kernel
  rw [← hname]
  exact (hadmits { maxConcurrent := 1 }).2 (by decide +kernel)

end WebhookTrader
