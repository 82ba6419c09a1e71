import WebhookTrader.Engine.Steps
import WebhookTrader.Risk.Sizing

/-!
# From a size to an order

`calc_size` bounds the amount by its caps and skips an amount below the
minimum. The handler then multiplies the size, and raises what is left to
the least the exchange takes. What remains of the caps, and of the skip,
is said here exactly.
-/

namespace WebhookTrader

namespace EntryJob

variable {cfg : EngineConfig} {j j' : EntryJob} {s s' : Shared} {found : ℕ → Shared}

/-- The amount of `calc_size` under the timeframe's and the learner's
multipliers. -/
def scaledUsdt (cfg : EngineConfig) (j : EntryJob) (s : Shared) : ℚ :=
  (cfg.sizer.calcSize (j.sizeQuery cfg s)).usdtAmount * j.sizeMultiplier cfg

/-- `calc_size` gives no size. -/
def Unsized (cfg : EngineConfig) (j : EntryJob) (s : Shared) : Prop :=
  (cfg.sizer.calcSize (j.sizeQuery cfg s)).usdtAmount ≤ 0 ∨
    (cfg.sizer.calcSize (j.sizeQuery cfg s)).qty ≤ 0

/-- **The order as the handler sizes it**, raised where it is small. -/
def asked (cfg : EngineConfig) (j : EntryJob) (s : Shared) : EntryJob :=
  { j with
    pc := .checkEntry
    size :=
      if 0 < j.sig.price ∧ j.scaledUsdt cfg s < minNotionalUsdt then minNotionalUsdt / j.sig.price
      else (cfg.sizer.calcSize (j.sizeQuery cfg s)).qty * j.sizeMultiplier cfg
    leverage := (cfg.sizer.calcSize (j.sizeQuery cfg s)).leverage }

/-- The sizing step asks for that order, unless there is no size. -/
theorem step_sizing (hpc : j.pc = .sizing) :
    (j.Unsized cfg s → j.step cfg s = some (j.goto .unlock, s)) ∧
      (¬ j.Unsized cfg s → j.step cfg s = some (j.asked cfg s, s)) := by
  constructor
  · intro hnone
    have hsized : j.sized cfg s = none := if_pos hnone
    simp only [step, hpc, hsized]
  · intro hsome
    have hsized : j.sized cfg s = some ((j.asked cfg s).size, (j.asked cfg s).leverage) :=
      if_neg hsome
    simp only [step, hpc, hsized]
    rfl

/-- What goes on to `check_entry` is the order asked for. -/
theorem asked_of_step (hpc : j.pc = .sizing) (h : j.step cfg s = some (j', s'))
    (hgo : j'.pc = .checkEntry) : ¬ j.Unsized cfg s ∧ j' = j.asked cfg s ∧ s' = s := by
  by_cases hunsized : j.Unsized cfg s
  · rw [(step_sizing hpc).1 hunsized] at h
    obtain ⟨rfl, -⟩ := Prod.mk.inj (Option.some.inj h)
    cases hgo
  · rw [(step_sizing hpc).2 hunsized] at h
    obtain ⟨rfl, rfl⟩ := Prod.mk.inj (Option.some.inj h)
    exact ⟨hunsized, rfl, rfl⟩

/-- A size answers. -/
theorem answers_of_not_unsized (h : ¬ j.Unsized cfg s) :
    cfg.sizer.Answers (j.sizeQuery cfg s) :=
  SizerConfig.answers_of_qty_pos (not_le.1 fun hqty => h (.inr hqty))

/-! ## The caps -/

/-- The order is raised to the least the exchange takes. -/
def Raised (cfg : EngineConfig) (j : EntryJob) (s : Shared) : Prop :=
  SizerConfig.roundTo 2 (cfg.sizer.amount (j.sizeQuery cfg s)) * j.sizeMultiplier cfg <
    minNotionalUsdt

instance : Decidable (j.Raised cfg s) := inferInstanceAs (Decidable (_ < _))

/-- **The notional of the order**: the least one where it is raised, else
the amount under the multipliers. -/
theorem notional_asked (h : ¬ j.Unsized cfg s) :
    j.sig.price * (j.asked cfg s).size =
      if j.Raised cfg s then minNotionalUsdt
      else cfg.sizer.amount (j.sizeQuery cfg s) * j.sizeMultiplier cfg := by
  have hanswers := answers_of_not_unsized h
  have hprice : 0 < j.sig.price := hanswers.price_pos
  have hscaled : j.scaledUsdt cfg s < minNotionalUsdt ↔ j.Raised cfg s := by
    rw [scaledUsdt, hanswers.usdtAmount, Raised]
  have hqty : (cfg.sizer.calcSize (j.sizeQuery cfg s)).qty =
      cfg.sizer.amount (j.sizeQuery cfg s) / j.sig.price := hanswers.qty
  simp only [asked, hscaled, hprice, true_and, hqty]
  split_ifs
  · exact mul_div_cancel₀ _ hprice.ne'
  · field_simp

/-- **When the order is under the caps.** An order that is raised is where
the least notional is, and any other where the multipliers do not enlarge
it or the wanted amount leaves them room. -/
theorem notional_le_cap_iff (hpc : j.pc = .sizing) (h : j.step cfg s = some (j', s'))
    (hgo : j'.pc = .checkEntry) :
    (j'.entryCheck s').price * (j'.entryCheck s').qty ≤
        min (max (s.balance - s.positions.calcUsedMargin cfg.trading.defaultLeverage) 0 *
          cfg.sizer.maxPct) cfg.sizer.maxUsdtHard ↔
      if j.Raised cfg s then minNotionalUsdt ≤ cfg.sizer.cap (j.sizeQuery cfg s)
      else j.sizeMultiplier cfg ≤ 1 ∨
        cfg.sizer.wanted (j.sizeQuery cfg s) * j.sizeMultiplier cfg ≤
          cfg.sizer.cap (j.sizeQuery cfg s) := by
  obtain ⟨hsized, rfl, -⟩ := asked_of_step hpc h hgo
  have hanswers := answers_of_not_unsized hsized
  change j.sig.price * (j.asked cfg s).size ≤ cfg.sizer.cap (j.sizeQuery cfg s) ↔ _
  rw [notional_asked hsized]
  split_ifs
  · rfl
  · exact SizerConfig.amount_mul_le_cap_iff hanswers.amount_pos

/-! ## The skip -/

/-- The run registers a position or sends an order from here. -/
def acts (j : EntryJob) : Bool :=
  match j.pc with
  | .registerPaper => true
  | .registerReal => true
  | .request _ _ => true
  | _ => false

/-- **The run does nothing**: it neither sends an order nor registers a
position, in the states its steps find. -/
def DoesNothing (cfg : EngineConfig) (j : EntryJob) (found : ℕ → Shared) : Prop :=
  ∀ n, (Threads.against (step cfg) found n j).acts = false

/-- **The checks that follow the sizing let the order through**, each in the
state it finds: the portfolio manager's, and the three parts of
`validate`. -/
structure Passes (cfg : EngineConfig) (j : EntryJob) (found : ℕ → Shared) : Prop where
  conflicts : j.conflicts (found 0).positions = false
  allowed : (j.check cfg (found 0)).1.allowed = true
  breaker : (found 2).risk.circuitBreaker = false
  size : RiskManager.validSize cfg.limits j.size = true
  slot : (found 3).risk.hasOrderSlot cfg.limits = true
  symbol : (found 4).risk.validSymbol cfg.limits j.orderRequest.symbol
    (j.orderRequest.tradeSide = .open) = true

/-- What the steps after the next one find. -/
def later (found : ℕ → Shared) : ℕ → Shared := fun n => found (n + 1)

/-- A step from where nothing is done does not change the verdict. -/
theorem doesNothing_iff_of_step (h : j.step cfg (found 0) = some (j', s'))
    (hacts : j.acts = false) : j.DoesNothing cfg found ↔ j'.DoesNothing cfg (later found) := by
  refine (Threads.forall_against_iff (P := fun job => acts job = false)).trans ?_
  constructor
  · rintro ⟨-, hlater⟩
    exact hlater j' s' h
  · intro hlater
    refine ⟨hacts, fun job shared hnext => ?_⟩
    obtain ⟨rfl, -⟩ := Prod.mk.inj (Option.some.inj (h.symm.trans hnext))
    exact hlater

theorem not_doesNothing_of_acts (h : j.acts = true) : ¬ j.DoesNothing cfg found := fun hnothing =>
  Bool.false_ne_true ((hnothing 0).symm.trans h)

/-- A run that only unlocks does nothing. -/
theorem doesNothing_unlock (hpc : j.pc = .unlock) : j.DoesNothing cfg found := by
  have hstep : j.step cfg (found 0) = some (j.goto .finished,
      { found 0 with locked := (found 0).locked.erase j.sig.symbol }) := by
    simp only [step, hpc]
  rw [doesNothing_iff_of_step hstep (by rw [acts, hpc])]
  intro n
  cases n <;> rfl

/-- A run that is dispatched does something, in either mode. -/
theorem not_doesNothing_dispatch (hpc : j.pc = .dispatchShadow) : ¬ j.DoesNothing cfg found := by
  have hshadow : j.step cfg (found 0) =
      some (j.goto (if (found 0).modes.shadowMode then .registerPaper else .dispatchActive),
        found 0) := by
    simp only [step, hpc]
  rw [doesNothing_iff_of_step hshadow (by rw [acts, hpc])]
  split_ifs
  · exact not_doesNothing_of_acts rfl
  have hactive : (j.goto .dispatchActive).step cfg (later found 0) =
      some (j.goto (if (found 1).modes.autoLiveActive && !j.eligible then .registerPaper
        else .placed false), found 1) := rfl
  rw [doesNothing_iff_of_step hactive rfl]
  split_ifs
  · exact not_doesNothing_of_acts rfl
  · have hplaced : (j.goto (.placed false)).step cfg (later (later found) 0) =
        some (j.goto (.request false false),
          { found 2 with risk := (found 2).risk.onOrderPlaced }) := rfl
    rw [doesNothing_iff_of_step hplaced rfl]
    exact not_doesNothing_of_acts rfl

/-- **The parts of `validate` decide**, one after the other. -/
theorem doesNothing_validate_iff (hpc : j.pc = .validateBreaker) :
    j.DoesNothing cfg found ↔
      ¬ ((found 0).risk.circuitBreaker = false ∧
        RiskManager.validSize cfg.limits j.size = true ∧
        (found 1).risk.hasOrderSlot cfg.limits = true ∧
        (found 2).risk.validSymbol cfg.limits j.orderRequest.symbol
          (j.orderRequest.tradeSide = .open) = true) := by
  have hbreaker : j.step cfg (found 0) = some (j.goto
      (if (found 0).risk.circuitBreaker || !RiskManager.validSize cfg.limits j.size then .unlock
      else .validateOrders), found 0) := by
    simp only [step, hpc]
  rw [doesNothing_iff_of_step hbreaker (by rw [acts, hpc])]
  split_ifs with hb
  · refine iff_of_true (doesNothing_unlock rfl) fun hpass => ?_
    simp [hpass.1, hpass.2.1] at hb
  have horders : (j.goto .validateOrders).step cfg (later found 0) =
      some (j.goto (if (found 1).risk.hasOrderSlot cfg.limits then .validateSymbol else .unlock),
        found 1) := rfl
  rw [doesNothing_iff_of_step horders rfl]
  split_ifs with ho
  swap
  · exact iff_of_true (doesNothing_unlock rfl) fun hpass => ho hpass.2.2.1
  have hsymbol : (j.goto .validateSymbol).step cfg (later (later found) 0) =
      some (j.goto (if (found 2).risk.validSymbol cfg.limits j.orderRequest.symbol
        (j.orderRequest.tradeSide = .open) then .dispatchShadow else .unlock), found 2) := rfl
  rw [doesNothing_iff_of_step hsymbol rfl]
  split_ifs with hs
  swap
  · exact iff_of_true (doesNothing_unlock rfl) fun hpass => hs hpass.2.2.2
  · have hbreaker' : (found 0).risk.circuitBreaker = false ∧
        RiskManager.validSize cfg.limits j.size = true := by
      simpa using hb
    exact iff_of_false (not_doesNothing_dispatch rfl)
      (not_not.2 ⟨hbreaker'.1, hbreaker'.2, ho, hs⟩)

/-- **The checks after the sizing decide.** -/
theorem doesNothing_checkEntry_iff (hpc : j.pc = .checkEntry) :
    j.DoesNothing cfg found ↔ ¬ j.Passes cfg found := by
  by_cases hconflict : j.conflicts (found 0).positions = true
  · have hstep : j.step cfg (found 0) = some (j.goto .unlock, found 0) := by
      simp only [step, hpc, hconflict, if_true]
    rw [doesNothing_iff_of_step hstep (by rw [acts, hpc])]
    refine iff_of_true (doesNothing_unlock rfl) fun hpass => ?_
    exact Bool.false_ne_true (hpass.conflicts.symm.trans hconflict)
  by_cases hallowed : (j.check cfg (found 0)).1.allowed = true
  · have hstep : j.step cfg (found 0) =
        some ({ j with pc := .takeOid, admitted := some (found 0).modes.riskShadowMode },
          { found 0 with portRisk := (j.check cfg (found 0)).2 }) := by
      simp only [step, hpc, hconflict, hallowed, Bool.false_eq_true, if_false, if_true]
    rw [doesNothing_iff_of_step hstep (by rw [acts, hpc]),
      doesNothing_iff_of_step (by simp only [step]; rfl) rfl, doesNothing_validate_iff rfl]
    refine not_congr ⟨?_, ?_⟩
    · rintro ⟨hbreaker, hsize, hslot, hsymbol⟩
      exact ⟨Bool.not_eq_true _ ▸ hconflict, hallowed, hbreaker, hsize, hslot, hsymbol⟩
    · rintro ⟨-, -, hbreaker, hsize, hslot, hsymbol⟩
      exact ⟨hbreaker, hsize, hslot, hsymbol⟩
  · have hstep : j.step cfg (found 0) =
        some (j.goto .unlock, { found 0 with portRisk := (j.check cfg (found 0)).2 }) := by
      simp only [step, hpc, hconflict, hallowed, Bool.false_eq_true, if_false]
    rw [doesNothing_iff_of_step hstep (by rw [acts, hpc])]
    exact iff_of_true (doesNothing_unlock rfl) fun hpass => hallowed hpass.allowed

/-- **When an amount below the minimum is skipped.** Only where there was no
size to begin with, or where a later check stops the order that was
raised, whatever states the handler's steps find. -/
theorem skips_below_minimum_iff (hpc : j.pc = .sizing) :
    (j.scaledUsdt cfg (found 0) < cfg.sizer.minUsdt → j.DoesNothing cfg found) ↔
      cfg.sizer.minUsdt ≤ j.scaledUsdt cfg (found 0) ∨ j.Unsized cfg (found 0) ∨
        ¬ (j.asked cfg (found 0)).Passes cfg (later found) := by
  have hverdict : j.DoesNothing cfg found ↔
      j.Unsized cfg (found 0) ∨ ¬ (j.asked cfg (found 0)).Passes cfg (later found) := by
    by_cases hunsized : j.Unsized cfg (found 0)
    · rw [doesNothing_iff_of_step ((step_sizing hpc).1 hunsized) (by rw [acts, hpc])]
      exact iff_of_true (doesNothing_unlock rfl) (.inl hunsized)
    · rw [doesNothing_iff_of_step ((step_sizing hpc).2 hunsized) (by rw [acts, hpc]),
        doesNothing_checkEntry_iff rfl]
      simp only [hunsized, false_or]
  rw [hverdict, imp_iff_not_or, not_lt]

end EntryJob

/-! ## A signal at a hundred -/

namespace SizingRun

/-- An account of a thousand. -/
def shared : Shared where
  modes := Modes.start false
  balance := 1000
  peakBalance := 1000

/-- A signal at its sizing, with a verdict of the learner. -/
def job (learnMultiplier : ℚ) : EntryJob where
  pc := .sizing
  sig := { symbol := "BTCUSDT", action := "buy", timeframe := "15", price := 100, tp1 := 110 }
  rd := { symbolTier := "A", learnMultiplier }

/-- The timeframe of the signal is switched off. -/
def switchedOff : EngineConfig where
  trading :=
    { tfFilters :=
        AList.singleton "15" { sizeMultiplier := 0, minTier := "B", minTpToCostRatio := 5 / 2 } }

/-- The sizing of the signal. -/
def sized (cfg : EngineConfig) (learnMultiplier : ℚ) : EntryJob × Shared :=
  ((job learnMultiplier).step cfg shared).getD (job learnMultiplier, shared)

theorem step_job (cfg : EngineConfig) (learnMultiplier : ℚ)
    (h : ((job learnMultiplier).step cfg shared).isSome = true) :
    (job learnMultiplier).step cfg shared =
      some ((sized cfg learnMultiplier).1, (sized cfg learnMultiplier).2) :=
  (Option.getD_of_ne_none (Option.isSome_iff_ne_none.1 h) _).symm

end SizingRun

open SizingRun in
theorem notional_le_cap_iff_btc :
    ((sized {} 1).1.entryCheck (sized {} 1).2).price *
        ((sized {} 1).1.entryCheck (sized {} 1).2).qty ≤ 100 := by
  have hiff := EntryJob.notional_le_cap_iff (j := job 1) rfl (step_job {} 1 (by decide +kernel))
    (by decide +kernel)
  have hraised : ¬ (job 1).Raised {} shared := by decide +kernel
  rw [if_neg hraised] at hiff
  exact (hiff.2 (.inl (by decide +kernel))).trans (min_le_right _ _)

open SizingRun in
/-- **The caps do not bound the order.** A learner that enlarges the size by
a fifth takes an amount at the cap of 100 to 120. -/
theorem notional_exceeds_cap :
    (job (6 / 5)).pc = .sizing ∧
      (job (6 / 5)).step {} shared = some (sized {} (6 / 5)) ∧
      (sized {} (6 / 5)).1.pc = .checkEntry ∧
      ((sized {} (6 / 5)).1.entryCheck shared).price *
        ((sized {} (6 / 5)).1.entryCheck shared).qty = 120 ∧
      min (max (shared.balance - shared.positions.calcUsedMargin 10) 0 * (1 / 2)) 100 = 100 :=
  ⟨rfl, step_job {} (6 / 5) (by decide +kernel), by decide +kernel, by decide +kernel,
    by decide +kernel⟩

open SizingRun in
theorem skips_below_minimum_btc : (job 1).DoesNothing switchedOff (fun _ => shared) ↔
    ¬ ((job 1).asked switchedOff shared).Passes switchedOff (EntryJob.later fun _ => shared) := by
  have hiff : (_ → (job 1).DoesNothing switchedOff fun _ => shared) ↔ _ :=
    EntryJob.skips_below_minimum_iff rfl
  have hlow : (job 1).scaledUsdt switchedOff shared < switchedOff.sizer.minUsdt := by
    decide +kernel
  have hsized : ¬ (job 1).Unsized switchedOff shared := by
    rw [EntryJob.Unsized]
    decide +kernel
  simpa only [hlow, hsized, forall_const, not_le.2 hlow, false_or] using hiff

open SizingRun in
/-- **A timeframe that is switched off trades.** Its multiplier of zero
leaves nothing of the size, and the handler, all by itself, raises it and
sends it. -/
theorem small_amount_raised :
    (job 1).scaledUsdt switchedOff shared = 0 ∧ switchedOff.sizer.minUsdt = 5 ∧
      ¬ (job 1).DoesNothing switchedOff
        (fun n => (Threads.alone (EntryJob.step switchedOff) n (job 1) shared).2) ∧
      (Threads.alone (EntryJob.step switchedOff) 13 (job 1) shared).1.sent = 1 ∧
      (Threads.alone (EntryJob.step switchedOff) 13 (job 1) shared).2.positions.size = 1 := by
  have hacts : (Threads.alone (EntryJob.step switchedOff) 9 (job 1) shared).1.acts = true := by
    decide +kernel
  refine ⟨by decide +kernel, rfl, fun h => ?_, by decide +kernel, by decide +kernel⟩
  have hnothing := h 9
  rw [Threads.against_alone] at hnothing
  exact Bool.false_ne_true (hnothing.symm.trans hacts)

end WebhookTrader
