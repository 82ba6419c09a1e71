import WebhookTrader.Backtest.Model.Backtester
import WebhookTrader.Engine.Agreement
import WebhookTrader.Engine.SpotCash
import WebhookTrader.Shadow.SpotDeeds

/-!
# One take-profit policy

Four places take profits of one position: the paper book, the spot
account, the spot shadow tracker and the backtester. The first two close a
share of what is left, the tracker percentage points that it takes of what
is left, and the backtester a share of what was opened. A third, half of
the rest, and the rest come to the same in all of them. Any other order,
omission or repetition of the levels before the last one does not.
-/

namespace WebhookTrader

/-- **One position in the four places**, with its quantities as it was
opened. -/
structure Holding where
  symbol : String
  exchange : String
  timeframe : String
  paperKey : PositionKey
  paperQty : ℚ
  spotKey : PositionKey
  spotQty : ℚ
  btQty : ℚ

namespace Holding

/-- Its key in the tracker. -/
def trackerKey (h : Holding) : String :=
  VirtualPosition.makeKey h.symbol (if h.timeframe = "" then "0" else h.timeframe) h.exchange

/-- A position of the spot account that its signals close. -/
def sells (h : Holding) (p : ManagedPosition) : Bool :=
  p.symbol = h.symbol && p.exchange = h.exchange && p.marketType = "spot" && p.side = "long"

/-- **A take-profit signal of the position.** -/
structure TakesProfit (h : Holding) (sig : WebhookSignal) : Prop where
  symbol : sig.symbol = h.symbol
  exchange : sig.exchange = h.exchange
  timeframe : sig.timeframe = h.timeframe
  bull : sig.signalDirection = "bull"
  level : sig.tpLevel = "TP1" ∨ sig.tpLevel = "TP2" ∨ sig.tpLevel = "TP3"

end Holding

/-- The shares of a position that are left in the four places. -/
structure Shares where
  paper : ℚ
  spot : ℚ
  tracked : ℚ
  backtest : ℚ
  deriving DecidableEq, Repr

/-- **The shares agree** within a hundredth. -/
def Shares.Agree (a : Shares) : Prop :=
  ∀ x ∈ [a.paper, a.spot, a.tracked, a.backtest], ∀ y ∈ [a.paper, a.spot, a.tracked, a.backtest],
    |x - y| ≤ 1 / 100

instance (a : Shares) : Decidable a.Agree := inferInstanceAs (Decidable (∀ x ∈ _, ∀ y ∈ _, _))

/-- **The four places.** -/
structure Places where
  shared : Shared
  spot : SpotAccount
  tracker : SpotShadowTracker
  backtester : Backtester

namespace Places

/-- The signal as the backtest has it. -/
def btSignal (sig : WebhookSignal) : BtSignal where
  alert := sig.tpLevel
  symbol := sig.symbol
  price := sig.price
  direction := sig.signalDirection

/-- `handle_tp`, with nothing else going on. -/
def handleTp (cfg : EngineConfig) (rd : Readings) (sig : WebhookSignal) (s : Shared) : Shared :=
  (Threads.alone (CloseJob.step cfg (WebhookTrader.handleTp cfg)) 5 { sig, rd } s).2

/-- **A take-profit signal in the four places.** -/
def takeProfit (cfg : EngineConfig) (rd : Readings) (params : BtParams) (p : Places)
    (sig : WebhookSignal) : Places where
  shared := handleTp cfg rd sig p.shared
  spot := p.spot.handleTp sig
  tracker := p.tracker.trackTp sig
  backtester := p.backtester.handleTp params (btSignal sig)

/-- **What is left of the position**, as the places have it. -/
def shares (h : Holding) (p : Places) : Shares where
  paper := p.shared.positions.share ManagedPosition.quantity h.paperKey h.paperQty
  spot := p.spot.positions.share ManagedPosition.quantity h.spotKey h.spotQty
  tracked := p.tracker.positions.share VirtualSpotPosition.remainingPct h.trackerKey 100
  backtest := p.backtester.positions.share BtPosition.quantity h.symbol h.btQty

end Places

/-! ## The policies -/

namespace CloseJob

@[simp] theorem closeRatio_tp1 : closeRatio "TP1" = 33 / 100 := if_pos rfl

@[simp] theorem closeRatio_tp2 : closeRatio "TP2" = 1 / 2 :=
  (if_neg (by decide)).trans (if_pos rfl)

@[simp] theorem closeRatio_tp3 : closeRatio "TP3" = 1 :=
  (if_neg (by decide)).trans (if_neg (by decide))

end CloseJob

namespace SpotShadowTracker

@[simp] theorem tpClosePct_tp1 : tpClosePct "TP1" = 33 := if_pos rfl

@[simp] theorem tpClosePct_tp2 : tpClosePct "TP2" = 50 := (if_neg (by decide)).trans (if_pos rfl)

@[simp] theorem tpClosePct_tp3 : tpClosePct "TP3" = 100 :=
  (if_neg (by decide)).trans (if_neg (by decide))

end SpotShadowTracker

namespace Shares

/-- What is left of a share in the book and in the account. -/
def reduced (level : String) (a : ℚ) : ℚ := a * (1 - CloseJob.closeRatio level)

/-- What is left of a share in the tracker. -/
def reducedPct (level : String) (a : ℚ) : ℚ :=
  let pct := min (SpotShadowTracker.tpClosePct level) (a * 100)
  if a * 100 ≤ pct then 0
  else if a * 100 * (1 - pct / 100) < 1 then 0
  else a * (1 - pct / 100)

/-- What is left of a share in the backtest, of a position of a quantity. -/
def reducedOf (qty : ℚ) (level : String) (a : ℚ) : ℚ :=
  let closed := if level = "TP3" then a else min (33 / 100) a
  if (a - closed) * qty ≤ 1 / 10 ^ 12 then 0 else a - closed

theorem reducedPct_zero (level : String) : reducedPct level 0 = 0 := by
  unfold reducedPct
  rw [zero_mul]
  refine if_pos (le_min ?_ le_rfl)
  unfold SpotShadowTracker.tpClosePct
  split_ifs <;> norm_num

theorem reducedOf_zero (qty : ℚ) (level : String) : reducedOf qty level 0 = 0 := by
  have hclosed : (if level = "TP3" then (0 : ℚ) else min (33 / 100) 0) = 0 := by
    split_ifs
    · rfl
    · exact min_eq_right (by norm_num)
  unfold reducedOf
  dsimp only
  rw [hclosed, sub_zero, zero_mul]
  exact if_pos (by norm_num)

/-- **The shares after a level.** -/
def reduce (btQty : ℚ) (a : Shares) (level : String) : Shares where
  paper := reduced level a.paper
  spot := reduced level a.spot
  tracked := reducedPct level a.tracked
  backtest := reducedOf btQty level a.backtest

/-- The shares of a position as it was opened. -/
def whole : Shares := ⟨1, 1, 1, 1⟩

def none : Shares := ⟨0, 0, 0, 0⟩

end Shares

/-! ## The paper book -/

section Paper

variable {h : Holding} {cfg : EngineConfig} {rd : Readings} {sig : WebhookSignal} {s : Shared}
  {a : ℚ} {key : PositionKey} {pos : ManagedPosition}

/-- **A share of the position is left on paper.** -/
structure PaperHeld (h : Holding) (a : ℚ) (s : Shared) : Prop where
  free : s.locked.contains h.symbol = false
  only : Table.Only (Book.sameTag h.symbol "long") h.paperKey s.positions
  left : Table.Left (fun pos => Book.sameTag h.symbol "long" pos = true ∧ pos.isReal = false)
    ManagedPosition.quantity h.paperKey h.paperQty s.positions a

open CloseJob (step goto closedBook IsFull)

theorem Holding.TakesProfit.holdSide (hsig : h.TakesProfit sig) :
    CloseJob.holdSide { sig, rd } = "long" := if_pos hsig.bull

/-- **The handler on a paper position**: the book alone is changed. -/
theorem handleTp_paper (cfg : EngineConfig) (rd : Readings) (hsig : h.TakesProfit sig)
    (hfree : s.locked.contains h.symbol = false)
    (hfind : s.positions.findBySymbolSide h.symbol "long" = some (key, pos))
    (hpaper : pos.isReal = false) :
    (Places.handleTp cfg rd sig s).positions = closedBook sig key pos s.positions ∧
      (Places.handleTp cfg rd sig s).locked = s.locked := by
  have hlookup : s.positions.lookup key = some pos := (Table.findValue_eq_some hfind).2
  let job : CloseJob := { sig, rd }
  let locked : Shared := { s with locked := sig.symbol :: s.locked }
  let found : CloseJob := { job with pc := .isReal, key, quantity := pos.quantity }
  have hlock : step cfg (handleTp cfg) job s = some (job.goto .find, locked) := by
    rw [← hsig.symbol] at hfree
    simp only [step, job, hfree]
    rfl
  have hfound : step cfg (handleTp cfg) (job.goto .find) locked = some (found, locked) := by
    have hfind' : locked.positions.findBySymbolSide (job.goto .find).sig.symbol
        (CloseJob.holdSide (job.goto .find)) = some (key, pos) := by
      show s.positions.findBySymbolSide sig.symbol (CloseJob.holdSide job) = _
      rw [hsig.symbol, hsig.holdSide]
      exact hfind
    simp only [step, hfind']
    rfl
  have hisReal : step cfg (handleTp cfg) found locked = some (found.goto .paper, locked) := by
    have hlookup' : locked.positions.lookup found.key = some pos := hlookup
    simp only [step, found, hlookup', Option.any_some, hpaper]
    rfl
  have hsettle : step cfg (handleTp cfg) (found.goto .paper) locked =
      some (found.goto .unlock, (found.goto .paper).settle (handleTp cfg) locked) := rfl
  have hrun : Places.handleTp cfg rd sig s =
      { (found.goto .paper).settle (handleTp cfg) locked with
        locked := ((found.goto .paper).settle (handleTp cfg) locked).locked.erase sig.symbol } := by
    show (Threads.alone _ 5 job s).2 = _
    simp only [Threads.alone, hlock, hfound, hisReal, hsettle]
    rfl
  have hlookup' : locked.positions.lookup (found.goto .paper).key = some pos := hlookup
  rw [hrun, CloseJob.settle, hlookup']
  refine ⟨?_, List.erase_cons_head ..⟩
  have hreduces : (handleTp cfg).reduces (found.goto .paper) =
      if IsFull sig.tpLevel then none else some (pos.quantity * CloseJob.closeRatio sig.tpLevel) :=
    CloseJob.reduces_handleTp
  dsimp only
  rw [hreduces, closedBook]
  by_cases hfull : IsFull sig.tpLevel
  · rw [if_pos hfull, if_pos hfull]
    rfl
  · rw [if_neg hfull, if_neg hfull]
    rfl

/-- Where it finds no position, the book stays as it is. -/
theorem handleTp_none (cfg : EngineConfig) (rd : Readings) (hsig : h.TakesProfit sig)
    (hfree : s.locked.contains h.symbol = false)
    (hfind : s.positions.findBySymbolSide h.symbol "long" = none) :
    (Places.handleTp cfg rd sig s).positions = s.positions ∧
      (Places.handleTp cfg rd sig s).locked = s.locked := by
  let job : CloseJob := { sig, rd }
  let locked : Shared := { s with locked := sig.symbol :: s.locked }
  have hlock : step cfg (handleTp cfg) job s = some (job.goto .find, locked) := by
    rw [← hsig.symbol] at hfree
    simp only [step, job, hfree]
    rfl
  have hfound : step cfg (handleTp cfg) (job.goto .find) locked =
      some (job.goto .unlock, locked) := by
    have hfind' : locked.positions.findBySymbolSide (job.goto .find).sig.symbol
        (CloseJob.holdSide (job.goto .find)) = none := by
      show s.positions.findBySymbolSide sig.symbol (CloseJob.holdSide job) = _
      rw [hsig.symbol, hsig.holdSide]
      exact hfind
    simp only [step, hfind']
    rfl
  have hrun : Places.handleTp cfg rd sig s =
      { locked with locked := locked.locked.erase sig.symbol } := by
    show (Threads.alone _ 5 job s).2 = _
    simp only [Threads.alone, hlock, hfound]
    rfl
  rw [hrun]
  exact ⟨rfl, List.erase_cons_head ..⟩

/-- What a level leaves, and whether that is anything. -/
theorem reduced_cases (hsig : h.TakesProfit sig) (ha : 0 < a) :
    IsFull sig.tpLevel ∧ Shares.reduced sig.tpLevel a = 0 ∨
      ¬ IsFull sig.tpLevel ∧ 0 < Shares.reduced sig.tpLevel a := by
  have hshare : ∀ level, level ≠ "TP3" → CloseJob.closeRatio level < 99 / 100 →
      ¬ IsFull level ∧ 0 < Shares.reduced level a := by
    intro level hne hlt
    refine ⟨?_, mul_pos ha (by linarith)⟩
    rintro (heq | hle)
    · exact hne heq
    · exact absurd hlt (not_lt.2 hle)
  rcases hsig.level with hlevel | hlevel | hlevel <;> rw [hlevel]
  · exact .inr (hshare "TP1" (by decide) (by norm_num))
  · exact .inr (hshare "TP2" (by decide) (by norm_num))
  · exact .inl ⟨.inl rfl, by norm_num [Shares.reduced]⟩

theorem PaperHeld.takeProfit (hs : PaperHeld h a s) (hqty : 0 < h.paperQty)
    (hsig : h.TakesProfit sig) :
    PaperHeld h (Shares.reduced sig.tpLevel a) (Places.handleTp cfg rd sig s) := by
  obtain ⟨hfree, honly, hleft⟩ := hs
  cases hleft with
  | gone hlookup =>
      obtain ⟨hbook, hlocked⟩ := handleTp_none cfg rd hsig hfree
        (honly.findValue_eq_none hlookup)
      rw [Shares.reduced, zero_mul]
      exact ⟨hlocked ▸ hfree, hbook ▸ honly, hbook ▸ .gone hlookup⟩
  | @stays _ pos hpos hlookup hp hqty' =>
      obtain ⟨hbook, hlocked⟩ := handleTp_paper cfg rd hsig hfree
        (honly.findValue hlookup hp.1) hp.2
      refine ⟨hlocked ▸ hfree, ?_, ?_⟩ <;> rw [hbook, closedBook]
      all_goals rcases reduced_cases hsig hpos with ⟨hfull, hzero⟩ | ⟨hpart, hrest⟩
      · rw [if_pos hfull]
        exact honly.erase
      · rw [if_neg hpart, Book.reduceQuantity, hlookup]
        dsimp only
        split_ifs
        · exact honly.erase
        · exact honly.modify
      · rw [if_pos hfull, hzero]
        exact .erase
      · have hless : pos.quantity - pos.quantity * CloseJob.closeRatio sig.tpLevel =
            Shares.reduced sig.tpLevel a * h.paperQty := by
          rw [hqty', Shares.reduced]
          ring
        rw [if_neg hpart, Book.reduceQuantity, hlookup]
        dsimp only
        rw [if_neg (by rw [hless]; exact not_le.2 (mul_pos hrest hqty))]
        exact .modify hrest hlookup hp hless

end Paper

/-! ## The spot account -/

section Spot

variable {h : Holding} {sig : WebhookSignal} {acc : SpotAccount} {a : ℚ}

/-- **A share of the position is left in the spot account.** -/
structure SpotHeld (h : Holding) (a : ℚ) (acc : SpotAccount) : Prop where
  only : Table.Only h.sells h.spotKey acc.positions
  left : Table.Left (fun pos => h.sells pos = true) ManagedPosition.quantity h.spotKey h.spotQty
    acc.positions a

theorem Holding.TakesProfit.sells (hsig : h.TakesProfit sig) : SpotAccount.sells sig = h.sells := by
  funext pos
  rw [SpotAccount.sells, Holding.sells, hsig.symbol, hsig.exchange]

open CloseJob (IsFull closeRatio)

theorem SpotHeld.takeProfit (hacc : SpotHeld h a acc) (hqty : 0 < h.spotQty)
    (hsig : h.TakesProfit sig) :
    SpotHeld h (Shares.reduced sig.tpLevel a) (acc.handleTp sig) := by
  obtain ⟨honly, hleft⟩ := hacc
  cases hleft with
  | gone hlookup =>
      have hself : acc.handleTp sig = acc := by
        unfold SpotAccount.handleTp
        rw [hsig.sells, honly.findValue_eq_none hlookup]
      rw [hself, Shares.reduced, zero_mul]
      exact ⟨honly, .gone hlookup⟩
  | @stays _ pos hpos hlookup hp hqty' =>
      have hbook : (acc.handleTp sig).positions =
          if sig.tpLevel = "TP3" ∨ 99 / 100 ≤ closeRatio sig.tpLevel ∨
              pos.quantity - pos.quantity * closeRatio sig.tpLevel ≤ 0 then
            acc.positions.erase h.spotKey
          else acc.positions.modify h.spotKey fun p =>
            { p with quantity := p.quantity - pos.quantity * closeRatio sig.tpLevel } := by
        unfold SpotAccount.handleTp
        rw [hsig.sells, honly.findValue hlookup hp]
        rfl
      rcases reduced_cases hsig hpos with ⟨hfull, hzero⟩ | ⟨hpart, hrest⟩
      · rw [if_pos (by rw [← or_assoc]; exact .inl hfull)] at hbook
        rw [hzero]
        exact ⟨hbook ▸ honly.erase, hbook ▸ .erase⟩
      · have hless : pos.quantity - pos.quantity * closeRatio sig.tpLevel =
            Shares.reduced sig.tpLevel a * h.spotQty := by
          rw [hqty', Shares.reduced]
          ring
        have hstays : ¬ (sig.tpLevel = "TP3" ∨ 99 / 100 ≤ closeRatio sig.tpLevel ∨
            pos.quantity - pos.quantity * closeRatio sig.tpLevel ≤ 0) := by
          rw [← or_assoc, hless]
          rintro (hfull | hnone)
          · exact hpart hfull
          · exact absurd (mul_pos hrest hqty) (not_lt.2 hnone)
        rw [if_neg hstays] at hbook
        exact ⟨hbook ▸ honly.modify, hbook ▸ .modify hrest hlookup hp hless⟩

end Spot

/-! ## The spot shadow tracker -/

section Tracker

variable {h : Holding} {sig : WebhookSignal} {t : SpotShadowTracker} {a : ℚ}

/-- **A share of the position is left in the tracker.** -/
structure TrackerHeld (h : Holding) (a : ℚ) (t : SpotShadowTracker) : Prop where
  only : Table.Only (fun vp => decide (vp.symbol = h.symbol)) h.trackerKey t.positions
  left : Table.Left (fun vp => vp.symbol = h.symbol) VirtualSpotPosition.remainingPct h.trackerKey
    100 t.positions a

theorem Holding.TakesProfit.trackerKey (hsig : h.TakesProfit sig) :
    VirtualPosition.makeKey sig.symbol (ShadowTracker.timeframe sig) sig.exchange =
      h.trackerKey := by
  rw [hsig.symbol, hsig.exchange, ShadowTracker.timeframe, hsig.timeframe]
  rfl

open SpotShadowTracker (tpClosePct)

theorem TrackerHeld.takeProfit (ht : TrackerHeld h a t) (hsig : h.TakesProfit sig) :
    TrackerHeld h (Shares.reducedPct sig.tpLevel a) (t.trackTp sig) := by
  obtain ⟨honly, hleft⟩ := ht
  unfold SpotShadowTracker.trackTp
  rw [if_neg (not_not.2 hsig.bull)]
  cases hleft with
  | gone hlookup =>
      have hnone : t.match? sig = none := by
        unfold SpotShadowTracker.match?
        dsimp only
        rw [hsig.trackerKey, hlookup, hsig.symbol]
        exact honly.findValue_eq_none hlookup
      rw [hnone, Shares.reducedPct_zero]
      exact ⟨honly, .gone hlookup⟩
  | @stays _ vp hpos hlookup hp hpct =>
      have hsome : t.match? sig = some (h.trackerKey, vp) := by
        unfold SpotShadowTracker.match?
        dsimp only
        rw [hsig.trackerKey, hlookup]
      rw [hsome]
      unfold Shares.reducedPct
      rw [← hpct]
      dsimp only
      by_cases hall : vp.remainingPct ≤ min (tpClosePct sig.tpLevel) vp.remainingPct
      · rw [if_pos hall, if_pos hall]
        exact ⟨honly.erase, .erase⟩
      rw [if_neg hall, if_neg hall]
      unfold SpotShadowTracker.partialClose
      dsimp only
      by_cases hlow :
          vp.remainingPct * (1 - min (tpClosePct sig.tpLevel) vp.remainingPct / 100) < 1
      · rw [if_pos hlow, if_pos hlow]
        exact ⟨honly.erase, .erase⟩
      · rw [if_neg hlow, if_neg hlow]
        have hrest : vp.remainingPct * (1 - min (tpClosePct sig.tpLevel) vp.remainingPct / 100) =
            a * (1 - min (tpClosePct sig.tpLevel) vp.remainingPct / 100) * 100 := by
          rw [hpct]
          ring
        have hpositive :
            0 < a * (1 - min (tpClosePct sig.tpLevel) vp.remainingPct / 100) := by linarith
        have hleft : Table.Left (fun vp => vp.symbol = h.symbol) VirtualSpotPosition.remainingPct
            h.trackerKey 100 (t.positions.modify h.trackerKey fun vp' =>
              { vp' with remainingPct :=
                  vp.remainingPct * (1 - min (tpClosePct sig.tpLevel) vp.remainingPct / 100) })
            (a * (1 - min (tpClosePct sig.tpLevel) vp.remainingPct / 100)) :=
          .modify hpositive hlookup hp hrest
        exact ⟨honly.modify, hleft⟩

end Tracker

/-! ## The backtester -/

section Backtest

variable {h : Holding} {params : BtParams} {sig : WebhookSignal} {b : Backtester} {a : ℚ}

/-- **A share of the position is left in the backtest.** -/
abbrev BacktestHeld (h : Holding) (a : ℚ) (b : Backtester) : Prop :=
  Table.Left (fun pos => pos.initialQty = h.btQty) BtPosition.quantity h.symbol h.btQty
    b.positions a

/-- The ratios are the default ones. -/
def BtParams.DefaultRatios (params : BtParams) : Prop :=
  params.tp1Ratio = 33 / 100 ∧ params.tp2Ratio = 33 / 100

/-- What a take-profit closes, in terms of the quantity that was opened. -/
theorem closeQty_eq (hratios : params.DefaultRatios) (hqty : 0 < h.btQty) (hsig : h.TakesProfit sig)
    {pos : BtPosition} (hinitial : pos.initialQty = h.btQty) (hpos : pos.quantity = a * h.btQty) :
    Backtester.closeQty params (Places.btSignal sig) pos =
      (if sig.tpLevel = "TP3" then a else min (33 / 100) a) * h.btQty := by
  have hmin : min (pos.initialQty * (33 / 100)) pos.quantity = min (33 / 100) a * h.btQty := by
    rw [hinitial, hpos, mul_comm h.btQty, min_mul_of_nonneg _ _ hqty.le]
  unfold Backtester.closeQty BtSignal.tpLevel Places.btSignal
  rcases hsig.level with hlevel | hlevel | hlevel <;> rw [hlevel]
  · simpa [hratios.1] using hmin
  · simpa [hratios.2] using hmin
  · exact hpos

theorem BacktestHeld.takeProfit (hb : BacktestHeld h a b) (hratios : params.DefaultRatios)
    (hqty : 0 < h.btQty) (hsig : h.TakesProfit sig) :
    BacktestHeld h (Shares.reducedOf h.btQty sig.tpLevel a)
      (b.handleTp params (Places.btSignal sig)) := by
  have hsymbol : (Places.btSignal sig).symbol = h.symbol := hsig.symbol
  unfold Backtester.handleTp
  rw [hsymbol]
  cases hb with
  | gone hlookup =>
      rw [hlookup, Shares.reducedOf_zero]
      exact .gone hlookup
  | @stays _ pos hpos hlookup hinitial hpct =>
      have hclosed := closeQty_eq hratios hqty hsig hinitial hpct
      have hsome : 0 < Backtester.closeQty params (Places.btSignal sig) pos := by
        rw [hclosed]
        refine mul_pos ?_ hqty
        split_ifs
        · exact hpos
        · exact lt_min (by norm_num) hpos
      have hrest : pos.quantity - Backtester.closeQty params (Places.btSignal sig) pos =
          (a - if sig.tpLevel = "TP3" then a else min (33 / 100) a) * h.btQty := by
        rw [hclosed, hpct]
        ring
      rw [hlookup]
      unfold Shares.reducedOf
      dsimp only
      rw [if_neg (not_le.2 hsome), hrest]
      by_cases hsmall :
          (a - if sig.tpLevel = "TP3" then a else min (33 / 100) a) * h.btQty ≤ 1 / 10 ^ 12
      · rw [if_pos hsmall, if_pos hsmall]
        exact .erase
      · rw [if_neg hsmall, if_neg hsmall]
        have hpositive : 0 < a - if sig.tpLevel = "TP3" then a else min (33 / 100) a := by
          by_contra hle
          exact hsmall ((mul_nonpos_of_nonpos_of_nonneg (not_lt.1 hle) hqty.le).trans (by norm_num))
        have hleft : Table.Left (fun pos => pos.initialQty = h.btQty) BtPosition.quantity h.symbol
            h.btQty (b.positions.modify h.symbol fun p =>
              { p with quantity := p.quantity -
                  Backtester.closeQty params (Places.btSignal sig) pos })
            (a - if sig.tpLevel = "TP3" then a else min (33 / 100) a) :=
          .modify hpositive hlookup hinitial hrest
        exact hleft

end Backtest

/-! ## A sequence of levels -/

namespace Shares

variable {qty : ℚ} {levels earlier : List String} {level : String}

/-- The levels before the first that closes everything. -/
def taken (levels : List String) : List String := levels.takeWhile (· ≠ "TP3")

/-- **What is expected**: the levels in their order, and a rest in the
backtest that is more than its residue. -/
def Expected (qty : ℚ) (levels : List String) : Prop :=
  taken levels <+: ["TP1", "TP2"] ∧
    (taken levels = [] ∨ 1 / 10 ^ 12 < (1 - 33 / 100 * (taken levels).length) * qty)

instance : Decidable (Expected qty levels) := inferInstanceAs (Decidable (_ ∧ _))

/-- **The shares agree after every prefix** of the levels. -/
def Agreeing (qty : ℚ) : Shares → List String → Prop
  | a, [] => a.Agree
  | a, level :: levels => a.Agree ∧ Agreeing qty (a.reduce qty level) levels

variable {a : Shares}

theorem agreeing_iff : Agreeing qty a levels ↔
    ∀ earlier, earlier <+: levels → (earlier.foldl (reduce qty) a).Agree := by
  induction levels generalizing a with
  | nil =>
      constructor
      · intro h earlier hbegins
        rw [List.prefix_nil.1 hbegins]
        exact h
      · intro h
        exact h [] List.prefix_rfl
  | cons level levels ih =>
      rw [Agreeing, ih]
      constructor
      · rintro ⟨hnow, hlater⟩ earlier hbegins
        rcases List.prefix_cons_iff.1 hbegins with rfl | ⟨rest, rfl, hrest⟩
        · exact hnow
        · exact hlater rest hrest
      · intro h
        exact ⟨h [] List.nil_prefix, fun rest hrest =>
          h (level :: rest) (List.prefix_cons_iff.2 (.inr ⟨rest, rfl, hrest⟩))⟩

theorem Agreeing.agree (h : Agreeing qty a levels) : a.Agree := by
  cases levels with
  | nil => exact h
  | cons => exact h.1

/-! ### What a level does to the shares -/

/-- Nothing is left of nothing. -/
theorem reduce_none : none.reduce qty level = none := by
  unfold reduce reduced none
  dsimp only
  rw [zero_mul, reducedPct_zero, reducedOf_zero]

theorem agreeing_none : Agreeing qty none levels := by
  have hagree : none.Agree := by decide +kernel
  induction levels with
  | nil => exact hagree
  | cons level levels ih => exact ⟨hagree, reduce_none.symm ▸ ih⟩

/-- **The last level leaves nothing.** -/
theorem reduce_tp3 (h : a.tracked ≤ 1) : a.reduce qty "TP3" = none := by
  have htracked : reducedPct "TP3" a.tracked = 0 := by
    refine if_pos (le_min ?_ le_rfl)
    rw [SpotShadowTracker.tpClosePct_tp3]
    linarith
  have hbacktest : reducedOf qty "TP3" a.backtest = 0 := by
    unfold reducedOf
    dsimp only
    rw [if_pos rfl, sub_self, zero_mul]
    exact if_pos (by norm_num)
  unfold reduce reduced none
  rw [htracked, hbacktest, CloseJob.closeRatio_tp3, sub_self, mul_zero, mul_zero]

/-- The backtest closes a third of what was opened, as long as it is there. -/
theorem reducedOf_eq (hlevel : level ≠ "TP3") {x : ℚ} (hx : 33 / 100 ≤ x) :
    reducedOf qty level x = if (x - 33 / 100) * qty ≤ 1 / 10 ^ 12 then 0 else x - 33 / 100 := by
  unfold reducedOf
  rw [if_neg hlevel, min_eq_left hx]

/-- **Where the paper book has another share left** than the backtest, they
disagree, be it that the backtest takes the rest for nothing. -/
theorem not_agree_reduce (hlevel : level ≠ "TP3") (hx : 33 / 100 ≤ a.backtest)
    (hsome : 1 / 100 < reduced level a.paper)
    (hother : 1 / 100 < |reduced level a.paper - (a.backtest - 33 / 100)|) :
    ¬ (a.reduce qty level).Agree := by
  intro hagree
  have hle : |reduced level a.paper - reducedOf qty level a.backtest| ≤ 1 / 100 :=
    hagree _ (by simp [reduce]) _ (by simp [reduce])
  rw [reducedOf_eq hlevel hx] at hle
  split_ifs at hle
  · rw [sub_zero, abs_of_pos (by linarith)] at hle
    linarith
  · linarith

/-- The last level may follow on everything that agrees. -/
theorem agreeing_tp3 (hagree : a.Agree) (h : a.tracked ≤ 1) :
    Agreeing qty a ("TP3" :: levels) := by
  refine ⟨hagree, ?_⟩
  rw [reduce_tp3 h]
  exact agreeing_none

/-- What is left after the first level, and after the first two. -/
def one : Shares := ⟨67 / 100, 67 / 100, 67 / 100, 67 / 100⟩

def two : Shares := ⟨335 / 1000, 335 / 1000, 335 / 1000, 34 / 100⟩

/-- The backtest takes the rest for nothing, while the book has some. -/
theorem not_agree_of_residue (hlevel : level ≠ "TP3") (hx : 33 / 100 ≤ a.backtest)
    (hsome : 1 / 100 < reduced level a.paper)
    (hresidue : (a.backtest - 33 / 100) * qty ≤ 1 / 10 ^ 12) : ¬ (a.reduce qty level).Agree := by
  intro hagree
  have hle : |reduced level a.paper - reducedOf qty level a.backtest| ≤ 1 / 100 :=
    hagree _ (by simp [reduce]) _ (by simp [reduce])
  rw [reducedOf_eq hlevel hx, if_pos hresidue, sub_zero, abs_of_pos (by linarith)] at hle
  linarith

theorem reduce_whole_tp1 (h : 1 / 10 ^ 12 < 67 / 100 * qty) : whole.reduce qty "TP1" = one := by
  have hreduced : reduced "TP1" 1 = 67 / 100 := by norm_num [reduced]
  have htracked : reducedPct "TP1" 1 = 67 / 100 := by decide +kernel
  have hbacktest : reducedOf qty "TP1" 1 = 67 / 100 := by
    have hrest : (1 : ℚ) - 33 / 100 = 67 / 100 := by norm_num
    rw [reducedOf_eq (by decide) (by norm_num), hrest, if_neg (not_le.2 h)]
  simp only [reduce, whole, one, hreduced, htracked, hbacktest]

theorem reduce_one_tp2 (h : 1 / 10 ^ 12 < 34 / 100 * qty) : one.reduce qty "TP2" = two := by
  have hreduced : reduced "TP2" (67 / 100) = 335 / 1000 := by norm_num [reduced]
  have htracked : reducedPct "TP2" (67 / 100) = 335 / 1000 := by decide +kernel
  have hbacktest : reducedOf qty "TP2" (67 / 100) = 34 / 100 := by
    have hrest : (67 / 100 : ℚ) - 33 / 100 = 34 / 100 := by norm_num
    rw [reducedOf_eq (by decide) (by norm_num), hrest, if_neg (not_le.2 h)]
  simp only [reduce, one, two, hreduced, htracked, hbacktest]

/-! ### Which levels may follow -/

/-- A level is one of the three. -/
def IsLevel (level : String) : Prop := level = "TP1" ∨ level = "TP2" ∨ level = "TP3"

theorem taken_tp3 : taken ("TP3" :: levels) = [] := rfl

theorem taken_cons (h : level ≠ "TP3") : taken (level :: levels) = level :: taken levels :=
  List.takeWhile_cons_of_pos (by simpa using h)

/-- **After the first two levels** only the last may follow. -/
theorem agreeing_two (hlevels : ∀ level ∈ levels, IsLevel level) :
    Agreeing qty two levels ↔ taken levels = [] := by
  have hagree : two.Agree := by decide +kernel
  cases levels with
  | nil => exact ⟨fun _ => rfl, fun _ => hagree⟩
  | cons level rest =>
      rcases hlevels level List.mem_cons_self with rfl | rfl | rfl
      · refine iff_of_false (fun h => ?_) (by rw [taken_cons (by decide)]; nofun)
        exact not_agree_reduce (by decide) (by norm_num [two]) (by norm_num [two, reduced])
          (by norm_num [two, reduced]) h.2.agree
      · refine iff_of_false (fun h => ?_) (by rw [taken_cons (by decide)]; nofun)
        exact not_agree_reduce (by decide) (by norm_num [two]) (by norm_num [two, reduced])
          (by norm_num [two, reduced]) h.2.agree
      · exact iff_of_true (agreeing_tp3 hagree (by norm_num [two])) taken_tp3

/-- **After the first level** the second may follow, as long as it leaves
more than the residue. -/
theorem agreeing_one (hlevels : ∀ level ∈ levels, IsLevel level) :
    Agreeing qty one levels ↔
      taken levels = [] ∨ taken levels = ["TP2"] ∧ 1 / 10 ^ 12 < 34 / 100 * qty := by
  have hagree : one.Agree := by decide +kernel
  cases levels with
  | nil => exact ⟨fun _ => .inl rfl, fun _ => hagree⟩
  | cons level rest =>
      have hrest : ∀ level ∈ rest, IsLevel level := fun l hl =>
        hlevels l (List.mem_cons_of_mem _ hl)
      rcases hlevels level List.mem_cons_self with rfl | rfl | rfl
      · refine iff_of_false (fun h => ?_) (by rw [taken_cons (by decide)]; simp)
        exact not_agree_reduce (by decide) (by norm_num [one]) (by norm_num [one, reduced])
          (by norm_num [one, reduced]) h.2.agree
      · rw [taken_cons (by decide)]
        by_cases hqty : 1 / 10 ^ 12 < 34 / 100 * qty
        · rw [Agreeing, reduce_one_tp2 hqty, agreeing_two hrest]
          simp only [hagree, hqty, true_and, and_true, reduceCtorEq, false_or, List.cons.injEq]
        · refine iff_of_false (fun h => ?_) ?_
          · refine not_agree_of_residue (by decide) (by norm_num [one])
              (by norm_num [one, reduced]) ?_ h.2.agree
            have heq : one.backtest - 33 / 100 = 34 / 100 := by norm_num [one]
            rw [heq]
            exact not_lt.1 hqty
          · rintro (hnil | ⟨-, hmore⟩)
            · exact absurd hnil (List.cons_ne_nil _ _)
            · exact hqty hmore
      · exact iff_of_true (agreeing_tp3 hagree (by norm_num [one])) (.inl taken_tp3)

/-- **At the beginning** the first level may come, as long as it leaves more
than the residue. -/
theorem agreeing_whole (hlevels : ∀ level ∈ levels, IsLevel level) :
    Agreeing qty whole levels ↔ taken levels = [] ∨ 1 / 10 ^ 12 < 67 / 100 * qty ∧
      (taken levels = ["TP1"] ∨
        taken levels = ["TP1", "TP2"] ∧ 1 / 10 ^ 12 < 34 / 100 * qty) := by
  have hagree : whole.Agree := by decide +kernel
  cases levels with
  | nil => exact ⟨fun _ => .inl rfl, fun _ => hagree⟩
  | cons level rest =>
      have hrest : ∀ level ∈ rest, IsLevel level := fun l hl =>
        hlevels l (List.mem_cons_of_mem _ hl)
      rcases hlevels level List.mem_cons_self with rfl | rfl | rfl
      · rw [taken_cons (by decide)]
        by_cases hqty : 1 / 10 ^ 12 < 67 / 100 * qty
        · rw [Agreeing, reduce_whole_tp1 hqty, agreeing_one hrest]
          simp only [hagree, hqty, true_and, reduceCtorEq, false_or, List.cons.injEq]
        · refine iff_of_false (fun h => ?_) ?_
          · refine not_agree_of_residue (by decide) (by norm_num [whole])
              (by norm_num [whole, reduced]) ?_ h.2.agree
            have heq : whole.backtest - 33 / 100 = 67 / 100 := by norm_num [whole]
            rw [heq]
            exact not_lt.1 hqty
          · rintro (hnil | ⟨hmore, -⟩)
            · exact absurd hnil (List.cons_ne_nil _ _)
            · exact hqty hmore
      · refine iff_of_false (fun h => ?_) (by rw [taken_cons (by decide)]; simp)
        exact not_agree_reduce (by decide) (by norm_num [whole]) (by norm_num [whole, reduced])
          (by norm_num [whole, reduced]) h.2.agree
      · exact iff_of_true (agreeing_tp3 hagree (by norm_num [whole])) (.inl taken_tp3)

/-- **The shares agree after every prefix of the levels exactly where these
are as expected.** -/
theorem agreeing_iff_expected (hqty : 0 < qty) (hlevels : ∀ level ∈ levels, IsLevel level) :
    Agreeing qty whole levels ↔ Expected qty levels := by
  rw [agreeing_whole hlevels, Expected]
  have hlast : (1 - 33 / 100 * ((1 : ℕ) : ℚ)) = 67 / 100 ∧
      (1 - 33 / 100 * ((2 : ℕ) : ℚ)) = 34 / 100 := by norm_num
  constructor
  · rintro (hnone | ⟨hone, hfirst | ⟨hboth, htwo⟩⟩)
    · rw [hnone]
      exact ⟨List.nil_prefix, .inl rfl⟩
    · rw [hfirst]
      exact ⟨⟨["TP2"], rfl⟩, .inr (hlast.1 ▸ hone)⟩
    · rw [hboth]
      exact ⟨List.prefix_rfl, .inr (hlast.2 ▸ htwo)⟩
  · rintro ⟨hbegins, hmore⟩
    rcases List.prefix_cons_iff.1 hbegins with hnone | ⟨rest, hfirst, hrest⟩
    · exact .inl hnone
    have hmore : 1 / 10 ^ 12 < (1 - 33 / 100 * (taken levels).length) * qty :=
      hmore.resolve_left (by rw [hfirst]; exact List.cons_ne_nil _ _)
    rw [hfirst] at hmore ⊢
    refine .inr ?_
    rcases List.prefix_cons_iff.1 hrest with rfl | ⟨rest', rfl, hlater⟩
    · exact ⟨hlast.1 ▸ hmore, .inl rfl⟩
    · obtain rfl := List.prefix_nil.1 hlater
      have htwo : 1 / 10 ^ 12 < 34 / 100 * qty := hlast.2 ▸ hmore
      exact ⟨htwo.trans (by linarith), .inr ⟨rfl, htwo⟩⟩

end Shares

/-! ## The four places -/

namespace Places

variable {h : Holding} {cfg : EngineConfig} {rd : Readings} {params : BtParams}
  {sig : WebhookSignal} {p : Places} {a : Shares}

/-- **The places hold shares of the position**: it is the only one of its
symbol and side that an exit could find, the paper one is not real, and no
handler has the symbol's lock. -/
structure Holds (h : Holding) (p : Places) (a : Shares) : Prop where
  paper : PaperHeld h a.paper p.shared
  spot : SpotHeld h a.spot p.spot
  tracked : TrackerHeld h a.tracked p.tracker
  backtest : BacktestHeld h a.backtest p.backtester

/-- The quantities of a position. -/
def Positive (h : Holding) : Prop := 0 < h.paperQty ∧ 0 < h.spotQty ∧ 0 < h.btQty

theorem Holds.takeProfit (hp : p.Holds h a) (hqty : Positive h) (hratios : params.DefaultRatios)
    (hsig : h.TakesProfit sig) :
    (p.takeProfit cfg rd params sig).Holds h (a.reduce h.btQty sig.tpLevel) where
  paper := hp.paper.takeProfit hqty.1 hsig
  spot := hp.spot.takeProfit hqty.2.1 hsig
  tracked := hp.tracked.takeProfit hsig
  backtest := hp.backtest.takeProfit hratios hqty.2.2 hsig

theorem Holds.shares_eq (hp : p.Holds h a) (hqty : Positive h) : p.shares h = a := by
  unfold shares
  rw [hp.paper.left.share_eq hqty.1.ne', hp.spot.left.share_eq hqty.2.1.ne',
    hp.tracked.left.share_eq (by norm_num), hp.backtest.share_eq hqty.2.2.ne']

/-- **What is left after a sequence of signals** is what their levels leave. -/
theorem Holds.run {sigs : List WebhookSignal} (hp : p.Holds h a) (hqty : Positive h)
    (hratios : params.DefaultRatios) (hsigs : ∀ sig ∈ sigs, h.TakesProfit sig) :
    (sigs.foldl (Places.takeProfit cfg rd params) p).Holds h
      ((sigs.map (·.tpLevel)).foldl (Shares.reduce h.btQty) a) := by
  induction sigs generalizing p a with
  | nil => exact hp
  | cons sig sigs ih =>
      exact ih (hp.takeProfit hqty hratios (hsigs sig List.mem_cons_self))
        fun sig' hsig' => hsigs sig' (List.mem_cons_of_mem _ hsig')

/-- **When take-profits agree**: after every prefix of the signals the
shares that are left in the four places are within a hundredth, exactly
where the levels before the first `TP3` are none, `TP1`, or `TP1` and
`TP2`, and leave more than its residue in the backtest. -/
theorem take_profits_agree_iff {sigs : List WebhookSignal} (hp : p.Holds h Shares.whole)
    (hqty : Positive h) (hratios : params.DefaultRatios)
    (hsigs : ∀ sig ∈ sigs, h.TakesProfit sig) :
    (∀ earlier, earlier <+: sigs →
      ((earlier.foldl (Places.takeProfit cfg rd params) p).shares h).Agree) ↔
        Shares.Expected h.btQty (sigs.map (·.tpLevel)) := by
  have hlevels : ∀ level ∈ sigs.map (·.tpLevel), Shares.IsLevel level := by
    intro level hlevel
    obtain ⟨sig, hsig, rfl⟩ := List.mem_map.1 hlevel
    exact (hsigs sig hsig).level
  have hshares : ∀ earlier, earlier <+: sigs →
      (earlier.foldl (takeProfit cfg rd params) p).shares h =
        (earlier.map (·.tpLevel)).foldl (Shares.reduce h.btQty) Shares.whole := by
    intro earlier hbegins
    exact (hp.run hqty hratios fun sig hsig => hsigs sig (hbegins.subset hsig)).shares_eq hqty
  rw [← Shares.agreeing_iff_expected hqty.2.2 hlevels, Shares.agreeing_iff]
  constructor
  · intro hagree levels hbegins
    obtain ⟨earlier, hearlier, rfl⟩ := List.prefix_map_iff.1 hbegins
    rw [← hshares earlier hearlier]
    exact hagree earlier hearlier
  · intro hagree earlier hbegins
    rw [hshares earlier hbegins]
    exact hagree _ (hbegins.map _)

end Places

/-! ### The levels in their order, and the second one first -/

namespace TakeProfitRun

def buy : WebhookSignal where
  symbol := "BTCUSDT"
  timeframe := "15"
  marketType := "spot"
  alert := "BUY"
  action := "buy"
  signalDirection := "bull"
  sigType := .entry
  price := 100

def atLevel (level : String) : WebhookSignal :=
  { buy with alert := level, tpLevel := level, sigType := .tp, price := 110 }

def paper : ManagedPosition :=
  { symbol := "BTCUSDT", timeframe := "15", side := "long", entryPrice := 100, quantity := 1 }

/-- One position, opened in every place. -/
def opened : Places where
  shared :=
    { modes := Modes.start true
      positions := (∅ : Book).insert (.entry "BTCUSDT" "15" 0) paper }
  spot := ({} : SpotAccount).handleEntry buy 0 0
  tracker := ({} : SpotShadowTracker).track 0 buy
  backtester := (Backtester.reset {}).processSignal {} ⟨"buy", "BTCUSDT", 100, ""⟩

def holding : Holding where
  symbol := "BTCUSDT"
  exchange := "bitget"
  timeframe := "15"
  paperKey := .entry "BTCUSDT" "15" 0
  paperQty := 1
  spotKey := .entry "BTCUSDT" "15" 0
  spotQty := 50
  btQty := 1 / 10

def spot : ManagedPosition :=
  { paper with quantity := 50, leverage := 1, tier := "C", strategy := buy.strategyName
               marketType := "spot" }

theorem holds_opened : opened.Holds holding Shares.whole where
  paper :=
    { free := rfl
      only := (by decide +kernel : ∀ e ∈ opened.shared.positions.entries,
        Book.sameTag "BTCUSDT" "long" e.2 = true → e.1 = holding.paperKey)
      left := .stays (v := paper) (by decide) (by decide +kernel) ⟨rfl, rfl⟩ (by decide +kernel) }
  spot :=
    { only := (by decide +kernel : ∀ e ∈ opened.spot.positions.entries,
        holding.sells e.2 = true → e.1 = holding.spotKey)
      left := .stays (v := spot) (by decide) (by decide +kernel) (by decide +kernel)
        (by decide +kernel) }
  tracked :=
    { only := (by decide +kernel : ∀ e ∈ opened.tracker.positions.entries,
        decide (e.2.symbol = holding.symbol) = true → e.1 = holding.trackerKey)
      left := .stays (v := SpotShadowTracker.opened 0 buy) (by decide) (by decide +kernel) rfl
        (by decide +kernel) }
  backtest := .stays (v := Backtester.opened {} ⟨"buy", "BTCUSDT", 100, ""⟩) (by decide)
    (by decide +kernel) (by decide +kernel) (by decide +kernel)

theorem takesProfit {level : String} (h : level = "TP1" ∨ level = "TP2" ∨ level = "TP3") :
    holding.TakesProfit (atLevel level) := ⟨rfl, rfl, rfl, rfl, h⟩

end TakeProfitRun

open TakeProfitRun in
theorem Places.take_profits_agree_iff_btc :
    (∀ earlier, earlier <+: [atLevel "TP1", atLevel "TP2", atLevel "TP3"] →
      ((earlier.foldl (Places.takeProfit {} {} {}) opened).shares holding).Agree) ↔
        Shares.Expected holding.btQty ["TP1", "TP2", "TP3"] :=
  take_profits_agree_iff holds_opened ⟨by decide +kernel, by decide +kernel, by decide +kernel⟩
    (by exact ⟨rfl, rfl⟩) (by
    intro sig hsig
    simp only [List.mem_cons, List.not_mem_nil, or_false] at hsig
    rcases hsig with rfl | rfl | rfl
    · exact takesProfit (.inl rfl)
    · exact takesProfit (.inr (.inl rfl))
    · exact takesProfit (.inr (.inr rfl)))

open TakeProfitRun in
/-- **The second level first** closes half of the position in three places,
and a third of it in the backtest. -/
theorem second_level_first :
    opened.Holds holding Shares.whole ∧ holding.TakesProfit (atLevel "TP2") ∧
      (opened.takeProfit {} {} {} (atLevel "TP2")).shares holding =
        ⟨1 / 2, 1 / 2, 1 / 2, 67 / 100⟩ ∧
      ¬ ((opened.takeProfit {} {} {} (atLevel "TP2")).shares holding).Agree :=
  ⟨holds_opened, takesProfit (.inr (.inl rfl)), by decide +kernel, by decide +kernel⟩

end WebhookTrader
