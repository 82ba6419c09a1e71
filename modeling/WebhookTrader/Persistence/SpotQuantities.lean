import Mathlib.Tactic.Linarith
import Mathlib.Tactic.Ring
import WebhookTrader.Persistence.SpotProcess

/-!
# Spot shadow quantities

What was sold of a virtual spot position and what is left of it are
together what was bought. A take-profit sells a share of what is left,
and only where more is left than the share's own percentage, so more than
twenty-two percent is left whenever anything is. A position goes with a
sale of all that is left.
-/

namespace WebhookTrader

/-- What was bought. -/
def VirtualSpotPosition.total (vp : VirtualSpotPosition) : ℚ :=
  SpotShadowTracker.getNotional vp.exchange / vp.entryPrice

/-! ## What was sold -/

namespace SpotDeed

/-- The trades recorded for the position under a key since it was opened,
of a history that is latest first. -/
def recordsOf (key : String) : List SpotDeed → List TradeRecord
  | [] => []
  | opens k _ :: history => if k = key then [] else recordsOf key history
  | sells k _ tr _ :: history =>
      if k = key then tr :: recordsOf key history else recordsOf key history

/-- The quantity of these trades. -/
def sold (key : String) (history : List SpotDeed) : ℚ :=
  ((recordsOf key history).map (·.quantity)).sum

/-- **A sale of the last of a position** sums up to what was bought. -/
def Settles (history : List SpotDeed) : SpotDeed → Prop
  | sells key vp tr none => sold key (sells key vp tr none :: history) = vp.total
  | _ => True

/-- Every sale of the last of a position does. -/
def Settled : List SpotDeed → Prop
  | [] => True
  | d :: history => d.Settles history ∧ Settled history

variable {key key' : String} {vp : VirtualSpotPosition} {tr : TradeRecord} {rest : Option ℚ}
  {history : List SpotDeed}

theorem sold_opens : sold key (opens key vp :: history) = 0 := by
  simp [sold, recordsOf]

theorem sold_opens_ne (h : key' ≠ key) :
    sold key' (opens key vp :: history) = sold key' history := by
  simp [sold, recordsOf, h.symm]

theorem sold_sells :
    sold key (sells key vp tr rest :: history) = tr.quantity + sold key history := by
  simp [sold, recordsOf]

theorem sold_sells_ne (h : key' ≠ key) :
    sold key' (sells key vp tr rest :: history) = sold key' history := by
  simp [sold, recordsOf, h.symm]

/-- What a settled history says of a sale in it. -/
theorem Settled.sold_eq {later : List SpotDeed}
    (h : Settled (later ++ sells key vp tr none :: history)) :
    sold key (sells key vp tr none :: history) = vp.total := by
  induction later with
  | nil => exact h.1
  | cons d later ih => exact ih h.2

end SpotDeed

namespace SpotShadowTracker

variable {now : ℕ} {sig : WebhookSignal} {t : SpotShadowTracker} {d : SpotDeed}
  {history : List SpotDeed} {key : String} {vp : VirtualSpotPosition} {price pct : ℚ}
  {reason : String}

open SpotDeed (sold sold_opens sold_opens_ne sold_sells sold_sells_ne)

/-! ## The quantity of a sale -/

/-- A trade's quantity is its share of what was bought. -/
theorem quantity_closedTrade {ratio : ℚ} (h : 0 < vp.entryPrice) :
    (closedTrade vp price reason ratio).quantity = vp.total * ratio := by
  show (if 0 < vp.entryPrice then _ else _) * ratio = _
  rw [if_pos h]
  rfl

/-- **What is left after a share** of a take-profit level. -/
theorem rest_bounds {level : String} (hshare : tpClosePct level < vp.remainingPct)
    (hmost : vp.remainingPct ≤ 100) :
    22 < vp.remainingPct * (1 - tpClosePct level / 100) ∧
      vp.remainingPct * (1 - tpClosePct level / 100) ≤ 100 := by
  unfold tpClosePct at hshare ⊢
  split_ifs at hshare ⊢
  · constructor <;> linarith
  · constructor <;> linarith
  · linarith

/-! ## The invariant -/

/-- **A position under a key**: what was sold of it and what is left are
what was bought. -/
structure Conserved (history : List SpotDeed) (key : String) (vp : VirtualSpotPosition) : Prop where
  price_pos : 0 < vp.entryPrice
  lower : 22 < vp.remainingPct
  upper : vp.remainingPct ≤ 100
  sum : sold key history + vp.total * (vp.remainingPct / 100) = vp.total

/-- **The quantities are conserved.** -/
structure Quantities (t : SpotShadowTracker) (history : List SpotDeed) : Prop where
  positions : ∀ key vp, t.positions.lookup key = some vp → Conserved history key vp
  settled : SpotDeed.Settled history

theorem quantities_empty : Quantities {} [] where
  positions key vp h := by cases h
  settled := trivial

/-- A history that has the same of a key. -/
theorem Conserved.congr {history' : List SpotDeed} (h : Conserved history key vp)
    (hsold : sold key history' = sold key history) : Conserved history' key vp :=
  ⟨h.price_pos, h.lower, h.upper, by rw [hsold]; exact h.sum⟩

/-- A purchase. -/
theorem Quantities.opens (h : t.Quantities history) (hprice : 0 < sig.price) :
    ((SpotDeed.opens key (opened now sig)).apply t).Quantities
      (.opens key (opened now sig) :: history) := by
  refine ⟨fun k vp hlookup => ?_, trivial, h.settled⟩
  by_cases hk : k = key
  · subst hk
    obtain rfl : opened now sig = vp :=
      Option.some.inj ((AList.lookup_insert _).symm.trans hlookup)
    refine ⟨hprice, ?_, le_rfl, ?_⟩
    · show (22 : ℚ) < 100
      norm_num
    · rw [sold_opens]
      show 0 + (opened now sig).total * (100 / 100) = _
      ring
  · have hold : t.positions.lookup k = some vp := (AList.lookup_insert_ne hk).symm.trans hlookup
    exact (h.positions k vp hold).congr (sold_opens_ne hk)

/-- **A sale of all that is left.** -/
theorem Quantities.sellsAll (h : t.Quantities history)
    (hlookup : t.positions.lookup key = some vp) :
    ((sellsAll price reason key vp).apply t).Quantities
      (SpotShadowTracker.sellsAll price reason key vp :: history) := by
  have hvp := h.positions key vp hlookup
  refine ⟨fun k vp' hk' => ?_, ?_, h.settled⟩
  · have hk : k ≠ key := by
      rintro rfl
      cases hk'.symm.trans (AList.lookup_erase k t.positions)
    have hold : t.positions.lookup k = some vp' := (AList.lookup_erase_ne hk).symm.trans hk'
    exact (h.positions k vp' hold).congr (sold_sells_ne hk)
  · show sold key (.sells key vp _ none :: history) = vp.total
    rw [sold_sells, quantity_closedTrade hvp.price_pos, add_comm]
    exact hvp.sum

/-- **A sale of a share**, after which there is a rest. -/
theorem Quantities.sellsShare {level : String} (h : t.Quantities history)
    (hlookup : t.positions.lookup key = some vp) (hshare : tpClosePct level < vp.remainingPct) :
    ((sellsShare price reason (tpClosePct level) key vp).apply t).Quantities
      (SpotShadowTracker.sellsShare price reason (tpClosePct level) key vp :: history) := by
  have hvp := h.positions key vp hlookup
  obtain ⟨hlower, hupper⟩ := rest_bounds hshare hvp.upper
  unfold SpotShadowTracker.sellsShare
  dsimp only
  -- more than twenty-two percent is left, so it stays
  rw [if_neg (by linarith)]
  refine ⟨fun k vp' hk' => ?_, trivial, h.settled⟩
  by_cases hk : k = key
  · subst hk
    have hnew := Table.lookup_modify.symm.trans hk'
    rw [show (t.record _).positions.lookup k = some vp from hlookup] at hnew
    cases hnew
    refine ⟨hvp.price_pos, hlower, hupper, ?_⟩
    rw [sold_sells, quantity_closedTrade hvp.price_pos]
    have hsum := hvp.sum
    show vp.total * _ + sold k history + vp.total * _ = vp.total
    calc _ = sold k history + vp.total * (vp.remainingPct / 100) := by ring
      _ = vp.total := hsum
  · have hold : t.positions.lookup k = some vp' := (Table.lookup_modify_ne hk).symm.trans hk'
    exact (h.positions k vp' hold).congr (sold_sells_ne hk)

/-- **Every deed of a signal with a price conserves the quantities.** -/
theorem Quantities.deed (h : t.Quantities history) (hprice : 0 < sig.price)
    (hdeed : t.deed now sig = some d) : (d.apply t).Quantities (d :: history) := by
  rcases deed_cases hdeed with ⟨-, rfl⟩ | ⟨key, vp, hlookup, ⟨reason, rfl⟩ | ⟨hshare, rfl⟩⟩
  · exact h.opens hprice
  · exact h.sellsAll hlookup
  · exact h.sellsShare hlookup hshare

/-- What is loaded of a file is conserved with the history of the file. -/
theorem Quantities.load (h : t.Quantities history) :
    (load (.document t.toJson)).Quantities history :=
  ⟨fun key vp hlookup => h.positions key vp (lookup_load t hlookup), h.settled⟩

end SpotShadowTracker

namespace SpotProcess

open SpotShadowTracker (Quantities)

/-- A signal has a price. -/
def Priced : SpotEvent → Prop
  | .track _ sig => 0 < sig.price
  | _ => True

instance : ∀ e, Decidable (Priced e)
  | .track _ sig => inferInstanceAs (Decidable (0 < sig.price))
  | .save => isTrue trivial
  | .restart => isTrue trivial

theorem quantities_step {p : SpotProcess} {e : SpotEvent} (h : p.Holds Quantities)
    (hpriced : Priced e) : (p.step e).Holds Quantities := by
  cases e with
  | track now sig => exact h.track fun d hdeed => h.now.deed hpriced hdeed
  | save => exact h.saveState
  | restart => exact h.restart SpotShadowTracker.quantities_empty fun s hs => (h.saved s hs).load

end SpotProcess

/-! ## A position sold in three parts -/

namespace SpotRun

def buy : WebhookSignal where
  symbol := "BTCKRW"
  timeframe := "15"
  exchange := "upbit"
  marketType := "spot"
  alert := "BUY"
  action := "buy"
  signalDirection := "bull"
  sigType := .entry
  price := 100

def takeProfit (level : String) : WebhookSignal :=
  { buy with alert := level, tpLevel := level, sigType := .tp, price := 110 }

/-- The two take-profits, a restart in between, and the stop-loss. -/
def events : List SpotEvent :=
  [.track 0 buy, .track 60 (takeProfit "TP1"), .save, .restart, .track 120 (takeProfit "TP2"),
    .track 180 { buy with alert := "SL", sigType := .sl, price := 90 }]

end SpotRun

end WebhookTrader
