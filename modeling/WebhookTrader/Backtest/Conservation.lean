import Mathlib.Tactic.Linarith
import Mathlib.Tactic.Ring
import WebhookTrader.Backtest.Model.Backtester
import WebhookTrader.Common.Lots

/-!
# The backtest's quantities and cash

The positions a run opens are read off the states before and after each
signal, and so are the trade results it appends: a result is booked on the
position that was last opened under its symbol. However entries, reversals,
re-entries, take-profits in any order and stop-losses follow each other,
what was closed of a position is in the end what was opened of it, and the
balance is the initial one with the profits and without the entry fees.
-/

namespace WebhookTrader

/-! ## Opened positions and their results -/

/-- **An opened position with its trade results.** -/
abbrev BtLot := Lot BtPosition BtTradeResult

namespace BtLot

/-- What of the position is not in its results. -/
def unsold (lot : BtLot) : ℚ :=
  lot.item.initialQty - (lot.parts.map BtTradeResult.quantity).sum

/-- **The results are of the whole position**, up to the residue at which
a position is taken as closed. -/
def Settled (lot : BtLot) : Prop := 0 ≤ lot.unsold ∧ lot.unsold ≤ 1 / 10 ^ 12

/-- The latest position that was opened under a symbol. -/
abbrev latest (symbol : String) (lots : List BtLot) : Option BtLot :=
  Lot.latest BtPosition.symbol symbol lots

/-- A result is booked on the latest position of its symbol. -/
abbrev book (lots : List BtLot) (r : BtTradeResult) : List BtLot :=
  Lot.book BtPosition.symbol BtTradeResult.symbol r lots

theorem unsold_add {lot : BtLot} {r : BtTradeResult} :
    unsold (Lot.add r lot) = lot.unsold - r.quantity := by
  show lot.item.initialQty - ((lot.parts ++ [r]).map BtTradeResult.quantity).sum = _
  rw [List.map_append, List.sum_append]
  show _ - (_ + (r.quantity + 0)) = _ - _ - r.quantity
  ring

end BtLot

namespace Backtester

/-! ## What is observed of a step -/

/-- The position that is new under a symbol: there was none, or one on the
other side. -/
def openedAt (symbol : String) (b b' : Backtester) : Option BtPosition :=
  match b.positions.lookup symbol, b'.positions.lookup symbol with
  | none, some pos => some pos
  | some old, some pos => if pos.side = old.side then none else some pos
  | _, none => none

/-- **The lots after a step**: the results it has appended are booked, and
then a position that it has opened is a new lot. -/
def note (symbol : String) (b b' : Backtester) (lots : List BtLot) : List BtLot :=
  let lots := (b'.results.drop b.results.length).foldl BtLot.book lots
  match openedAt symbol b b' with
  | none => lots
  | some pos => { item := pos } :: lots

/-- A step at a symbol, with the lots. -/
def noted (symbol : String) (step : Backtester → Backtester) (s : Backtester × List BtLot) :
    Backtester × List BtLot :=
  (step s.1, note symbol s.1 (step s.1) s.2)

/-- **A run with its lots.** -/
def chronicle (params : BtParams) (signals : List BtSignal) : Backtester × List BtLot :=
  let s := signals.foldl (fun s sig => noted sig.symbol (processSignal params · sig) s)
    (reset params, [])
  s.1.positions.keys.foldl (fun s symbol => noted symbol (expire params · symbol) s) s

/-- The positions a run opens, with their results. -/
def openedLots (params : BtParams) (signals : List BtSignal) : List BtLot :=
  (chronicle params signals).2

/-- **Keeping the lots does not disturb the run.** -/
theorem fst_chronicle (params : BtParams) (signals : List BtSignal) :
    (chronicle params signals).1 = replay params signals := by
  have hsignals : ∀ (signals : List BtSignal) (s : Backtester × List BtLot),
      (signals.foldl (fun s sig => noted sig.symbol (processSignal params · sig) s) s).1 =
        signals.foldl (processSignal params) s.1 := by
    intro signals
    induction signals with
    | nil => intro s; rfl
    | cons sig signals ih => intro s; exact ih _
  have hkeys : ∀ (keys : List String) (s : Backtester × List BtLot),
      (keys.foldl (fun s symbol => noted symbol (expire params · symbol) s) s).1 =
        keys.foldl (expire params) s.1 := by
    intro keys
    induction keys with
    | nil => intro s; rfl
    | cons key keys ih => intro s; exact ih _
  unfold chronicle replay closeAllRemaining
  dsimp only
  rw [hkeys, hsignals]

/-! ## The two kinds of step -/

variable {params : BtParams} {b b' mid : Backtester} {sig : BtSignal} {symbol reason : String}
  {pos old : BtPosition} {r : BtTradeResult} {price qty : ℚ} {lots : List BtLot}

/-- **A quantity of the position under a symbol is closed**: what is left of
it stays, or is nothing up to the residue and goes. -/
structure Closes (symbol : String) (pos : BtPosition) (r : BtTradeResult) (b b' : Backtester) :
    Prop where
  held : b.positions.lookup symbol = some pos
  symbol_eq : r.symbol = pos.symbol
  balance : b'.balance = b.balance + r.pnl
  results : b'.results = b.results ++ [r]
  others : ∀ s, s ≠ symbol → b'.positions.lookup s = b.positions.lookup s
  rest : (b'.positions.lookup symbol = none ∧ 0 ≤ pos.quantity - r.quantity ∧
      pos.quantity - r.quantity ≤ 1 / 10 ^ 12) ∨
    b'.positions.lookup symbol = some { pos with quantity := pos.quantity - r.quantity }

/-- **A position is opened** under its symbol, where there is none. -/
structure Opens (params : BtParams) (pos : BtPosition) (b b' : Backtester) : Prop where
  free : b.positions.lookup pos.symbol = none
  whole : pos.quantity = pos.initialQty
  balance : b'.balance = b.balance - entryFee params pos
  results : b'.results = b.results
  others : ∀ s, s ≠ pos.symbol → b'.positions.lookup s = b.positions.lookup s
  stored : b'.positions.lookup pos.symbol = some pos

/-- All of a position is closed. -/
theorem closes_closePosition (params : BtParams) (price : ℚ) (reason : String)
    (hheld : b.positions.lookup symbol = some pos) :
    ∃ r, Closes symbol pos r b (b.closePosition params symbol price reason) ∧
      (b.closePosition params symbol price reason).positions.lookup symbol = none := by
  unfold closePosition
  rw [hheld]
  have hgone : (b.positions.erase symbol).lookup symbol = none := AList.lookup_erase _ _
  refine ⟨_, ⟨hheld, ?_, ?_, rfl, fun s hs => AList.lookup_erase_ne hs, .inl ⟨hgone, ?_⟩⟩, hgone⟩
  · rfl
  · rfl
  · show 0 ≤ pos.quantity - pos.quantity ∧ pos.quantity - pos.quantity ≤ _
    rw [sub_self]
    norm_num

/-- A take-profit closes at most what is left. -/
theorem closeQty_le : closeQty params sig pos ≤ pos.quantity := by
  unfold closeQty
  by_cases hlevel : sig.tpLevel = 3
  · rw [if_pos hlevel]
  · rw [if_neg hlevel]
    exact min_le_right _ _

/-- A take-profit closes nothing, or a quantity of the position. -/
theorem handleTp_cases (params : BtParams) (sig : BtSignal) (b : Backtester) :
    b.handleTp params sig = b ∨
    ∃ pos r, Closes sig.symbol pos r b (b.handleTp params sig) := by
  unfold handleTp
  cases hheld : b.positions.lookup sig.symbol with
  | none => exact .inl rfl
  | some pos =>
      dsimp only
      by_cases hqty : closeQty params sig pos ≤ 0
      · exact .inl (if_pos hqty)
      rw [if_neg hqty]
      have hrest : (b.positions.modify sig.symbol fun p =>
          { p with quantity := p.quantity - closeQty params sig pos }).lookup sig.symbol =
          some { pos with quantity := pos.quantity - closeQty params sig pos } := by
        rw [Table.lookup_modify, hheld, Option.map_some]
      let qty := closeQty params sig pos
      refine .inr ⟨pos,
        tradeResult pos sig.price qty (netPnl params pos sig.price qty) sig.alert, ?_⟩
      by_cases hsmall : pos.quantity - closeQty params sig pos ≤ 1 / 10 ^ 12
      · rw [if_pos hsmall]
        exact ⟨hheld, rfl, rfl, rfl,
          fun s hs => (AList.lookup_erase_ne hs).trans (Table.lookup_modify_ne hs),
          .inl ⟨AList.lookup_erase _ _, sub_nonneg.2 closeQty_le, hsmall⟩⟩
      · rw [if_neg hsmall]
        exact ⟨hheld, rfl, rfl, rfl, fun s hs => Table.lookup_modify_ne hs, .inr hrest⟩

/-- An entry that gets to its margin check opens nothing, or a position of
the signal. -/
theorem enter_cases (params : BtParams) (hfree : b.positions.lookup sig.symbol = none) :
    b.enter params sig = b ∨ Opens params (opened params sig) b (b.enter params sig) := by
  unfold enter
  dsimp only
  by_cases hmargin : b.balance * (95 / 100) < params.tradeAmountUsdt / params.leverage
  · exact .inl (if_pos hmargin)
  · rw [if_neg hmargin]
    exact .inr ⟨hfree, rfl, rfl, rfl, fun s hs => AList.lookup_insert_ne hs, AList.lookup_insert _⟩

/-- **What a signal does**: nothing, a close, an opening, or the opening of
a position on the other side after a close. -/
inductive Does (params : BtParams) (symbol : String) (b : Backtester) : Backtester → Prop
  | nothing : Does params symbol b b
  | closes {pos : BtPosition} {r : BtTradeResult} {b' : Backtester} :
      Closes symbol pos r b b' → Does params symbol b b'
  | opens {pos : BtPosition} {b' : Backtester} :
      pos.symbol = symbol → Opens params pos b b' → Does params symbol b b'
  | reverses {old pos : BtPosition} {r : BtTradeResult} {mid b' : Backtester} :
      Closes symbol old r b mid → pos.symbol = symbol → pos.side ≠ old.side →
        Opens params pos mid b' → Does params symbol b b'

theorem does_handleEntry (params : BtParams) (sig : BtSignal) (b : Backtester) :
    Does params sig.symbol b (b.handleEntry params sig) := by
  unfold handleEntry
  cases hheld : b.positions.lookup sig.symbol with
  | none =>
      rcases enter_cases params hheld with h | h
      · exact h.symm ▸ .nothing
      · exact .opens rfl h
  | some old =>
      dsimp only
      by_cases hside : old.side ≠ sig.side
      · rw [if_pos hside]
        obtain ⟨r, hcloses, hfree⟩ := closes_closePosition params sig.price "REVERSE" hheld
        rcases enter_cases params hfree with h | h
        · rw [h]
          exact .closes hcloses
        · exact .reverses hcloses rfl (Ne.symm hside) h
      · rw [if_neg hside]
        exact .nothing

theorem does_handleReentry : Does params sig.symbol b (b.handleReentry params sig) := by
  unfold handleReentry
  split_ifs
  · exact .nothing
  · exact does_handleEntry params { sig with alert := "buy" } b
  · exact does_handleEntry params { sig with alert := "sell" } b

theorem does_closePosition : Does params symbol b (b.closePosition params symbol price reason) := by
  cases hheld : b.positions.lookup symbol with
  | none =>
      have hself : b.closePosition params symbol price reason = b := by
        unfold closePosition
        rw [hheld]
      exact hself.symm ▸ .nothing
  | some pos =>
      obtain ⟨r, hcloses, -⟩ := closes_closePosition params price reason hheld
      exact .closes hcloses

theorem does_processSignal : Does params sig.symbol b (b.processSignal params sig) := by
  unfold processSignal
  split_ifs
  · exact does_handleEntry params sig b
  · rcases handleTp_cases params sig b with h | ⟨pos, r, h⟩
    · exact h.symm ▸ .nothing
    · exact .closes h
  · exact does_closePosition
  · exact does_handleReentry
  · exact .nothing

/-! ## What the lots of a step are -/

theorem note_of_results (h : b'.results = b.results) :
    note symbol b b' lots =
      (openedAt symbol b b').elim lots fun pos => { item := pos } :: lots := by
  unfold note
  rw [h, List.drop_length]
  cases openedAt symbol b b' <;> rfl

theorem note_of_result (h : b'.results = b.results ++ [r]) :
    note symbol b b' lots = (openedAt symbol b b').elim (BtLot.book lots r)
      fun pos => { item := pos } :: BtLot.book lots r := by
  unfold note
  rw [h, List.drop_left]
  cases openedAt symbol b b' <;> rfl

theorem openedAt_self : openedAt symbol b b = none := by
  unfold openedAt
  cases b.positions.lookup symbol with
  | none => rfl
  | some pos => exact if_pos rfl

/-- No position is new after a close. -/
theorem Closes.openedAt (h : Closes symbol pos r b b') : openedAt symbol b b' = none := by
  unfold Backtester.openedAt
  rw [h.held]
  rcases h.rest with ⟨hgone, -⟩ | hrest
  · rw [hgone]
  · rw [hrest]
    exact if_pos rfl

theorem Opens.openedAt (h : Opens params pos b b') : openedAt pos.symbol b b' = some pos := by
  unfold Backtester.openedAt
  rw [h.free, h.stored]

/-- The new position after a reversal is on the other side. -/
theorem Opens.openedAt_after (h : Opens params pos mid b') (hclose : Closes pos.symbol old r b mid)
    (hside : pos.side ≠ old.side) : Backtester.openedAt pos.symbol b b' = some pos := by
  unfold Backtester.openedAt
  rw [hclose.held, h.stored]
  exact if_neg hside

/-! ## The invariant -/

/-- **The lots account for the state**: the balance is the initial one with
the profits and without the entry fees; every result is booked; what a lot
has not sold is what is open of it; and a lot with nothing open is settled. -/
structure Balanced (params : BtParams) (b : Backtester) (lots : List BtLot) : Prop where
  cash : b.balance = params.initialBalance + (b.results.map BtTradeResult.pnl).sum -
    (lots.map fun lot => entryFee params lot.item).sum
  booked : (lots.flatMap Lot.parts).Perm b.results
  held : ∀ symbol pos, b.positions.lookup symbol = some pos → pos.symbol = symbol ∧
    ∃ lot, BtLot.latest symbol lots = some lot ∧ lot.unsold = pos.quantity
  free : ∀ symbol, b.positions.lookup symbol = none →
    ∀ lot, BtLot.latest symbol lots = some lot → lot.Settled
  superseded : Lot.Superseded BtPosition.symbol BtLot.Settled lots

theorem balanced_reset (params : BtParams) : Balanced params (reset params) [] where
  cash := by
    show params.initialBalance = params.initialBalance + 0 - 0
    rw [add_zero, sub_zero]
  booked := List.Perm.nil
  held symbol pos h := by cases h
  free symbol _ lot h := by cases h
  superseded := List.Pairwise.nil

/-- **A close keeps the account**: its result is booked on the lot whose
position it closes. -/
theorem Balanced.closes (h : Balanced params b lots) (hclose : Closes symbol pos r b b') :
    Balanced params b' (BtLot.book lots r) := by
  obtain ⟨hsymbol, lot, hlatest, hunsold⟩ := h.held symbol pos hclose.held
  obtain rfl : r.symbol = symbol := hclose.symbol_eq.trans hsymbol
  have hbooked : BtLot.latest r.symbol (BtLot.book lots r) = some (Lot.add r lot) := by
    show Lot.latest _ _ (Lot.book _ _ r lots) = _
    rw [Lot.latest_book_self]
    exact congrArg (Option.map (Lot.add r)) hlatest
  have hrest : BtLot.unsold (Lot.add r lot) = pos.quantity - r.quantity := by
    rw [BtLot.unsold_add, hunsold]
  constructor
  case cash =>
    rw [hclose.balance, hclose.results, h.cash, Lot.map_book, List.map_append, List.sum_append,
      List.map_singleton, List.sum_singleton]
    ring
  case booked =>
    rw [hclose.results]
    exact (Lot.parts_book hlatest).trans (h.booked.append_right [r])
  case held =>
    intro s pos' hpos'
    by_cases hs : s = r.symbol
    · subst hs
      rcases hclose.rest with ⟨hgone, -⟩ | hleft
      · cases hgone.symm.trans hpos'
      · cases hleft.symm.trans hpos'
        exact ⟨hsymbol, _, hbooked, hrest⟩
    · rw [hclose.others s hs] at hpos'
      obtain ⟨hkey, lot', hlot', heq⟩ := h.held s pos' hpos'
      exact ⟨hkey, lot', (Lot.latest_book_ne hs).trans hlot', heq⟩
  case free =>
    intro s hs' lot' hlot'
    by_cases hs : s = r.symbol
    · subst hs
      rcases hclose.rest with ⟨-, hlow, hhigh⟩ | hleft
      · cases hbooked.symm.trans hlot'
        exact ⟨hrest ▸ hlow, hrest ▸ hhigh⟩
      · cases hleft.symm.trans hs'
    · rw [hclose.others s hs] at hs'
      exact h.free s hs' lot' ((Lot.latest_book_ne hs).symm.trans hlot')
  case superseded => exact h.superseded.book

/-- **An opening keeps the account**: it is a lot of which nothing is sold. -/
theorem Balanced.opens (h : Balanced params b lots) (hopen : Opens params pos b b') :
    Balanced params b' ({ item := pos } :: lots) := by
  have hunsold : BtLot.unsold { item := pos } = pos.quantity := by
    show pos.initialQty - 0 = _
    rw [sub_zero, hopen.whole]
  constructor
  case cash =>
    rw [hopen.balance, hopen.results, h.cash, List.map_cons, List.sum_cons]
    ring
  case booked =>
    rw [hopen.results]
    exact h.booked
  case held =>
    intro s pos' hpos'
    by_cases hs : s = pos.symbol
    · subst hs
      cases hopen.stored.symm.trans hpos'
      exact ⟨rfl, _, Lot.latest_cons_self, hunsold⟩
    · rw [hopen.others s hs] at hpos'
      obtain ⟨hkey, lot, hlot, heq⟩ := h.held s pos' hpos'
      exact ⟨hkey, lot, (Lot.latest_cons_ne hs).trans hlot, heq⟩
  case free =>
    intro s hs' lot hlot
    by_cases hs : s = pos.symbol
    · subst hs
      cases hopen.stored.symm.trans hs'
    · rw [hopen.others s hs] at hs'
      exact h.free s hs' lot ((Lot.latest_cons_ne hs).symm.trans hlot)
  case superseded => exact h.superseded.cons fun old hold => h.free pos.symbol hopen.free old hold

/-- **A step keeps the account.** -/
theorem Balanced.does (h : Balanced params b lots) (hdoes : Does params symbol b b') :
    Balanced params b' (note symbol b b' lots) := by
  cases hdoes with
  | nothing =>
      rw [note_of_results rfl, openedAt_self]
      exact h
  | closes hclose =>
      rw [note_of_result hclose.results, hclose.openedAt]
      exact h.closes hclose
  | opens hsymbol hopen =>
      subst hsymbol
      rw [note_of_results hopen.results, hopen.openedAt]
      exact h.opens hopen
  | reverses hclose hsymbol hside hopen =>
      subst hsymbol
      rw [note_of_result (hopen.results.trans hclose.results), hopen.openedAt_after hclose hside]
      exact (h.closes hclose).opens hopen

theorem does_expire : Does params symbol b (b.expire params symbol) := by
  unfold expire
  cases b.positions.lookup symbol with
  | none => exact .nothing
  | some pos => exact does_closePosition

/-! ## A whole run -/

theorem Balanced.signals (signals : List BtSignal) : ∀ {s : Backtester × List BtLot},
    Balanced params s.1 s.2 →
      let s' := signals.foldl (fun s sig => noted sig.symbol (processSignal params · sig) s) s
      Balanced params s'.1 s'.2 := by
  induction signals with
  | nil => exact fun h => h
  | cons sig signals ih => exact fun h => ih (h.does does_processSignal)

theorem Balanced.expires (keys : List String) : ∀ {s : Backtester × List BtLot},
    Balanced params s.1 s.2 →
      let s' := keys.foldl (fun s symbol => noted symbol (expire params · symbol) s) s
      Balanced params s'.1 s'.2 := by
  induction keys with
  | nil => exact fun h => h
  | cons key keys ih => exact fun h => ih (h.does does_expire)

/-- **The lots of a run account for its last state.** -/
theorem balanced_chronicle (params : BtParams) (signals : List BtSignal) :
    Balanced params (chronicle params signals).1 (chronicle params signals).2 :=
  Balanced.expires _ (Balanced.signals signals (balanced_reset params))

/-- The position under a key is gone after its expiry, and no other comes. -/
theorem lookup_expire {s : String} :
    (b.expire params symbol).positions.lookup s =
      if s = symbol then none else b.positions.lookup s := by
  unfold expire
  cases hheld : b.positions.lookup symbol with
  | none =>
      by_cases hs : s = symbol
      · rw [if_pos hs, hs]
        exact hheld
      · rw [if_neg hs]
  | some pos =>
      obtain ⟨r, hclose, hgone⟩ := closes_closePosition params pos.entryPrice "EXPIRE" hheld
      by_cases hs : s = symbol
      · rw [if_pos hs, hs]
        exact hgone
      · rw [if_neg hs]
        exact hclose.others s hs

theorem lookup_expires (keys : List String) {s : String} : ∀ {b : Backtester},
    (keys.foldl (expire params) b).positions.lookup s =
      if s ∈ keys then none else b.positions.lookup s := by
  induction keys with
  | nil => exact fun {b} => rfl
  | cons key keys ih =>
      intro b
      rw [List.foldl_cons, ih, lookup_expire]
      by_cases hs : s = key
      · rw [if_pos hs, if_pos (List.mem_cons.2 (.inl hs)), ite_self]
      · simp only [List.mem_cons, hs, false_or, if_false]

/-- **When a run returns, no position is open.** -/
theorem positions_replay (params : BtParams) (signals : List BtSignal) (symbol : String) :
    (replay params signals).positions.lookup symbol = none := by
  unfold replay closeAllRemaining
  rw [lookup_expires]
  by_cases hkey : symbol ∈ (signals.foldl (processSignal params) (reset params)).positions.keys
  · rw [if_pos hkey]
  · rw [if_neg hkey]
    exact AList.lookup_eq_none.2 hkey

/-- **The backtest conserves quantity and cash**, with whatever signals and
parameters: no position is open when the run returns; of every opened
position its results are the whole, up to the residue, and every result is
one of an opened position; and the final balance is the initial one with
the profits and without the entry fees. -/
theorem backtest_conserved (params : BtParams) (sharpe : List ℚ → ℚ) (signals : List BtSignal) :
    (∀ symbol, (replay params signals).positions.lookup symbol = none) ∧
    (∀ lot ∈ openedLots params signals,
      0 ≤ lot.item.initialQty - (lot.parts.map BtTradeResult.quantity).sum ∧
        lot.item.initialQty - (lot.parts.map BtTradeResult.quantity).sum ≤ 1 / 10 ^ 12) ∧
    ((openedLots params signals).flatMap Lot.parts).Perm (replay params signals).results ∧
    (run params sharpe signals).finalBalance =
      params.initialBalance + ((replay params signals).results.map BtTradeResult.pnl).sum -
        ((openedLots params signals).map fun lot => entryFee params lot.item).sum := by
  have hbalanced := balanced_chronicle params signals
  rw [fst_chronicle] at hbalanced
  have hnone := positions_replay params signals
  exact ⟨hnone, hbalanced.superseded.forall fun symbol lot hlot =>
    hbalanced.free symbol (hnone symbol) lot hlot, hbalanced.booked, hbalanced.cash⟩

/-- A long position with two take-profits, and the short one it is reversed
into, which expires. -/
example : (openedLots {} [⟨"buy", "BTC", 100, ""⟩, ⟨"TP2", "BTC", 110, ""⟩, ⟨"TP1", "BTC", 105, ""⟩,
    ⟨"sell", "BTC", 90, ""⟩]).map (fun lot => (lot.item.side, lot.parts.map (·.exitReason))) =
      [("short", ["EXPIRE"]), ("long", ["TP2", "TP1", "REVERSE"])] := by
  decide +kernel

end Backtester

end WebhookTrader
