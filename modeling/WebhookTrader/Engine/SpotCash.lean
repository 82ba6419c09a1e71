import WebhookTrader.Engine.Deeds

/-!
# Spot cash

An entry pays what it costs into the position, and a sale pays the whole
proceeds back, while the recorded profit is net of a fee. What the account
holds, in cash and at cost, is therefore what it began with and the
recorded profits and fees. It is that without the fees just as long as
nothing is sold.
-/

namespace WebhookTrader

namespace SpotAccount

variable {acc : SpotAccount} {sig : WebhookSignal} {key : PositionKey} {pos : ManagedPosition}
  {oid nextOid system : ℕ}

/-- What the open positions have cost. -/
def cost (acc : SpotAccount) : ℚ := acc.positions.sum fun p => p.entryPrice * p.quantity

/-- The recorded profit. -/
def pnl (acc : SpotAccount) : ℚ := (acc.trades.map TradeRecord.pnl).sum

/-- The recorded fees. -/
def fees (acc : SpotAccount) : ℚ := (acc.trades.map TradeRecord.fee).sum

/-- **The position that a signal's exit sells of**, where it finds one. -/
def sold (sig : WebhookSignal) (acc : SpotAccount) : Option ManagedPosition :=
  match sig.sigType with
  | .tp | .sl => (acc.positions.findValue (sells sig)).map Prod.snd
  | _ => none

/-- **Positions are worth something**, and their keys have drawn numbers. -/
structure Sound (acc : SpotAccount) (nextOid : ℕ) : Prop where
  number : ∀ e ∈ acc.positions.entries, ∃ symbol timeframe oid,
    e.1 = .entry symbol timeframe oid ∧ oid < nextOid
  positive : ∀ e ∈ acc.positions.entries, 0 < e.2.entryPrice ∧ 0 < e.2.quantity

theorem Sound.of_empty (h : acc.positions = ∅) : acc.Sound nextOid := by
  have hnone : ∀ e ∈ acc.positions.entries, False := by
    rw [h]
    intro e he
    exact List.not_mem_nil he
  exact ⟨fun e he => (hnone e he).elim, fun e he => (hnone e he).elim⟩

theorem Sound.mono (h : acc.Sound nextOid) {nextOid' : ℕ} (hle : nextOid ≤ nextOid') :
    acc.Sound nextOid' := by
  refine ⟨fun e he => ?_, h.positive⟩
  obtain ⟨symbol, timeframe, oid, hkey, hlt⟩ := h.number e he
  exact ⟨symbol, timeframe, oid, hkey, hlt.trans_le hle⟩

/-! ## Sales -/

/-- The share of a position that a take-profit sells. -/
def closeRatio (sig : WebhookSignal) : ℚ :=
  if sig.tpLevel = "TP1" then 33 / 100 else if sig.tpLevel = "TP2" then 1 / 2 else 1

/-- A share below one is of the first two levels. -/
theorem closeRatio_cases (sig : WebhookSignal) :
    closeRatio sig = 1 ∨ sig.tpLevel ≠ "TP3" ∧ 0 < closeRatio sig ∧ closeRatio sig < 99 / 100 := by
  unfold closeRatio
  by_cases hone : sig.tpLevel = "TP1"
  · rw [if_pos hone, hone]
    exact .inr ⟨by decide, by norm_num, by norm_num⟩
  · rw [if_neg hone]
    by_cases htwo : sig.tpLevel = "TP2"
    · rw [if_pos htwo, htwo]
      exact .inr ⟨by decide, by norm_num, by norm_num⟩
    · exact .inl (if_neg htwo)

/-- **A sale of a position**: of less than it has, or of all. -/
inductive Sells (sig : WebhookSignal) (acc : SpotAccount) (pos : ManagedPosition) :
    SpotAccount → Prop
  | sale {key : PositionKey} {exitReason : String} {exitPrice closeQty : ℚ} {positions : Book}
      (hlookup : acc.positions.lookup key = some pos) (hprice : 0 < exitPrice)
      (hqty : 0 < closeQty)
      (hbook : positions = acc.positions.erase key ∧ closeQty = pos.quantity ∨
        closeQty < pos.quantity ∧ positions =
          acc.positions.modify key fun p => { p with quantity := p.quantity - closeQty }) :
      Sells sig acc pos (acc.sell sig pos exitReason exitPrice closeQty positions)

/-- **A take-profit that finds a position** sells of it. -/
theorem handleTp_sells (h : acc.Sound nextOid)
    (hfound : acc.positions.findValue (sells sig) = some (key, pos)) :
    Sells sig acc pos (acc.handleTp sig) := by
  obtain ⟨-, hlookup⟩ := Table.findValue_eq_some hfound
  obtain ⟨hentry, hqty⟩ := h.positive _ (AList.mem_lookup_iff.1 hlookup)
  have hprice : 0 < (if 0 < sig.price then sig.price else pos.entryPrice) := by
    split_ifs with hp
    · exact hp
    · exact hentry
  simp only [handleTp, hfound]
  rw [← closeRatio]
  generalize (if 0 < sig.price then sig.price else pos.entryPrice) = exitPrice at hprice ⊢
  rcases closeRatio_cases sig with hall | ⟨hthree, hpos, hlt⟩
  · rw [if_pos (.inr (.inl (by rw [hall]; norm_num)))]
    refine .sale hlookup hprice ?_ (.inl ⟨rfl, ?_⟩)
    · rw [hall, mul_one]
      exact hqty
    · rw [hall, mul_one]
  · have hless : pos.quantity * closeRatio sig < pos.quantity :=
      mul_lt_of_lt_one_right hqty (hlt.trans (by norm_num))
    have hkeep : ¬ (sig.tpLevel = "TP3" ∨ 99 / 100 ≤ closeRatio sig ∨
        pos.quantity - pos.quantity * closeRatio sig ≤ 0) := by
      rintro (h | h | h)
      · exact hthree h
      · exact absurd hlt (not_lt.2 h)
      · exact absurd hless (not_lt.2 (sub_nonpos.1 h))
    rw [if_neg hkeep]
    exact .sale hlookup hprice (mul_pos hqty hpos) (.inr ⟨hless, rfl⟩)

/-- **A stop-loss that finds a position** sells all of it. -/
theorem handleSl_sells (h : acc.Sound nextOid)
    (hfound : acc.positions.findValue (sells sig) = some (key, pos)) :
    Sells sig acc pos (acc.handleSl sig) := by
  obtain ⟨-, hlookup⟩ := Table.findValue_eq_some hfound
  obtain ⟨hentry, hqty⟩ := h.positive _ (AList.mem_lookup_iff.1 hlookup)
  have hprice : 0 < (if 0 < sig.price then sig.price
      else if 0 < pos.slPrice then pos.slPrice else pos.entryPrice) := by
    split_ifs with hp hsl
    · exact hp
    · exact hsl
    · exact hentry
  simp only [handleSl, hfound]
  exact .sale hlookup hprice hqty (.inl ⟨rfl, rfl⟩)

/-- **An exit's section**: nothing is found and nothing changes, or it is a
sale of what is found. -/
theorem exit_cases (h : acc.Sound nextOid) {handle : SpotAccount → SpotAccount}
    (hhandle : sig.sigType = .tp ∧ handle = handleTp sig ∨
      sig.sigType = .sl ∧ handle = handleSl sig) :
    acc.sold sig = none ∧ handle acc = acc ∨
      ∃ pos, acc.sold sig = some pos ∧ Sells sig acc pos (handle acc) := by
  have hsold : acc.sold sig = (acc.positions.findValue (sells sig)).map Prod.snd := by
    rcases hhandle with ⟨htype, -⟩ | ⟨htype, -⟩ <;> simp only [sold, htype]
  rw [hsold]
  cases hfound : acc.positions.findValue (sells sig) with
  | none =>
      refine .inl ⟨rfl, ?_⟩
      rcases hhandle with ⟨-, rfl⟩ | ⟨-, rfl⟩
      · simp only [handleTp, hfound]
      · simp only [handleSl, hfound]
  | some e =>
      refine .inr ⟨e.2, rfl, ?_⟩
      rcases hhandle with ⟨-, rfl⟩ | ⟨-, rfl⟩
      · exact handleTp_sells h hfound
      · exact handleSl_sells h hfound

variable {acc' : SpotAccount}

/-- **A sale returns the cost, the profit and the fee.** -/
theorem Sells.cash (h : Sells sig acc pos acc') :
    acc'.balance + acc'.cost = acc.balance + acc.cost + (acc'.pnl - acc.pnl) +
      (acc'.fees - acc.fees) := by
  cases h with
  | @sale key _ exitPrice closeQty positions hlookup _ _ hbook =>
      have hcost : positions.sum (fun p => p.entryPrice * p.quantity) =
          acc.cost - pos.entryPrice * closeQty := by
        rw [cost, Table.sum_eq_add_erase hlookup]
        rcases hbook with ⟨rfl, rfl⟩ | ⟨-, rfl⟩
        · ring
        · rw [Table.sum_modify hlookup]
          ring
      simp only [sell, pnl, fees, List.map_append, List.sum_append, List.map_cons,
        List.sum_cons, List.map_nil, List.sum_nil]
      rw [cost, hcost]
      ring

/-- Every sale has a fee. -/
theorem Sells.fees (h : Sells sig acc pos acc') : acc.fees < acc'.fees := by
  cases h with
  | @sale key _ exitPrice closeQty positions _ hprice hqty _ =>
      have hfee : 0 < exitPrice * closeQty * (1 / 1000) := by positivity
      simp only [sell, SpotAccount.fees, List.map_append, List.sum_append, List.map_cons,
        List.sum_cons, List.map_nil, List.sum_nil]
      linarith

/-- What is held after a sale was held before it. -/
theorem Sells.entry_of_mem (h : Sells sig acc pos acc')
    {e : Sigma fun _ : PositionKey => ManagedPosition} (he : e ∈ acc'.positions.entries) :
    ∃ e' ∈ acc.positions.entries, e.1 = e'.1 ∧ e.2.entryPrice = e'.2.entryPrice ∧
      (0 < e'.2.quantity → 0 < e.2.quantity) := by
  cases h with
  | @sale key _ exitPrice closeQty positions hlookup _ _ hbook =>
      rcases hbook with ⟨rfl, -⟩ | ⟨hlt, rfl⟩
      · exact ⟨e, (Table.mem_erase.1 he).2, rfl, rfl, id⟩
      · obtain ⟨e', he', rfl⟩ := Table.mem_modify.1 he
        refine ⟨e', he', rfl, ?_, fun hpos => ?_⟩
        · dsimp only
          split_ifs <;> rfl
        · dsimp only
          split_ifs with hkey
          · have heq : e' = ⟨key, pos⟩ :=
              Table.eq_of_mem he' (AList.mem_lookup_iff.1 hlookup) hkey
            rw [heq]
            exact sub_pos.2 hlt
          · exact hpos

theorem Sells.sound (h : Sells sig acc pos acc') (hsound : acc.Sound nextOid) :
    acc'.Sound nextOid := by
  refine ⟨fun e he => ?_, fun e he => ?_⟩
  · obtain ⟨e', he', hkey, -⟩ := h.entry_of_mem he
    exact hkey ▸ hsound.number e' he'
  · obtain ⟨e', he', -, hprice, hqty⟩ := h.entry_of_mem he
    exact ⟨hprice ▸ (hsound.positive e' he').1, hqty (hsound.positive e' he').2⟩

/-! ## Entries -/

theorem price_pos_of_buyQty (h : 0 < buyQty sig) : 0 < sig.price := by
  by_contra hprice
  rw [buyQty, if_neg hprice] at h
  exact lt_irrefl _ h

/-- **An entry**: the symbol is held and nothing changes, or a position is
bought. -/
theorem handleEntry_cases (acc : SpotAccount) (sig : WebhookSignal) (oid system : ℕ) :
    acc.handleEntry sig oid system = acc ∨
      ∃ pos, pos.entryPrice = sig.price ∧ pos.quantity = buyQty sig ∧
        acc.handleEntry sig oid system =
          { acc with
            positions := acc.positions.insert (.entry sig.symbol (timeframe sig) oid) pos
            balance := acc.balance - tradeKrw } := by
  unfold handleEntry
  by_cases hheld : acc.positions.entries.any fun e =>
      e.2.symbol = sig.symbol && e.2.exchange = sig.exchange && e.2.side = "long"
  · exact .inl (if_pos hheld)
  · rw [if_neg hheld]
    exact .inr ⟨_, rfl, rfl, rfl⟩

/-- **An entry turns cash into a position of the same cost.** -/
theorem handleEntry_cash (hqty : 0 < buyQty sig)
    (hfree : acc.positions.lookup (.entry sig.symbol (timeframe sig) oid) = none) :
    (acc.handleEntry sig oid system).balance + (acc.handleEntry sig oid system).cost =
      acc.balance + acc.cost := by
  have hprice : 0 < sig.price := price_pos_of_buyQty hqty
  rcases handleEntry_cases acc sig oid system with heq | ⟨pos, hentry, hquantity, heq⟩ <;> rw [heq]
  have hpaid : pos.entryPrice * pos.quantity = tradeKrw := by
    rw [hentry, hquantity, buyQty, if_pos hprice]
    exact mul_div_cancel₀ _ hprice.ne'
  simp only [cost]
  rw [Table.sum_insert hfree, hpaid]
  ring

theorem handleEntry_trades : (acc.handleEntry sig oid system).trades = acc.trades := by
  rcases handleEntry_cases acc sig oid system with heq | ⟨pos, -, -, heq⟩ <;> rw [heq]

/-- What is held after an entry. -/
theorem of_mem_handleEntry {e : Sigma fun _ : PositionKey => ManagedPosition}
    (he : e ∈ (acc.handleEntry sig oid system).positions.entries) :
    e ∈ acc.positions.entries ∨ e.1 = .entry sig.symbol (timeframe sig) oid ∧
      e.2.entryPrice = sig.price ∧ e.2.quantity = buyQty sig := by
  rcases handleEntry_cases acc sig oid system with heq | ⟨pos, hentry, hquantity, heq⟩ <;>
    rw [heq] at he
  · exact .inl he
  · rcases Table.mem_insert.1 he with rfl | ⟨-, hold⟩
    · exact .inr ⟨rfl, hentry, hquantity⟩
    · exact .inl hold

theorem Sound.handleEntry (h : acc.Sound nextOid) (hqty : 0 < buyQty sig) (hoid : oid < nextOid) :
    (acc.handleEntry sig oid system).Sound nextOid := by
  refine ⟨fun e he => ?_, fun e he => ?_⟩ <;>
    rcases of_mem_handleEntry he with hold | ⟨hkey, hprice, hquantity⟩
  · exact h.number e hold
  · exact ⟨_, _, oid, hkey, hoid⟩
  · exact h.positive e hold
  · rw [hprice, hquantity]
    exact ⟨price_pos_of_buyQty hqty, hqty⟩

end SpotAccount

/-! ## Numbers -/

namespace SpotJob

variable {j j' : SpotJob} {d d' : Desk}

/-- The number under which the handler is about to enter. -/
def drawn (j : SpotJob) : Option ℕ := if j.pc = .book ∧ j.enters then some j.oid else none

/-- An entry that has come so far has a quantity. -/
def Priced (j : SpotJob) : Prop :=
  j.enters = true → j.pc = .takeOid ∨ j.pc = .book → 0 < SpotAccount.buyQty j.sig

/-- **The steps of a spot handler**, as far as numbers and the account go. -/
inductive Draws (j : SpotJob) (d : Desk) : SpotJob → Desk → Prop
  /-- To a place where no position is about to be entered. -/
  | away {pc : SpotPc} {locked : List String} (hpc : j.pc ≠ .book) (htake : pc ≠ .takeOid)
      (hbook : pc ≠ .book) : Draws j d (j.goto pc) { d with engine := { d.engine with locked } }
  | exits {locked : List String} (hpc : j.pc = .lock) (hexits : j.enters = false) :
      Draws j d (j.goto .book) { d with engine := { d.engine with locked } }
  | passes (hpc : j.pc = .grade) (hqty : 0 < SpotAccount.buyQty j.sig) :
      Draws j d (j.goto .takeOid) d
  | number (hpc : j.pc = .takeOid) : Draws j d { j with pc := .book, oid := d.engine.nextOid }
      { d with engine := { d.engine with nextOid := d.engine.nextOid + 1 } }
  | account (hpc : j.pc = .book) : Draws j d (j.goto .unlock) { d with spot := j.account d }

/-- A step that leaves the desk alone. -/
theorem Draws.idle {pc : SpotPc} (hpc : j.pc ≠ .book) (htake : pc ≠ .takeOid) (hbook : pc ≠ .book) :
    Draws j d (j.goto pc) d := by
  show Draws j d (j.goto pc) { d with engine := { d.engine with locked := d.engine.locked } }
  exact .away hpc htake hbook

theorem draws_of_step (h : j.step d = some (j', d')) : Draws j d j' d' := by
  cases hpc : j.pc <;> simp only [step, hpc] at h
  case lock =>
    have hne : j.pc ≠ .book := hpc ▸ by decide
    split_ifs at h with _ _ _ henters
    · cases h
      exact .idle hne (by decide) (by decide)
    · cases h
      exact .idle hne (by decide) (by decide)
    · cases h
      exact .away hne (by decide) (by decide)
    · cases h
      exact .exits hpc (by simpa using henters)
  case grade =>
    have hne : j.pc ≠ .book := hpc ▸ by decide
    cases h
    by_cases hstop : (j.gradeBlocks d || decide (SpotAccount.buyQty j.sig ≤ 0)) = true
    · rw [if_pos hstop]
      exact .idle hne (by decide) (by decide)
    · rw [if_neg hstop]
      exact .passes hpc (by simp at hstop; exact hstop.2)
  case takeOid =>
    cases h
    exact .number hpc
  case book =>
    cases h
    exact .account hpc
  case unlock =>
    have hne : j.pc ≠ .book := hpc ▸ by decide
    cases h
    exact .away hne (by decide) (by decide)
  case finished => cases h

/-- In the section the account changes, and nothing else. -/
theorem Draws.of_book (h : Draws j d j' d') (hpc : j.pc = .book) :
    j' = j.goto .unlock ∧ d' = { d with spot := j.account d } := by
  cases h with
  | account => exact ⟨rfl, rfl⟩
  | away hne => exact absurd hpc hne
  | exits hother | passes hother | number hother =>
      rw [hother] at hpc
      cases hpc

/-- Outside it the account stays, and the next number is drawn at most. -/
theorem Draws.quiet (h : Draws j d j' d') (hpc : j.pc ≠ .book) :
    d'.spot = d.spot ∧ d.engine.nextOid ≤ d'.engine.nextOid ∧
      ∀ oid ∈ j'.drawn, oid = d.engine.nextOid ∧ d'.engine.nextOid = d.engine.nextOid + 1 := by
  cases h with
  | account hbook => exact absurd hbook hpc
  | @away pc _ _ _ hbook =>
      refine ⟨rfl, le_rfl, fun oid hoid => ?_⟩
      rw [drawn, if_neg fun h => hbook h.1] at hoid
      cases hoid
  | exits _ hexits =>
      refine ⟨rfl, le_rfl, fun oid hoid => ?_⟩
      rw [drawn, if_neg fun h => Bool.false_ne_true (hexits.symm.trans h.2)] at hoid
      cases hoid
  | passes =>
      refine ⟨rfl, le_rfl, fun oid hoid => ?_⟩
      rw [drawn, if_neg fun h => by cases h.1] at hoid
      cases hoid
  | number =>
      refine ⟨rfl, Nat.le_succ _, fun oid hoid => ?_⟩
      rw [drawn] at hoid
      split_ifs at hoid
      · exact ⟨(Option.some.inj hoid).symm, rfl⟩
      · cases hoid

theorem Draws.priced (h : Draws j d j' d') (hpriced : j.Priced) : j'.Priced := by
  cases h with
  | away _ htake hbook =>
      rintro - (h | h)
      · exact absurd h htake
      · exact absurd h hbook
  | exits _ hexits =>
      intro henters
      rw [show (j.goto .book).enters = j.enters from rfl, hexits] at henters
      cases henters
  | passes _ hqty => exact fun _ _ => hqty
  | number hpc => exact fun henters _ => hpriced henters (.inl hpc)
  | account =>
      rintro - (h | h) <;> cases h

end SpotJob

/-! ## Runs -/

namespace Worker

variable {cfg : DeskConfig} {d d' : Desk} {w w' : Worker}

/-- The number under which a worker is about to enter a spot position. -/
def drawn : Worker → Option ℕ
  | spot _ j => j.drawn
  | _ => none

def Priced : Worker → Prop
  | spot _ j => j.Priced
  | _ => True

/-- **The spot position that a worker's next step sells of.** -/
def sale (d : Desk) : Worker → Option ManagedPosition
  | spot _ j => if j.pc = .book then d.spot.sold j.sig else none
  | _ => none

/-- A handler that begins has drawn nothing. -/
theorem Routed.starts {q : Queued} (h : Routed q w) : w.drawn = none ∧ w.Priced := by
  cases h with
  | spot =>
      refine ⟨rfl, ?_⟩
      rintro - (h | h) <;> cases h
  | _ => exact ⟨rfl, trivial⟩

/-- **A worker's step** leaves the account alone, or is a spot handler's. -/
theorem Move.spot_cases (h : Move cfg d w w' d') :
    (d'.spot = d.spot ∧ d.engine.nextOid ≤ d'.engine.nextOid ∧ w'.drawn = none ∧ w'.Priced ∧
        w.sale d = none) ∨
      ∃ ticket j j', w = .spot ticket j ∧ w' = .spot ticket j' ∧ j.Draws d j' d' := by
  cases h with
  | wake =>
      refine .inl ⟨rfl, le_rfl, ?_, ?_, rfl⟩
      · split_ifs <;> rfl
      · split_ifs <;> trivial
  | pass =>
      obtain ⟨hdrawn, hpriced⟩ := (routed_route cfg _).starts
      exact .inl ⟨rfl, le_rfl, hdrawn, hpriced, rfl⟩
  | leaveSpot ticket hpc =>
      refine .inl ⟨rfl, le_rfl, rfl, trivial, ?_⟩
      rw [sale, if_neg (by rw [hpc]; nofun)]
  | futures ticket hfinished hstep =>
      exact .inl ⟨rfl, (Job.transfer_of_step hstep).numbers.1, rfl, trivial, rfl⟩
  | @closeAll job job' engine hstep =>
      have hjob : (Job.closeAll job).step cfg.engine d.engine = some (.closeAll job', engine) := by
        rw [Job.step, hstep]
        rfl
      exact .inl ⟨rfl, (Job.transfer_of_step hjob).numbers.1, rfl, trivial, rfl⟩
  | spot ticket hstep => exact .inr ⟨ticket, _, _, rfl, rfl, SpotJob.draws_of_step hstep⟩
  | _ => exact .inl ⟨rfl, le_rfl, rfl, trivial, rfl⟩

end Worker

namespace SpotAccount

/-- **The accounts of a run**: what it began with and what has been
recorded is all there, and fees are recorded with sales. -/
structure AccountsFor (initial : ℚ) (acc : SpotAccount) (sales : List ManagedPosition) : Prop where
  cash : acc.balance + acc.cost = initial + acc.pnl + acc.fees
  fees : sales = [] ∧ acc.fees = 0 ∨ sales ≠ [] ∧ 0 < acc.fees

variable {initial : ℚ} {acc acc' : SpotAccount} {sales : List ManagedPosition}
  {pos : ManagedPosition} {sig : WebhookSignal}

theorem AccountsFor.sale (h : AccountsFor initial acc sales) (hsells : Sells sig acc pos acc') :
    AccountsFor initial acc' (pos :: sales) := by
  have hcash := hsells.cash
  have hfees := hsells.fees
  refine ⟨?_, .inr ⟨List.cons_ne_nil _ _, ?_⟩⟩
  · have hbefore := h.cash
    linarith
  · rcases h.fees with ⟨-, hnone⟩ | ⟨-, hsome⟩
    · rwa [hnone] at hfees
    · exact hsome.trans hfees

/-- **The accounts are those of the prices** just as long as nothing is
sold. -/
theorem AccountsFor.iff (h : AccountsFor initial acc sales) :
    acc.balance + acc.cost = initial + acc.pnl ↔ sales = [] := by
  have hcash := h.cash
  rcases h.fees with ⟨hnil, hfees⟩ | ⟨hcons, hfees⟩
  · rw [hfees, add_zero] at hcash
    exact iff_of_true hcash hnil
  · refine iff_of_false (fun heq => ?_) hcons
    linarith

end SpotAccount

namespace Desk

/-- **A number is free** that has been drawn and is in no key. -/
def Free (d : Desk) (oid : ℕ) : Prop :=
  oid < d.engine.nextOid ∧ ∀ e ∈ d.spot.positions.entries, ∀ symbol timeframe,
    e.1 ≠ .entry symbol timeframe oid

variable {d d' : Desk} {oid : ℕ}

theorem Free.of_spot (h : d.Free oid) (hspot : d'.spot = d.spot)
    (hnext : d.engine.nextOid ≤ d'.engine.nextOid) : d'.Free oid :=
  ⟨h.1.trans_le hnext, by rw [hspot]; exact h.2⟩

theorem Free.lookup (h : d.Free oid) (symbol timeframe : String) :
    d.spot.positions.lookup (.entry symbol timeframe oid) = none := by
  rw [Option.eq_none_iff_forall_ne_some]
  intro pos hpos
  exact h.2 _ (AList.mem_lookup_iff.1 hpos) symbol timeframe rfl

/-- **A number that is drawn** is free. -/
theorem free_nextOid (h : d.spot.Sound d.engine.nextOid) (hspot : d'.spot = d.spot)
    (hnext : d'.engine.nextOid = d.engine.nextOid + 1) : d'.Free d.engine.nextOid := by
  refine ⟨by omega, fun e he symbol timeframe heq => ?_⟩
  rw [hspot] at he
  obtain ⟨symbol', timeframe', oid, hkey, hlt⟩ := h.number e he
  obtain ⟨-, -, rfl⟩ := PositionKey.entry.inj (hkey.symm.trans heq)
  exact lt_irrefl _ hlt

end Desk

namespace SpotJob

open SpotAccount

variable {j : SpotJob} {d : Desk} {initial : ℚ} {sales : List ManagedPosition}

/-- **The section under the account's mutex** keeps the accounts. -/
theorem account_keeps (hpc : j.pc = .book) (hpriced : j.Priced)
    (hsound : d.spot.Sound d.engine.nextOid) (haccounts : AccountsFor initial d.spot sales)
    (hfree : ∀ oid ∈ j.drawn, d.Free oid) :
    (j.account d).Sound d.engine.nextOid ∧
      AccountsFor initial (j.account d) ((d.spot.sold j.sig).toList ++ sales) := by
  have henter : j.enters = true → d.spot.sold j.sig = none →
      (d.spot.handleEntry j.sig j.oid d.engine.clock.system).Sound d.engine.nextOid ∧
        AccountsFor initial (d.spot.handleEntry j.sig j.oid d.engine.clock.system)
          ((d.spot.sold j.sig).toList ++ sales) := by
    intro henters hnone
    have hqty : 0 < buyQty j.sig := hpriced henters (.inr hpc)
    have hoid : d.Free j.oid := hfree j.oid (by rw [drawn, if_pos ⟨hpc, henters⟩]; rfl)
    refine ⟨hsound.handleEntry hqty hoid.1, ?_⟩
    rw [hnone]
    refine ⟨?_, ?_⟩
    · rw [handleEntry_cash hqty (hoid.lookup _ _), pnl, fees, handleEntry_trades]
      exact haccounts.cash
    · rw [fees, handleEntry_trades]
      exact haccounts.fees
  have hexit : ∀ handle : SpotAccount → SpotAccount,
      j.sig.sigType = .tp ∧ handle = SpotAccount.handleTp j.sig ∨
        j.sig.sigType = .sl ∧ handle = SpotAccount.handleSl j.sig →
      (handle d.spot).Sound d.engine.nextOid ∧
        AccountsFor initial (handle d.spot) ((d.spot.sold j.sig).toList ++ sales) := by
    intro handle hhandle
    rcases exit_cases hsound hhandle with ⟨hnone, heq⟩ | ⟨pos, hsome, hsells⟩
    · rw [hnone, heq]
      exact ⟨hsound, haccounts⟩
    · rw [hsome]
      exact ⟨hsells.sound hsound, haccounts.sale hsells⟩
  unfold account
  cases htype : j.sig.sigType with
  | entry => exact henter (by simp [enters, htype]) (by simp only [sold, htype])
  | reEntry => exact henter (by simp [enters, htype]) (by simp only [sold, htype])
  | tp => exact hexit _ (.inl ⟨htype, rfl⟩)
  | sl => exact hexit _ (.inr ⟨htype, rfl⟩)
  | unknown =>
      have hnone : d.spot.sold j.sig = none := by simp only [sold, htype]
      rw [hnone]
      exact ⟨hsound, haccounts⟩

/-- The keys after the section are those before it, and the one that was
drawn. -/
theorem key_of_mem_account (hpc : j.pc = .book) (hsound : d.spot.Sound d.engine.nextOid)
    {e : Sigma fun _ : PositionKey => ManagedPosition}
    (he : e ∈ (j.account d).positions.entries) :
    (∃ e' ∈ d.spot.positions.entries, e.1 = e'.1) ∨
      ∃ oid ∈ j.drawn, e.1 = .entry j.sig.symbol (timeframe j.sig) oid := by
  have henter : j.enters = true →
      e ∈ (d.spot.handleEntry j.sig j.oid d.engine.clock.system).positions.entries →
      (∃ e' ∈ d.spot.positions.entries, e.1 = e'.1) ∨
        ∃ oid ∈ j.drawn, e.1 = .entry j.sig.symbol (timeframe j.sig) oid := by
    intro henters hmem
    rcases of_mem_handleEntry hmem with hold | ⟨hkey, -⟩
    · exact .inl ⟨e, hold, rfl⟩
    · exact .inr ⟨j.oid, by rw [drawn, if_pos ⟨hpc, henters⟩]; rfl, hkey⟩
  have hexit : ∀ handle : SpotAccount → SpotAccount,
      j.sig.sigType = .tp ∧ handle = SpotAccount.handleTp j.sig ∨
        j.sig.sigType = .sl ∧ handle = SpotAccount.handleSl j.sig →
      e ∈ (handle d.spot).positions.entries → ∃ e' ∈ d.spot.positions.entries, e.1 = e'.1 := by
    intro handle hhandle hmem
    rcases exit_cases hsound hhandle with ⟨-, heq⟩ | ⟨pos, -, hsells⟩
    · rw [heq] at hmem
      exact ⟨e, hmem, rfl⟩
    · obtain ⟨e', he', hkey, -⟩ := hsells.entry_of_mem hmem
      exact ⟨e', he', hkey⟩
  unfold account at he
  cases htype : j.sig.sigType with
  | entry =>
      rw [htype] at he
      exact henter (by simp [enters, htype]) he
  | reEntry =>
      rw [htype] at he
      exact henter (by simp [enters, htype]) he
  | tp =>
      rw [htype] at he
      exact .inl (hexit _ (.inl ⟨htype, rfl⟩) he)
  | sl =>
      rw [htype] at he
      exact .inl (hexit _ (.inr ⟨htype, rfl⟩) he)
  | unknown =>
      rw [htype] at he
      exact .inl ⟨e, he, rfl⟩

end SpotJob

namespace Desk

variable {d : Desk} {oid : ℕ}

/-- The section of another number leaves it free. -/
theorem Free.account {j : SpotJob} (h : d.Free oid) (hpc : j.pc = .book)
    (hsound : d.spot.Sound d.engine.nextOid) (hother : oid ∉ j.drawn) :
    Free { d with spot := j.account d } oid := by
  refine ⟨h.1, fun e he symbol timeframe heq => ?_⟩
  rcases j.key_of_mem_account hpc hsound he with ⟨e', he', hkey⟩ | ⟨oid', hoid', hkey⟩
  · exact h.2 e' he' symbol timeframe (hkey.symm.trans heq)
  · obtain ⟨-, -, rfl⟩ := PositionKey.entry.inj (hkey.symm.trans heq)
    exact hother hoid'

end Desk

namespace Floor

open SpotAccount (AccountsFor)

variable {cfg : DeskConfig} {parse : Text → Option Json} {s s' : Floor} {l : FloorLabel}
  {initial : ℚ} {t t' : Floor × List ManagedPosition}

/-- The spot position that a step sells of. -/
def sale (s : Floor) : FloorLabel → Option ManagedPosition
  | .work i => s.jobs[i]?.bind fun w => w.sale s.shared
  | _ => none

/-- **The workers, with the log of their spot sales.** -/
abbrev sellingFloor (cfg : DeskConfig) (parse : Text → Option Json) :
    System (Floor × List ManagedPosition) FloorLabel :=
  (floorSystem cfg parse).logged Floor.sale

/-- No event touches the account or draws a number. -/
theorem spot_of_event {d d' : Desk} {e : DeskEvent} (h : e.apply cfg parse d = some d') :
    d'.spot = d.spot ∧ d'.engine.nextOid = d.engine.nextOid := by
  have hmove : ∃ deed, DeskEvent.Move cfg d d' deed := ⟨Floor.deed cfg parse ⟨d, []⟩ (.event e),
    move_of_event h⟩
  obtain ⟨deed, hmove⟩ := hmove
  cases hmove with
  | engine happly => exact ⟨rfl, (Event.owners_of_apply happly).2⟩
  | accept | refuse | clear | markLive | tick | stop => exact ⟨rfl, rfl⟩

/-- A worker without a number is in nobody's way. -/
theorem apart_of_none {w other : Worker} (h : w.drawn = none) :
    (∀ oid ∈ w.drawn, oid ∉ other.drawn) ∧ ∀ oid ∈ other.drawn, oid ∉ w.drawn := by
  rw [h]
  exact ⟨fun oid hoid => absurd hoid (Option.not_mem_none oid),
    fun oid _ => Option.not_mem_none oid⟩

theorem free_of_none {w : Worker} {d : Desk} (h : w.drawn = none) :
    ∀ oid ∈ w.drawn, d.Free oid := by
  rw [h]
  exact fun oid hoid => absurd hoid (Option.not_mem_none oid)

/-- **The numbers of spot entries** are drawn, in no key, and each in one
hand. -/
abbrev Drawn (s : Floor) : Prop :=
  s.Holds (fun d => d.spot.Sound d.engine.nextOid)
    (fun d w => (∀ oid ∈ w.drawn, d.Free oid) ∧ w.Priced)
    (fun w w' => ∀ oid ∈ w.drawn, oid ∉ w'.drawn)

/-- A step that leaves the account alone and draws the next number at
most. -/
theorem Drawn.work_quiet (h : s.Drawn) {i : ℕ} {w w' : Worker} {d' : Desk}
    (hw : s.jobs[i]? = some w) (hspot : d'.spot = s.shared.spot)
    (hnext : s.shared.engine.nextOid ≤ d'.engine.nextOid)
    (hnew : ∀ oid ∈ w'.drawn, oid = s.shared.engine.nextOid ∧
      d'.engine.nextOid = s.shared.engine.nextOid + 1)
    (hpriced : w'.Priced) : Drawn ⟨d', s.jobs.set i w'⟩ := by
  have hsound : d'.spot.Sound d'.engine.nextOid := by
    rw [hspot]
    exact h.shared.mono hnext
  refine h.work hw hsound ⟨fun oid hoid => ?_, hpriced⟩ (fun other hother _ => ?_)
    fun other hother _ => ?_
  · obtain ⟨rfl, hdrew⟩ := hnew oid hoid
    exact Desk.free_nextOid h.shared hspot hdrew
  · exact ⟨fun oid hoid => (hother.1 oid hoid).of_spot hspot hnext, hother.2⟩
  · -- the others' numbers were drawn before this one
    have hold : ∀ oid ∈ w'.drawn, oid ∉ other.drawn := by
      intro oid hoid hmem
      obtain ⟨rfl, -⟩ := hnew oid hoid
      exact lt_irrefl _ (hother.1 _ hmem).1
    exact ⟨hold, fun oid hoid hmem => hold oid hmem hoid⟩

/-- The section of a spot handler. -/
theorem Drawn.work_account (h : s.Drawn) {i ticket : ℕ} {j : SpotJob}
    (hw : s.jobs[i]? = some (.spot ticket j)) (hpc : j.pc = .book)
    (hsound : (j.account s.shared).Sound s.shared.engine.nextOid) :
    Drawn ⟨{ s.shared with spot := j.account s.shared },
      s.jobs.set i (.spot ticket (j.goto .unlock))⟩ := by
  have hnone : (j.goto .unlock).drawn = none := by
    rw [SpotJob.drawn, if_neg]
    rintro ⟨hbook, -⟩
    cases hbook
  refine h.work hw hsound ⟨free_of_none hnone, ?_⟩ (fun other hother hapart => ?_)
    fun other _ _ => apart_of_none hnone
  · rintro - (h | h) <;> cases h
  · refine ⟨fun oid hoid => ?_, hother.2⟩
    exact (hother.1 oid hoid).account hpc h.shared fun hmem => hapart oid hmem hoid

/-- **Every step keeps the accounts.** -/
theorem accounts_next (hdrawn : t.1.Drawn) (haccounts : AccountsFor initial t.1.shared.spot t.2)
    (hnext : (sellingFloor cfg parse).next t l = some t') :
    t'.1.Drawn ∧ AccountsFor initial t'.1.shared.spot t'.2 := by
  obtain ⟨s, sales⟩ := t
  obtain ⟨s', sales'⟩ := t'
  obtain ⟨hstep, hlog⟩ := System.next_logged.1 hnext
  dsimp only at hdrawn haccounts hstep hlog ⊢
  subst hlog
  cases Threads.move_of_next hstep with
  | start w hstart =>
      obtain ⟨job, rfl⟩ := Worker.exists_of_canStart hstart
      have hnone : (Worker.closeAll job).drawn = none := rfl
      exact ⟨hdrawn.start ⟨free_of_none hnone, trivial⟩ fun other => apart_of_none hnone, haccounts⟩
  | event e happly =>
      obtain ⟨hspot, hoid⟩ : _ ∧ _ := spot_of_event happly
      refine ⟨hdrawn.event ?_ fun i w hw => ?_, ?_⟩
      · rw [hspot, hoid]
        exact hdrawn.shared
      · obtain ⟨hfree, hpriced⟩ := hdrawn.jobs i w hw
        exact ⟨fun oid hmem => (hfree oid hmem).of_spot hspot hoid.ge, hpriced⟩
      · show AccountsFor initial _ sales
        rw [hspot]
        exact haccounts
  | @work i w w' d' hw hwork =>
      have hsale : Floor.sale s (.work i) = w.sale s.shared := by
        rw [Floor.sale, hw]
        rfl
      rw [hsale]
      rcases (Worker.move_of_step hwork).spot_cases with
        ⟨hspot, hoid, hnone, hpriced, hquiet⟩ | ⟨ticket, j, j', rfl, rfl, hdraws⟩
      · refine ⟨hdrawn.work_quiet hw hspot hoid (fun oid hmem => ?_) hpriced, ?_⟩
        · rw [hnone] at hmem
          cases hmem
        · rw [hquiet, hspot]
          exact haccounts
      · obtain ⟨hfree, hpriced⟩ := hdrawn.jobs i _ hw
        have hpriced' : j'.Priced := hdraws.priced hpriced
        by_cases hpc : j.pc = .book
        · obtain ⟨rfl, rfl⟩ := hdraws.of_book hpc
          obtain ⟨hsound, hafter⟩ := j.account_keeps hpc hpriced hdrawn.shared haccounts hfree
          refine ⟨hdrawn.work_account hw hpc hsound, ?_⟩
          rw [Worker.sale, if_pos hpc]
          exact hafter
        · obtain ⟨hspot, hoid, hnew⟩ := hdraws.quiet hpc
          refine ⟨hdrawn.work_quiet hw hspot hoid hnew hpriced', ?_⟩
          rw [Worker.sale, if_neg hpc, hspot]
          exact haccounts

/-- **Spot cash is conserved just as long as nothing is sold.** From an
account without positions and trades on, the cash and the cost of what is
open are what the account began with and the recorded profit, in every
state in which no exit has found a position. -/
theorem spot_cash_iff {sales : List ManagedPosition} (hinit : (floorSystem cfg parse).init s)
    (hempty : s.shared.spot.positions = ∅) (htrades : s.shared.spot.trades = [])
    (hrun : (sellingFloor cfg parse).Run System.anyStep (s, []) (s', sales)) :
    s'.shared.spot.balance + s'.shared.spot.cost = s.shared.spot.balance + s'.shared.spot.pnl ↔
      sales = [] := by
  have hidle : ∀ (i : ℕ) (w : Worker), s.jobs[i]? = some w → w = .idle :=
    fun i w => idle_of_init hinit
  have hsound : s.shared.spot.Sound s.shared.engine.nextOid :=
    .of_empty hempty
  have hdrawn : s.Drawn := by
    refine ⟨hsound, fun i w hw => ?_, fun i k w other _ hw _ => ?_⟩
    · rw [hidle i w hw]
      exact ⟨free_of_none rfl, trivial⟩
    · rw [hidle i w hw]
      exact (apart_of_none rfl).1
  have haccounts : AccountsFor s.shared.spot.balance s.shared.spot [] := by
    refine ⟨?_, .inl ⟨rfl, ?_⟩⟩
    · have hcost : s.shared.spot.cost = 0 := by
        rw [SpotAccount.cost, hempty]
        rfl
      rw [hcost, SpotAccount.pnl, SpotAccount.fees, htrades, List.map_nil, List.map_nil,
        List.sum_nil, add_zero, add_zero]
    · rw [SpotAccount.fees, htrades]
      rfl
  have hend := hrun.invariant
    (I := fun t => t.1.Drawn ∧ AccountsFor s.shared.spot.balance t.1.shared.spot t.2)
    (fun _ _ _ h _ hnext => accounts_next h.1 h.2 hnext) ⟨hdrawn, haccounts⟩
  exact hend.2.iff

end Floor

/-! ## A buy and a sale at one price -/

namespace SpotCashRun

open FloorRun

/-- An alert of the indicator on a won pair. -/
def alert (name : String) : Json :=
  .obj [("alert", .str name), ("signal_direction", .str "bull"), ("ticker", .str "BTCKRW"),
    ("close", .int 50), ("timeframe", .str "15")]

/-- A body of a null byte is a buy, any other one a stop-loss. -/
def parse (text : Text) : Option Json := some (alert (if text = [0] then "BUY" else "SL"))

/-- A buy is requested and handled. -/
def bought : List FloorLabel := request 0 {} :: works 0 12

/-- And then sold at the price it was bought for. -/
def soldAgain : List FloorLabel := bought ++ request 1 {} :: works 0 12

end SpotCashRun

open SpotCashRun FloorRun in
theorem Floor.spot_cash_iff_bought :
    ∃ s sales, (sellingFloor (shadow 1) parse).Run System.anyStep ((start (shadow 1) ∅).1, [])
        (s, sales) ∧ s.shared.spot.balance = 995000 ∧
      (s.shared.spot.balance + s.shared.spot.cost = 1000000 + s.shared.spot.pnl ↔ sales = []) := by
  obtain ⟨⟨s, sales⟩, hrun, hbalance⟩ := System.exists_run_of_play
    (M := sellingFloor (shadow 1) parse) (G := System.anyStep) (s := ((start (shadow 1) ∅).1, []))
    bought (P := fun t => t.1.shared.spot.balance = 995000) (by decide +kernel)
  exact ⟨s, sales, hrun, hbalance, spot_cash_iff (start_init _ parse _).1 rfl rfl hrun⟩

open SpotCashRun FloorRun in
/-- **A position sold at the price it was bought for** leaves the cash it
cost, and a recorded loss of the fee. -/
theorem spot_cash_without_fee :
    ∃ s sales, (Floor.sellingFloor (shadow 1) parse).Run System.anyStep
        ((start (shadow 1) ∅).1, []) (s, sales) ∧
      (start (shadow 1) ∅).1.shared.spot.balance = 1000000 ∧
      s.shared.spot.balance + s.shared.spot.cost = 1000000 ∧ s.shared.spot.pnl = -5 := by
  obtain ⟨⟨s, sales⟩, hrun, hend⟩ := System.exists_run_of_play
    (M := Floor.sellingFloor (shadow 1) parse) (G := System.anyStep)
    (s := ((start (shadow 1) ∅).1, [])) soldAgain
    (P := fun t => t.1.shared.spot.balance + t.1.shared.spot.cost = 1000000 ∧
      t.1.shared.spot.pnl = -5) (by decide +kernel)
  exact ⟨s, sales, hrun, rfl, hend⟩

end WebhookTrader
