import WebhookTrader.Engine.Ownership
import WebhookTrader.Engine.Reconcile

/-!
# Closed quantities

A close is recorded with its quantity by the handlers of take-profits and
stop-losses, by `close_all_positions` and by the WebSocket's callback. A
take-profit computes its quantity from what it has read before a slow call
of the exchange; the symbol's lock keeps every other reduction away
meanwhile, and a removal is seen when the position is looked up again. So
what is recorded of a position and what is left of it make up what it was
registered with.
-/

namespace WebhookTrader

/-! ## What a step records -/

/-- **A recorded close**: the key of the position, and its trade. -/
abbrev CloseRecord := PositionKey × TradeRecord

namespace ClosePc

/-- The run has found a position and not yet dealt with it. -/
def working : ClosePc → Bool
  | isReal => true
  | paper => true
  | request _ _ => true
  | settle => true
  | _ => false

/-- The run looks the position up again, to record its close. -/
def settles : ClosePc → Bool
  | paper => true
  | settle => true
  | _ => false

theorem working_of_settles {pc : ClosePc} (h : pc.settles = true) : pc.working = true := by
  cases pc <;> simp_all [settles, working]

theorem holds_of_working {pc : ClosePc} (h : pc.working = true) : pc.holds = true := by
  cases pc <;> simp_all [working, holds]

end ClosePc

namespace CloseJob

/-- What the run's next step records. -/
def closes (c : Closing) (j : CloseJob) (s : Shared) : Option CloseRecord :=
  if j.pc.settles then (s.positions.lookup j.key).map fun pos => (j.key, c.trade j pos) else none

/-- The position the run has found: its key, and its quantity then. -/
def found (j : CloseJob) : Option (PositionKey × ℚ) :=
  if j.pc.working then some (j.key, j.quantity) else none

/-- **A closing handler's step, by what it does with its position.** -/
inductive Progress (c : Closing) (j : CloseJob) (s : Shared) : CloseJob → Shared → Prop
  | find (key : PositionKey) (pos : ManagedPosition) (hpc : j.pc = .find)
      (hfind : s.positions.findBySymbolSide j.sig.symbol j.holdSide = some (key, pos)) :
      Progress c j s { j with pc := .isReal, key, quantity := pos.quantity } s
  | settle (hpc : j.pc.settles = true) : Progress c j s (j.goto .unlock) (j.settle c s)
  | other {j' : CloseJob} {s' : Shared} (hpc : j.pc.settles = false)
      (hworking : j'.pc.working = true → j.pc.working = true) (hsig : j'.sig = j.sig)
      (hkey : j'.key = j.key)
      (hquantity : j'.quantity = j.quantity) (hpositions : s'.positions = s.positions)
      (htrades : s'.trades = s.trades) : Progress c j s j' s'

variable {cfg : EngineConfig} {c : Closing} {j j' : CloseJob} {s s' : Shared}

theorem progress_of_step (h : j.step cfg c s = some (j', s')) : Progress c j s j' s' := by
  cases hpc : j.pc <;> simp only [step, hpc] at h
  case lock =>
    split_ifs at h <;> cases h <;> exact .other (by rw [hpc]; rfl) (by rintro ⟨⟩) rfl rfl rfl rfl rfl
  case find =>
    split at h
    · cases h
      exact .other (by rw [hpc]; rfl) (by rintro ⟨⟩) rfl rfl rfl rfl rfl
    · rename_i key pos hfind
      cases h
      exact .find key pos hpc hfind
  case isReal =>
    cases h
    exact .other (by rw [hpc]; rfl) (fun _ => by rw [hpc]; rfl) rfl rfl rfl rfl rfl
  case paper | settle =>
    cases h
    exact .settle (by rw [hpc]; rfl)
  case request round second =>
    cases h
    exact .other (by rw [hpc]; rfl) (fun _ => by rw [hpc]; rfl) rfl rfl rfl rfl rfl
  case unlock =>
    cases h
    exact .other (by rw [hpc]; rfl) (by rintro ⟨⟩) rfl rfl rfl rfl rfl
  case finished => cases h

end CloseJob

namespace CloseAllJob

/-- The trade of a position that is closed with all others. -/
def closeTrade (pos : ManagedPosition) : TradeRecord :=
  TradeRecord.ofClose pos pos.entryPrice "MANUAL_CLOSE_ALL" 0

/-- What the run's next step records. -/
def closes (j : CloseAllJob) (s : Shared) : Option CloseRecord :=
  match j.pc with
  | .settle (tag :: _) =>
      (s.positions.findBySymbolSide tag.1 tag.2).map fun e => (e.1, closeTrade e.2)
  | _ => none

end CloseAllJob

/-- The trade of a position the exchange reports as closed. -/
def WsPositionUpdate.closeTrade (upd : WsPositionUpdate) (pos : ManagedPosition) : TradeRecord :=
  TradeRecord.ofWsClose pos (if 0 < upd.avgPrice then upd.avgPrice else pos.entryPrice)
    upd.realizedPnl

/-- What an event records. -/
def Event.closes (s : Shared) : Event → Option CloseRecord
  | .wsPosition upd =>
      if 0 < upd.size then none
      else (s.positions.findBySymbolSide upd.symbol upd.holdSide).map fun e =>
        (e.1, upd.closeTrade e.2)
  | _ => none

/-- What a handler's next step records. -/
def Job.closes (cfg : EngineConfig) (s : Shared) : Job → Option CloseRecord
  | .entry _ => none
  | .tp j => j.closes (handleTp cfg) s
  | .sl j => j.closes handleSl s
  | .closeAll j => j.closes s

namespace Engine

/-- **What a step of the engine records.** -/
def closes (cfg : EngineConfig) (s : Engine) : EngineLabel → Option CloseRecord
  | .start _ => none
  | .work i => s.jobs[i]?.bind fun job => job.closes cfg s.shared
  | .event e => e.closes s.shared

end Engine

/-! ### The records are the trades -/

/-- The trades after a step that makes a record, or none. -/
def Shared.tradesAfter (s : Shared) : Option CloseRecord → List TradeRecord
  | none => s.trades
  | some c => capTrades (s.trades ++ [c.2])

/-- A handler's record is the trade it adds. -/
theorem Job.trades_of_step {cfg : EngineConfig} {job job' : Job} {s s' : Shared}
    (h : job.step cfg s = some (job', s')) : s'.trades = s.tradesAfter (job.closes cfg s) := by
  have hclose : ∀ {c : Closing} {j j' : CloseJob}, j.step cfg c s = some (j', s') →
      s'.trades = s.tradesAfter (j.closes c s) := by
    intro c j j' hstep
    cases CloseJob.progress_of_step hstep with
    | find key pos hpc => simp [CloseJob.closes, hpc, ClosePc.settles, Shared.tradesAfter]
    | settle hsettles =>
        rw [CloseJob.closes, if_pos hsettles, CloseJob.settle]
        cases s.positions.lookup j.key <;> rfl
    | other hpc _ _ _ _ _ htrades =>
        rw [htrades]
        simp [CloseJob.closes, hpc, Shared.tradesAfter]
  cases job with
  | entry j =>
      obtain ⟨j', rfl, hstep⟩ := Job.of_step_map h
      cases EntryJob.move_of_step hstep <;> rfl
  | tp j | sl j =>
      obtain ⟨j', rfl, hstep⟩ := Job.of_step_map h
      exact hclose hstep
  | closeAll j =>
      obtain ⟨j', rfl, hstep⟩ := Job.of_step_map h
      unfold CloseAllJob.step at hstep
      unfold closes CloseAllJob.closes
      split at hstep <;> rename_i hpc <;> cases hstep <;> simp only [hpc] <;> try rfl
      rename_i tag todo
      unfold CloseAllJob.settle
      cases s.positions.findBySymbolSide tag.1 tag.2 <;> rfl

/-- Only a close by the exchange makes a trade, and only that and a sync
touch the book. -/
theorem Event.apart_of_apply {cfg : EngineConfig} {e : Event} {s s' : Shared}
    (h : e.apply cfg s = some s') (hws : ∀ upd, e ≠ .wsPosition upd) :
    s'.trades = s.trades ∧ ((∀ quote, e ≠ .sync quote) → s'.positions = s.positions) := by
  cases e with
  | wsPosition upd => exact absurd rfl (hws upd)
  | sync quote =>
      obtain rfl := Option.some.inj h
      exact ⟨rfl, fun hsync => absurd rfl (hsync quote)⟩
  | wsAccount upd =>
      obtain rfl := Option.some.inj h
      rcases Shared.onWsAccount_eq s upd with heq | ⟨balance, peakBalance, heq⟩ <;> simp [heq]
  | fetchBalance upd =>
      obtain rfl := Option.some.inj h
      rcases Shared.fetchRealBalance_eq s upd with heq | ⟨balance, peakBalance, heq⟩ <;> simp [heq]
  | tick =>
      obtain rfl := Option.some.inj h
      exact ⟨rfl, fun _ => rfl⟩
  | switch =>
      obtain ⟨r, -, rfl⟩ := Option.map_eq_some_iff.1 h
      exact ⟨rfl, fun _ => rfl⟩
  | check | resetDaily | holding =>
      simp only [apply, Option.ite_none_right_eq_some, Option.some.injEq] at h
      obtain ⟨-, rfl⟩ := h
      exact ⟨rfl, fun _ => rfl⟩

theorem Event.trades_of_apply {cfg : EngineConfig} {e : Event} {s s' : Shared}
    (h : e.apply cfg s = some s') : s'.trades = s.tradesAfter (e.closes s) := by
  cases e with
  | wsPosition upd =>
      obtain rfl := Option.some.inj h
      unfold closes Shared.onWsPosition
      by_cases hsize : 0 < upd.size
      · simp only [hsize, if_true]
        rfl
      · simp only [hsize, if_false]
        cases s.positions.findBySymbolSide upd.symbol upd.holdSide <;> rfl
  | _ => exact (apart_of_apply h nofun).1

/-- **What a step records is the trade it adds** to the engine's list. -/
theorem Engine.trades_of_next {cfg : EngineConfig} {s t : Engine} {l : EngineLabel}
    (h : (engineSystem cfg).next s l = some t) :
    t.shared.trades = s.shared.tradesAfter (closes cfg s l) := by
  cases move_of_next h with
  | start => rfl
  | work i hjob hstep =>
      simp only [closes, hjob, Option.bind_some]
      exact Job.trades_of_step hstep
  | event e happly => exact Event.trades_of_apply happly

/-! ## Quantities under a key -/

/-- The quantity stored under a key, zero where there is none. -/
def Book.held (book : Book) (key : PositionKey) : ℚ :=
  ((book.lookup key).map (·.quantity)).getD 0

/-- The quantity a recorded close takes from a key. -/
def CloseRecord.amount (key : PositionKey) (c : CloseRecord) : ℚ :=
  if c.1 = key then c.2.quantity else 0

/-- The quantities of the closes recorded of a key. -/
def closedQuantity (key : PositionKey) (log : List CloseRecord) : ℚ :=
  (log.map (CloseRecord.amount key)).sum

/-- **An account of one step**: what it records of a key is what it takes
from it, and is positive. -/
structure Accounts (key : PositionKey) (s : Shared) (record : Option CloseRecord) (s' : Shared) :
    Prop where
  balance : closedQuantity key record.toList + s'.positions.held key = s.positions.held key
  positive : ∀ c ∈ record, c.1 = key → 0 < c.2.quantity

section Accounts

variable {key k : PositionKey} {s s' : Shared} {trade : TradeRecord} {pos : ManagedPosition}
  {record : Option CloseRecord}

theorem Book.held_of_lookup {book : Book} (h : book.lookup key = some pos) :
    book.held key = pos.quantity := by
  rw [held, h]
  rfl

theorem Book.held_of_none {book : Book} (h : book.lookup key = none) : book.held key = 0 := by
  rw [held, h]
  rfl

theorem closedQuantity_append {log log' : List CloseRecord} :
    closedQuantity key (log ++ log') = closedQuantity key log + closedQuantity key log' := by
  simp [closedQuantity]

/-- A step that leaves the key alone, and records nothing of it. -/
theorem Accounts.of_same (hrecord : ∀ c ∈ record, c.1 ≠ key)
    (hlookup : s'.positions.lookup key = s.positions.lookup key) : Accounts key s record s' := by
  refine ⟨?_, fun c hc hkey => absurd hkey (hrecord c hc)⟩
  have hzero : closedQuantity key record.toList = 0 := by
    cases record with
    | none => rfl
    | some c => simp [closedQuantity, CloseRecord.amount, hrecord c rfl]
  rw [hzero, zero_add, Book.held, Book.held, hlookup]

/-- A step that records nothing. -/
theorem Accounts.of_none (hlookup : s'.positions.lookup key = s.positions.lookup key) :
    Accounts key s none s' :=
  .of_same (fun c hc => absurd hc (Option.not_mem_none c)) hlookup

/-- A step that records one quantity of the key and leaves the rest. -/
theorem Accounts.of_some (hpos : 0 < trade.quantity)
    (hheld : s'.positions.held key = s.positions.held key - trade.quantity) :
    Accounts key s (some (key, trade)) s' := by
  refine ⟨?_, ?_⟩
  · simp [closedQuantity, CloseRecord.amount, hheld]
  · rintro c ⟨⟩ -
    exact hpos

/-- A position that goes as a whole, recorded with its whole quantity. -/
theorem Accounts.of_erase (hlookup : s.positions.lookup k = some pos)
    (hquantity : k = key → trade.quantity = pos.quantity) (hpos : k = key → 0 < pos.quantity)
    (hbook : s'.positions = s.positions.erase k) : Accounts key s (some (k, trade)) s' := by
  by_cases hkey : k = key
  · subst hkey
    refine .of_some (by rw [hquantity rfl]; exact hpos rfl) ?_
    rw [hbook, Book.held_of_none (AList.lookup_erase k s.positions), Book.held_of_lookup hlookup,
      hquantity rfl, sub_self]
  · refine .of_same (fun c hc => ?_) ?_
    · obtain rfl := Option.some.inj hc
      exact hkey
    · rw [hbook, AList.lookup_erase_ne (Ne.symm hkey)]

theorem Book.lookup_reduceQuantity {book : Book} {amount : ℚ}
    (hlookup : book.lookup key = some pos) (hlt : amount < pos.quantity) :
    (book.reduceQuantity key amount).lookup key =
      some { pos with quantity := pos.quantity - amount } := by
  have hpos : ¬ pos.quantity - amount ≤ 0 := not_le.2 (sub_pos.2 hlt)
  rw [reduceQuantity, hlookup]
  simp only [hpos, if_false]
  rw [Table.lookup_modify, hlookup]
  rfl

/-- What a reduction leaves is positive. -/
theorem Book.of_lookup_reduceQuantity {book : Book} {amount : ℚ}
    (h : (book.reduceQuantity key amount).lookup key = some pos) :
    ∃ pos₀, book.lookup key = some pos₀ ∧ pos.symbol = pos₀.symbol ∧ 0 < pos.quantity := by
  cases hlookup : book.lookup key with
  | none =>
      rw [reduceQuantity, hlookup] at h
      exact absurd (hlookup.symm.trans h) nofun
  | some pos₀ =>
      by_cases hlt : amount < pos₀.quantity
      · rw [lookup_reduceQuantity hlookup hlt] at h
        obtain rfl := Option.some.inj h
        exact ⟨pos₀, rfl, rfl, sub_pos.2 hlt⟩
      · have hgone : pos₀.quantity - amount ≤ 0 := sub_nonpos.2 (not_lt.1 hlt)
        rw [reduceQuantity, hlookup] at h
        simp only [hgone, if_true, AList.lookup_erase] at h
        cases h

/-- A key keeps its position or loses it, where some key is erased. -/
theorem Book.lookup_erase_or {book : Book} :
    (AList.erase k book).lookup key = book.lookup key ∨ (AList.erase k book).lookup key = none := by
  by_cases hkey : key = k
  · subst hkey
    exact .inr (AList.lookup_erase key book)
  · exact .inl (AList.lookup_erase_ne hkey)

end Accounts

/-! ## The account of each step -/

namespace CloseJob

variable {cfg : EngineConfig} {c : Closing} {j : CloseJob} {s : Shared} {key : PositionKey}
  {pos : ManagedPosition}

theorem settle_of_none (h : s.positions.lookup j.key = none) : j.settle c s = s := by
  rw [settle, h]

theorem positions_settle (h : s.positions.lookup j.key = some pos) :
    (j.settle c s).positions =
      match c.reduces j with
      | some amount => s.positions.reduceQuantity j.key amount
      | none => s.positions.erase j.key := by
  cases hreduces : c.reduces j with
  | none => simp [settle, h, hreduces]
  | some amount => simp [settle, h, hreduces]

/-- A close leaves the other keys alone. -/
theorem lookup_settle_ne (h : key ≠ j.key) :
    (j.settle c s).positions.lookup key = s.positions.lookup key := by
  cases hlookup : s.positions.lookup j.key with
  | none => rw [settle_of_none hlookup]
  | some pos =>
      rw [positions_settle hlookup]
      cases c.reduces j with
      | none => exact AList.lookup_erase_ne h
      | some amount => exact Book.lookup_reduceQuantity_ne h

/-- What a close leaves of a position is positive. -/
theorem of_lookup_settle (h : (j.settle c s).positions.lookup j.key = some pos) :
    ∃ pos₀, s.positions.lookup j.key = some pos₀ ∧ pos.symbol = pos₀.symbol ∧
      0 < pos.quantity := by
  cases hlookup : s.positions.lookup j.key with
  | none =>
      rw [settle_of_none hlookup, hlookup] at h
      cases h
  | some pos₀ =>
      rw [positions_settle hlookup] at h
      cases hreduces : c.reduces j with
      | none =>
          rw [hreduces] at h
          simp only [AList.lookup_erase] at h
          cases h
      | some amount =>
          rw [hreduces] at h
          obtain ⟨pos₁, hlookup₁, hsymbol, hpositive⟩ := Book.of_lookup_reduceQuantity h
          exact ⟨pos₁, hlookup.symm.trans hlookup₁, hsymbol, hpositive⟩

/-- A level that is no full close takes a proper share. -/
theorem closeRatio_of_partial (h : j.isFullClose = false) :
    0 < closeRatio j.sig.tpLevel ∧ closeRatio j.sig.tpLevel < 1 := by
  simp only [isFullClose, closeRatio, Bool.or_eq_false_iff, decide_eq_false_iff_not] at h ⊢
  obtain ⟨-, hratio⟩ := h
  split_ifs at hratio ⊢ <;> norm_num at *

theorem closeRatio_of_full (h : j.isFullClose = true) : closeRatio j.sig.tpLevel = 1 := by
  simp only [isFullClose, closeRatio, Bool.or_eq_true, decide_eq_true_eq] at h ⊢
  split_ifs at h ⊢ with htp1 htp2
  · rw [htp1] at h
    rcases h with hlevel | hratio
    · exact absurd hlevel (by decide)
    · norm_num at hratio
  · rw [htp2] at h
    rcases h with hlevel | hratio
    · exact absurd hlevel (by decide)
    · norm_num at hratio
  · rfl

/-- **What a take-profit records** is what it takes, where the position is
the one it found. -/
theorem accounts_tp (hsettles : j.pc.settles = true)
    (hfound : ∀ pos ∈ s.positions.lookup j.key, j.key = key →
      0 < pos.quantity ∧ pos.quantity = j.quantity) :
    Accounts key s (j.closes (handleTp cfg) s) (j.settle (handleTp cfg) s) := by
  rw [closes, if_pos hsettles]
  cases hlookup : s.positions.lookup j.key with
  | none =>
      rw [settle_of_none hlookup]
      exact .of_none rfl
  | some pos =>
      have hquantity := hfound pos hlookup
      have hbook := positions_settle (c := handleTp cfg) hlookup
      cases hfull : j.isFullClose with
      | true =>
          refine .of_erase hlookup (fun hkey => ?_) (fun hkey => (hquantity hkey).1) ?_
          · -- all of it is recorded, as the computed quantity
            obtain ⟨hpos, heq⟩ := hquantity hkey
            have hall : j.closeQty = pos.quantity := by
              rw [closeQty, closeRatio_of_full hfull, mul_one, heq]
            simp only [handleTp, TradeRecord.ofClose, hall, ite_self]
          · simpa only [handleTp, hfull, if_true] using hbook
      | false =>
          have hreduce : (j.settle (handleTp cfg) s).positions =
              s.positions.reduceQuantity j.key j.closeQty := by
            simpa only [handleTp, hfull, Bool.false_eq_true, if_false] using hbook
          by_cases hkey : j.key = key
          · obtain ⟨hpos, heq⟩ := hquantity hkey
            obtain ⟨hzero, hone⟩ := closeRatio_of_partial hfull
            have hcloses : 0 < j.closeQty := mul_pos (heq ▸ hpos) hzero
            have hless : j.closeQty < pos.quantity := by
              rw [closeQty, ← heq]
              exact mul_lt_of_lt_one_right hpos hone
            have htrade : ((handleTp cfg).trade j pos).quantity = j.closeQty := by
              simp only [handleTp, TradeRecord.ofClose, not_le.2 hcloses, if_false]
            subst hkey
            refine .of_some (by rw [htrade]; exact hcloses) ?_
            rw [htrade, hreduce, Book.held_of_lookup (Book.lookup_reduceQuantity hlookup hless),
              Book.held_of_lookup hlookup]
          · refine .of_same (fun c hc => ?_) ?_
            · obtain rfl := Option.some.inj hc
              exact hkey
            · rw [hreduce, Book.lookup_reduceQuantity_ne (Ne.symm hkey)]

/-- **A stop-loss records all there is.** -/
theorem accounts_sl (hsettles : j.pc.settles = true)
    (hfound : ∀ pos ∈ s.positions.lookup j.key, j.key = key → 0 < pos.quantity) :
    Accounts key s (j.closes handleSl s) (j.settle handleSl s) := by
  rw [closes, if_pos hsettles]
  cases hlookup : s.positions.lookup j.key with
  | none =>
      rw [settle_of_none hlookup]
      exact .of_none rfl
  | some pos => exact .of_erase hlookup (fun _ => rfl) (hfound pos hlookup) (positions_settle hlookup)

end CloseJob

namespace CloseAllJob

variable {cfg : EngineConfig} {j j' : CloseAllJob} {s s' : Shared} {key : PositionKey}

/-- A key keeps its position or loses it. -/
theorem lookup_settle_or {tag : String × String} :
    (settle tag s).positions.lookup key = s.positions.lookup key ∨
      (settle tag s).positions.lookup key = none := by
  unfold settle
  cases s.positions.findBySymbolSide tag.1 tag.2 with
  | none => exact .inl rfl
  | some e => exact Book.lookup_erase_or

theorem lookup_of_step (key : PositionKey) (h : j.step cfg s = some (j', s')) :
    s'.positions.lookup key = s.positions.lookup key ∨ s'.positions.lookup key = none := by
  cases move_of_step h with
  | quiet => exact .inl rfl
  | settle => exact lookup_settle_or

/-- **A position closed with all others** is recorded whole. -/
theorem accounts_of_step (h : j.step cfg s = some (j', s'))
    (hpos : ∀ pos ∈ s.positions.lookup key, 0 < pos.quantity) :
    Accounts key s (j.closes s) s' := by
  unfold step at h
  unfold closes
  split at h <;> rename_i hpc <;> cases h <;> simp only [hpc]
  case h_5 tag todo =>
    unfold settle
    cases hfind : s.positions.findBySymbolSide tag.1 tag.2 with
    | none => exact .of_none rfl
    | some e =>
        have hlookup := (Table.findValue_eq_some hfind).2
        exact .of_erase hlookup (fun _ => rfl) (fun hkey => hpos e.2 (hkey ▸ hlookup)) rfl
  all_goals exact .of_none rfl

end CloseAllJob

/-- A close by the exchange keeps a key's position or takes it. -/
theorem Shared.lookup_onWsPosition_or {s : Shared} {upd : WsPositionUpdate} {key : PositionKey} :
    (s.onWsPosition upd).positions.lookup key = s.positions.lookup key ∨
      (s.onWsPosition upd).positions.lookup key = none := by
  unfold onWsPosition
  by_cases hsize : 0 < upd.size
  · simp only [hsize, if_true, true_or]
  · simp only [hsize, if_false]
    cases s.positions.findBySymbolSide upd.symbol upd.holdSide with
    | none => exact .inl rfl
    | some e => exact Book.lookup_erase_or

namespace Event

variable {cfg : EngineConfig} {e : Event} {s s' : Shared} {key : PositionKey}

/-- Nor does any other event give it another, unless a sync does. -/
theorem lookup_of_apply (key : PositionKey) (h : e.apply cfg s = some s')
    (hsync : ∀ quote, e = .sync quote →
      (s.sync quote).positions.lookup key = s.positions.lookup key) :
    s'.positions.lookup key = s.positions.lookup key ∨ s'.positions.lookup key = none := by
  cases e with
  | wsPosition upd =>
      obtain rfl := Option.some.inj h
      exact Shared.lookup_onWsPosition_or
  | sync quote =>
      obtain rfl := Option.some.inj h
      exact .inl (hsync quote rfl)
  | _ => exact .inl (by rw [(apart_of_apply h nofun).2 nofun])

/-- An event records what it takes, where no sync takes it. -/
theorem accounts_of_apply (h : e.apply cfg s = some s')
    (hsync : ∀ quote, e = .sync quote →
      (s.sync quote).positions.lookup key = s.positions.lookup key)
    (hpos : ∀ pos ∈ s.positions.lookup key, 0 < pos.quantity) :
    Accounts key s (e.closes s) s' := by
  cases e with
  | wsPosition upd =>
      obtain rfl := Option.some.inj h
      unfold closes Shared.onWsPosition
      by_cases hsize : 0 < upd.size
      · simp only [hsize, if_true]
        exact .of_none rfl
      · simp only [hsize, if_false]
        cases hfind : s.positions.findBySymbolSide upd.symbol upd.holdSide with
        | none => exact .of_none rfl
        | some e =>
            have hlookup := (Table.findValue_eq_some hfind).2
            exact .of_erase hlookup (fun _ => rfl) (fun hkey => hpos e.2 (hkey ▸ hlookup)) rfl
  | sync quote =>
      obtain rfl := Option.some.inj h
      exact .of_none (hsync quote rfl)
  | _ => exact .of_none (by rw [(apart_of_apply h nofun).2 nofun])

end Event

/-! ## What handlers rely on -/

/-- The position the handler has found: its key, and its quantity then. -/
def Job.found : Job → Option (PositionKey × ℚ)
  | .tp j => j.found
  | .sl j => j.found
  | _ => none

/-- **The position under a key**, once it is registered: its symbol is
settled, its quantity positive, and its order number drawn. -/
structure Tracked (key : PositionKey) (symbol : String) (s : Shared) : Prop where
  symbol : ∀ pos ∈ s.positions.lookup key, pos.symbol = symbol
  positive : ∀ pos ∈ s.positions.lookup key, 0 < pos.quantity
  drawn : ∀ symbol timeframe oid, key = .entry symbol timeframe oid → oid < s.nextOid

/-- **What a handler knows of the key**: it holds the symbol's lock where it
has found the position, whose quantity is still what it was, and it will
not register under the key. -/
structure Job.Tracks (key : PositionKey) (symbol : String) (s : Shared) (job : Job) : Prop where
  lock : ∀ quantity, (key, quantity) ∈ job.found → symbol ∈ job.lock
  quantity : ∀ quantity, (key, quantity) ∈ job.found →
    ∀ pos ∈ s.positions.lookup key, pos.quantity = quantity
  number : ∀ oid ∈ job.number, ∀ symbol timeframe, key ≠ .entry symbol timeframe oid

section Tracks

variable {key : PositionKey} {symbol : String} {s s' : Shared} {job job' : Job}

theorem Tracked.mono (h : Tracked key symbol s) (hnext : s.nextOid ≤ s'.nextOid)
    (hlookup : s'.positions.lookup key = s.positions.lookup key ∨
      s'.positions.lookup key = none) : Tracked key symbol s' := by
  have hkept : ∀ pos ∈ s'.positions.lookup key, pos ∈ s.positions.lookup key := by
    intro pos hpos
    rcases hlookup with hsame | hnone
    · rwa [hsame] at hpos
    · rw [hnone] at hpos
      cases hpos
  exact ⟨fun pos hpos => h.symbol pos (hkept pos hpos),
    fun pos hpos => h.positive pos (hkept pos hpos),
    fun symbol timeframe oid hkey => (h.drawn symbol timeframe oid hkey).trans_le hnext⟩

/-- A handler goes on knowing what it knows, where the key keeps its
position or loses it. -/
theorem Job.Tracks.mono (h : job.Tracks key symbol s)
    (hlookup : s'.positions.lookup key = s.positions.lookup key ∨
      s'.positions.lookup key = none) : job.Tracks key symbol s' := by
  refine ⟨h.lock, fun quantity hfound pos hpos => ?_, h.number⟩
  rcases hlookup with hsame | hnone
  · exact h.quantity quantity hfound pos (hsame ▸ hpos)
  · rw [hnone] at hpos
    cases hpos

/-- Whoever holds the symbol's lock may do what he likes: no other handler
has found the position. -/
theorem Job.Tracks.of_disjoint {other : Job} (h : other.Tracks key symbol s)
    (hlock : symbol ∈ job.lock) (hdisjoint : Job.Disjoint job other) :
    other.Tracks key symbol s' := by
  have hnone : ∀ quantity, (key, quantity) ∉ other.found := fun quantity hfound =>
    hdisjoint.lock symbol hlock (h.lock quantity hfound)
  exact ⟨h.lock, fun quantity hfound => absurd hfound (hnone quantity), h.number⟩

theorem Job.found_of_fresh (h : job.fresh = true) : job.found = none := by
  cases job <;> simp_all [fresh, found, CloseJob.found, ClosePc.working]

/-- One who has not found the key, and never registers, knows all there is
to know. -/
theorem Job.Tracks.of_none (hfound : job.found = none) (hnumber : job.number = none) :
    job.Tracks key symbol s :=
  ⟨by simp [hfound], by simp [hfound], by simp [hnumber]⟩

/-- **A closing handler's step**, seen from the key: it records what it
takes, and goes on knowing what it has to. -/
theorem CloseJob.tracks_of_step {cfg : EngineConfig} {c : Closing} {f : CloseJob → Job}
    {j j' : CloseJob} (hlock : ∀ j, (f j).lock = if j.pc.holds then some j.sig.symbol else none)
    (hnumber : ∀ j, (f j).number = none) (hfound : ∀ j, (f j).found = j.found)
    (haccounts : j.pc.settles = true → (∀ pos ∈ s.positions.lookup j.key, j.key = key →
      0 < pos.quantity ∧ pos.quantity = j.quantity) → Accounts key s (j.closes c s) (j.settle c s))
    (hshared : Tracked key symbol s) (hjob : (f j).Tracks key symbol s)
    (h : j.step cfg c s = some (j', s')) :
    Accounts key s (j.closes c s) s' ∧ Tracked key symbol s' ∧ (f j').Tracks key symbol s' ∧
      (s'.positions.lookup key = s.positions.lookup key ∨ symbol ∈ (f j).lock) := by
  have hmem : ∀ {j : CloseJob} {k : PositionKey} {quantity : ℚ}, (k, quantity) ∈ (f j).found ↔
      j.pc.working = true ∧ j.key = k ∧ j.quantity = quantity := by
    intro j k quantity
    simp [hfound, CloseJob.found]
  have hheld : ∀ {j : CloseJob} {symbol : String}, symbol ∈ (f j).lock ↔
      j.pc.holds = true ∧ j.sig.symbol = symbol := by
    intro j symbol
    simp [hlock]
  cases CloseJob.progress_of_step h with
  | find key' pos hpc hfind =>
      obtain ⟨htag, hlookup⟩ := Table.findValue_eq_some hfind
      have hnone : j.closes c s = none := by simp [CloseJob.closes, hpc, ClosePc.settles]
      refine ⟨by rw [hnone]; exact .of_none rfl, hshared, ⟨?_, ?_, by simp [hnumber]⟩,
        .inl rfl⟩
      · intro quantity hquantity
        obtain ⟨-, rfl, -⟩ := hmem.1 hquantity
        have hsymbol : pos.symbol = j.sig.symbol := by
          simp only [Book.sameTag, Bool.and_eq_true, decide_eq_true_eq] at htag
          exact htag.1
        exact hheld.2 ⟨rfl, hsymbol.symm.trans (hshared.symbol pos hlookup)⟩
      · intro quantity hquantity pos' hpos'
        obtain ⟨-, rfl, rfl⟩ := hmem.1 hquantity
        rw [Option.some.inj (hlookup.symm.trans hpos')]
  | settle hsettles =>
      have hworking := ClosePc.working_of_settles hsettles
      have hquantity : j.key = key → ∀ pos ∈ s.positions.lookup j.key, pos.quantity = j.quantity := by
        intro hkey pos hpos
        exact hjob.quantity j.quantity (hmem.2 ⟨hworking, hkey, rfl⟩) pos (hkey ▸ hpos)
      refine ⟨haccounts hsettles fun pos hpos hkey =>
        ⟨hshared.positive pos (hkey ▸ hpos), hquantity hkey pos hpos⟩, ?_,
        .of_none (by rw [hfound]; rfl) (hnumber _), ?_⟩
      · by_cases hkey : j.key = key
        · subst hkey
          have hkept : ∀ pos ∈ (j.settle c s).positions.lookup j.key, ∃ pos₀,
              s.positions.lookup j.key = some pos₀ ∧ pos.symbol = pos₀.symbol ∧
                0 < pos.quantity := fun pos hpos => CloseJob.of_lookup_settle hpos
          refine ⟨fun pos hpos => ?_, fun pos hpos => ?_, fun symbol timeframe oid heq => ?_⟩
          · obtain ⟨pos₀, hlookup, hsymbol, -⟩ := hkept pos hpos
            exact hsymbol.trans (hshared.symbol pos₀ hlookup)
          · exact (hkept pos hpos).elim fun _ hpos₀ => hpos₀.2.2
          · rw [CloseJob.settle_closes.nextOid]
            exact hshared.drawn symbol timeframe oid heq
        · exact hshared.mono CloseJob.settle_closes.nextOid.ge
            (.inl (CloseJob.lookup_settle_ne (Ne.symm hkey)))
      · by_cases hkey : j.key = key
        · exact .inr (hjob.lock j.quantity (hmem.2 ⟨hworking, hkey, rfl⟩))
        · exact .inl (CloseJob.lookup_settle_ne (Ne.symm hkey))
  | other hpc hworking hsig hkey hquantity hpositions =>
      have hnone : j.closes c s = none := by simp [CloseJob.closes, hpc]
      have hlookup : s'.positions.lookup key = s.positions.lookup key := by rw [hpositions]
      have hnext : s'.nextOid = s.nextOid := by
        cases CloseJob.move_of_step h with
        | settle => exact CloseJob.settle_closes.nextOid
        | _ => rfl
      have hback : ∀ quantity, (key, quantity) ∈ (f j').found → (key, quantity) ∈ (f j).found := by
        intro quantity hfound'
        obtain ⟨hworking', hkey', hquantity'⟩ := hmem.1 hfound'
        exact hmem.2 ⟨hworking hworking', hkey ▸ hkey', hquantity ▸ hquantity'⟩
      refine ⟨by rw [hnone]; exact .of_none hlookup, hshared.mono hnext.ge (.inl hlookup),
        ⟨fun quantity hfound' => ?_, fun quantity hfound' pos hpos => ?_, by simp [hnumber]⟩,
        .inl hlookup⟩
      · obtain ⟨hworking', -, -⟩ := hmem.1 hfound'
        obtain ⟨-, hsymbol⟩ := hheld.1 (hjob.lock quantity (hback quantity hfound'))
        exact hheld.2 ⟨ClosePc.holds_of_working hworking', hsig ▸ hsymbol⟩
      · exact hjob.quantity quantity (hback quantity hfound') pos (hlookup ▸ hpos)

/-- **An entry's step**, seen from a key that is registered already: the
number it draws is another one, and so is the key it registers under. -/
theorem EntryJob.tracks_of_step {cfg : EngineConfig} {j j' : EntryJob}
    (hshared : Tracked key symbol s) (hjob : (Job.entry j).Tracks key symbol s)
    (h : j.step cfg s = some (j', s')) :
    Tracked key symbol s' ∧ (Job.entry j').Tracks key symbol s' ∧
      s'.positions.lookup key = s.positions.lookup key := by
  have hnext : s.nextOid ≤ s'.nextOid := by
    rcases Job.number_of_step h with ⟨hsame, -⟩ | ⟨-, hnext, -⟩
    · exact hsame.ge
    · exact hnext ▸ Nat.le_succ _
  have hlookup : s'.positions.lookup key = s.positions.lookup key := by
    cases EntryJob.move_of_step h with
    | register isReal hpc =>
        refine AList.lookup_insert_ne fun hkey => ?_
        have hnumber : j.oid ∈ (Job.entry j).number := by
          simp only [Job.number, hpc]
          cases isReal <;> rfl
        exact hjob.number j.oid hnumber j.sig.symbol j.tf hkey
    | _ => rfl
  have hfound : ∀ quantity, (key, quantity) ∉ (Job.entry j').found := fun quantity =>
    Option.not_mem_none (key, quantity)
  refine ⟨hshared.mono hnext (.inl hlookup), ⟨fun quantity h => absurd h (hfound quantity),
    fun quantity h => absurd h (hfound quantity), fun oid hoid => ?_⟩, hlookup⟩
  rcases Job.number_of_step h with ⟨-, hnumber⟩ | ⟨-, -, hnumber⟩
  · exact hjob.number oid (hnumber oid hoid)
  · intro symbol timeframe hkey
    exact (hshared.drawn symbol timeframe oid hkey).ne (hnumber oid hoid)

end Tracks

/-! ## Conservation -/

namespace Engine

variable {cfg : EngineConfig} {key : PositionKey} {symbol : String} {quantity : ℚ}

/-- The engine with the closes it records. -/
abbrev ledger (cfg : EngineConfig) : System (Engine × List CloseRecord) EngineLabel :=
  (engineSystem cfg).logged (closes cfg)

/-- No step is a sync. -/
def NoSync : Engine × List CloseRecord → EngineLabel → Prop
  | _, .event (.sync _) => False
  | _, _ => True

instance (t : Engine × List CloseRecord) (l : EngineLabel) : Decidable (NoSync t l) :=
  match l with
  | .event (.sync _) => .isFalse id
  | .start _ | .work _ | .event (.wsPosition _) | .event (.wsAccount _)
  | .event (.fetchBalance _) | .event (.check _) | .event .switch | .event .resetDaily
  | .event (.tick ..) | .event (.holding ..) => .isTrue trivial

/-- A sync, if this is one, leaves what is under the key as it is. -/
def SyncKeeps (key : PositionKey) : Engine × List CloseRecord → EngineLabel → Prop
  | t, .event (.sync quote) =>
      (t.1.shared.sync quote).positions.lookup key = t.1.shared.positions.lookup key
  | _, _ => True

instance (t : Engine × List CloseRecord) (l : EngineLabel) : Decidable (SyncKeeps key t l) :=
  match l with
  | .event (.sync quote) => inferInstanceAs (Decidable
      ((t.1.shared.sync quote).positions.lookup key = t.1.shared.positions.lookup key))
  | .start _ | .work _ | .event (.wsPosition _) | .event (.wsAccount _)
  | .event (.fetchBalance _) | .event (.check _) | .event .switch | .event .resetDaily
  | .event (.tick ..) | .event (.holding ..) => .isTrue trivial

theorem syncKeeps_of_noSync {t : Engine × List CloseRecord} {l : EngineLabel}
    (h : NoSync t l) : SyncKeeps key t l := by
  unfold NoSync at h
  unfold SyncKeeps
  split at h
  · exact h.elim
  · trivial

/-- **The invariant**: what was recorded of the key and what is stored
under it make up the quantity, and every handler knows what it has to. -/
structure Tracking (key : PositionKey) (symbol : String) (quantity : ℚ)
    (t : Engine × List CloseRecord) : Prop where
  owned : t.1.Owned
  shared : Tracked key symbol t.1.shared
  jobs : ∀ (i : ℕ) (job : Job), t.1.jobs[i]? = some job → job.Tracks key symbol t.1.shared
  total : closedQuantity key t.2 + t.1.shared.positions.held key = quantity
  positive : ∀ c ∈ t.2, c.1 = key → 0 < c.2.quantity

/-- A step that balances its account balances the total. -/
theorem Tracking.of_accounts {t : Engine × List CloseRecord} {u : Engine}
    {record : Option CloseRecord} (h : Tracking key symbol quantity t) (howned : u.Owned)
    (haccounts : Accounts key t.1.shared record u.shared) (hshared : Tracked key symbol u.shared)
    (hjobs : ∀ (i : ℕ) (job : Job), u.jobs[i]? = some job → job.Tracks key symbol u.shared) :
    Tracking key symbol quantity (u, record.toList ++ t.2) := by
  refine ⟨howned, hshared, hjobs, ?_, fun c hc => ?_⟩
  · rw [closedQuantity_append, add_right_comm, haccounts.balance, add_comm]
    exact h.total
  · rcases List.mem_append.1 hc with hnew | hold
    · exact haccounts.positive c (Option.mem_toList.1 hnew)
    · exact h.positive c hold

/-- **Every step keeps the invariant**, where no sync interferes. -/
theorem tracking_next {t u : Engine × List CloseRecord} {l : EngineLabel}
    (h : Tracking key symbol quantity t) (hguard : SyncKeeps key t l)
    (hnext : (ledger cfg).next t l = some u) : Tracking key symbol quantity u := by
  obtain ⟨t, log⟩ := t
  obtain ⟨u, log'⟩ := u
  obtain ⟨hstep, rfl⟩ := System.next_logged.1 hnext
  have howned := owned_next h.owned hstep
  cases move_of_next hstep with
  | start job hfresh =>
      obtain ⟨-, hnumber⟩ := Job.owns_nothing_of_fresh hfresh
      refine h.of_accounts howned (.of_none rfl) h.shared (Threads.forall_append ?_ h.jobs)
      exact .of_none (Job.found_of_fresh hfresh) hnumber
  | event e happly =>
      have hsync : ∀ quote, e = .sync quote →
          (t.shared.sync quote).positions.lookup key = t.shared.positions.lookup key := by
        rintro quote rfl
        exact hguard
      have haccounts := Event.accounts_of_apply happly hsync h.shared.positive
      have hlookup := Event.lookup_of_apply key happly hsync
      have hnumbers := (Event.owners_of_apply happly).2
      exact h.of_accounts howned haccounts (h.shared.mono hnumbers.ge hlookup) fun i job hjob =>
        (h.jobs i job hjob).mono hlookup
  | @work i job job' shared' hjob hwork =>
      have hrecord : closes cfg t (.work i) = job.closes cfg t.shared := by
        simp only [closes, hjob, Option.bind_some]
      have htracks := h.jobs i job hjob
      rw [hrecord]
      -- whoever else has found the key either holds no lock, or sees it kept or gone
      have hothers : (shared'.positions.lookup key = t.shared.positions.lookup key ∨
          shared'.positions.lookup key = none ∨ symbol ∈ job.lock) →
          ∀ (k : ℕ) (other : Job), k ≠ i → t.jobs[k]? = some other →
            other.Tracks key symbol shared' := by
        intro hcase k other hne hother
        have hknown := h.jobs k other hother
        rcases hcase with hsame | hnone | hlock
        · exact hknown.mono (.inl hsame)
        · exact hknown.mono (.inr hnone)
        · exact hknown.of_disjoint hlock (h.owned.apart i k job other hne.symm hjob hother)
      cases job with
      | entry j =>
          obtain ⟨j', rfl, hentry⟩ := Job.of_step_map hwork
          obtain ⟨hshared, hjob', hlookup⟩ := EntryJob.tracks_of_step h.shared htracks hentry
          exact h.of_accounts howned (.of_none hlookup) hshared
            (Threads.forall_set hjob' (hothers (.inl hlookup)))
      | tp j =>
          obtain ⟨j', rfl, hclose⟩ := Job.of_step_map hwork
          obtain ⟨haccounts, hshared, hjob', hlookup⟩ := CloseJob.tracks_of_step (f := Job.tp)
            (fun _ => rfl) (fun _ => rfl) (fun _ => rfl) CloseJob.accounts_tp h.shared htracks hclose
          exact h.of_accounts howned haccounts hshared
            (Threads.forall_set hjob' (hothers (hlookup.imp_right .inr)))
      | sl j =>
          obtain ⟨j', rfl, hclose⟩ := Job.of_step_map hwork
          obtain ⟨haccounts, hshared, hjob', hlookup⟩ := CloseJob.tracks_of_step (f := Job.sl)
            (fun _ => rfl) (fun _ => rfl) (fun _ => rfl)
            (fun hsettles hfound => CloseJob.accounts_sl hsettles fun pos hpos hkey =>
              (hfound pos hpos hkey).1) h.shared htracks hclose
          exact h.of_accounts howned haccounts hshared
            (Threads.forall_set hjob' (hothers (hlookup.imp_right .inr)))
      | closeAll j =>
          obtain ⟨j', rfl, hclose⟩ := Job.of_step_map hwork
          have haccounts := CloseAllJob.accounts_of_step hclose h.shared.positive
          have hlookup := CloseAllJob.lookup_of_step key hclose
          have hnext : shared'.nextOid = t.shared.nextOid := by
            cases CloseAllJob.move_of_step hclose with
            | quiet => rfl
            | settle => exact CloseAllJob.settle_closes.nextOid
          exact h.of_accounts howned haccounts (h.shared.mono hnext.ge hlookup)
            (Threads.forall_set (.of_none rfl rfl) (hothers (hlookup.imp_right .inl)))

/-! ### Registration -/

/-- **A step registers a position under a fresh key**: nothing is stored
under the key, and no handler has found anything under it. -/
structure Registers (cfg : EngineConfig) (s : Engine) (l : EngineLabel) (s' : Engine)
    (key : PositionKey) (quantity : ℚ) : Prop where
  step : (engineSystem cfg).next s l = some s'
  fresh : s.shared.positions.lookup key = none
  unused : ∀ job ∈ s.jobs, job.found.map Prod.fst ≠ some key
  stored : (s'.shared.positions.lookup key).map (·.quantity) = some quantity

/-- A handler that puts something under a key is an entry that registers. -/
theorem registers_of_step {job job' : Job} {s s' : Shared}
    (hstep : job.step cfg s = some (job', s')) (hfresh : s.positions.lookup key = none)
    (hstored : s'.positions.lookup key ≠ none) :
    ∃ (j : EntryJob) (isReal : Bool), job = .entry j ∧ job' = .entry (j.goto .unlock) ∧
      j.pc.numbered = true ∧ key = j.key ∧ s' = j.register isReal s := by
  cases job with
  | entry j =>
      obtain ⟨j', rfl, hentry⟩ := Job.of_step_map hstep
      cases EntryJob.move_of_step hentry with
      | register isReal hpc =>
          refine ⟨j, isReal, rfl, rfl, by rw [hpc]; cases isReal <;> rfl, ?_, rfl⟩
          by_contra hne
          exact hstored ((AList.lookup_insert_ne hne).trans hfresh)
      | _ => exact absurd hfresh hstored
  | tp j | sl j =>
      obtain ⟨j', rfl, hclose⟩ := Job.of_step_map hstep
      cases CloseJob.progress_of_step hclose with
      | find => exact absurd hfresh hstored
      | settle =>
          refine absurd ?_ hstored
          by_cases hkey : j.key = key
          · subst hkey
            exact (congrArg (·.positions.lookup j.key) (CloseJob.settle_of_none hfresh)).trans hfresh
          · exact (CloseJob.lookup_settle_ne (Ne.symm hkey)).trans hfresh
      | other _ _ _ _ _ hpositions => exact absurd (hpositions ▸ hfresh) hstored
  | closeAll j =>
      obtain ⟨j', rfl, hclose⟩ := Job.of_step_map hstep
      rcases CloseAllJob.lookup_of_step key hclose with hsame | hnone
      · exact absurd (hsame.trans hfresh) hstored
      · exact absurd hnone hstored

/-- **A registration starts the account.** -/
theorem tracking_of_registers {s s' : Engine} {l : EngineLabel} (hs : s.Owned)
    (hreg : Registers cfg s l s' key quantity) (hquantity : 0 < quantity) :
    ∃ symbol, Tracking key symbol quantity (s', []) := by
  obtain ⟨pos, hlookup, rfl⟩ := Option.map_eq_some_iff.1 hreg.stored
  have hstored : s'.shared.positions.lookup key ≠ none := by simp [hlookup]
  have howned := owned_next hs hreg.step
  have hunused : ∀ (i : ℕ) (job : Job), s.jobs[i]? = some job → ∀ q, (key, q) ∉ job.found := by
    intro i job hjob q hfound
    exact hreg.unused job (List.mem_of_getElem? hjob) (by rw [hfound]; rfl)
  have hpos : ∀ pos' ∈ s'.shared.positions.lookup key, pos' = pos := fun pos' hpos' =>
    Option.some.inj (hpos'.symm.trans hlookup)
  -- what is left to see: the key's number is drawn, and no other handler's
  suffices hrest : (∀ symbol timeframe oid, key = .entry symbol timeframe oid →
      oid < s'.shared.nextOid) ∧ ∀ (i : ℕ) (job : Job), s'.jobs[i]? = some job →
        job.Tracks key pos.symbol s'.shared by
    refine ⟨pos.symbol, howned, ⟨?_, ?_, hrest.1⟩, hrest.2, ?_,
      fun c hc => absurd hc List.not_mem_nil⟩
    · exact fun pos' hpos' => hpos pos' hpos' ▸ rfl
    · exact fun pos' hpos' => hpos pos' hpos' ▸ hquantity
    · simp [closedQuantity, Book.held_of_lookup hlookup]
  have hknows : ∀ job : Job, (∀ q, (key, q) ∉ job.found) →
      (∀ oid ∈ job.number, ∀ symbol timeframe, key ≠ .entry symbol timeframe oid) →
        job.Tracks key pos.symbol s'.shared := fun job hfound hnumber =>
    ⟨fun q hq => absurd hq (hfound q), fun q hq => absurd hq (hfound q), hnumber⟩
  cases move_of_next hreg.step with
  | start => exact absurd hreg.fresh hstored
  | event e happly =>
      have hsync : ∃ quote, e = .sync quote := by
        by_contra hno
        rcases Event.lookup_of_apply key happly (fun quote heq => (hno ⟨quote, heq⟩).elim)
          with hsame | hnone
        · exact hstored (hsame.trans hreg.fresh)
        · exact hstored hnone
      obtain ⟨quote, rfl⟩ := hsync
      obtain rfl := Option.some.inj happly
      -- a sync registers under external keys
      have hext : key.isExt = true := by
        by_contra hentry
        exact hstored (Book.lookup_reconcile_of_fresh (ExchangeMap.keyed_ofRows _)
          (Bool.eq_false_iff.2 hentry) hreg.fresh)
      have hne : ∀ symbol timeframe oid, key ≠ .entry symbol timeframe oid := by
        rintro symbol timeframe oid rfl
        cases hext
      exact ⟨fun symbol timeframe oid hkey => absurd hkey (hne symbol timeframe oid),
        fun i job hjob => hknows job (hunused i job hjob)
          fun oid _ symbol timeframe => hne symbol timeframe oid⟩
  | @work i job job' shared' hjob hwork =>
      obtain ⟨j, isReal, rfl, rfl, hnumbered, rfl, rfl⟩ :=
        registers_of_step hwork hreg.fresh hstored
      have hnumber : j.oid ∈ (Job.entry j).number := by simp [Job.number, hnumbered]
      refine ⟨?_, Threads.forall_set (.of_none rfl rfl) fun k other hne hother => ?_⟩
      · rintro symbol timeframe oid ⟨⟩
        exact (hs.jobs i _ hjob).number j.oid hnumber
      · refine hknows other (hunused k other hother) fun oid hoid symbol timeframe hkey => ?_
        obtain ⟨-, -, rfl⟩ := PositionKey.entry.inj hkey
        exact (hs.apart i k _ other hne.symm hjob hother).number j.oid hnumber hoid

end Engine

namespace CloseRun

open LiveRun

/-- The run is about to register its position. -/
def before : Engine := (engineSystem {}).endOf start (.start (buy "BTCUSDT") :: works 0 19)

/-- The position is registered. -/
def after : Engine := (engineSystem {}).endOf before [.work 0]

def key : PositionKey := .entry "BTCUSDT" "15" 0

/-- A take-profit closes a third, and the exchange the rest. -/
def labels : List EngineLabel :=
  .work 0 :: .start (.tp { sig := closeSignal "BTCUSDT" "TP1", rd := {} }) :: works 1 6 ++
    [.event (.wsPosition { symbol := "BTCUSDT", holdSide := "long", size := 0 })]

theorem before_reachable : (engineSystem {}).Reachable System.anyStep before :=
  ⟨start, start_init rfl, System.run_endOf _ (by decide +kernel)⟩

theorem registers : Engine.Registers {} before (.work 0) after key 2 where
  step := System.next_endOf (by decide +kernel)
  fresh := by decide +kernel
  unused := by decide +kernel
  stored := by decide +kernel

end CloseRun

end WebhookTrader
