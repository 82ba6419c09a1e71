import WebhookTrader.Engine.Registration

/-!
# Recorded profit

A take-profit that closes a part of a position records the profit of that
part, from the signal's price. The close that the exchange reports in the
end is recorded with `achievedProfits`, and that is the profit of all
closes of the position, the partial ones among them. So the records of a
position add up to what the exchange has achieved only where the partial
closes brought nothing.
-/

namespace WebhookTrader

/-! ## Two accounts of a profit -/

/-- The profit of a recorded close of a key, before the fee. -/
def CloseRecord.profit (key : PositionKey) (c : CloseRecord) : ℚ :=
  if c.1 = key then c.2.pnl + c.2.fee else 0

/-- **What the records of a key add up to**, before fees. -/
def recordedProfit (key : PositionKey) (log : List CloseRecord) : ℚ :=
  (log.map (CloseRecord.profit key)).sum

/-- A fill of an order that closes some of a position. -/
structure Fill where
  key : PositionKey
  price : ℚ
  quantity : ℚ

/-- The profit of a fill of a key. -/
def Fill.profit (key : PositionKey) (side : String) (entryPrice : ℚ) (f : Fill) : ℚ :=
  if f.key = key then (if side = "long" then 1 else -1) * (f.price - entryPrice) * f.quantity
  else 0

/-- **The cumulative profit of a position's fills**, as an exchange accounts
it. -/
def achievedProfits (key : PositionKey) (side : String) (entryPrice : ℚ) (fills : List Fill) : ℚ :=
  (fills.map (Fill.profit key side entryPrice)).sum

section Accounts

variable {key : PositionKey} {side : String} {entryPrice : ℚ}

theorem recordedProfit_append {log log' : List CloseRecord} :
    recordedProfit key (log ++ log') = recordedProfit key log + recordedProfit key log' := by
  simp [recordedProfit]

theorem achievedProfits_append {fills fills' : List Fill} :
    achievedProfits key side entryPrice (fills ++ fills') =
      achievedProfits key side entryPrice fills + achievedProfits key side entryPrice fills' := by
  simp [achievedProfits]

/-- A record of another key adds nothing. -/
theorem recordedProfit_toList {record : Option CloseRecord} (h : ∀ c ∈ record, c.1 ≠ key) :
    recordedProfit key record.toList = 0 := by
  cases record with
  | none => rfl
  | some c => simp [recordedProfit, CloseRecord.profit, h c rfl]

/-- A fill of another key adds nothing. -/
theorem achievedProfits_toList {fill : Option Fill} (h : ∀ f ∈ fill, f.key ≠ key) :
    achievedProfits key side entryPrice fill.toList = 0 := by
  cases fill with
  | none => rfl
  | some f => simp [achievedProfits, Fill.profit, h f rfl]

end Accounts

/-- The profit of a close at an exit price, where `calc_pnl` computes one. -/
theorem Book.calcPnl_of_pos {side : String} {entry exit qty : ℚ} (hentry : 0 < entry)
    (hqty : 0 < qty) :
    calcPnl side entry exit qty = (if side = "long" then 1 else -1) * (exit - entry) * qty := by
  rw [calcPnl, if_neg]
  rintro (hle | hle)
  · exact absurd hentry (not_lt.2 hle)
  · exact absurd hqty (not_lt.2 hle)

/-! ## The fills of a run -/

/-- What a take-profit's next step closes, at its signal's price. -/
def CloseJob.fill (j : CloseJob) (s : Shared) : Option Fill :=
  if j.pc.settles then (s.positions.lookup j.key).map fun _ => ⟨j.key, j.sig.price, j.closeQty⟩
  else none

/-- What a handler's next step fills. -/
def Job.fill (s : Shared) : Job → Option Fill
  | .tp j => j.fill s
  | _ => none

/-- A take-profit that has found the key carries a price. -/
def Job.Priced (key : PositionKey) : Job → Prop
  | .tp j => j.key = key → 0 < j.sig.price
  | _ => True

instance {key : PositionKey} : (job : Job) → Decidable (job.Priced key)
  | .tp j => inferInstanceAs (Decidable (j.key = key → 0 < j.sig.price))
  | .entry _ | .sl _ | .closeAll _ => .isTrue trivial

namespace Engine

/-- What a step fills. -/
def fills (s : Engine) : EngineLabel → Option Fill
  | .work i => s.jobs[i]?.bind fun job => job.fill s.shared
  | _ => none

/-- The engine with the closes it records, and with their fills. -/
abbrev fillLedger (cfg : EngineConfig) :
    System ((Engine × List CloseRecord) × List Fill) EngineLabel :=
  (ledger cfg).logged fun t => fills t.1

/-- **Every fill is at the price of its signal**, and no sync changes the
position. -/
def AtSignalPrice (key : PositionKey) (t : (Engine × List CloseRecord) × List Fill)
    (l : EngineLabel) : Prop :=
  SyncKeeps key t.1 l ∧
    match l with
    | .work i => ∀ job ∈ t.1.1.jobs[i]?, job.Priced key
    | _ => True

instance (key : PositionKey) (t : (Engine × List CloseRecord) × List Fill) (l : EngineLabel) :
    Decidable (AtSignalPrice key t l) :=
  match l with
  | .work i => inferInstanceAs (Decidable (True ∧ ∀ job ∈ t.1.1.jobs[i]?, job.Priced key))
  | .start _ => .isTrue ⟨trivial, trivial⟩
  | .event e => inferInstanceAs (Decidable (SyncKeeps key t.1 (.event e) ∧ True))

end Engine

/-! ## A step that leaves a position in the book -/

section Kept

variable {cfg : EngineConfig} {key : PositionKey} {s s' : Shared}

/-- An event that records a close of the key takes the position. -/
theorem Event.closes_ne {e : Event} (h : e.apply cfg s = some s')
    (hkept : s'.positions.lookup key ≠ none) : ∀ c ∈ e.closes s, c.1 ≠ key := by
  cases e with
  | wsPosition upd =>
      obtain rfl := Option.some.inj h
      intro c hc
      unfold closes at hc
      unfold Shared.onWsPosition at hkept
      by_cases hsize : 0 < upd.size
      · simp only [hsize, if_true] at hc
        cases hc
      · simp only [hsize, if_false] at hc hkept
        obtain ⟨e₀, hfind, rfl⟩ := Option.map_eq_some_iff.1 hc
        rw [hfind] at hkept
        rintro rfl
        exact hkept (AList.lookup_erase e₀.1 s.positions)
  | _ => exact fun c hc => (Option.not_mem_none c hc).elim

/-- So does closing everything. -/
theorem CloseAllJob.closes_ne {j j' : CloseAllJob} (h : j.step cfg s = some (j', s'))
    (hkept : s'.positions.lookup key ≠ none) : ∀ c ∈ j.closes s, c.1 ≠ key := by
  intro c hc
  unfold closes at hc
  split at hc
  · rename_i tag todo hpc
    obtain ⟨e, hfind, rfl⟩ := Option.map_eq_some_iff.1 hc
    simp only [step, hpc, Option.some.injEq, Prod.mk.injEq] at h
    obtain ⟨-, rfl⟩ := h
    rw [settle, hfind] at hkept
    rintro rfl
    exact hkept (AList.lookup_erase e.1 s.positions)
  · cases hc

namespace CloseJob

variable {c : Closing} {j j' : CloseJob} {pos : ManagedPosition}

/-- A close of all there is takes the position. -/
theorem closes_ne (h : j.step cfg c s = some (j', s')) (hall : c.reduces j = none)
    (hkept : s'.positions.lookup key ≠ none) : ∀ r ∈ j.closes c s, r.1 ≠ key := by
  intro r hr
  obtain ⟨hsettles, hr⟩ := Option.mem_ite_none_right.1 hr
  obtain ⟨pos, hlookup, rfl⟩ := Option.map_eq_some_iff.1 hr
  cases progress_of_step h with
  | find _ _ hpc => rw [hpc] at hsettles; cases hsettles
  | settle =>
      rw [positions_settle hlookup, hall] at hkept
      rintro rfl
      exact hkept (AList.lookup_erase j.key s.positions)
  | other hpc => exact (Bool.false_ne_true (hpc.symm.trans hsettles)).elim

/-- **A partial close records what it fills**, at the signal's price. -/
theorem profit_of_partial (hshare : j.isFullClose = false) (hprice : 0 < j.sig.price)
    (hentry : 0 < pos.entryPrice) (hquantity : 0 < j.quantity) :
    ((handleTp cfg).trade j pos).pnl + ((handleTp cfg).trade j pos).fee =
      (if pos.side = "long" then 1 else -1) * (j.sig.price - pos.entryPrice) * j.closeQty := by
  obtain ⟨hratio, -⟩ := closeRatio_of_partial hshare
  have hcloses : 0 < j.closeQty := mul_pos hquantity hratio
  simp only [handleTp, TradeRecord.ofClose, if_pos hprice, not_le.2 hcloses, if_false,
    sub_add_cancel]
  exact Book.calcPnl_of_pos hentry hcloses

/-- **A take-profit's record of a position that stays** is the profit of its
fill. -/
theorem recorded_eq_filled (h : j.step cfg (handleTp cfg) s = some (j', s'))
    (hpos : s.positions.lookup key = some pos) (hkept : s'.positions.lookup key ≠ none)
    (hentry : 0 < pos.entryPrice) (hpriced : j.key = key → 0 < j.sig.price)
    (hfound : j.pc.settles = true → j.key = key → 0 < j.quantity) :
    recordedProfit key (j.closes (handleTp cfg) s).toList =
      achievedProfits key pos.side pos.entryPrice (j.fill s).toList := by
  by_cases hcase : j.pc.settles = true ∧ j.key = key
  · obtain ⟨hsettles, rfl⟩ := hcase
    cases hfull : j.isFullClose with
    | true =>
        -- nothing would be left of it
        have hall : (handleTp cfg).reduces j = none := by simp [handleTp, hfull]
        refine (closes_ne h hall hkept (j.key, (handleTp cfg).trade j pos) ?_ rfl).elim
        rw [closes, if_pos hsettles, hpos]
        rfl
    | false =>
        have hprofit : ((handleTp cfg).trade j pos).pnl + ((handleTp cfg).trade j pos).fee = _ :=
          profit_of_partial hfull (hpriced rfl) hentry (hfound hsettles rfl)
        have hsum : ∀ x : ℚ, [x].sum = x := fun x => by simp
        simp only [closes, fill, hsettles, if_true, hpos, Option.map_some, Option.toList_some,
          recordedProfit, achievedProfits, List.map_cons, List.map_nil, hsum,
          CloseRecord.profit, Fill.profit]
        exact hprofit
  · -- neither account has anything of the key
    have hne : j.pc.settles = true → j.key ≠ key := fun hsettles hkey => hcase ⟨hsettles, hkey⟩
    rw [recordedProfit_toList, achievedProfits_toList]
    · intro f hf
      obtain ⟨hsettles, hf⟩ := Option.mem_ite_none_right.1 hf
      obtain ⟨-, -, rfl⟩ := Option.map_eq_some_iff.1 hf
      exact hne hsettles
    · intro r hr
      obtain ⟨hsettles, hr⟩ := Option.mem_ite_none_right.1 hr
      obtain ⟨-, -, rfl⟩ := Option.map_eq_some_iff.1 hr
      exact hne hsettles

end CloseJob

end Kept

namespace Engine

variable {cfg : EngineConfig} {key : PositionKey} {symbol : String} {quantity : ℚ}

/-- **What a step records of a position that stays** is the profit of what
it fills. -/
theorem recorded_eq_filled {t u : Engine} {log : List CloseRecord} {l : EngineLabel}
    {pos : ManagedPosition} (h : Tracking key symbol quantity (t, log))
    (hnext : (engineSystem cfg).next t l = some u)
    (hpriced : ∀ i, l = .work i → ∀ job ∈ t.jobs[i]?, job.Priced key)
    (hpos : t.shared.positions.lookup key = some pos)
    (hkept : u.shared.positions.lookup key ≠ none) (hentry : 0 < pos.entryPrice) :
    recordedProfit key (closes cfg t l).toList =
      achievedProfits key pos.side pos.entryPrice (fills t l).toList := by
  cases move_of_next hnext with
  | start => rfl
  | event e happly => exact recordedProfit_toList (Event.closes_ne happly hkept)
  | @work i job job' shared' hjob hwork =>
      have hcloses : closes cfg t (.work i) = job.closes cfg t.shared := by
        simp only [closes, hjob, Option.bind_some]
      have hfills : fills t (.work i) = job.fill t.shared := by
        simp only [fills, hjob, Option.bind_some]
      rw [hcloses, hfills]
      have htracks := h.jobs i job hjob
      have hprice := hpriced i rfl job hjob
      cases job with
      | entry j => rfl
      | tp j =>
          obtain ⟨j', rfl, hclose⟩ := Job.of_step_map hwork
          refine CloseJob.recorded_eq_filled hclose hpos hkept hentry hprice fun hsettles hkey => ?_
          have hfound : (key, j.quantity) ∈ (Job.tp j).found := by
            simp [Job.found, CloseJob.found, ClosePc.working_of_settles hsettles, hkey]
          rw [← htracks.quantity j.quantity hfound pos hpos]
          exact h.shared.positive pos hpos
      | sl j =>
          obtain ⟨j', rfl, hclose⟩ := Job.of_step_map hwork
          exact recordedProfit_toList (CloseJob.closes_ne hclose rfl hkept)
      | closeAll j =>
          obtain ⟨j', rfl, hclose⟩ := Job.of_step_map hwork
          exact recordedProfit_toList (CloseAllJob.closes_ne hclose hkept)

/-! ## The accounts of a run -/

/-- **The invariant**: as long as the position is in the book, it is on its
side and at its entry price, and the records of its key add up to the
profit of their fills. -/
structure Filled (key : PositionKey) (symbol : String) (quantity : ℚ) (side : String)
    (entryPrice : ℚ) (t : (Engine × List CloseRecord) × List Fill) : Prop where
  tracking : Tracking key symbol quantity t.1
  kept : ∀ pos ∈ t.1.1.shared.positions.lookup key, pos.side = side ∧ pos.entryPrice = entryPrice ∧
    (0 < entryPrice → recordedProfit key t.1.2 = achievedProfits key side entryPrice t.2)

theorem filled_next {side : String} {entryPrice : ℚ}
    {t u : (Engine × List CloseRecord) × List Fill} {l : EngineLabel}
    (h : Filled key symbol quantity side entryPrice t) (hguard : AtSignalPrice key t l)
    (hnext : (fillLedger cfg).next t l = some u) :
    Filled key symbol quantity side entryPrice u := by
  obtain ⟨hkeeps, hpriced⟩ := hguard
  obtain ⟨hledger, hfills⟩ := System.next_logged.1 hnext
  obtain ⟨hstep, hlog⟩ := System.next_logged.1 hledger
  refine ⟨tracking_next h.tracking hkeeps hledger, fun pos hpos => ?_⟩
  obtain ⟨pos₀, hpos₀, heq⟩ := kept_of_next h.tracking hkeeps hstep hpos
  obtain ⟨rfl, rfl, hprofit⟩ := h.kept pos₀ hpos₀
  refine ⟨by rw [heq], by rw [heq], fun hentry => ?_⟩
  have hrecorded := recorded_eq_filled h.tracking hstep
    (fun i hl job hjob => by subst hl; exact hpriced job hjob) hpos₀
    (Option.ne_none_iff_exists'.2 ⟨pos, hpos⟩) hentry
  rw [hlog, hfills, recordedProfit_append, achievedProfits_append, hprofit hentry, hrecorded]

/-- A registration starts both accounts. -/
theorem filled_of_registers {s s' : Engine} {l : EngineLabel} (hs : s.Owned)
    (hreg : Registers cfg s l s' key quantity) (hquantity : 0 < quantity) :
    ∃ symbol side entryPrice, Filled key symbol quantity side entryPrice ((s', []), []) := by
  obtain ⟨symbol, hstart⟩ := tracking_of_registers hs hreg hquantity
  obtain ⟨pos, hpos, -⟩ := Option.map_eq_some_iff.1 hreg.stored
  refine ⟨symbol, pos.side, pos.entryPrice, hstart, fun pos' hpos' => ?_⟩
  obtain rfl := Option.some.inj (hpos.symm.trans hpos')
  exact ⟨rfl, rfl, fun _ => rfl⟩

end Engine

/-! ## The close by the exchange -/

/-- The exit price of a close that the exchange reports: the message has
none but the average price of the opening. -/
def WsPositionUpdate.exitPrice (upd : WsPositionUpdate) (pos : ManagedPosition) : ℚ :=
  if 0 < upd.avgPrice then upd.avgPrice else pos.entryPrice

namespace WsPositionUpdate

variable {upd : WsPositionUpdate} {pos : ManagedPosition}

/-- **The profit a close by the exchange records**: the reported one, where
it is not too small. -/
theorem profit_closeTrade (hentry : 0 < pos.entryPrice) (hquantity : 0 < pos.quantity) :
    (upd.closeTrade pos).pnl + (upd.closeTrade pos).fee =
      if 1 / 10000 < |upd.realizedPnl| then upd.realizedPnl
      else (if pos.side = "long" then 1 else -1) * (upd.exitPrice pos - pos.entryPrice) *
        pos.quantity := by
  rw [← Book.calcPnl_of_pos hentry hquantity]
  show (TradeRecord.ofWsClose pos (upd.exitPrice pos) upd.realizedPnl).pnl +
    (TradeRecord.ofWsClose pos (upd.exitPrice pos) upd.realizedPnl).fee = _
  unfold TradeRecord.ofWsClose
  dsimp only
  by_cases hreported : 1 / 10000 < |upd.realizedPnl|
  · rw [if_pos hreported, if_pos hreported, sub_add_cancel]
  · rw [if_neg hreported, if_neg hreported, sub_add_cancel]

/-- What a close by the exchange records. -/
theorem closes_of_found {s : Shared} {key : PositionKey} (hsize : upd.size ≤ 0)
    (hfind : s.positions.findBySymbolSide upd.symbol upd.holdSide = some (key, pos)) :
    (Event.wsPosition upd).closes s = some (key, upd.closeTrade pos) := by
  rw [Event.closes, if_neg (not_lt.2 hsize), hfind]
  rfl

end WsPositionUpdate

namespace ProfitRun

open LiveRun

/-- A take-profit closes a third, at some price. -/
def labels (price : ℚ) : List EngineLabel :=
  .work 0 :: .start (.tp { sig := { closeSignal "BTCUSDT" "TP1" with price }, rd := {} }) ::
    works 1 6

/-- What is left of the position. -/
def rest : ManagedPosition where
  symbol := "BTCUSDT"
  timeframe := "15"
  side := "long"
  entryPrice := 50
  quantity := 67 / 50
  leverage := 10
  slPrice := 0
  tp1Price := 60
  tier := "A"
  strategy := "unknown"
  openedAt := 0
  isReal := true

/-- The exchange closes the rest, and reports what all closes achieved. -/
def closing (achieved : ℚ) : WsPositionUpdate where
  symbol := "BTCUSDT"
  holdSide := "long"
  size := 0
  avgPrice := 50
  realizedPnl := achieved

end ProfitRun

end WebhookTrader
