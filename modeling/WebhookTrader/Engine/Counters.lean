import WebhookTrader.Engine.Conservation

/-!
# What the order-level manager counts

`RiskManager` keeps two counts: the orders in flight, which every entry
adds to before its request and takes from after it, and the positions of a
symbol, which every entry adds to and no close takes from. The first count
is right at all times, but the limit on it is checked a while before the
order is counted. The second is right until the first position goes.
-/

namespace WebhookTrader

/-! ## Orders in flight -/

namespace Job

/-- The handler's order is counted as open. -/
def inFlight : Job → Bool
  | entry j => j.pc.inFlight
  | _ => false

/-- The handler is about to count its order as open. -/
def placing : Job → Bool
  | entry j => j.pc = .placed false || j.pc = .placed true
  | _ => false

variable {cfg : EngineConfig} {job job' : Job} {s s' : Shared}

/-- A handler that is no entry leaves the order-level manager alone. -/
theorem risk_of_step (h : job.step cfg s = some (job', s')) (hentry : ∀ j, job ≠ .entry j) :
    s'.risk = s.risk ∧ ∀ j, job' ≠ .entry j := by
  cases move_of_step h with
  | entry => exact absurd rfl (hentry _)
  | tp hmove | sl hmove =>
      refine ⟨?_, fun _ heq => by cases heq⟩
      cases hmove with
      | settle => exact CloseJob.settle_closes.risk
      | _ => rfl
  | closeAll hmove =>
      refine ⟨?_, fun _ heq => by cases heq⟩
      cases hmove with
      | quiet => rfl
      | settle => exact CloseAllJob.settle_closes.risk

/-- **The count of open orders moves with the handler**: up when its order
goes into flight, and down when it lands. -/
theorem openOrders_of_step (h : job.step cfg s = some (job', s')) :
    s'.risk.openOrders + (if job.inFlight then 1 else 0) =
      s.risk.openOrders + if job'.inFlight then 1 else 0 := by
  cases job with
  | entry j =>
      obtain ⟨j', rfl, hstep⟩ := Job.of_step_map h
      have hflight : ∀ {j : EntryJob} {pc : EntryPc}, j.pc = pc →
          (entry j).inFlight = pc.inFlight := fun hpc => congrArg EntryPc.inFlight hpc
      cases EntryJob.counts_of_step hstep with
      | number hpc hpc' hoid hnext hrisk => rw [hrisk, hflight hpc, hflight hpc']; rfl
      | place again hpc hpc' hoid hnext hrisk =>
          rw [hrisk, hflight hpc, hflight hpc']
          simp [EntryPc.inFlight, RiskManager.onOrderPlaced]
      | finish again resp hpc hpc' hoid hnext hrisk =>
          rw [hrisk, hflight hpc, hflight hpc', EntryJob.afterOrder_not_inFlight]
          simp [EntryPc.inFlight, RiskManager.onOrderDone]
      | count hpc hpc' hoid hnext hrisk =>
          rw [hrisk, hflight hpc, hflight hpc']
          rfl
      | still hoid hnext hrisk hnumbered hsame =>
          rw [hrisk, hflight rfl, hflight rfl, hsame]
  | _ =>
      obtain ⟨hrisk, hentry⟩ := risk_of_step h fun _ heq => by cases heq
      have hnone : job'.inFlight = false := by
        cases job' with
        | entry j => exact absurd rfl (hentry j)
        | _ => rfl
      rw [hrisk, hnone]
      rfl

/-- An order goes into flight where the handler counts it. -/
theorem placing_of_step (h : job.step cfg s = some (job', s')) (hbefore : job.inFlight = false)
    (hafter : job'.inFlight = true) : job.placing = true := by
  cases job with
  | entry j =>
      obtain ⟨j', rfl, hstep⟩ := of_step_map h
      have hflight : ∀ {j : EntryJob} {pc : EntryPc}, j.pc = pc →
          (entry j).inFlight = pc.inFlight := fun hpc => congrArg EntryPc.inFlight hpc
      cases EntryJob.counts_of_step hstep with
      | place again hpc => cases again <;> simp [placing, hpc]
      | number hpc hpc' | count hpc hpc' =>
          rw [hflight hpc'] at hafter
          cases hafter
      | finish again resp hpc hpc' =>
          rw [hflight hpc', EntryJob.afterOrder_not_inFlight] at hafter
          cases hafter
      | still hoid hnext hrisk hnumbered hsame =>
          rw [hflight rfl, hsame] at hafter
          exact absurd (hbefore.symm.trans hafter) Bool.false_ne_true
  | _ =>
      obtain ⟨-, hentry⟩ := risk_of_step h fun _ heq => by cases heq
      cases job' with
      | entry j => exact absurd rfl (hentry j)
      | _ => cases hafter

end Job

/-- No event counts anything. -/
theorem Event.counts_of_apply {cfg : EngineConfig} {e : Event} {s s' : Shared}
    (h : e.apply cfg s = some s') :
    s'.risk.openOrders = s.risk.openOrders ∧ s'.risk.positions = s.risk.positions := by
  cases e with
  | resetDaily =>
      simp only [apply, Option.ite_none_right_eq_some, Option.some.injEq] at h
      obtain ⟨-, rfl⟩ := h
      exact ⟨rfl, rfl⟩
  | wsPosition upd =>
      obtain rfl := Option.some.inj h
      rw [Shared.onWsPosition_closes.risk]
      exact ⟨rfl, rfl⟩
  | wsAccount upd =>
      obtain rfl := Option.some.inj h
      rcases Shared.onWsAccount_eq s upd with heq | ⟨balance, peakBalance, heq⟩ <;> simp [heq]
  | fetchBalance upd =>
      obtain rfl := Option.some.inj h
      rcases Shared.fetchRealBalance_eq s upd with heq | ⟨balance, peakBalance, heq⟩ <;> simp [heq]
  | sync | tick =>
      obtain rfl := Option.some.inj h
      exact ⟨rfl, rfl⟩
  | switch =>
      obtain ⟨r, -, rfl⟩ := Option.map_eq_some_iff.1 h
      exact ⟨rfl, rfl⟩
  | check | holding =>
      simp only [apply, Option.ite_none_right_eq_some, Option.some.injEq] at h
      obtain ⟨-, rfl⟩ := h
      exact ⟨rfl, rfl⟩

namespace Engine

variable {cfg : EngineConfig} {s t : Engine} {l : EngineLabel}

/-- The orders in flight: the entries between `on_order_placed` and
`on_order_done`. -/
def inFlight (s : Engine) : ℕ := s.count Job.inFlight

/-- **Whatever happens, the count is the number of orders in flight.** -/
theorem openOrders_next (h : s.shared.risk.openOrders = s.inFlight)
    (hnext : (engineSystem cfg).next s l = some t) : t.shared.risk.openOrders = t.inFlight := by
  cases move_of_next hnext with
  | start job hfresh =>
      have hnone : job.inFlight = false := by
        cases job <;> simp_all [Job.fresh, Job.inFlight, EntryPc.inFlight]
      rw [inFlight, Threads.count_start, hnone]
      simpa [inFlight] using h
  | @work i job job' shared' hjob hstep =>
      have hcount := Threads.count_set (p := Job.inFlight) job' shared' hjob
      have hopen := Job.openOrders_of_step hstep
      simp only [inFlight] at h ⊢
      split_ifs at hcount hopen <;> omega
  | event e happly => exact (Event.counts_of_apply happly).1.trans h

/-- **An order is counted while there is room**: the count is still below
the limit when the run adds to it. -/
def RoomAtOrder (cfg : EngineConfig) (s : Engine) : EngineLabel → Prop
  | .work i => ∀ job ∈ s.jobs[i]?, job.placing = true →
      s.shared.risk.hasOrderSlot cfg.limits = true
  | _ => True

instance (s : Engine) (l : EngineLabel) : Decidable (RoomAtOrder cfg s l) :=
  match l with
  | .work i => inferInstanceAs (Decidable (∀ job ∈ s.jobs[i]?, job.placing = true →
      s.shared.risk.hasOrderSlot cfg.limits = true))
  | .start _ | .event _ => .isTrue trivial

/-- No more orders are in flight than the limit. -/
def OrdersWithin (cfg : EngineConfig) (s : Engine) : Prop :=
  s.inFlight = 0 ∨ (s.inFlight : ℤ) ≤ cfg.limits.maxOpenOrders

instance (s : Engine) : Decidable (OrdersWithin cfg s) := inferInstanceAs (Decidable (_ ∨ _))

/-- **An order that is counted while there is room** keeps within the
limit, and no other step adds to the orders in flight. -/
theorem ordersWithin_next (h : OrdersWithin cfg s) (hcount : s.shared.risk.openOrders = s.inFlight)
    (hguard : RoomAtOrder cfg s l) (hnext : (engineSystem cfg).next s l = some t) :
    OrdersWithin cfg t := by
  have hle : t.inFlight ≤ s.inFlight → OrdersWithin cfg t := by
    intro hle
    rcases h with hzero | hmax
    · exact .inl (by omega)
    · exact .inr (by omega)
  cases move_of_next hnext with
  | start job hfresh =>
      have hnone : job.inFlight = false := by
        cases job <;> simp_all [Job.fresh, Job.inFlight, EntryPc.inFlight]
      refine hle ?_
      simp [inFlight, hnone]
  | @work i job job' shared' hjob hstep =>
      have hset := Threads.count_set (p := Job.inFlight) job' shared' hjob
      simp only [inFlight] at hle hcount ⊢
      by_cases hrise : job.inFlight = false ∧ job'.inFlight = true
      · -- the guard has seen room for one more
        have hroom := hguard job hjob (Job.placing_of_step hstep hrise.1 hrise.2)
        simp only [RiskManager.hasOrderSlot, decide_eq_true_eq] at hroom
        refine .inr ?_
        simp only [hrise.1, hrise.2, if_true, Bool.false_eq_true, if_false] at hset
        simp only [inFlight]
        omega
      · refine hle ?_
        by_cases hafter : job'.inFlight = true
        · have hbefore : job.inFlight = true := by
            by_contra hbefore
            exact hrise ⟨Bool.not_eq_true _ ▸ hbefore, hafter⟩
          simp only [hbefore, hafter, if_true] at hset
          omega
        · rw [if_neg hafter] at hset
          omega
  | event => exact h

end Engine

/-- **Orders in flight stay within the limit** in every state of a run whose
orders are counted while there is room. In every run, with room or not,
the count is the number of orders in flight, and zero where no worker is
inside `handle_entry`. -/
theorem orders_within_limit {cfg : EngineConfig} {s t : Engine} (hinit : (engineSystem cfg).init s)
    (hrisk : s.shared.risk.openOrders = 0)
    (hrun : (engineSystem cfg).Run (Engine.RoomAtOrder cfg) s t) :
    Engine.OrdersWithin cfg t ∧ t.shared.risk.openOrders = t.inFlight ∧
      ((∀ job ∈ t.jobs, ∀ j, job = .entry j → j.pc.holds = false) →
        t.shared.risk.openOrders = 0) := by
  have hnone : s.inFlight = 0 := by simp [Engine.inFlight, Threads.count, hinit.1]
  obtain ⟨hwithin, hcount⟩ := hrun.invariant
    (I := fun s => Engine.OrdersWithin cfg s ∧ s.shared.risk.openOrders = s.inFlight)
    (fun _ _ _ h hguard hnext => ⟨Engine.ordersWithin_next h.1 h.2 hguard hnext,
      Engine.openOrders_next h.2 hnext⟩)
    ⟨.inl hnone, by rw [hrisk, hnone]; rfl⟩
  refine ⟨hwithin, hcount, fun houtside => ?_⟩
  have hzero : t.inFlight = 0 := by
    rw [Engine.inFlight, Threads.count, List.countP_eq_zero]
    intro job hjob hflight
    cases job with
    | entry j =>
        have hholds : j.pc.holds = true := EntryPc.holds_of_inFlight hflight
        rw [houtside _ hjob j rfl] at hholds
        cases hholds
    | _ => cases hflight
  rw [hcount, hzero]
  rfl

/-! ### Two orders where one is the limit -/

namespace FlightRun

open LiveRun

/-- One order at a time. -/
def config : EngineConfig where
  limits := { maxOpenOrders := 1 }

/-- Both runs are validated before either counts its order. -/
def labels : List EngineLabel :=
  .start (buy "BTCUSDT") :: .start (buy "ETHUSDT") :: works 0 15 ++ works 1 16 ++ works 0 1

end FlightRun

/-- **Two orders are in flight where one may be.** The runs are on different
symbols, and each has found the count at zero. -/
theorem orders_exceed_limit :
    ∃ t, (engineSystem FlightRun.config).init LiveRun.start ∧
      LiveRun.start.shared.risk.openOrders = 0 ∧
      (engineSystem FlightRun.config).Run System.anyStep LiveRun.start t ∧
      t.jobs.filterMap Job.lock = ["BTCUSDT", "ETHUSDT"] ∧ t.inFlight = 2 ∧
      ¬ Engine.OrdersWithin FlightRun.config t := by
  obtain ⟨t, hrun, hlocks, hflight, hexceeds⟩ := System.exists_run_of_play
    (M := engineSystem FlightRun.config) (G := System.anyStep) (s := LiveRun.start)
    FlightRun.labels
    (P := fun t => t.jobs.filterMap Job.lock = ["BTCUSDT", "ETHUSDT"] ∧ t.inFlight = 2 ∧
      ¬ Engine.OrdersWithin FlightRun.config t) (by decide +kernel)
  exact ⟨t, LiveRun.start_init rfl, rfl, hrun, hlocks, hflight, hexceeds⟩

theorem orders_within_limit_btc :
    ∃ t, (engineSystem FlightRun.config).Run (Engine.RoomAtOrder FlightRun.config)
        LiveRun.start t ∧ t.inFlight = 1 ∧ Engine.OrdersWithin FlightRun.config t := by
  obtain ⟨t, hrun, hflight⟩ := System.exists_run_of_play (M := engineSystem FlightRun.config)
    (G := Engine.RoomAtOrder FlightRun.config) (s := LiveRun.start)
    (.start (LiveRun.buy "BTCUSDT") :: LiveRun.works 0 16)
    (P := fun t => t.inFlight = 1) (by decide +kernel)
  exact ⟨t, hrun, hflight, (orders_within_limit (LiveRun.start_init rfl) rfl hrun).1⟩

/-! ## Positions of a symbol -/

namespace RiskManager

/-- The positions the manager counts for a symbol. -/
def positionCount (r : RiskManager) (symbol : String) : ℤ :=
  ((r.positions.lookup symbol).map (·.count)).getD 0

/-- Every symbol that is counted is counted with a position at least. -/
def Positive (r : RiskManager) : Prop :=
  ∀ symbol, ∀ info ∈ r.positions.lookup symbol, 1 ≤ info.count

variable {r : RiskManager} {symbol symbol' side : String} {qty : ℚ}

/-- An opening counts one more for its symbol. -/
theorem positionCount_opened : (r.onPositionOpened symbol qty side).positionCount symbol' =
    r.positionCount symbol' + if symbol' = symbol then 1 else 0 := by
  unfold positionCount onPositionOpened
  by_cases hsame : symbol' = symbol
  · subst hsame
    cases r.positions.lookup symbol' <;> simp
  · simp [AList.lookup_insert_ne hsame, hsame]

theorem Positive.opened (h : r.Positive) : (r.onPositionOpened symbol qty side).Positive := by
  intro symbol' info hinfo
  unfold onPositionOpened at hinfo
  by_cases hsame : symbol' = symbol
  · subst hsame
    rw [Option.mem_def, AList.lookup_insert] at hinfo
    obtain rfl := Option.some.inj hinfo
    cases hlookup : r.positions.lookup symbol' with
    | none => simp
    | some info =>
        have hone := h symbol' info hlookup
        simp only [Option.getD_some]
        omega
  · rw [Option.mem_def, AList.lookup_insert_ne hsame] at hinfo
    exact h symbol' info hinfo

/-- Where nothing is counted, the symbol is forgotten. -/
theorem Positive.lookup_eq_none (h : r.Positive) (hzero : r.positionCount symbol = 0) :
    r.positions.lookup symbol = none := by
  cases hlookup : r.positions.lookup symbol with
  | none => rfl
  | some info =>
      have hone := h symbol info hlookup
      rw [positionCount, hlookup] at hzero
      simp only [Option.map_some, Option.getD_some] at hzero
      omega

end RiskManager

/-- The symbol of a key. -/
def PositionKey.symbol : PositionKey → String
  | entry symbol _ _ => symbol
  | ext symbol _ => symbol

/-- The entries of the book for a symbol, among the keys that were opened
with a real order. -/
def Book.openedCount (book : Book) (opened : List PositionKey) (symbol : String) : ℕ :=
  book.entries.countP fun e => e.2.symbol = symbol && opened.contains e.1

/-- **The book has all that were opened for a symbol** exactly where it
counts as many. -/
theorem Book.openedCount_eq_iff {book : Book} {opened : List PositionKey} {symbol : String}
    (hnodup : opened.Nodup)
    (hsymbol : ∀ key ∈ opened, ∀ pos ∈ book.lookup key, pos.symbol = key.symbol) :
    book.openedCount opened symbol = opened.countP (fun key => key.symbol = symbol) ↔
      ∀ key ∈ opened, key.symbol = symbol → key ∈ book := by
  let here := (book.entries.filter fun e => e.2.symbol = symbol && opened.contains e.1).map Sigma.fst
  let all := opened.filter fun key => key.symbol = symbol
  have hhere : ∀ key, key ∈ here ↔
      ∃ pos, book.lookup key = some pos ∧ pos.symbol = symbol ∧ key ∈ opened := by
    intro key
    simp only [here, List.mem_map, List.mem_filter, Bool.and_eq_true, decide_eq_true_eq,
      List.contains_iff_mem]
    constructor
    · rintro ⟨e, ⟨hmem, hpos, hkey⟩, rfl⟩
      exact ⟨e.2, AList.mem_lookup_iff.2 hmem, hpos, hkey⟩
    · rintro ⟨pos, hlookup, hpos, hkey⟩
      exact ⟨⟨key, pos⟩, ⟨AList.mem_lookup_iff.1 hlookup, hpos, hkey⟩, rfl⟩
  have hsubset : here ⊆ all := by
    intro key hkey
    obtain ⟨pos, hlookup, hpos, hmem⟩ := (hhere key).1 hkey
    exact List.mem_filter.2 ⟨hmem, by simpa using (hsymbol key hmem pos hlookup).symm.trans hpos⟩
  have hnodupHere : here.Nodup := book.keys_nodup.sublist (List.filter_sublist.map _)
  have hlength : book.openedCount opened symbol = here.length := by
    rw [openedCount, List.countP_eq_length_filter, List.length_map]
  rw [hlength, List.countP_eq_length_filter]
  constructor
  · intro heq key hkey hsame
    have hperm := (List.subperm_of_subset hnodupHere hsubset).perm_of_length_le heq.ge
    obtain ⟨pos, hlookup, -⟩ := (hhere key).1
      (hperm.mem_iff.2 (List.mem_filter.2 ⟨hkey, by simpa using hsame⟩))
    exact AList.lookup_isSome.1 (by rw [hlookup]; rfl)
  · intro hall
    refine le_antisymm (List.subperm_of_subset hnodupHere hsubset).length_le
      (List.subperm_of_subset (hnodup.filter _) fun key hkey => (hhere key).2 ?_).length_le
    obtain ⟨hmem, hsame⟩ := List.mem_filter.1 hkey
    have hsame' : key.symbol = symbol := by simpa using hsame
    obtain ⟨pos, hlookup⟩ := Option.isSome_iff_exists.1 (AList.lookup_isSome.2 (hall key hmem hsame'))
    exact ⟨pos, hlookup, (hsymbol key hmem pos hlookup).trans hsame', hmem⟩

namespace Job

/-- The key the handler is about to register a real position under, which
the order-level manager counts already. -/
def opening : Job → Option PositionKey
  | entry j => if j.pc = .registerReal then some j.key else none
  | _ => none

theorem of_opening {job : Job} {key : PositionKey} (h : job.opening = some key) :
    ∃ j, job = .entry j ∧ j.pc = .registerReal ∧ key = j.key := by
  cases job with
  | entry j =>
      simp only [opening, Option.ite_none_right_eq_some, Option.some.injEq] at h
      exact ⟨j, rfl, h.1, h.2.symm⟩
  | _ => cases h

/-- The handler is about to register a real position of a symbol. -/
def opensOn (symbol : String) (job : Job) : Bool := job.opening.any fun key => key.symbol = symbol

end Job

namespace Engine

/-- The key a step opens with a real order. -/
def opens (s : Engine) : EngineLabel → Option PositionKey
  | .work i => s.jobs[i]?.bind Job.opening
  | _ => none

/-- The engine with the keys it opens with real orders. -/
abbrev openings (cfg : EngineConfig) : System (Engine × List PositionKey) EngineLabel :=
  (engineSystem cfg).logged opens

end Engine

/-! ### What a step does to them -/

namespace Job

variable {cfg : EngineConfig} {job job' : Job} {s s' : Shared} {key : PositionKey}

/-- **The positions are counted one step before they are registered.** -/
theorem positionCount_of_step (symbol : String) (h : job.step cfg s = some (job', s')) :
    s'.risk.positionCount symbol =
      s.risk.positionCount symbol + if job'.opensOn symbol then 1 else 0 := by
  cases job with
  | entry j =>
      obtain ⟨j', rfl, hstep⟩ := of_step_map h
      have hnone : j'.pc ≠ .registerReal → (entry j').opensOn symbol = false := by
        intro hpc
        simp [opensOn, opening, hpc]
      cases EntryJob.counts_of_step hstep with
      | count hpc hpc' hoid hnext hrisk =>
          have hopens : (entry j').opensOn symbol = true ↔ symbol = j.sig.symbol := by
            simp [opensOn, opening, hpc', EntryJob.key, PositionKey.symbol,
              EntryJob.sig_of_step hstep, eq_comm]
          rw [hrisk, RiskManager.positionCount_opened]
          simp only [hopens]
      | number hpc hpc' hoid hnext hrisk =>
          rw [hrisk, hnone (by rw [hpc']; exact nofun)]
          simp
      | place again hpc hpc' hoid hnext hrisk =>
          rw [hrisk, hnone (by rw [hpc']; exact nofun)]
          simp [RiskManager.positionCount, RiskManager.onOrderPlaced]
      | finish again resp hpc hpc' hoid hnext hrisk =>
          rw [hrisk, hnone (by rw [hpc']; exact EntryJob.afterOrder_ne_registerReal)]
          simp [RiskManager.positionCount, RiskManager.onOrderDone]
      | still hoid hnext hrisk hnumbered hsame hreal =>
          rw [hrisk, hnone hreal]
          simp
  | _ =>
      obtain ⟨hrisk, hentry⟩ := risk_of_step h fun _ heq => by cases heq
      have hnone : job'.opensOn symbol = false := by
        cases job' with
        | entry j => exact absurd rfl (hentry j)
        | _ => rfl
      rw [hrisk, hnone]
      simp

theorem positive_of_step (h : job.step cfg s = some (job', s')) (hpos : s.risk.Positive) :
    s'.risk.Positive := by
  cases job with
  | entry j =>
      obtain ⟨j', rfl, hstep⟩ := of_step_map h
      cases EntryJob.counts_of_step hstep with
      | count hpc hpc' hoid hnext hrisk =>
          rw [hrisk]
          exact hpos.opened
      | number _ _ _ _ hrisk | still _ _ hrisk => exact hrisk ▸ hpos
      | place _ _ _ _ _ hrisk | finish _ _ _ _ _ _ hrisk => rw [hrisk]; exact hpos
  | _ => exact (risk_of_step h fun _ heq => by cases heq).1 ▸ hpos

/-- What a step leaves under a key is on the symbol it was on, or is what
an entry registers. -/
theorem symbol_of_step {pos : ManagedPosition} (h : job.step cfg s = some (job', s'))
    (hlookup : s'.positions.lookup key = some pos) :
    (∃ pos₀, s.positions.lookup key = some pos₀ ∧ pos.symbol = pos₀.symbol) ∨
      ∃ j, job = .entry j ∧ key = j.key ∧ pos.symbol = key.symbol := by
  have hsame : s'.positions.lookup key = s.positions.lookup key →
      ∃ pos₀, s.positions.lookup key = some pos₀ ∧ pos.symbol = pos₀.symbol :=
    fun hsame => ⟨pos, hsame ▸ hlookup, rfl⟩
  cases job with
  | entry j =>
      obtain ⟨j', rfl, hstep⟩ := of_step_map h
      cases EntryJob.move_of_step hstep with
      | register isReal hpc =>
          by_cases hkey : key = j.key
          · subst hkey
            have hpos : pos = j.position s.clock isReal :=
              Option.some.inj (hlookup.symm.trans (AList.lookup_insert ..))
            exact .inr ⟨j, rfl, rfl, hpos ▸ rfl⟩
          · exact .inl (hsame (AList.lookup_insert_ne hkey))
      | _ => exact .inl (hsame rfl)
  | tp j | sl j =>
      obtain ⟨j', rfl, hstep⟩ := of_step_map h
      refine .inl ?_
      cases CloseJob.progress_of_step hstep with
      | find => exact hsame rfl
      | settle =>
          by_cases hkey : j.key = key
          · subst hkey
            obtain ⟨pos₀, hlookup₀, hsymbol, -⟩ := CloseJob.of_lookup_settle hlookup
            exact ⟨pos₀, hlookup₀, hsymbol⟩
          · exact hsame (CloseJob.lookup_settle_ne (Ne.symm hkey))
      | other _ _ _ _ _ hpositions => exact hsame (by rw [hpositions])
  | closeAll j =>
      obtain ⟨j', rfl, hstep⟩ := of_step_map h
      rcases CloseAllJob.lookup_of_step key hstep with hkept | hnone
      · exact .inl (hsame hkept)
      · exact absurd (hnone.symm.trans hlookup) nofun

end Job

/-- Nor does an event move a position to another symbol, under an entry's
key. -/
theorem Event.symbol_of_apply {cfg : EngineConfig} {e : Event} {s s' : Shared} {key : PositionKey}
    {pos : ManagedPosition} (h : e.apply cfg s = some s') (hkey : key.isExt = false)
    (hlookup : s'.positions.lookup key = some pos) :
    ∃ pos₀, s.positions.lookup key = some pos₀ ∧ pos.symbol = pos₀.symbol := by
  by_cases hsync : ∃ quote, e = .sync quote
  · obtain ⟨quote, rfl⟩ := hsync
    obtain rfl := Option.some.inj h
    obtain ⟨⟨key₀, pos₀⟩, hmem, hsame, htag⟩ := Book.entry_of_mem_reconcile
      (ExchangeMap.keyed_ofRows _) (AList.mem_lookup_iff.1 hlookup) hkey
    obtain rfl : key = key₀ := hsame
    exact ⟨pos₀, AList.mem_lookup_iff.2 hmem, congrArg Prod.fst htag⟩
  · rcases lookup_of_apply key h fun quote heq => (hsync ⟨quote, heq⟩).elim with hkept | hnone
    · exact ⟨pos, hkept ▸ hlookup, rfl⟩
    · exact absurd (hnone.symm.trans hlookup) nofun

namespace Engine

variable {cfg : EngineConfig} {t : Engine × List PositionKey} {u : Engine} {l : EngineLabel}

/-- **The keys that were opened** are apart, under numbers that are drawn
and nobody's, and what is stored under one is on its symbol. -/
structure Opened (s : Engine) (opened : List PositionKey) : Prop where
  nodup : opened.Nodup
  number : ∀ key ∈ opened, ∃ symbol timeframe oid, key = .entry symbol timeframe oid ∧
    oid < s.shared.nextOid ∧ ∀ (i : ℕ) (job : Job), s.jobs[i]? = some job → oid ∉ job.number
  symbol : ∀ key ∈ opened, ∀ pos ∈ s.shared.positions.lookup key, pos.symbol = key.symbol

/-- **The invariant**: the manager counts, for every symbol, the keys that
were opened and those that are about to be. -/
structure Counted (t : Engine × List PositionKey) : Prop where
  owned : t.1.Owned
  opened : Opened t.1 t.2
  positive : t.1.shared.risk.Positive
  count : ∀ symbol, t.1.shared.risk.positionCount symbol =
    (t.2.countP (fun key => key.symbol = symbol) : ℕ) + t.1.count (Job.opensOn symbol)

theorem Opened.start (h : Opened t.1 t.2) {job : Job} (hfresh : job.fresh = true) :
    Opened { t.1 with jobs := t.1.jobs ++ [job] } t.2 := by
  obtain ⟨-, hnone⟩ := Job.owns_nothing_of_fresh hfresh
  refine ⟨h.nodup, fun key hkey => ?_, h.symbol⟩
  obtain ⟨symbol, timeframe, oid, rfl, hlt, hfree⟩ := h.number key hkey
  exact ⟨symbol, timeframe, oid, rfl, hlt,
    Threads.forall_append (by rw [hnone]; exact Option.not_mem_none oid) hfree⟩

theorem Opened.event (h : Opened t.1 t.2) {e : Event} {shared' : Shared}
    (happly : e.apply cfg t.1.shared = some shared') :
    Opened { t.1 with shared := shared' } t.2 := by
  refine ⟨h.nodup, fun key hkey => ?_, fun key hkey pos hpos => ?_⟩
  · obtain ⟨symbol, timeframe, oid, rfl, hlt, hfree⟩ := h.number key hkey
    exact ⟨symbol, timeframe, oid, rfl, (Event.owners_of_apply happly).2 ▸ hlt, hfree⟩
  · obtain ⟨symbol, timeframe, oid, rfl, -⟩ := h.number key hkey
    obtain ⟨pos₀, hlookup, hsymbol⟩ := Event.symbol_of_apply happly rfl hpos
    exact hsymbol.trans (h.symbol _ hkey pos₀ hlookup)

/-- **A handler's step** opens at most the key it has the number of. -/
theorem Opened.work (h : Opened t.1 t.2) (howned : t.1.Owned) {i : ℕ} {job job' : Job}
    {shared' : Shared} (hjob : t.1.jobs[i]? = some job)
    (hstep : job.step cfg t.1.shared = some (job', shared')) :
    Opened ⟨shared', t.1.jobs.set i job'⟩ (job.opening.toList ++ t.2) := by
  obtain ⟨hnext, hnumbers⟩ := (Job.transfer_of_step hstep).numbers
  have holdNumber : ∀ key ∈ t.2, ∃ symbol timeframe oid, key = .entry symbol timeframe oid ∧
      oid < shared'.nextOid ∧
        ∀ (k : ℕ) (other : Job), (t.1.jobs.set i job')[k]? = some other → oid ∉ other.number := by
    intro key hkey
    obtain ⟨symbol, timeframe, oid, rfl, hlt, hfree⟩ := h.number key hkey
    refine ⟨symbol, timeframe, oid, rfl, hlt.trans_le hnext,
      Threads.forall_set (fun hoid => ?_) fun k other _ hother => hfree k other hother⟩
    rcases hnumbers oid hoid with hold | hdrawn
    · exact hfree i job hjob hold
    · exact hlt.ne hdrawn
  have holdSymbol : ∀ key ∈ t.2, ∀ pos ∈ shared'.positions.lookup key,
      pos.symbol = key.symbol := by
    intro key hkey pos hpos
    rcases Job.symbol_of_step hstep hpos with ⟨pos₀, hlookup, hsymbol⟩ | ⟨-, -, -, hsymbol⟩
    · exact hsymbol.trans (h.symbol key hkey pos₀ hlookup)
    · exact hsymbol
  cases hopening : job.opening with
  | none => exact ⟨h.nodup, holdNumber, holdSymbol⟩
  | some key =>
      obtain ⟨j, rfl, hpc, rfl⟩ := Job.of_opening hopening
      obtain ⟨j', rfl, hentry⟩ := Job.of_step_map hstep
      obtain ⟨rfl, rfl⟩ : j.goto .unlock = j' ∧ j.register true t.1.shared = shared' := by
        simpa only [EntryJob.step, hpc, Option.some.injEq, Prod.mk.injEq] using hentry
      have hnumber : j.oid ∈ (Job.entry j).number := by
        simp only [Job.number, hpc]
        rfl
      -- the number is the run's own, so the key is none of the old ones
      have hnew : j.key ∉ t.2 := by
        intro hmem
        obtain ⟨symbol, timeframe, oid, hkey, -, hfree⟩ := h.number j.key hmem
        obtain ⟨-, -, rfl⟩ := PositionKey.entry.inj hkey
        exact hfree i _ hjob hnumber
      refine ⟨List.nodup_cons.2 ⟨hnew, h.nodup⟩, fun key hkey => ?_, fun key hkey pos hpos => ?_⟩
      · rcases List.mem_cons.1 hkey with rfl | hold
        · refine ⟨_, _, j.oid, rfl, ?_, Threads.forall_set (Option.not_mem_none _) ?_⟩
          · exact (howned.jobs i _ hjob).number j.oid hnumber
          · intro k other hne hother hoid
            exact (howned.apart i k _ other hne.symm hjob hother).number j.oid hnumber hoid
        · exact holdNumber key hold
      · rcases List.mem_cons.1 hkey with rfl | hold
        · have hlookup : (j.register true t.1.shared).positions.lookup j.key =
              some (j.position t.1.shared.clock true) := AList.lookup_insert ..
          obtain rfl := Option.some.inj (hpos.symm.trans hlookup)
          rfl
        · exact holdSymbol key hold pos hpos

/-- **Every step keeps the count.** -/
theorem counted_next {u : Engine × List PositionKey} (h : Counted t)
    (hnext : (openings cfg).next t l = some u) : Counted u := by
  obtain ⟨s, opened⟩ := t
  obtain ⟨s', opened'⟩ := u
  obtain ⟨hstep, rfl⟩ := System.next_logged.1 hnext
  have howned := owned_next h.owned hstep
  cases move_of_next hstep with
  | start job hfresh =>
      refine ⟨howned, h.opened.start hfresh, h.positive, fun symbol => ?_⟩
      have hnone : job.opensOn symbol = false := by
        cases job <;> simp_all [Job.fresh, Job.opensOn, Job.opening]
      simpa [hnone, opens] using h.count symbol
  | event e happly =>
      have hpositions := (Event.counts_of_apply happly).2
      refine ⟨howned, h.opened.event happly, ?_, fun symbol => ?_⟩
      · intro symbol info hinfo
        exact h.positive symbol info (hpositions ▸ hinfo)
      · have hcount := h.count symbol
        simp only [RiskManager.positionCount, hpositions] at hcount ⊢
        exact hcount
  | @work i job job' shared' hjob hwork =>
      have hopens : opens s (.work i) = job.opening := by
        simp only [opens, hjob, Option.bind_some]
      simp only [hopens] at *
      refine ⟨howned, h.opened.work h.owned hjob hwork, Job.positive_of_step hwork h.positive,
        fun symbol => ?_⟩
      have hset := Threads.count_set (p := Job.opensOn symbol) job' shared' hjob
      have hmanager := Job.positionCount_of_step symbol hwork
      have hlog : (job.opening.toList ++ opened).countP (fun key => key.symbol = symbol) =
          opened.countP (fun key => key.symbol = symbol) +
            if job.opensOn symbol then 1 else 0 := by
        cases hopening : job.opening with
        | none => simp [Job.opensOn, hopening]
        | some key => simp [Job.opensOn, hopening, List.countP_cons]
      have hcount := h.count symbol
      rw [hmanager, hlog, hcount]
      dsimp only at hset ⊢
      split_ifs at hset ⊢ <;> push_cast <;> omega

/-- **A step takes none of the opened positions out of the book.** -/
def KeepsOpened (cfg : EngineConfig) (t : Engine × List PositionKey) (l : EngineLabel) : Prop :=
  ∀ u ∈ (engineSystem cfg).next t.1 l, ∀ key ∈ t.2,
    key ∈ t.1.shared.positions → key ∈ u.shared.positions

instance : Decidable (KeepsOpened cfg t l) :=
  inferInstanceAs (Decidable (∀ u ∈ (engineSystem cfg).next t.1 l, ∀ key ∈ t.2,
    key ∈ t.1.shared.positions → key ∈ u.shared.positions))

theorem counted_of_init {s : Engine} (hinit : (engineSystem cfg).init s)
    (hrisk : s.shared.risk.positions = ∅) : Counted (s, []) := by
  refine ⟨owned_of_init hinit, ⟨List.nodup_nil, nofun, nofun⟩, fun symbol info hinfo => ?_,
    fun symbol => ?_⟩
  · rw [hrisk] at hinfo
    cases hinfo
  · rw [RiskManager.positionCount, hrisk]
    simp [Threads.count, hinit.1]

/-- What is opened goes into the book. -/
theorem opened_mem_next {u : Engine × List PositionKey} {key : PositionKey}
    (hguard : KeepsOpened cfg t l) (hkept : ∀ key ∈ t.2, key ∈ t.1.shared.positions)
    (hnext : (openings cfg).next t l = some u) (hkey : key ∈ u.2) : key ∈ u.1.shared.positions := by
  obtain ⟨hstep, hopened⟩ := System.next_logged.1 hnext
  rw [hopened] at hkey
  rcases List.mem_append.1 hkey with hnew | hold
  · rw [Option.mem_toList] at hnew
    cases l with
    | work i =>
        obtain ⟨job, hjob, hopening⟩ := Option.bind_eq_some_iff.1 hnew
        obtain ⟨j, rfl, hpc, rfl⟩ := Job.of_opening hopening
        simp only [engineSystem, Threads.next, hjob, Job.step_entry, EntryJob.step, hpc,
          Option.map_some, Option.some.injEq] at hstep
        rw [← hstep]
        exact (AList.mem_insert _).2 (.inl rfl)
    | _ => cases hnew
  · exact hguard u.1 hstep key hold (hkept key hold)

end Engine

/-- **When the counts agree**, in every state of every run: for a symbol
none of whose opened positions has gone from the book. -/
theorem position_counts_agree_iff {cfg : EngineConfig} {s t : Engine} {opened : List PositionKey}
    (hinit : (engineSystem cfg).init s) (hrisk : s.shared.risk.positions = ∅)
    (hrun : (Engine.openings cfg).Run System.anyStep (s, []) (t, opened)) (symbol : String) :
    t.shared.risk.positionCount symbol =
        t.shared.positions.openedCount opened symbol + t.count (Job.opensOn symbol) ↔
      ∀ key ∈ opened, key.symbol = symbol → key ∈ t.shared.positions := by
  have hcounted := hrun.invariant (I := Engine.Counted)
    (fun _ _ _ h _ hnext => Engine.counted_next h hnext) (Engine.counted_of_init hinit hrisk)
  have hcount := hcounted.count symbol
  dsimp only at hcount
  rw [← Book.openedCount_eq_iff hcounted.opened.nodup hcounted.opened.symbol, hcount]
  dsimp only
  omega

/-- **The manager's book agrees with the engine's** in every state of a run
that takes none of the positions it opened out of the book; a position
that is about to be registered is counted already. A symbol without
positions is then one the manager has nothing against. -/
theorem position_counts_agree {cfg : EngineConfig} {s t : Engine} {opened : List PositionKey}
    (hinit : (engineSystem cfg).init s) (hrisk : s.shared.risk.positions = ∅)
    (hrun : (Engine.openings cfg).Run (Engine.KeepsOpened cfg) (s, []) (t, opened))
    (symbol : String) :
    t.shared.risk.positionCount symbol =
        t.shared.positions.openedCount opened symbol + t.count (Job.opensOn symbol) ∧
      (t.shared.positions.openedCount opened symbol = 0 → t.count (Job.opensOn symbol) = 0 →
        t.shared.risk.positions.lookup symbol = none) := by
  obtain ⟨hcounted, hhere⟩ := hrun.invariant
    (I := fun t => Engine.Counted t ∧ ∀ key ∈ t.2, key ∈ t.1.shared.positions)
    (fun _ _ _ h hguard hnext => ⟨Engine.counted_next h.1 hnext,
      fun _ hkey => Engine.opened_mem_next hguard h.2 hnext hkey⟩)
    ⟨Engine.counted_of_init hinit hrisk, nofun⟩
  have hagree : t.shared.risk.positionCount symbol =
      t.shared.positions.openedCount opened symbol + t.count (Job.opensOn symbol) := by
    have hbook : t.shared.positions.openedCount opened symbol =
        opened.countP (fun key => key.symbol = symbol) :=
      (Book.openedCount_eq_iff hcounted.opened.nodup hcounted.opened.symbol).2
        fun key hkey _ => hhere key hkey
    rw [hbook]
    exact hcounted.count symbol
  refine ⟨hagree, fun hnone hpending => hcounted.positive.lookup_eq_none ?_⟩
  rw [hagree, hnone, hpending]
  rfl

/-! ### A position that is counted for ever -/

namespace CountRun

open LiveRun

/-- A position is opened with a real order, and closed by a stop-loss. -/
def labels : List EngineLabel :=
  .start (buy "BTCUSDT") :: works 0 21 ++
    .start (.sl { sig := closeSignal "BTCUSDT" "", rd := {} }) :: works 1 6

end CountRun

/-- **The book is empty, and the manager counts a position**: it refuses the
symbol's next order. -/
theorem position_counted_after_close :
    ∃ t opened, (engineSystem {}).init LiveRun.start ∧
      LiveRun.start.shared.risk.positions = ∅ ∧
      (Engine.openings {}).Run System.anyStep (LiveRun.start, []) (t, opened) ∧
      (∀ job ∈ t.jobs, job.finished = true) ∧
      t.shared.positions.openedCount opened "BTCUSDT" = 0 ∧
      t.shared.risk.positionCount "BTCUSDT" = 1 ∧
      RiskManager.validSymbol {} "BTCUSDT" true t.shared.risk = false := by
  obtain ⟨⟨t, opened⟩, hrun, hfinished, hbook, hcount, hrefused⟩ := System.exists_run_of_play
    (M := Engine.openings {}) (G := System.anyStep) (s := (LiveRun.start, [])) CountRun.labels
    (P := fun t => (∀ job ∈ t.1.jobs, job.finished = true) ∧
      t.1.shared.positions.openedCount t.2 "BTCUSDT" = 0 ∧
        t.1.shared.risk.positionCount "BTCUSDT" = 1 ∧
          RiskManager.validSymbol {} "BTCUSDT" true t.1.shared.risk = false) (by decide +kernel)
  exact ⟨t, opened, LiveRun.start_init rfl, rfl, hrun, hfinished, hbook, hcount, hrefused⟩

theorem position_counts_agree_btc :
    ∃ t opened, (Engine.openings {}).Run (Engine.KeepsOpened {}) (LiveRun.start, []) (t, opened) ∧
      t.shared.positions.openedCount opened "BTCUSDT" = 1 ∧
      t.shared.risk.positionCount "BTCUSDT" =
        t.shared.positions.openedCount opened "BTCUSDT" + t.count (Job.opensOn "BTCUSDT") := by
  obtain ⟨⟨t, opened⟩, hrun, hbook⟩ := System.exists_run_of_play
    (M := Engine.openings {}) (G := Engine.KeepsOpened {}) (s := (LiveRun.start, []))
    (.start (LiveRun.buy "BTCUSDT") :: LiveRun.works 0 21)
    (P := fun t => t.1.shared.positions.openedCount t.2 "BTCUSDT" = 1) (by decide +kernel)
  exact ⟨t, opened, hrun, hbook,
    (position_counts_agree (LiveRun.start_init rfl) rfl hrun "BTCUSDT").1⟩

end WebhookTrader
