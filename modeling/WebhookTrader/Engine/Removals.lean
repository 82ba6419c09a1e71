import Mathlib.Algebra.Order.BigOperators.Group.List
import WebhookTrader.Engine.Gate
import WebhookTrader.Engine.Registration

/-!
# Removals and their records

A real position leaves the book when one of its closes is recorded, or
when a sync finds that the exchange no longer holds its side. Only the
WebSocket's callback records what the exchange closes by itself, and
`start` starts the WebSocket in live mode only: nothing starts it when
the periodic thread goes live later. So a removal is recorded as long as
no sync comes between the exchange's close and whoever records it.
-/

namespace WebhookTrader

/-! ## A sync, under an entry's key -/

namespace Book

variable {now : Clock} {ex : ExchangeMap} {book : Book} {key : PositionKey} {p : ManagedPosition}

/-- **An entry's key in the sweep**: its position stays as it is, and is
noted for removal once the sweep comes by, where it is a ghost. -/
theorem sweepKey_entry (now : Clock) (ex : ExchangeMap) (hkey : key.isExt = false) (s : Sweep)
    (k : PositionKey) :
    (sweepKey now ex s k).book.lookup key = s.book.lookup key ∧
      (key ∈ (sweepKey now ex s k).toRemove ↔
        key ∈ s.toRemove ∨ k = key ∧ (s.book.lookup key).any (isGhost now ex) = true) := by
  unfold sweepKey
  split
  · rename_i hnone
    refine ⟨rfl, (or_iff_left ?_).symm⟩
    rintro ⟨rfl, hghost⟩
    rw [hnone] at hghost
    cases hghost
  rename_i p hlookup
  split
  · -- what is updated in place is external
    rename_i ep hflip
    have hne : key ≠ k := by
      rintro rfl
      simp [flipsTo, hkey] at hflip
    have hnew : key ≠ .ext ep.symbol ep.holdSide := by
      rintro rfl
      cases hkey
    refine ⟨?_, ?_⟩
    · dsimp only
      split_ifs
      · exact Table.lookup_modify_ne hne
      · exact (AList.lookup_insert_ne hnew).trans (Table.lookup_modify_ne hne)
    · dsimp only
      have hnot : ¬ (k = key ∧ (s.book.lookup key).any (isGhost now ex) = true) :=
        fun h => hne h.1.symm
      rw [or_iff_left hnot]
      split_ifs
      · rfl
      · rw [List.mem_cons, or_iff_right hne]
  · split_ifs with hghost
    · refine ⟨rfl, ?_⟩
      rw [List.mem_cons, or_comm]
      refine or_congr_right ⟨?_, fun h => h.1.symm⟩
      rintro rfl
      exact ⟨rfl, by rw [hlookup]; exact hghost⟩
    · refine ⟨rfl, (or_iff_left ?_).symm⟩
      rintro ⟨rfl, hany⟩
      rw [hlookup] at hany
      exact hghost hany

/-- The whole sweep, seen from an entry's key. -/
theorem sweep_entry (now : Clock) (ex : ExchangeMap) (hkey : key.isExt = false)
    (ks : List PositionKey) (s : Sweep) :
    (ks.foldl (sweepKey now ex) s).book.lookup key = s.book.lookup key ∧
      (key ∈ (ks.foldl (sweepKey now ex) s).toRemove ↔
        key ∈ s.toRemove ∨ key ∈ ks ∧ (s.book.lookup key).any (isGhost now ex) = true) := by
  induction ks generalizing s with
  | nil => simp
  | cons k ks ih =>
      obtain ⟨hlookup, hremove⟩ := sweepKey_entry now ex hkey s k
      obtain ⟨hlookup', hremove'⟩ := ih (sweepKey now ex s k)
      refine ⟨hlookup'.trans hlookup, ?_⟩
      rw [List.foldl_cons, hremove', hremove, hlookup, List.mem_cons]
      tauto

/-- The imports leave an entry's key alone. -/
theorem lookup_importRows_entry (hkey : key.isExt = false)
    {rows : List (Sigma fun _ : String × String => ExchangePosition)} :
    (importRows now rows book).lookup key = book.lookup key := by
  induction rows generalizing book with
  | nil => rfl
  | cons r rows ih =>
      have hne : key ≠ .ext r.2.symbol r.2.holdSide := by
        rintro rfl
        cases hkey
      exact ih.trans (AList.lookup_insert_ne hne)

/-- **Under an entry's key** a sync leaves what is no ghost. -/
theorem lookup_reconcile_entry (hkey : key.isExt = false) :
    (book.reconcile now ex).lookup key =
      ((markReal ex book).lookup key).filter fun p => !isGhost now ex p := by
  obtain ⟨hlookup, hremove⟩ := sweep_entry now ex hkey (markReal ex book).keys
    { book := markReal ex book }
  rw [reconcile_eq, lookup_importRows_entry hkey, removed, Table.lookup_foldl_erase]
  have hremove' : key ∈ (sweep now ex (markReal ex book)).toRemove ↔
      key ∈ (markReal ex book).keys ∧
        ((markReal ex book).lookup key).any (isGhost now ex) = true :=
    hremove.trans (or_iff_right List.not_mem_nil)
  have hlookup' : (sweep now ex (markReal ex book)).book.lookup key =
      (markReal ex book).lookup key := hlookup
  rw [hlookup']
  cases hfound : (markReal ex book).lookup key with
  | none => simp
  | some p =>
      have hmem : key ∈ (markReal ex book).keys :=
        AList.mem_keys.1 (AList.lookup_isSome.1 (by rw [hfound]; rfl))
      rw [hfound] at hremove'
      cases hghost : isGhost now ex p with
      | true =>
          rw [if_pos (hremove'.2 ⟨hmem, hghost⟩), Option.filter_some, hghost]
          rfl
      | false =>
          rw [if_neg fun h => Bool.false_ne_true (hghost.symm.trans (hremove'.1 h).2),
            Option.filter_some, hghost]
          rfl

/-- **A real entry** stays as it is, or goes. -/
theorem lookup_reconcile_of_real (hkey : key.isExt = false) (hpos : book.lookup key = some p)
    (hreal : p.isReal = true) :
    (book.reconcile now ex).lookup key = if ex.holds p.tag then some p else none := by
  have hmarked : (markReal ex book).lookup key = some p := by
    rw [markReal, Table.lookup_mapValues, hpos, Option.map_some]
    split_ifs
    · rw [← hreal]
    · rfl
  rw [lookup_reconcile_entry hkey, hmarked, Option.filter_some]
  have hghost : isGhost now ex p = !ex.holds p.tag := by simp [isGhost, hreal]
  rw [hghost, Bool.not_not]

end Book

/-! ## The runs -/

namespace Engine

variable {cfg : EngineConfig} {key : PositionKey} {symbol : String} {quantity : ℚ}

/-- **Where the messages of the WebSocket come from**: `start` starts it in
live mode, and nothing else does. -/
def Wired (cfg : EngineConfig) : Engine → EngineLabel → Prop
  | _, .event (.wsPosition _) => cfg.trading.shadowMode = false
  | _, .event (.wsAccount _) => cfg.trading.shadowMode = false
  | _, _ => True

instance (cfg : EngineConfig) (s : Engine) (l : EngineLabel) : Decidable (Wired cfg s l) :=
  match l with
  | .event (.wsPosition _) | .event (.wsAccount _) =>
      inferInstanceAs (Decidable (cfg.trading.shadowMode = false))
  | .start _ | .work _ | .event (.fetchBalance _) | .event (.sync _) | .event (.check _)
  | .event .switch | .event .resetDaily | .event (.tick ..) | .event (.holding ..) =>
      .isTrue trivial

/-- A sync, if this is one, finds the exchange still holding the side of
what is under the key. -/
def SyncHolds (key : PositionKey) : Engine × List CloseRecord → EngineLabel → Prop
  | t, .event (.sync quote) => ∀ pos ∈ t.1.shared.positions.lookup key,
      (ExchangeMap.ofRows (t.1.shared.venue.snapshot quote)).holds pos.tag = true
  | _, _ => True

instance (t : Engine × List CloseRecord) (l : EngineLabel) : Decidable (SyncHolds key t l) :=
  match l with
  | .event (.sync quote) => inferInstanceAs (Decidable
      (∀ pos ∈ t.1.shared.positions.lookup key,
        (ExchangeMap.ofRows (t.1.shared.venue.snapshot quote)).holds pos.tag = true))
  | .start _ | .work _ | .event (.wsPosition _) | .event (.wsAccount _)
  | .event (.fetchBalance _) | .event (.check _) | .event .switch | .event .resetDaily
  | .event (.tick ..) | .event (.holding ..) => .isTrue trivial

/-- **The invariant**: the account of the key is kept, and what is under it
is real. -/
structure RealTracking (key : PositionKey) (symbol : String) (quantity : ℚ)
    (t : Engine × List CloseRecord) : Prop where
  tracking : Tracking key symbol quantity t
  entry : key.isExt = false
  real : ∀ pos ∈ t.1.shared.positions.lookup key, pos.isReal = true

/-- A sync that finds the side held leaves the position as it is. -/
theorem RealTracking.syncKeeps {t : Engine × List CloseRecord} {l : EngineLabel}
    (h : RealTracking key symbol quantity t) (hguard : SyncHolds key t l) : SyncKeeps key t l := by
  by_cases hsync : ∃ quote, l = .event (.sync quote)
  · obtain ⟨quote, rfl⟩ := hsync
    show (t.1.shared.positions.reconcile t.1.shared.clock _).lookup key = _
    cases hpos : t.1.shared.positions.lookup key with
    | none =>
        exact Book.lookup_reconcile_of_fresh (ExchangeMap.keyed_ofRows _) h.entry hpos
    | some pos =>
        have hheld : (ExchangeMap.ofRows (t.1.shared.venue.snapshot quote)).holds pos.tag = true :=
          hguard pos hpos
        rw [Book.lookup_reconcile_of_real h.entry hpos (h.real pos hpos), if_pos hheld]
  · unfold SyncKeeps
    split
    · rename_i quote
      exact (hsync ⟨quote, rfl⟩).elim
    · trivial

theorem realTracking_next {t u : Engine × List CloseRecord} {l : EngineLabel}
    (h : RealTracking key symbol quantity t) (hguard : SyncHolds key t l)
    (hnext : (ledger cfg).next t l = some u) : RealTracking key symbol quantity u := by
  have hkeeps := h.syncKeeps hguard
  refine ⟨tracking_next h.tracking hkeeps hnext, h.entry, fun pos hpos => ?_⟩
  obtain ⟨pos₀, hpos₀, heq⟩ := kept_of_next h.tracking hkeeps (System.next_logged.1 hnext).1 hpos
  rw [heq]
  exact h.real pos₀ hpos₀

/-- **A step that takes the position** records all that is left of it. -/
theorem RealTracking.recorded {t u : Engine × List CloseRecord} {l : EngineLabel}
    {pos : ManagedPosition} (h : RealTracking key symbol quantity t) (hguard : SyncHolds key t l)
    (hnext : (ledger cfg).next t l = some u) (hpos : t.1.shared.positions.lookup key = some pos)
    (hgone : u.1.shared.positions.lookup key = none) :
    ∃ trade, closes cfg t.1 l = some (key, trade) ∧ trade.quantity = pos.quantity := by
  have htotal := (realTracking_next h hguard hnext).tracking.total
  rw [(System.next_logged.1 hnext).2, closedQuantity_append, Book.held_of_none hgone, add_zero,
    ← h.tracking.total, Book.held_of_lookup hpos, add_comm, add_left_cancel_iff] at htotal
  have hrest := h.tracking.shared.positive pos hpos
  cases hrecord : closes cfg t.1 l with
  | none =>
      rw [hrecord] at htotal
      exact absurd htotal hrest.ne
  | some c =>
      rw [hrecord] at htotal
      have hamount : CloseRecord.amount key c = pos.quantity := by
        simpa [closedQuantity] using htotal
      unfold CloseRecord.amount at hamount
      split_ifs at hamount with hkey
      · exact ⟨c.2, by rw [← hkey], hamount⟩
      · exact absurd hamount hrest.ne

/-- Once the position is gone, its account is closed. -/
theorem RealTracking.closed {t : Engine × List CloseRecord}
    (h : RealTracking key symbol quantity t) (hgone : t.1.shared.positions.lookup key = none) :
    RealTracking key symbol 0 (t.1, []) := by
  refine ⟨⟨h.tracking.owned, h.tracking.shared, h.tracking.jobs, ?_,
    fun c hc => absurd hc List.not_mem_nil⟩, h.entry, h.real⟩
  rw [Book.held_of_none hgone, add_zero]
  rfl

/-- Nothing is recorded of a closed account. -/
theorem RealTracking.silent {t : Engine × List CloseRecord} (h : RealTracking key symbol 0 t) :
    ∀ c ∈ t.2, c.1 ≠ key := by
  intro c hc hkey
  have hamounts : ∀ x ∈ t.2.map (CloseRecord.amount key), 0 ≤ x := by
    intro x hx
    obtain ⟨c', hc', rfl⟩ := List.mem_map.1 hx
    unfold CloseRecord.amount
    split_ifs with hkey'
    · exact (h.tracking.positive c' hc' hkey').le
    · exact le_rfl
  have hheld : 0 ≤ t.1.shared.positions.held key := by
    cases hpos : t.1.shared.positions.lookup key with
    | none => exact (Book.held_of_none hpos).ge
    | some pos =>
        rw [Book.held_of_lookup hpos]
        exact (h.tracking.shared.positive pos hpos).le
  have hsum : c.2.quantity ≤ closedQuantity key t.2 := by
    have hle := List.single_le_sum hamounts (CloseRecord.amount key c) (List.mem_map_of_mem hc)
    rwa [CloseRecord.amount, if_pos hkey] at hle
  have htotal := h.tracking.total
  have hpositive := h.tracking.positive c hc hkey
  linarith

/-- A handler that registers a real position starts the account. -/
theorem realTracking_of_registers {s s' : Engine} {i : ℕ}
    (hs : (engineSystem cfg).Reachable System.anyStep s)
    (hreg : Registers cfg s (.work i) s' key quantity)
    (hreal : ∀ pos ∈ s'.shared.positions.lookup key, pos.isReal = true) :
    ∃ symbol, RealTracking key symbol quantity (s', []) := by
  obtain ⟨symbol, htracking⟩ := tracking_of_registers (owned_of_reachable hs) hreg
    (hreg.quantity_pos hs)
  refine ⟨symbol, htracking, ?_, hreal⟩
  obtain ⟨pos, hpos, -⟩ := Option.map_eq_some_iff.1 hreg.stored
  cases move_of_next hreg.step with
  | work _ hjob hwork =>
      obtain ⟨j, isReal, -, -, -, rfl, -⟩ :=
        registers_of_step hwork hreg.fresh (Option.ne_none_iff_exists'.2 ⟨pos, hpos⟩)
      rfl

end Engine

/-- **Every removal is recorded**, where no sync finds the position's side
gone. A handler registers a real position; from then on, in any run of
the engine, live from its start or switched to live later, whose syncs
find the exchange still holding the side, the step that takes the
position from the book records its remaining quantity, as one trade, and
nothing is recorded of it afterwards. -/
theorem removal_recorded {cfg : EngineConfig} {s s' t u : Engine} {i : ℕ} {l : EngineLabel}
    {key : PositionKey} {quantity : ℚ} {log : List CloseRecord} {pos : ManagedPosition}
    (hs : (engineSystem cfg).Reachable System.anyStep s)
    (hreg : Engine.Registers cfg s (.work i) s' key quantity)
    (hreal : ∀ pos ∈ s'.shared.positions.lookup key, pos.isReal = true)
    (hrun : (Engine.ledger cfg).Run (Engine.SyncHolds key) (s', []) (t, log))
    (hguard : Engine.SyncHolds key (t, log) l) (hnext : (engineSystem cfg).next t l = some u)
    (hpos : t.shared.positions.lookup key = some pos)
    (hgone : u.shared.positions.lookup key = none) :
    ∃ trade, Engine.closes cfg t l = some (key, trade) ∧ trade.quantity = pos.quantity ∧
      u.shared.trades = Shared.capTrades (t.shared.trades ++ [trade]) ∧
      ∀ v later, (Engine.ledger cfg).Run (Engine.SyncHolds key) (u, []) (v, later) →
        ∀ c ∈ later, c.1 ≠ key := by
  obtain ⟨symbol, hstart⟩ := Engine.realTracking_of_registers hs hreg hreal
  have htracking := hrun.invariant (I := Engine.RealTracking key symbol quantity)
    (fun _ _ _ h hguard hnext => Engine.realTracking_next h hguard hnext) hstart
  have hledger : (Engine.ledger cfg).next (t, log) l =
      some (u, (Engine.closes cfg t l).toList ++ log) := System.next_logged.2 ⟨hnext, rfl⟩
  obtain ⟨trade, hcloses, hquantity⟩ := htracking.recorded hguard hledger hpos hgone
  refine ⟨trade, hcloses, hquantity, ?_, fun v later hlater => ?_⟩
  · rw [Engine.trades_of_next hnext, hcloses]
    rfl
  · have hclosed := (Engine.realTracking_next htracking hguard hledger).closed hgone
    have hend := hlater.invariant (I := Engine.RealTracking key symbol 0)
      (fun _ _ _ h hguard hnext => Engine.realTracking_next h hguard hnext) hclosed
    exact hend.silent

/-- **A sync that finds the side gone** takes the position, and records
nothing. -/
theorem Engine.removal_unrecorded_of_sync {cfg : EngineConfig} {t u : Engine}
    {key : PositionKey} {pos : ManagedPosition} {quote : String × HoldSide → ℚ × ℤ}
    (hkey : key.isExt = false) (hpos : t.shared.positions.lookup key = some pos)
    (hreal : pos.isReal = true)
    (hgone : (ExchangeMap.ofRows (t.shared.venue.snapshot quote)).holds pos.tag = false)
    (hnext : (engineSystem cfg).next t (.event (.sync quote)) = some u) :
    u.shared.positions.lookup key = none ∧ u.shared.trades = t.shared.trades := by
  cases move_of_next hnext with
  | event e happly =>
      obtain rfl := Option.some.inj happly
      refine ⟨?_, rfl⟩
      show (t.shared.positions.reconcile t.shared.clock _).lookup key = none
      rw [Book.lookup_reconcile_of_real hkey hpos hreal, hgone]
      rfl

/-! ### A position that the exchange closes after the switch -/

namespace GhostRun

open LiveRun

/-- An engine that is to start in shadow mode. -/
def config : EngineConfig := SwitchRun.config true

/-- The switch goes live, and an entry is about to register its position. -/
def before : Engine := (engineSystem config).endOf SwitchRun.checked
  (List.replicate 7 (.event .switch) ++ .start SwitchRun.good :: works 0 20)

/-- The position is registered. -/
def after : Engine := (engineSystem config).endOf before [.work 0]

def key : PositionKey := .entry "ETHUSDT" "15" 0

/-- The prices and leverages of the snapshots. -/
def quote : String × HoldSide → ℚ × ℤ := fun _ => (50, 10)

/-- A sync finds the position held, and then the exchange closes it. -/
def labels : List EngineLabel :=
  [.work 0, .event (.sync quote), .event (.holding "ETHUSDT" .long 0)]

/-- A stop-loss signal arrives and is answered that nothing is there to
close. -/
def stopLoss : List EngineLabel :=
  .start (.sl { sig := closeSignal "ETHUSDT" "", rd := {} }) :: works 1 4

theorem before_reachable : (engineSystem config).Reachable (Engine.Wired config) before := by
  have hcheck : (engineSystem config).Run (Engine.Wired config) (SwitchRun.start true)
      SwitchRun.checked :=
    System.Run.refl.tail (l := .event (.check SwitchRun.reports)) trivial SwitchRun.next_checked
  exact ⟨_, SwitchRun.start_init true, hcheck.trans (System.run_endOf _ (by decide +kernel))⟩

theorem registers : Engine.Registers config before (.work 0) after key 2 where
  step := System.next_endOf (by decide +kernel)
  fresh := by decide +kernel
  unused := by decide +kernel
  stored := by decide +kernel

theorem real : ∀ pos ∈ after.shared.positions.lookup key, pos.isReal = true := by
  decide +kernel

end GhostRun

/-- **A removal without a record.** The engine starts in shadow mode, so
without the WebSocket, and goes live; a real position is registered, the
exchange closes it, and a sync takes it from the book. -/
theorem removal_unrecorded_eth :
    ∃ t u : Engine × List CloseRecord,
      GhostRun.config.trading.shadowMode = true ∧
      (engineSystem GhostRun.config).Reachable (Engine.Wired GhostRun.config) GhostRun.before ∧
      Engine.Registers GhostRun.config GhostRun.before (.work 0) GhostRun.after GhostRun.key 2 ∧
      (∀ pos ∈ GhostRun.after.shared.positions.lookup GhostRun.key, pos.isReal = true) ∧
      (Engine.ledger GhostRun.config).Run (fun t => Engine.Wired GhostRun.config t.1)
        (GhostRun.after, []) t ∧
      (Engine.ledger GhostRun.config).next t (.event (.sync GhostRun.quote)) = some u ∧
      t.1.shared.modes.shadowMode = false ∧ t.1.shared.venue.quantity "ETHUSDT" .long = 0 ∧
      (t.1.shared.positions.lookup GhostRun.key).isSome = true ∧
      u.1.shared.positions.lookup GhostRun.key = none ∧ u.2 = [] ∧ u.1.shared.trades = [] := by
  obtain ⟨t, hrun, hlive, hclosed, hthere, hnext⟩ := System.exists_run_of_play
    (M := Engine.ledger GhostRun.config) (G := fun t => Engine.Wired GhostRun.config t.1)
    (s := (GhostRun.after, [])) GhostRun.labels
    (P := fun t => t.1.shared.modes.shadowMode = false ∧
      t.1.shared.venue.quantity "ETHUSDT" .long = 0 ∧
      (t.1.shared.positions.lookup GhostRun.key).isSome = true ∧
      ((Engine.ledger GhostRun.config).next t (.event (.sync GhostRun.quote))).any (fun u =>
        u.1.shared.positions.lookup GhostRun.key = none ∧ u.2 = [] ∧ u.1.shared.trades = []) =
          true) (by decide +kernel)
  obtain ⟨u, hu, hgone⟩ := (Option.any_eq_true _ _).1 hnext
  obtain ⟨hlookup, hlog, htrades⟩ := of_decide_eq_true hgone
  exact ⟨t, u, rfl, GhostRun.before_reachable, GhostRun.registers, GhostRun.real, hrun, hu, hlive,
    hclosed, hthere, hlookup, hlog, htrades⟩

/-- A stop-loss that comes before the next sync records the removal. -/
theorem removal_recorded_eth :
    ∃ (t u : Engine) (log : List CloseRecord) (pos : ManagedPosition) (trade : TradeRecord),
      (Engine.ledger GhostRun.config).Run (Engine.SyncHolds GhostRun.key) (GhostRun.after, [])
        (t, log) ∧
      t.shared.venue.quantity "ETHUSDT" .long = 0 ∧
      t.shared.positions.lookup GhostRun.key = some pos ∧
      u.shared.positions.lookup GhostRun.key = none ∧
      Engine.closes GhostRun.config t (.work 1) = some (GhostRun.key, trade) ∧
      trade.quantity = pos.quantity := by
  obtain ⟨⟨t, log⟩, hrun, hclosed, hthere, hnext⟩ := System.exists_run_of_play
    (M := Engine.ledger GhostRun.config) (G := Engine.SyncHolds GhostRun.key)
    (s := (GhostRun.after, [])) (GhostRun.labels ++ GhostRun.stopLoss)
    (P := fun t => t.1.shared.venue.quantity "ETHUSDT" .long = 0 ∧
      (t.1.shared.positions.lookup GhostRun.key).isSome = true ∧
      ((engineSystem GhostRun.config).next t.1 (.work 1)).any (fun u =>
        u.shared.positions.lookup GhostRun.key = none) = true) (by decide +kernel)
  obtain ⟨u, hu, hgone⟩ := (Option.any_eq_true _ _).1 hnext
  obtain ⟨pos, hpos⟩ := Option.isSome_iff_exists.1 hthere
  have hreach : (engineSystem GhostRun.config).Reachable System.anyStep GhostRun.before :=
    GhostRun.before_reachable.mono fun _ _ _ => trivial
  have hguard : Engine.SyncHolds GhostRun.key (t, log) (.work 1) := trivial
  obtain ⟨trade, hcloses, hquantity, -⟩ := removal_recorded hreach GhostRun.registers
    GhostRun.real hrun hguard hu hpos (of_decide_eq_true hgone)
  exact ⟨t, u, log, pos, trade, hrun, hclosed, hpos, of_decide_eq_true hgone, hcloses, hquantity⟩

end WebhookTrader
