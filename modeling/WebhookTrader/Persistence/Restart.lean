import WebhookTrader.Persistence.Model.Restart
import WebhookTrader.Persistence.StateFile
import WebhookTrader.Persistence.LearnerFile
import WebhookTrader.Risk.Learner

/-!
# Restarts and what is learnt

Both files are complete, and the engine's trades are recorded once more
with a learner that already knows them: a restart adds the totals of the
trades it replays to the totals that were loaded.
-/

namespace WebhookTrader

variable {cfg : LearnerConfig} {s : Installation} {key : String}

/-! ## What loading keeps -/

theorem SymbolLearnData.totals_reloaded (d : SymbolLearnData) : d.reloaded.totals = d.totals := rfl

/-- The totals survive the learner's file. -/
theorem Learner.totals_load (learner : Learner) (savedAt : String) :
    (Learner.load (.document (learner.toJson savedAt))).totals key = learner.totals key := by
  rw [Learner.totals, Learner.totals, Learner.lookup_load]
  cases learner.lookup key with
  | none => rfl
  | some d => exact SymbolLearnData.totals_reloaded d

/-- A restored trade adds what the trade did. -/
theorem TradeRecord.totalsOf_restored (trades : List TradeRecord) :
    totalsOf key (trades.map TradeRecord.restored) = totalsOf key trades := by
  have htotals : TradeRecord.totals ∘ TradeRecord.restored = TradeRecord.totals := rfl
  rw [totalsOf, List.filter_map, List.map_map, htotals]
  rfl

namespace RecordOp

/-- The trades an operation tells the learner of for the first time. -/
def recorded : RecordOp → List TradeRecord
  | closed _ t => [t]
  | imported _ t => [t]
  | shadow _ t => [t]
  | restart .. => []

/-- **The trades a restart replays.** -/
def replays (s : Installation) : RecordOp → List TradeRecord
  | restart .. => SavedState.lastTrades s.engine.trades
  | _ => []

/-- A close is recorded as the engine records it. -/
theorem engine_closed (now : ℕ) (t : TradeRecord) (shared : Shared) (ordersExecuted : ℕ)
    (hs : s.engine = shared.saved ordersExecuted) :
    ((closed now t).step cfg s).engine = (shared.recordTrade t).saved ordersExecuted := by
  rw [step, hs]
  rfl

/-- What a restart does to the learner. -/
theorem learner_restart (now : ℕ) (savedAt : String) :
    ((restart now savedAt).step cfg s).learner =
      (Learner.load (.document (s.learner.toJson savedAt))).recordAll cfg now
        ((SavedState.lastTrades s.engine.trades).map TradeRecord.restored) := by
  obtain ⟨loaded, hload, hrestored⟩ := SavedState.load_save s.stateDisk savedAt s.engine
  rw [step, Installation.shutdown, Installation.start]
  simp only [hload, hrestored.trades]

/-- **What an operation adds to a key.** -/
theorem totals_step (hcfg : cfg.enabled = true) (op : RecordOp) :
    (op.step cfg s).learner.totals key =
      s.learner.totals key + TradeRecord.totalsOf key (op.recorded ++ op.replays s) := by
  cases op with
  | closed now t => exact Learner.totals_recordTrade hcfg t
  | imported now t => exact Learner.totals_recordTrade hcfg t
  | shadow now t => exact Learner.totals_recordTrade hcfg t
  | restart now savedAt =>
      rw [learner_restart, Learner.totals_recordAll hcfg, Learner.totals_load,
        TradeRecord.totalsOf_restored, recorded, replays, List.nil_append]

/-- Switched off, an operation adds nothing. -/
theorem totals_step_of_disabled (hcfg : cfg.enabled = false) (op : RecordOp) :
    (op.step cfg s).learner.totals key = s.learner.totals key := by
  have hrecord (now : ℕ) (t : TradeRecord) :
      (s.learner.recordTrade cfg now t).totals key = s.learner.totals key :=
    congrArg (Learner.totals · key) (Learner.recordAll_of_disabled hcfg [t])
  cases op with
  | closed now t => exact hrecord now t
  | imported now t => exact hrecord now t
  | shadow now t => exact hrecord now t
  | restart now savedAt =>
      rw [learner_restart, Learner.recordAll_of_disabled hcfg, Learner.totals_load]

end RecordOp

namespace Installation

open RecordOp

/-- The trades a run replays. -/
def replayed (cfg : LearnerConfig) : List RecordOp → Installation → List TradeRecord
  | [], _ => []
  | op :: ops, s => op.replays s ++ replayed cfg ops (op.step cfg s)

/-- A replayed trade is one a restart of the run finds. -/
theorem mem_replayed {ops : List RecordOp} {t : TradeRecord} : t ∈ replayed cfg ops s ↔
    ∃ before now savedAt after, ops = before ++ .restart now savedAt :: after ∧
      t ∈ SavedState.lastTrades (s.play cfg before).engine.trades := by
  induction ops generalizing s with
  | nil => simp [replayed]
  | cons op ops ih =>
      rw [replayed, List.mem_append, ih]
      constructor
      · rintro (hfirst | ⟨before, now, savedAt, after, rfl, ht⟩)
        · cases op with
          | restart now savedAt => exact ⟨[], now, savedAt, ops, rfl, hfirst⟩
          | _ => exact absurd hfirst List.not_mem_nil
        · exact ⟨op :: before, now, savedAt, after, rfl, ht⟩
      · rintro ⟨before, now, savedAt, after, heq, ht⟩
        cases before with
        | nil =>
            -- The restart is the first operation.
            obtain ⟨rfl, rfl⟩ := List.cons.inj heq
            exact .inl ht
        | cons op' before =>
            obtain ⟨rfl, rfl⟩ := List.cons.inj heq
            exact .inr ⟨before, now, savedAt, after, rfl, ht⟩

/-- **What a run adds to a key**: what it recorded, and what it replayed. -/
theorem totals_play (hcfg : cfg.enabled = true) (ops : List RecordOp) :
    (s.play cfg ops).learner.totals key = s.learner.totals key +
      (TradeRecord.totalsOf key (ops.flatMap recorded) +
        TradeRecord.totalsOf key (replayed cfg ops s)) := by
  induction ops generalizing s with
  | nil => simp [play, replayed, TradeRecord.totalsOf]
  | cons op ops ih =>
      calc (s.play cfg (op :: ops)).learner.totals key
          = ((op.step cfg s).play cfg ops).learner.totals key := rfl
        _ = (op.step cfg s).learner.totals key + (TradeRecord.totalsOf key (ops.flatMap recorded) +
              TradeRecord.totalsOf key (replayed cfg ops (op.step cfg s))) := ih
        _ = s.learner.totals key + TradeRecord.totalsOf key (op.recorded ++ op.replays s) +
              (TradeRecord.totalsOf key (ops.flatMap recorded) +
                TradeRecord.totalsOf key (replayed cfg ops (op.step cfg s))) := by
            rw [totals_step hcfg]
        _ = _ := by
            rw [List.flatMap_cons, replayed]
            simp only [TradeRecord.totalsOf_append]
            abel

/-- Switched off, a run adds nothing. -/
theorem totals_play_of_disabled (hcfg : cfg.enabled = false) (ops : List RecordOp) :
    (s.play cfg ops).learner.totals key = s.learner.totals key := by
  induction ops generalizing s with
  | nil => rfl
  | cons op ops ih => exact ih.trans (totals_step_of_disabled hcfg op)

/-- Without the restarts, the same is recorded. -/
theorem recorded_filter (ops : List RecordOp) :
    (ops.filter records).flatMap recorded = ops.flatMap recorded := by
  induction ops with
  | nil => rfl
  | cons op ops ih =>
      cases op with
      | restart now savedAt => exact ih
      | _ => exact congrArg (List.cons _) ih

/-- Without restarts, nothing is replayed. -/
theorem replayed_filter (ops : List RecordOp) : replayed cfg (ops.filter records) s = [] := by
  refine List.eq_nil_iff_forall_not_mem.2 fun t ht => ?_
  obtain ⟨before, now, savedAt, after, heq, -⟩ := mem_replayed.1 ht
  have hmem : restart now savedAt ∈ ops.filter records := by
    rw [heq]
    exact List.mem_append_right _ List.mem_cons_self
  exact absurd (List.mem_filter.1 hmem).2 Bool.false_ne_true

/-- A won trade. -/
def won : TradeRecord where
  symbol := "BTCUSDT"
  timeframe := "5"
  exitReason := "TP1"
  entryPrice := 100
  exitPrice := 110
  quantity := 1
  pnl := 10
  fee := 0
  strategy := "unknown"

end Installation

end WebhookTrader
