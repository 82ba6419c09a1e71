import WebhookTrader.Engine.Exits
import WebhookTrader.Engine.Ownership

/-!
# The leverage of an order

The exchange's leverage of a symbol is set by `init_leverage` alone, from
the configured tables, when the engine starts live and when it switches to
live. An order does not carry a leverage; the handler checks and stores
the default one, or the score's limit where that is lower. So the two
agree just where the configured value is the one the handler asks for.
-/

namespace WebhookTrader

/-! ## Setting leverages -/

/-- What is configured of leverages, beside the engine's configuration. -/
structure LeverageConfig where
  engine : EngineConfig := {}
  symbolLeverages : Table String ℤ := ∅
  allowedSymbols : List String := []

namespace LeverageConfig

variable (cfg : LeverageConfig)

/-- The value that `init_leverage` has for a symbol. -/
def configured (symbol : String) : ℤ :=
  (cfg.symbolLeverages.lookup symbol).getD cfg.engine.trading.defaultLeverage

/-- The calls of `init_leverage`, in order: the symbols with a leverage of
their own, and then the other allowed ones. -/
def initCalls : List (String × ℤ) :=
  (cfg.symbolLeverages.entries.map fun e => (e.1, e.2)) ++
    (cfg.allowedSymbols.filter fun symbol => !(cfg.symbolLeverages.lookup symbol).isSome).map
      fun symbol => (symbol, cfg.engine.trading.defaultLeverage)

end LeverageConfig

/-- **The engine with the exchange's leverages**: the last value accepted of
each symbol, and what `init_leverage` still has to call. -/
structure Levered where
  engine : Engine
  leverages : Table String ℤ := ∅
  calls : List (String × ℤ) := []

namespace Levered

/-- `set_leverage`, where the exchange accepts it. -/
def setLeverage (leverages : Table String ℤ) (call : String × ℤ) (accepted : Bool) :
    Table String ℤ :=
  if accepted then leverages.insert call.1 call.2 else leverages

/-- All calls of a list, each accepted or not. -/
def setAll (leverages : Table String ℤ) (calls : List ((String × ℤ) × Bool)) : Table String ℤ :=
  calls.foldl (fun t call => setLeverage t call.1 call.2) leverages

inductive Label
  | engine (l : EngineLabel)
  /-- The next call of `init_leverage`. -/
  | setLeverage (accepted : Bool)

/-- A step of the periodic thread's switch. -/
def isSwitch : EngineLabel → Bool
  | .event .switch => true
  | _ => false

/-- **The steps.** The periodic thread calls `init_leverage` when it has
switched to live, and goes on when the calls are done. -/
def next (cfg : LeverageConfig) (s : Levered) : Label → Option Levered
  | .engine l =>
      if isSwitch l && !s.calls.isEmpty then none
      else ((engineSystem cfg.engine).next s.engine l).map fun engine =>
        { s with
          engine
          calls := if isSwitch l && s.engine.shared.periodic = .clearRisk then cfg.initCalls
            else s.calls }
  | .setLeverage accepted =>
      match s.calls with
      | [] => none
      | call :: calls =>
          some { s with leverages := setLeverage s.leverages call accepted, calls }

end Levered

/-- **The engine with the exchange's leverages, as a system.** A live engine
has called `init_leverage` before its workers start. -/
def leveredSystem (cfg : LeverageConfig) : System Levered Levered.Label where
  init s := (engineSystem cfg.engine).init s.engine ∧ s.calls = [] ∧
    ∃ answers : List Bool, s.leverages =
      if cfg.engine.trading.shadowMode then ∅ else Levered.setAll ∅ (cfg.initCalls.zip answers)
  next := Levered.next cfg

/-! ## What is set is what is configured -/

namespace LeverageConfig

variable {cfg : LeverageConfig}

theorem configured_of_mem {call : String × ℤ} (h : call ∈ cfg.initCalls) :
    call.2 = cfg.configured call.1 := by
  rcases List.mem_append.1 h with h | h
  · obtain ⟨e, he, rfl⟩ := List.mem_map.1 h
    have hlookup : cfg.symbolLeverages.lookup e.1 = some e.2 := AList.mem_lookup_iff.2 he
    rw [configured, hlookup, Option.getD_some]
  · obtain ⟨symbol, hmem, rfl⟩ := List.mem_map.1 h
    obtain ⟨-, hnone⟩ := List.mem_filter.1 hmem
    have hlookup : cfg.symbolLeverages.lookup symbol = none := by simpa using hnone
    rw [configured, hlookup, Option.getD_none]

end LeverageConfig

namespace Levered

variable {cfg : LeverageConfig} {s t : Levered} {l : Label}

/-- Every value of a table is the configured one. -/
def Configured (cfg : LeverageConfig) (leverages : Table String ℤ) : Prop :=
  ∀ symbol lev, leverages.lookup symbol = some lev → lev = cfg.configured symbol

theorem Configured.set {leverages : Table String ℤ} {call : String × ℤ} {accepted : Bool}
    (h : Configured cfg leverages) (hcall : call.2 = cfg.configured call.1) :
    Configured cfg (setLeverage leverages call accepted) := by
  unfold setLeverage
  split_ifs
  · intro symbol lev hlookup
    by_cases hsymbol : symbol = call.1
    · subst hsymbol
      rw [AList.lookup_insert] at hlookup
      rw [← Option.some.inj hlookup]
      exact hcall
    · rw [AList.lookup_insert_ne hsymbol] at hlookup
      exact h symbol lev hlookup
  · exact h

theorem Configured.setAll {calls : List ((String × ℤ) × Bool)} {leverages : Table String ℤ}
    (h : Configured cfg leverages) (hcalls : ∀ call ∈ calls, call.1.2 = cfg.configured call.1.1) :
    Configured cfg (setAll leverages calls) := by
  induction calls generalizing leverages with
  | nil => exact h
  | cons call calls ih =>
      exact ih (h.set (hcalls call List.mem_cons_self))
        fun c hc => hcalls c (List.mem_cons_of_mem _ hc)

/-- **The invariant**: what is set and what is still to be set is what is
configured, beside a run of the engine. -/
structure Sound (cfg : LeverageConfig) (s : Levered) : Prop where
  engine : (engineSystem cfg.engine).Reachable System.anyStep s.engine
  leverages : Configured cfg s.leverages
  calls : ∀ call ∈ s.calls, call.2 = cfg.configured call.1

theorem sound_of_init (h : (leveredSystem cfg).init s) : s.Sound cfg := by
  obtain ⟨hengine, hcalls, answers, hleverages⟩ := h
  refine ⟨⟨s.engine, hengine, .refl⟩, ?_, by rw [hcalls]; exact nofun⟩
  have hempty : Configured cfg ∅ := fun symbol lev hlookup => by cases hlookup
  rw [hleverages]
  split_ifs
  · exact hempty
  · refine hempty.setAll fun call hcall => LeverageConfig.configured_of_mem ?_
    exact (List.of_mem_zip hcall).1

/-- **Every step keeps it.** -/
theorem Sound.next (h : s.Sound cfg) (hnext : (leveredSystem cfg).next s l = some t) :
    t.Sound cfg := by
  cases l with
  | engine l =>
      obtain ⟨-, hmap⟩ := Option.ite_none_left_eq_some.1 hnext
      obtain ⟨engine, hstep, rfl⟩ := Option.map_eq_some_iff.1 hmap
      refine ⟨h.engine.run (.tail .refl trivial hstep), h.leverages, fun call hcall => ?_⟩
      dsimp only at hcall
      split_ifs at hcall
      · exact LeverageConfig.configured_of_mem hcall
      · exact h.calls call hcall
  | setLeverage accepted =>
      obtain ⟨engine, leverages, calls⟩ := s
      cases calls with
      | nil => cases hnext
      | cons call calls =>
          obtain rfl := Option.some.inj hnext
          exact ⟨h.engine, h.leverages.set (h.calls call List.mem_cons_self),
            fun c hc => h.calls c (List.mem_cons_of_mem _ hc)⟩

theorem sound_of_reachable (h : (leveredSystem cfg).Reachable System.anyStep s) : s.Sound cfg :=
  h.invariant (I := Sound cfg) (fun _ hinit => sound_of_init hinit)
    fun _ _ _ hs _ hnext => hs.next hnext

/-! ## The leverage that is checked and the one that is traded -/

/-- **The leverage traded is the one checked**, and the one stored: the
exchange's leverage of the symbol is what a run has given `check_entry`
and will register its position with. -/
def Agrees (s : Levered) (j : EntryJob) : Prop :=
  s.leverages.lookup j.sig.symbol = some (j.entryCheck s.engine.shared).leverage ∧
    s.leverages.lookup j.sig.symbol = some (j.position s.engine.shared.clock true).leverage

/-- **When the leverages agree.** Whenever an order is being sent, they do
just where the exchange has accepted a leverage for the symbol, and the
configured one is the default, lowered to the limit of the score that the
handler has read. -/
theorem leverages_agree_iff (h : (leveredSystem cfg).Reachable System.anyStep s) {j : EntryJob}
    (hj : Job.entry j ∈ s.engine.jobs) (hpc : j.pc.hands = true) :
    s.Agrees j ↔ (s.leverages.lookup j.sig.symbol).isSome = true ∧
      cfg.configured j.sig.symbol =
        min cfg.engine.trading.defaultLeverage (j.rd.bestScore.getD {}).maxLeverage := by
  have hsound := sound_of_reachable h
  have hvetted := EntryJob.vetted_of_reachable hsound.engine hj
  obtain ⟨-, hasked⟩ :=
    hvetted.sized (EntryPc.sized_of_reserves (EntryPc.reserves_of_hands hpc))
  have hmin : j.leverage =
      min cfg.engine.trading.defaultLeverage (j.rd.bestScore.getD {}).maxLeverage := by
    rw [hasked, EntryJob.askedLeverage]
    cases j.rd.bestScore <;> rfl
  have hagrees : s.Agrees j ↔ s.leverages.lookup j.sig.symbol = some j.leverage :=
    and_self_iff
  rw [hagrees, ← hmin]
  constructor
  · intro hlookup
    refine ⟨by rw [hlookup]; rfl, ?_⟩
    exact (hsound.leverages _ _ hlookup).symm
  · rintro ⟨hsome, heq⟩
    obtain ⟨lev, hlev⟩ := Option.isSome_iff_exists.1 hsome
    rw [hlev, hsound.leverages _ _ hlev, heq]

end Levered

/-! ## An order at ten times, and one at five -/

namespace LeverageRun

open LiveRun

/-- A live configuration with one leverage of a symbol's own. -/
def config (lev : ℤ) : LeverageConfig where
  symbolLeverages := AList.insert "BTCUSDT" lev ∅

/-- The engine after `start`; the exchange has accepted the leverage. -/
def started (lev : ℤ) : Levered where
  engine := start
  leverages := AList.insert "BTCUSDT" lev ∅

theorem started_init (lev : ℤ) : (leveredSystem (config lev)).init (started lev) :=
  ⟨start_init rfl, rfl, [true], rfl⟩

/-- A buy is handled until its order is sent. -/
def labels : List Levered.Label :=
  (Threads.Label.start (buy "BTCUSDT") :: works 0 16).map .engine

/-- The exchange has a leverage of the bitcoin, and its order has one. -/
def sends (onExchange ofOrder : ℤ) (s : Levered) : Bool :=
  s.leverages.lookup "BTCUSDT" = some onExchange &&
    s.engine.jobs.any fun
      | .entry j => j.pc.hands && j.sig.symbol = "BTCUSDT" && j.leverage = ofOrder
      | _ => false

theorem exists_of_sends {onExchange ofOrder : ℤ} {s : Levered} (h : sends onExchange ofOrder s) :
    s.leverages.lookup "BTCUSDT" = some onExchange ∧ ∃ j, Job.entry j ∈ s.engine.jobs ∧
      j.pc.hands = true ∧ j.sig.symbol = "BTCUSDT" ∧ j.leverage = ofOrder := by
  simp only [sends, Bool.and_eq_true, decide_eq_true_eq, List.any_eq_true] at h
  obtain ⟨hlookup, job, hmem, hjob⟩ := h
  refine ⟨hlookup, ?_⟩
  cases job <;> simp only [Bool.and_eq_true, decide_eq_true_eq, Bool.false_eq_true] at hjob
  exact ⟨_, hmem, hjob.1.1, hjob.1.2, hjob.2⟩

theorem reachable_labels (lev ofOrder : ℤ)
    (h : (((leveredSystem (config lev)).play System.anyStep (started lev) labels).any
      fun t => decide (sends lev ofOrder t = true)) = true) :
    ∃ s, (leveredSystem (config lev)).Reachable System.anyStep s ∧ sends lev ofOrder s = true := by
  obtain ⟨s, hrun, hs⟩ := System.exists_run_of_play labels h
  exact ⟨s, ⟨started lev, started_init lev, hrun⟩, hs⟩

end LeverageRun

open LeverageRun in
theorem Levered.leverages_agree_iff_ten :
    ∃ s j, (leveredSystem (config 10)).Reachable System.anyStep s ∧ Job.entry j ∈ s.engine.jobs ∧
      (s.Agrees j ↔ (s.leverages.lookup j.sig.symbol).isSome = true ∧
        (config 10).configured j.sig.symbol =
          min (config 10).engine.trading.defaultLeverage (j.rd.bestScore.getD {}).maxLeverage) := by
  obtain ⟨s, hreach, hs⟩ := reachable_labels 10 10 (by decide +kernel)
  obtain ⟨-, j, hj, hpc, -⟩ := exists_of_sends hs
  exact ⟨s, j, hreach, hj, leverages_agree_iff hreach hj hpc⟩

open LeverageRun in
/-- **An order at five times that was checked at ten.** -/
theorem checked_at_ten :
    ∃ s j, (leveredSystem (config 5)).Reachable System.anyStep s ∧ Job.entry j ∈ s.engine.jobs ∧
      j.pc.hands = true ∧ s.leverages.lookup j.sig.symbol = some 5 ∧
      (j.entryCheck s.engine.shared).leverage = 10 ∧ ¬ s.Agrees j := by
  obtain ⟨s, hreach, hs⟩ := reachable_labels 5 10 (by decide +kernel)
  obtain ⟨hlookup, j, hj, hpc, hsymbol, hlev⟩ := exists_of_sends hs
  rw [← hsymbol] at hlookup
  refine ⟨s, j, hreach, hj, hpc, hlookup, hlev, fun hagrees => ?_⟩
  have heq : (5 : ℤ) = j.leverage := Option.some.inj (hlookup.symm.trans hagrees.1)
  omega

end WebhookTrader
