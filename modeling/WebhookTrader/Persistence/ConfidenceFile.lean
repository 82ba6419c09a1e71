import WebhookTrader.Common.Alike
import WebhookTrader.Engine.Confidence
import WebhookTrader.Persistence.LearnerFile
import WebhookTrader.Persistence.Model.ConfidenceFile

/-!
# The confidence over restarts

The file has everything of an entry but whether its key has just been
demoted, which only the loop that sets it reads. So a restart loses what a
cycle does after its save and nothing else: the passes of the contexts in
the last cycle.
-/

namespace WebhookTrader

/-! ## What a file keeps of an entry -/

namespace ConfidenceEntry

/-- An entry but for its demotion. -/
def undemoted (ce : ConfidenceEntry) : ConfidenceEntry := { ce with demoted := false }

theorem fromJson_toJson (ce : ConfidenceEntry) : fromJson ce.toJson = .ok ce.undemoted := rfl

variable {ce ce' : ConfidenceEntry} {maxConfidence : ℤ}

theorem undemoted_roll (e : ReportEntry) (h : ce.undemoted = ce'.undemoted) :
    (ce.roll e).undemoted = (ce'.roll e).undemoted := by
  have hroll := congrArg (roll · e) h
  exact hroll

/-- An evaluation begins with what the file keeps. -/
theorem undemoted_evaluate (r : SymbolReadiness) (h : ce.undemoted = ce'.undemoted) :
    (ce.evaluate maxConfidence r).undemoted = (ce'.evaluate maxConfidence r).undemoted := by
  have hevaluate := congrArg (fun c => (evaluate maxConfidence c r).undemoted) h
  exact hevaluate

theorem undemoted_passContext (h : ce.undemoted = ce'.undemoted) :
    (ce.passContext maxConfidence).undemoted = (ce'.passContext maxConfidence).undemoted := by
  have hpass := congrArg (passContext maxConfidence) h
  exact hpass

theorem shouldDemote_congr (h : ce.undemoted = ce'.undemoted) :
    ce.shouldDemote = ce'.shouldDemote := by
  have hdemote := congrArg shouldDemote h
  exact hdemote

/-- What a key has after some passes and nothing else. -/
def passed (maxConfidence : ℤ) (n : ℕ) : Option ConfidenceEntry :=
  if n = 0 then none
  else some
    { consecutivePasses := min n maxConfidence
      confidence := min n maxConfidence
      sizeBoost := confidenceToBoost (min n maxConfidence) }

theorem passContext_passed (n : ℕ) : some (((passed maxConfidence n).getD {}).passContext
    maxConfidence) = passed maxConfidence (n + 1) := by
  have hmin : min (((passed maxConfidence n).getD {}).consecutivePasses + 1) maxConfidence =
      min ((n + 1 : ℕ) : ℤ) maxConfidence := by
    rw [passed]
    split_ifs with hn
    · subst hn
      rfl
    · rw [Option.getD_some]
      push_cast
      omega
  have hrest : ∀ passes boost, ({ (passed maxConfidence n).getD {} with
      consecutivePasses := passes, confidence := passes, sizeBoost := boost } :
        ConfidenceEntry) =
      { consecutivePasses := passes, confidence := passes, sizeBoost := boost } := by
    intro passes boost
    rw [passed]
    split_ifs
    · rfl
    · rfl
  rw [passContext, hmin, hrest]
  rfl

end ConfidenceEntry

/-! ## Alike but for the demotions -/

namespace Confidence

open ConfidenceEntry

variable {cfg : ReadinessConfig} {maxConfidence : ℤ} {m m' : Confidence}

/-- **What is written is read back**, but for the demotions. -/
theorem alike_load (m : Confidence) : Table.Alike undemoted (load (.document m.toJson)) m := by
  have hitems : load (.document m.toJson) =
      (Table.readEach fromJson (m.toPairs ConfidenceEntry.toJson) ∅).1 := by
    rw [load, toJson, Json.items_ofFields]
  rw [hitems]
  exact Table.Alike.readEach_toPairs fromJson_toJson (fun _ => rfl) m

theorem alike_buildRolling (h : Table.Alike undemoted m m') (report : List ReportEntry) :
    Table.Alike undemoted (buildRolling report m) (buildRolling report m') :=
  h.foldl_tallyStep (fun _ _ e he => undemoted_roll e he) _

/-- The loop finds the same keys eligible. -/
theorem alike_loop (h : Table.Alike undemoted m m') (rs : List SymbolReadiness)
    (l : List String) :
    (rs.foldl (refreshStep maxConfidence) (m, l)).2 =
        (rs.foldl (refreshStep maxConfidence) (m', l)).2 ∧
      Table.Alike undemoted (rs.foldl (refreshStep maxConfidence) (m, l)).1
        (rs.foldl (refreshStep maxConfidence) (m', l)).1 := by
  constructor
  · rw [snd_foldl_refreshStep, snd_foldl_refreshStep]
    have hsame : ∀ key, (m.getConfidence key).shouldDemote = (m'.getConfidence key).shouldDemote :=
      fun key => shouldDemote_congr (h.getD key {})
    simp only [hsame]
  · rw [fst_foldl_refreshStep, fst_foldl_refreshStep]
    exact h.foldl_tallyStep (fun _ _ r hr => undemoted_evaluate r hr) rs

theorem alike_cleanUp (h : Table.Alike undemoted m m') (seen eligible : List String) :
    Table.Alike undemoted (cleanUp seen eligible m) (cleanUp seen eligible m') := by
  intro key
  have hentry : (m.getConfidence key).undemoted = (m'.getConfidence key).undemoted :=
    h.getD key {}
  have hconf : (m.getConfidence key).confidence = (m'.getConfidence key).confidence :=
    (ConfidenceEntry.mk.inj hentry).2.1
  rw [lookup_cleanUp, lookup_cleanUp, hconf, apply_ite (Option.map undemoted),
    apply_ite (Option.map undemoted), h key]

/-- **A refresh of both.** -/
theorem alike_refresh (h : Table.Alike undemoted m m') (futures spot : List ReportEntry) :
    Table.Alike undemoted (refreshEligible cfg maxConfidence futures spot m).2.2
      (refreshEligible cfg maxConfidence futures spot m').2.2 := by
  have hrolled := alike_buildRolling (alike_buildRolling h futures) spot
  obtain ⟨heligible, hloop⟩ := @alike_loop maxConfidence _ _ hrolled
    (Readiness.evaluateAll cfg futures spot) []
  have hclean := alike_cleanUp hloop ((Readiness.evaluateAll cfg futures spot).map (·.symbol))
    ((Readiness.evaluateAll cfg futures spot).foldl (refreshStep maxConfidence)
      (buildRolling spot (buildRolling futures m), [])).2
  unfold refreshEligible
  dsimp only
  rwa [heligible] at hclean ⊢

theorem alike_enrich (h : Table.Alike undemoted m m') (report : List ReportEntry) :
    Table.Alike undemoted (enrich cfg maxConfidence report m)
      (enrich cfg maxConfidence report m') :=
  h.foldl_tallyStep (fun _ _ _ he => undemoted_passContext he) _

theorem alike_cycle (h : Table.Alike undemoted m m') (r : Reports) :
    Table.Alike undemoted (cycle cfg maxConfidence m r) (cycle cfg maxConfidence m' r) :=
  alike_enrich (alike_enrich (alike_refresh h r.futures r.spot) r.futuresTf) r.spotTf

/-! ## A key that only contexts have

Nothing takes a pass from it.
-/

section Contexts

variable {key : String} {n : ℕ}

theorem lookup_passes (ks : List String) (h : m.lookup key = passed maxConfidence n) :
    (ks.foldl (Table.tallyStep id (fun ce _ => ce.passContext maxConfidence) {}) m).lookup key =
      passed maxConfidence (n + ks.count key) := by
  induction ks generalizing m n with
  | nil => exact h
  | cons k ks ih =>
      rw [List.foldl_cons, List.count_cons]
      rcases eq_or_ne k key with rfl | hne
      · have hpass : (Table.tallyStep id (fun ce _ => ce.passContext maxConfidence) {} m k).lookup
            k = passed maxConfidence (n + 1) := by
          rw [Table.tallyStep, id_eq, AList.lookup_insert, h, passContext_passed]
        rw [ih hpass, beq_self_eq_true, if_pos rfl, add_right_comm, add_assoc]
      · have hsame : (Table.tallyStep id (fun ce _ => ce.passContext maxConfidence) {} m k).lookup
            key = passed maxConfidence n := by
          rw [Table.tallyStep, id_eq, AList.lookup_insert_ne hne.symm, h]
        rw [ih hsame, if_neg (by simpa using hne), add_zero]

/-- **One cycle.** -/
theorem lookup_cycle {r : Reports} (hkey : ∀ e ∈ r.futures ++ r.spot, e.symbol ≠ key)
    (h : m.lookup key = passed maxConfidence n) :
    (cycle cfg maxConfidence m r).lookup key =
      passed maxConfidence (n + r.contextPasses cfg key) := by
  have hunseen : Readiness.symbolEvaluations cfg r key = [] := by
    rw [Readiness.symbolEvaluations, List.map_eq_nil_iff, List.filter_eq_nil_iff]
    intro s hs hname
    obtain ⟨e, he, hsame⟩ : ∃ e ∈ r.futures ++ r.spot, e.symbol = s.symbol :=
      exists_entry_of_evaluated hs
    exact hkey e he (hsame.trans (of_decide_eq_true hname))
  have hrefresh : (refreshEligible cfg maxConfidence r.futures r.spot m).2.2.lookup key =
      passed maxConfidence n := (lookup_refresh_of_nil hunseen).trans h
  rw [Reports.contextPasses, List.count_append, ← add_assoc]
  exact lookup_passes _ (lookup_passes _ hrefresh)

theorem lookup_run {cycles : List Reports}
    (hkey : ∀ r ∈ cycles, ∀ e ∈ r.futures ++ r.spot, e.symbol ≠ key) :
    (run cfg maxConfidence cycles).lookup key =
      passed maxConfidence (cycles.map (Reports.contextPasses cfg key)).sum := by
  induction cycles using List.reverseRecOn with
  | nil => rfl
  | append_singleton cycles r ih =>
      rw [run, List.foldl_append, List.map_append, List.sum_append, List.map_singleton,
        List.sum_singleton]
      exact lookup_cycle (hkey r (List.mem_append_right _ List.mem_cons_self))
        (ih fun r' hr' => hkey r' (List.mem_append_left _ hr'))

end Contexts

end Confidence

/-! ## Cycles and restarts -/

namespace ConfidenceEvent

variable {events : List ConfidenceEvent} {r : Reports}

theorem standing_concat (event : ConfidenceEvent) :
    standing (events ++ [event]) = stand (standing events) event := by
  rw [standing, List.foldl_append]
  rfl

/-- A second restart takes nothing more. -/
theorem modifyLast_twice (cycles : List Reports) :
    (cycles.modifyLast Reports.bySymbol).modifyLast Reports.bySymbol =
      cycles.modifyLast Reports.bySymbol := by
  rcases List.eq_nil_or_concat cycles with rfl | ⟨past, r, rfl⟩
  · rfl
  · rw [List.concat_eq_append, List.modifyLast_concat, List.modifyLast_concat]
    rfl

/-- The cycles that stand have the reports by symbol of cycles there were. -/
theorem exists_cycle_of_standing (hr : r ∈ standing events) :
    ∃ r', cycle r' ∈ events ∧ r'.bySymbol = r.bySymbol := by
  induction events using List.reverseRecOn generalizing r with
  | nil => cases hr
  | append_singleton events event ih =>
      have hold : ∀ r, r ∈ standing events →
          ∃ r', cycle r' ∈ events ++ [event] ∧ r'.bySymbol = r.bySymbol := by
        intro r hr
        obtain ⟨r', hr', hsame⟩ := ih hr
        exact ⟨r', List.mem_append_left _ hr', hsame⟩
      rw [standing_concat] at hr
      cases event with
      | cycle r₀ =>
          rcases List.mem_append.1 hr with hr | hr
          · exact hold r hr
          · obtain rfl := List.mem_singleton.1 hr
            exact ⟨r, List.mem_append_right _ List.mem_cons_self, rfl⟩
      | restart =>
          rw [stand] at hr
          rcases List.eq_nil_or_concat (standing events) with hnil | ⟨past, r₀, hlast⟩
          · rw [hnil] at hr
            cases hr
          · rw [hlast, List.concat_eq_append, List.modifyLast_concat, List.mem_append,
              List.mem_singleton] at hr
            rcases hr with hr | rfl
            · exact hold r (hlast ▸ List.concat_eq_append ▸ List.mem_append_left _ hr)
            · obtain ⟨r', hr', hsame⟩ := hold r₀
                (hlast ▸ List.concat_eq_append ▸ List.mem_append_right _ List.mem_cons_self)
              exact ⟨r', hr', hsame⟩

end ConfidenceEvent

namespace ConfidenceProcess

open ConfidenceEntry ConfidenceEvent

variable (cfg : ReadinessConfig) (maxConfidence : ℤ)

/-- **The memory and the file**: the memory is that of the cycles that stand,
and the file that of these cycles without the last one's contexts. -/
theorem alike_run (events : List ConfidenceEvent) :
    Table.Alike undemoted (run cfg maxConfidence events).memory
        (Confidence.run cfg maxConfidence (standing events)) ∧
      Table.Alike undemoted (Confidence.load (run cfg maxConfidence events).file)
        (Confidence.run cfg maxConfidence ((standing events).modifyLast Reports.bySymbol)) := by
  induction events using List.reverseRecOn with
  | nil => exact ⟨.refl _, .refl _⟩
  | append_singleton events event ih =>
      obtain ⟨hmemory, hfile⟩ := ih
      have hstep : run cfg maxConfidence (events ++ [event]) =
          step cfg maxConfidence (run cfg maxConfidence events) event := by
        rw [run, List.foldl_append]
        rfl
      have hone : ∀ cycles r, Confidence.run cfg maxConfidence (cycles ++ [r]) =
          Confidence.cycle cfg maxConfidence (Confidence.run cfg maxConfidence cycles) r := by
        intro cycles r
        rw [Confidence.run, List.foldl_append]
        rfl
      rw [hstep, standing_concat]
      cases event with
      | cycle r =>
          rw [stand, List.modifyLast_concat, hone, hone]
          refine ⟨Confidence.alike_cycle hmemory r, ?_⟩
          -- without reports by timeframe a cycle is its refresh
          exact (Confidence.alike_load _).trans
            (Confidence.alike_refresh hmemory r.futures r.spot)
      | restart =>
          rw [stand, modifyLast_twice]
          exact ⟨hfile, hfile⟩

end ConfidenceProcess

/-- **The confidence over restarts.** Under every key it is what the cycles
come to where a restart takes the reports by timeframe, and nothing else,
from the cycle right before it. -/
theorem confidence_over_restarts (cfg : ReadinessConfig) (maxConfidence : ℤ)
    (events : List ConfidenceEvent) (key : String) :
    ((ConfidenceProcess.run cfg maxConfidence events).memory.getConfidence key).undemoted =
      ((Confidence.run cfg maxConfidence
        (ConfidenceEvent.standing events)).getConfidence key).undemoted :=
  (ConfidenceProcess.alike_run cfg maxConfidence events).1.getD key {}

/-- **What a context keeps.** A key that is no symbol of the reports has the
passes of all the cycles that stand, up to the most there are, and no
report and no restart takes any other from it. -/
theorem context_keeps_passes {cfg : ReadinessConfig} {maxConfidence : ℤ}
    {events : List ConfidenceEvent} {key : String}
    (hkey : ∀ r, ConfidenceEvent.cycle r ∈ events → ∀ e ∈ r.futures ++ r.spot, e.symbol ≠ key) :
    ((ConfidenceProcess.run cfg maxConfidence events).memory.getConfidence key).undemoted =
      (ConfidenceEntry.passed maxConfidence ((ConfidenceEvent.standing events).map
        (Reports.contextPasses cfg key)).sum).getD {} := by
  have hstanding : ∀ r ∈ ConfidenceEvent.standing events, ∀ e ∈ r.futures ++ r.spot,
      e.symbol ≠ key := by
    intro r hr e he
    obtain ⟨r', hr', hsame⟩ := ConfidenceEvent.exists_cycle_of_standing hr
    have hfutures : r'.futures = r.futures := (Reports.mk.inj hsame).1
    have hspot : r'.spot = r.spot := (Reports.mk.inj hsame).2.1
    exact hkey r' hr' e (hfutures ▸ hspot ▸ he)
  have hrun := (ConfidenceProcess.alike_run cfg maxConfidence events).1.getD key {}
  rw [Confidence.lookup_run hstanding] at hrun
  refine hrun.trans ?_
  unfold ConfidenceEntry.passed
  split_ifs
  · rfl
  · rfl

open LostContext in
/-- A pass, a restart that takes it back, and a pass again. -/
theorem restarted_context_keeps_one :
    ((ConfidenceProcess.run {} 10 [.cycle (cycle proven), .restart,
      .cycle (cycle proven)]).memory.getConfidence "BTCUSDT:15:long").undemoted =
      { consecutivePasses := 1, confidence := 1, sizeBoost := 1 } := by
  refine (context_keeps_passes ?_).trans (by decide +kernel)
  intro r hr e he
  have hreport : r = cycle proven := by simpa using hr
  rw [hreport] at he
  exact absurd he List.not_mem_nil

end WebhookTrader
