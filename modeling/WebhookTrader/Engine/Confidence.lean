import WebhookTrader.Common.Since
import WebhookTrader.Engine.Demotion
import WebhookTrader.Engine.Model.Confidence

/-!
# Confidence and performance

The confidence in a key is meant to rise with each evaluation the key
passes, to fall with each one it fails, and to be lost with a demotion.
The loop over the symbols does all three. The enrichment only raises: a
context that is no longer ready keeps the confidence it has, and with it
the size of its entries. And an entry of no confidence that the clean-up
takes out is read as a default, whose boost is not the boost of no
confidence.
-/

namespace WebhookTrader

/-! ## Evaluations -/

/-- What an evaluation makes of a key. -/
inductive Verdict
  | qualifies
  | demoted
  | fails
  deriving DecidableEq, Repr

/-- What a verdict does to a confidence. -/
def Verdict.apply (maxConfidence conf : ℤ) : Verdict → ℤ
  | qualifies => min (conf + 1) maxConfidence
  | demoted => 0
  | fails => max (conf - 1) 0

/-- One evaluation of a key, in a report by symbol or in one by timeframe. -/
structure Evaluation where
  context : Bool
  verdict : Verdict
  deriving DecidableEq, Repr

/-- One of them qualifies. -/
def SomeQualifies (es : List Evaluation) : Prop := ∃ e ∈ es, e.verdict = .qualifies

/-- The confidence that follows from some evaluations. -/
def expected (maxConfidence : ℤ) (es : List Evaluation) : ℤ :=
  es.foldl (fun conf e => e.verdict.apply maxConfidence conf) 0

/-- **Nothing to lose**: every context that fails has no confidence to lose. -/
def NothingToLose (maxConfidence : ℤ) (es : List Evaluation) : Prop :=
  ∀ past e rest, es = past ++ e :: rest → e.context = true → e.verdict = .fails →
    expected maxConfidence past = 0

namespace Readiness

/-- What the loop makes of a symbol, by what it makes of its rolling figures. -/
def verdict (demote : Bool) (r : SymbolReadiness) : Verdict :=
  if r.level.isLive then if demote then .demoted else .qualifies else .fails

/-- The evaluations of a key in the reports by symbol. -/
def symbolEvaluations (cfg : ReadinessConfig) (r : Reports) (key : String) : List Evaluation :=
  ((evaluateAll cfg r.futures r.spot).filter fun s => s.symbol = key).map fun s =>
    ⟨false, verdict ((rollingEntry r.futures r.spot key).any shouldDemote) s⟩

/-- The context keys of an entry. -/
def contexts (e : ReportEntry) : List String :=
  [e.symbol ++ ":" ++ e.timeframe ++ ":long", e.symbol ++ ":" ++ e.timeframe ++ ":short"]

/-- The evaluations of a key in a report by timeframe. -/
def contextEvaluations (cfg : ReadinessConfig) (report : List ReportEntry) (key : String) :
    List Evaluation :=
  (report.filter fun e => e.symbol ≠ "" && e.timeframe ≠ "").flatMap fun e =>
    ((contexts e).filter fun k => k = key).map fun _ =>
      ⟨true, if (level cfg e).1.isLive then .qualifies else .fails⟩

/-- The evaluations of a key in one cycle. -/
def cycleEvaluations (cfg : ReadinessConfig) (key : String) (r : Reports) : List Evaluation :=
  symbolEvaluations cfg r key ++ contextEvaluations cfg r.futuresTf key ++
    contextEvaluations cfg r.spotTf key

/-- **The evaluations of a key**, cycle after cycle. -/
def evaluations (cfg : ReadinessConfig) (key : String) (cycles : List Reports) :
    List Evaluation :=
  cycles.flatMap (cycleEvaluations cfg key)

/-- The key qualifies in a cycle. -/
def QualifiesIn (cfg : ReadinessConfig) (key : String) (_ : List Reports) (r : Reports) : Prop :=
  SomeQualifies (cycleEvaluations cfg key r)

/-- A cycle's reports by symbol evaluate the key without qualifying it, and
leave it no confidence. -/
def LosesAllIn (cfg : ReadinessConfig) (maxConfidence : ℤ) (key : String) (past : List Reports)
    (r : Reports) : Prop :=
  symbolEvaluations cfg r key ≠ [] ∧
    ¬ SomeQualifies (symbolEvaluations cfg r key) ∧
    expected maxConfidence (evaluations cfg key past ++ symbolEvaluations cfg r key) = 0

end Readiness

/-! ## What the code counts

A failing context is passed by.
-/

/-- The confidence the code counts over some evaluations. -/
def counted (maxConfidence conf : ℤ) (es : List Evaluation) : ℤ :=
  es.foldl (fun conf e =>
    if e.context = true ∧ e.verdict = .fails then conf else e.verdict.apply maxConfidence conf) conf

section Counted

variable {maxConfidence conf : ℤ} {es : List Evaluation} {v : Verdict}

theorem Verdict.apply_nonneg (hmax : 0 ≤ maxConfidence) (hconf : 0 ≤ conf) :
    0 ≤ v.apply maxConfidence conf := by
  cases v <;> simp only [Verdict.apply] <;> omega

theorem counted_append {es' : List Evaluation} :
    counted maxConfidence conf (es ++ es') =
      counted maxConfidence (counted maxConfidence conf es) es' := List.foldl_append ..

theorem counted_nonneg (hmax : 0 ≤ maxConfidence) (hconf : 0 ≤ conf) :
    0 ≤ counted maxConfidence conf es := by
  induction es generalizing conf with
  | nil => exact hconf
  | cons e es ih =>
      show 0 ≤ counted maxConfidence (if _ then _ else _) es
      split_ifs
      · exact ih hconf
      · exact ih (Verdict.apply_nonneg hmax hconf)

/-- Without a verdict that qualifies, no confidence stays none. -/
theorem counted_zero (hes : ¬ SomeQualifies es) :
    counted maxConfidence 0 es = 0 := by
  induction es with
  | nil => rfl
  | cons e es ih =>
      have hfirst : e.verdict ≠ .qualifies := fun hv => hes ⟨e, List.mem_cons_self, hv⟩
      have hzero : e.verdict.apply maxConfidence 0 = 0 := by
        cases hv : e.verdict with
        | qualifies => exact absurd hv hfirst
        | demoted => rfl
        | fails => rfl
      show counted maxConfidence (if _ then _ else _) es = 0
      rw [hzero, ite_self]
      exact ih fun ⟨e', he', hv⟩ => hes ⟨e', List.mem_cons_of_mem _ he', hv⟩

theorem NothingToLose.of_append {es' : List Evaluation}
    (hes : NothingToLose maxConfidence (es ++ es')) : NothingToLose maxConfidence es := by
  intro past e rest heq
  refine hes past e (rest ++ es') ?_
  rw [heq, List.append_assoc, List.cons_append]

/-- **What is passed by makes no difference** where there is nothing to lose. -/
theorem NothingToLose.counted_eq (hes : NothingToLose maxConfidence es) :
    counted maxConfidence 0 es = expected maxConfidence es := by
  induction es using List.reverseRecOn with
  | nil => rfl
  | append_singleton es e ih =>
      have hpast : counted maxConfidence 0 es = expected maxConfidence es := ih hes.of_append
      have hlast : expected maxConfidence (es ++ [e]) =
          e.verdict.apply maxConfidence (expected maxConfidence es) := by
        rw [expected, List.foldl_append]
        rfl
      rw [counted_append, hpast, hlast]
      show (if e.context = true ∧ e.verdict = .fails then _ else _) = _
      split_ifs with hmiss
      · have hzero := hes es e [] rfl hmiss.1 hmiss.2
        rw [hzero, hmiss.2]
        rfl
      · rfl

/-- The same after evaluations that are counted. -/
theorem NothingToLose.counted_expected {es' : List Evaluation}
    (hes : NothingToLose maxConfidence (es ++ es')) :
    counted maxConfidence (expected maxConfidence es) es' = expected maxConfidence (es ++ es') := by
  rw [← hes.of_append.counted_eq, ← counted_append, hes.counted_eq]

/-- Contexts that fail are passed by. -/
theorem counted_missed (ks : List String) :
    counted maxConfidence conf (ks.map fun _ => ⟨true, .fails⟩) = conf := by
  induction ks with
  | nil => rfl
  | cons k ks ih => exact ih

end Counted

/-! ## The entries -/

namespace ConfidenceEntry

variable {maxConfidence : ℤ} {ce : ConfidenceEntry} {r : SymbolReadiness} {e : ReportEntry}

/-- The confidence is the number of passes, and the boost is its boost. -/
structure Sound (ce : ConfidenceEntry) : Prop where
  confidence : ce.confidence = ce.consecutivePasses
  sizeBoost : ce.sizeBoost = confidenceToBoost ce.confidence

theorem sound_evaluate : (ce.evaluate maxConfidence r).Sound := ⟨rfl, rfl⟩

theorem sound_passContext : (ce.passContext maxConfidence).Sound := ⟨rfl, rfl⟩

/-- The rolling figures of an entry are demoted as the entry is. -/
@[simp] theorem shouldDemote_roll : (ce.roll e).shouldDemote = Readiness.shouldDemote e := by
  unfold shouldDemote Readiness.shouldDemote roll Readiness.rollingWindow
  dsimp only
  by_cases hfull : (20 : ℤ) ≤ min (e.recentTrades.getD e.total) 20
  · have hpos : (0 : ℤ) < min (e.recentTrades.getD e.total) 20 := by omega
    simp [hfull, hpos]
  · simp [hfull]

theorem rollingCount_evaluate :
    (ce.evaluate maxConfidence r).rollingCount = ce.rollingCount := by
  unfold evaluate
  dsimp only
  split_ifs <;> rfl

theorem rollingCount_foldl_evaluate (rs : List SymbolReadiness) :
    (rs.foldl (evaluate maxConfidence) ce).rollingCount = ce.rollingCount := by
  induction rs generalizing ce with
  | nil => rfl
  | cons r rs ih => exact ih.trans rollingCount_evaluate

@[simp] theorem shouldDemote_evaluate :
    (ce.evaluate maxConfidence r).shouldDemote = ce.shouldDemote := by
  unfold evaluate
  dsimp only
  split_ifs <;> rfl

/-- **One symbol of the loop.** -/
theorem consecutivePasses_evaluate (hpasses : 0 ≤ ce.consecutivePasses) :
    (ce.evaluate maxConfidence r).consecutivePasses =
      (Readiness.verdict ce.shouldDemote r).apply maxConfidence ce.consecutivePasses := by
  have hsame : shouldDemote { ce with demoted := false } = ce.shouldDemote := rfl
  unfold evaluate Readiness.verdict
  dsimp only
  rw [hsame]
  split_ifs with hlive hdemote hpos
  · rfl
  · rfl
  · show ce.consecutivePasses - 1 = max (ce.consecutivePasses - 1) 0
    omega
  · show ce.consecutivePasses = max (ce.consecutivePasses - 1) 0
    omega

/-- **The loop over the entries of one symbol.** -/
theorem foldl_evaluate (hmax : 0 ≤ maxConfidence) (hpasses : 0 ≤ ce.consecutivePasses)
    (rs : List SymbolReadiness) :
    (rs.foldl (evaluate maxConfidence) ce).consecutivePasses =
        counted maxConfidence ce.consecutivePasses
          (rs.map fun r => ⟨false, Readiness.verdict ce.shouldDemote r⟩) ∧
      (rs ≠ [] → (rs.foldl (evaluate maxConfidence) ce).Sound) := by
  induction rs generalizing ce with
  | nil => exact ⟨rfl, fun h => absurd rfl h⟩
  | cons r rs ih =>
      have hstep : (ce.evaluate maxConfidence r).consecutivePasses =
          (Readiness.verdict ce.shouldDemote r).apply maxConfidence ce.consecutivePasses :=
        consecutivePasses_evaluate hpasses
      have hnonneg : 0 ≤ (ce.evaluate maxConfidence r).consecutivePasses := by
        rw [hstep]
        exact Verdict.apply_nonneg hmax hpasses
      obtain ⟨hcount, hsound⟩ := ih hnonneg
      rw [shouldDemote_evaluate, hstep] at hcount
      refine ⟨hcount, fun _ => ?_⟩
      rcases eq_or_ne rs [] with rfl | hne
      · exact sound_evaluate
      · exact hsound hne

/-- A pass of a context key, some times. -/
theorem foldl_passContext (ks : List String) :
    (ks.foldl (fun ce _ => ce.passContext maxConfidence) ce).consecutivePasses =
        counted maxConfidence ce.consecutivePasses (ks.map fun _ => ⟨true, .qualifies⟩) ∧
      (ks.foldl (fun ce _ => ce.passContext maxConfidence) ce).rollingCount = ce.rollingCount ∧
      (ks ≠ [] → (ks.foldl (fun ce _ => ce.passContext maxConfidence) ce).Sound) := by
  induction ks generalizing ce with
  | nil => exact ⟨rfl, rfl, fun h => absurd rfl h⟩
  | cons k ks ih =>
      obtain ⟨hcount, hrolling, hsound⟩ := @ih (ce.passContext maxConfidence)
      refine ⟨hcount, hrolling, fun _ => ?_⟩
      rcases eq_or_ne ks [] with rfl | hne
      · exact sound_passContext
      · exact hsound hne

/-- The rolling figures an entry has after some report entries are those of
the last one. -/
theorem foldl_roll (es : List ReportEntry) :
    (es.foldl roll ce).consecutivePasses = ce.consecutivePasses ∧
      (es.foldl roll ce).shouldDemote = (es.getLast?.elim ce.shouldDemote Readiness.shouldDemote) := by
  induction es using List.reverseRecOn with
  | nil => exact ⟨rfl, rfl⟩
  | append_singleton es e ih =>
      rw [List.foldl_append, List.getLast?_concat]
      exact ⟨ih.1, shouldDemote_roll⟩

end ConfidenceEntry

/-! ## The map -/

namespace Confidence

variable {cfg : ReadinessConfig} {maxConfidence : ℤ} {m : Confidence} {key : String}
  {futures spot report : List ReportEntry} {c : ℤ} {kept : Prop}

/-- **What is under a key**: its passes, whether there is an entry, and an
entry that is sound. -/
structure Holds (m : Confidence) (key : String) (c : ℤ) (kept : Prop) : Prop where
  passes : (m.getConfidence key).consecutivePasses = c
  entered : (m.lookup key).isSome = true ↔ kept
  sound : ∀ ce, m.lookup key = some ce → ce.Sound

/-- The confidence is the number of passes. The boost is its boost where there
is an entry, and a default where there is none. -/
theorem Holds.reads (h : Holds m key c kept) : (m.getConfidence key).confidence = c ∧
    ((m.getConfidence key).sizeBoost = confidenceToBoost (m.getConfidence key).confidence ↔
      kept) := by
  obtain ⟨hpasses, hentered, hsound⟩ := h
  unfold getConfidence at hpasses ⊢
  cases hlookup : m.lookup key with
  | none =>
      rw [hlookup] at hpasses hentered
      have hout : ¬ kept := fun hkept => Bool.false_ne_true (hentered.2 hkept)
      refine ⟨hpasses, iff_of_false (fun hboost => ?_) hout⟩
      exact absurd hboost (by decide +kernel)
  | some ce =>
      rw [hlookup] at hpasses hentered
      obtain ⟨hconf, hboost⟩ := hsound ce hlookup
      exact ⟨hconf.trans hpasses, iff_of_true hboost (hentered.1 rfl)⟩

/-! ### The rolling figures -/

theorem buildRolling_append :
    buildRolling spot (buildRolling futures m) = buildRolling (futures ++ spot) m := by
  rw [buildRolling, buildRolling, buildRolling, List.filter_append, List.foldl_append]

/-- No entry of the key, nothing under the key changes. -/
theorem lookup_buildRolling (hkey : ∀ e ∈ report, e.symbol ≠ "" → e.symbol ≠ key) :
    (buildRolling report m).lookup key = m.lookup key := by
  rw [buildRolling, Table.lookup_foldl_tallyStep, if_pos]
  rw [List.filter_filter, List.filter_eq_nil_iff]
  intro e he
  have := hkey e he
  grind

theorem passes_buildRolling : ((buildRolling report m).getConfidence key).consecutivePasses =
    (m.getConfidence key).consecutivePasses := by
  rw [getConfidence, buildRolling, Table.getD_lookup_foldl_tallyStep]
  exact (ConfidenceEntry.foldl_roll _).1

/-- **What a symbol with entries is demoted by** is its rolling entry. -/
theorem shouldDemote_buildRolling (hkey : key ≠ "")
    (hsome : ∃ e ∈ futures ++ spot, e.symbol = key) :
    ((buildRolling (futures ++ spot) m).getConfidence key).shouldDemote =
      (Readiness.rollingEntry futures spot key).any Readiness.shouldDemote := by
  have hown : ((futures ++ spot).filter fun e => e.symbol ≠ "").filter (fun e => e.symbol = key) =
      (futures ++ spot).filter fun e => e.symbol = key && e.symbol ≠ "" := by
    rw [List.filter_filter]
  have hlast : ((futures ++ spot).filter fun e => e.symbol = key && e.symbol ≠ "").getLast? =
      Readiness.rollingEntry futures spot key := by
    rw [Readiness.rollingEntry, ← List.head?_reverse, ← List.filter_reverse, List.head?_filter]
  rw [getConfidence, buildRolling, Table.getD_lookup_foldl_tallyStep,
    (ConfidenceEntry.foldl_roll _).2, hown, hlast]
  obtain ⟨e, he, hname⟩ := hsome
  cases hrolling : Readiness.rollingEntry futures spot key with
  | some e' => rfl
  | none =>
      have := List.find?_eq_none.1 hrolling e (List.mem_reverse.2 he)
      grind

/-- What the loop demotes a symbol by, after the rolling figures are there. -/
theorem shouldDemote_rolled (hblank : (m.getConfidence "").rollingCount = 0)
    (hsome : ∃ e ∈ futures ++ spot, e.symbol = key) :
    ((buildRolling spot (buildRolling futures m)).getConfidence key).shouldDemote =
      (Readiness.rollingEntry futures spot key).any Readiness.shouldDemote := by
  rw [buildRolling_append]
  rcases eq_or_ne key "" with rfl | hkey
  · -- entries without a symbol keep no rolling figures
    have hnone : Readiness.rollingEntry futures spot "" = none := by
      refine List.find?_eq_none.2 fun e _ => ?_
      grind
    have hsame : (buildRolling (futures ++ spot) m).lookup "" = m.lookup "" :=
      lookup_buildRolling fun e _ hne => hne
    rw [hnone, getConfidence, hsame]
    show (Readiness.rollingWindow ≤ (m.getConfidence "").rollingCount && _) = false
    rw [hblank]
    rfl
  · exact shouldDemote_buildRolling hkey hsome

/-! ### The loop and the clean-up -/

theorem fst_foldl_refreshStep (rs : List SymbolReadiness) (l : List String) :
    (rs.foldl (refreshStep maxConfidence) (m, l)).1 =
      rs.foldl (Table.tallyStep (·.symbol) (ConfidenceEntry.evaluate maxConfidence) {}) m := by
  induction rs generalizing m l with
  | nil => rfl
  | cons r rs ih => exact ih _

theorem shouldDemote_tallyStep (r : SymbolReadiness) :
    (getConfidence (Table.tallyStep (·.symbol) (ConfidenceEntry.evaluate maxConfidence) {} m r)
      key).shouldDemote = (m.getConfidence key).shouldDemote := by
  rw [getConfidence, Table.tallyStep]
  by_cases hkey : key = r.symbol
  · subst hkey
    rw [AList.lookup_insert, Option.getD_some, ConfidenceEntry.shouldDemote_evaluate, getConfidence]
  · rw [AList.lookup_insert_ne hkey, getConfidence]

/-- **What the loop finds eligible.** -/
theorem snd_foldl_refreshStep (rs : List SymbolReadiness) (l : List String) :
    (rs.foldl (refreshStep maxConfidence) (m, l)).2 =
      l ++ (rs.filter fun r =>
        r.level.isLive && !(m.getConfidence r.symbol).shouldDemote).map (·.symbol) := by
  induction rs generalizing m l with
  | nil => simp
  | cons r rs ih =>
      have hstep : refreshStep maxConfidence (m, l) r =
          (Table.tallyStep (·.symbol) (ConfidenceEntry.evaluate maxConfidence) {} m r,
            if r.level.isLive && !(m.getConfidence r.symbol).shouldDemote then l ++ [r.symbol]
            else l) := rfl
      rw [List.foldl_cons, hstep, ih]
      simp only [shouldDemote_tallyStep]
      by_cases hlive : (r.level.isLive && !(m.getConfidence r.symbol).shouldDemote) = true
      · rw [if_pos hlive, List.filter_cons, if_pos hlive, List.map_cons, List.append_assoc]
        rfl
      · rw [if_neg hlive, List.filter_cons, if_neg hlive]

theorem lookup_cleanUp {seen eligible : List String} : (cleanUp seen eligible m).lookup key =
    if (m.getConfidence key).confidence = 0 ∧ key ∈ seen ∧ key ∉ eligible then none
    else m.lookup key := by
  rw [cleanUp, Table.lookup_foldl_erase]
  by_cases hkey : key ∈ m
  · refine if_congr ?_ rfl rfl
    rw [List.mem_filter, and_iff_right (AList.mem_keys.1 hkey), getConfidence]
    simp [and_assoc]
  · rw [AList.lookup_eq_none.2 hkey, ite_self, ite_self]

/-- A key that is evaluated is the name of an entry. -/
theorem exists_entry_of_evaluated {r : SymbolReadiness}
    (hr : r ∈ Readiness.evaluateAll cfg futures spot) :
    ∃ e ∈ futures ++ spot, e.symbol = r.symbol := by
  rcases Readiness.mem_evaluateAll.1 hr with ⟨e, he, rfl⟩ | ⟨e, he, rfl⟩
  · exact ⟨e, List.mem_append_left _ he, rfl⟩
  · exact ⟨e, List.mem_append_right _ he, rfl⟩

theorem evaluated_of_entry {e : ReportEntry} (he : e ∈ futures ++ spot) :
    ∃ r ∈ Readiness.evaluateAll cfg futures spot, r.symbol = e.symbol := by
  rcases List.mem_append.1 he with he | he
  · exact ⟨_, Readiness.mem_evaluateAll.2 (.inl ⟨e, he, rfl⟩), rfl⟩
  · exact ⟨_, Readiness.mem_evaluateAll.2 (.inr ⟨e, he, rfl⟩), rfl⟩

/-- **The keys are those of the readiness model.** -/
theorem refreshEligible_eligible (hblank : (m.getConfidence "").rollingCount = 0) :
    (refreshEligible cfg maxConfidence futures spot m).2.1 =
      (Readiness.refreshEligible cfg futures spot).2 := by
  unfold refreshEligible Readiness.refreshEligible
  dsimp only
  rw [snd_foldl_refreshStep, List.nil_append]
  refine congrArg _ (List.filter_congr fun r hr => ?_)
  rw [shouldDemote_rolled hblank (exists_entry_of_evaluated hr)]

variable {r : Reports}

/-- **What the loop leaves under a key** before the clean-up. -/
theorem lookup_loop (hmax : 0 ≤ maxConfidence) (hblank : (m.getConfidence "").rollingCount = 0)
    (hpasses : 0 ≤ (m.getConfidence key).consecutivePasses)
    (hvs : Readiness.symbolEvaluations cfg r key ≠ []) :
    ∃ ce, (((Readiness.evaluateAll cfg r.futures r.spot).foldl (refreshStep maxConfidence)
        (buildRolling r.spot (buildRolling r.futures m), [])).1.lookup key) = some ce ∧
      ce.Sound ∧
      ce.consecutivePasses = counted maxConfidence (m.getConfidence key).consecutivePasses
        (Readiness.symbolEvaluations cfg r key) := by
  have hown : (Readiness.evaluateAll cfg r.futures r.spot).filter (fun s => s.symbol = key) ≠ [] :=
    fun hnil => hvs (by rw [Readiness.symbolEvaluations, hnil, List.map_nil])
  obtain ⟨s, hs⟩ := List.exists_mem_of_ne_nil _ hown
  rw [List.mem_filter, decide_eq_true_eq] at hs
  have hentry : ∃ e ∈ r.futures ++ r.spot, e.symbol = key := by
    rw [← hs.2]
    exact exists_entry_of_evaluated hs.1
  have hrolled : ((buildRolling (r.futures ++ r.spot) m).getConfidence key).consecutivePasses =
      (m.getConfidence key).consecutivePasses := passes_buildRolling
  have hnonneg : 0 ≤ ((buildRolling r.spot (buildRolling r.futures m)).getConfidence
      key).consecutivePasses := by
    rw [buildRolling_append, hrolled]
    exact hpasses
  rw [fst_foldl_refreshStep, Table.lookup_foldl_tallyStep, if_neg hown]
  obtain ⟨hcount, hsound⟩ := ConfidenceEntry.foldl_evaluate hmax hnonneg
    ((Readiness.evaluateAll cfg r.futures r.spot).filter fun s => s.symbol = key)
  rw [shouldDemote_rolled hblank hentry, buildRolling_append, hrolled] at hcount
  refine ⟨_, rfl, hsound hown, ?_⟩
  rw [buildRolling_append]
  exact hcount

/-- A key is among the eligible ones if one of its evaluations qualifies. -/
theorem mem_eligible_iff (hblank : (m.getConfidence "").rollingCount = 0) :
    key ∈ (refreshEligible cfg maxConfidence r.futures r.spot m).2.1 ↔
      SomeQualifies (Readiness.symbolEvaluations cfg r key) := by
  rw [refreshEligible_eligible hblank]
  unfold Readiness.refreshEligible SomeQualifies Readiness.symbolEvaluations Readiness.verdict
  simp only [List.mem_map, List.mem_filter]
  constructor
  · rintro ⟨s, ⟨hs, hkept⟩, rfl⟩
    refine ⟨_, ⟨s, ⟨hs, by simp⟩, rfl⟩, ?_⟩
    simp only [Bool.and_eq_true, Bool.not_eq_true'] at hkept
    simp [hkept.1, hkept.2]
  · rintro ⟨e, ⟨s, ⟨hs, hname⟩, rfl⟩, hverdict⟩
    refine ⟨s, ⟨hs, ?_⟩, by simpa using hname⟩
    obtain rfl : s.symbol = key := by simpa using hname
    grind

/-- **A refresh that does not evaluate the key** leaves what is under it. -/
theorem lookup_refresh_of_nil (hvs : Readiness.symbolEvaluations cfg r key = []) :
    (refreshEligible cfg maxConfidence r.futures r.spot m).2.2.lookup key = m.lookup key := by
  have hown : (Readiness.evaluateAll cfg r.futures r.spot).filter (fun s => s.symbol = key) = [] :=
    List.map_eq_nil_iff.1 hvs
  have hunseen : key ∉ (Readiness.evaluateAll cfg r.futures r.spot).map (·.symbol) := by
    intro hmem
    obtain ⟨s, hs, hname⟩ := List.mem_map.1 hmem
    have hout := List.filter_eq_nil_iff.1 hown s hs
    simp [hname] at hout
  have hnone : ∀ e ∈ r.futures ++ r.spot, e.symbol ≠ "" → e.symbol ≠ key := by
    intro e he _ hname
    obtain ⟨s, hs, hsame⟩ : ∃ s ∈ Readiness.evaluateAll cfg r.futures r.spot,
        s.symbol = e.symbol := evaluated_of_entry he
    exact hunseen (List.mem_map.2 ⟨s, hs, hsame.trans hname⟩)
  unfold refreshEligible
  dsimp only
  rw [lookup_cleanUp, if_neg fun hout => hunseen hout.2.1, fst_foldl_refreshStep,
    Table.lookup_foldl_tallyStep, if_pos hown, buildRolling_append, lookup_buildRolling hnone]

/-- **A refresh that evaluates the key** counts its evaluations, and takes the
entry out where none qualifies and no confidence is left. -/
theorem lookup_refresh_of_evaluated (hmax : 0 ≤ maxConfidence)
    (hblank : (m.getConfidence "").rollingCount = 0)
    (hpasses : 0 ≤ (m.getConfidence key).consecutivePasses)
    (hvs : Readiness.symbolEvaluations cfg r key ≠ []) :
    ∃ ce : ConfidenceEntry, ce.Sound ∧
      ce.consecutivePasses = counted maxConfidence (m.getConfidence key).consecutivePasses
        (Readiness.symbolEvaluations cfg r key) ∧
      ((refreshEligible cfg maxConfidence r.futures r.spot m).2.2.lookup key = none ∧
          ce.consecutivePasses = 0 ∧ ¬ SomeQualifies (Readiness.symbolEvaluations cfg r key) ∨
        (refreshEligible cfg maxConfidence r.futures r.spot m).2.2.lookup key = some ce ∧
          (SomeQualifies (Readiness.symbolEvaluations cfg r key) ∨ ce.consecutivePasses ≠ 0)) := by
  obtain ⟨ce, hce, hsound, hcount⟩ := lookup_loop hmax hblank hpasses hvs
  refine ⟨ce, hsound, hcount, ?_⟩
  have hseen : key ∈ (Readiness.evaluateAll cfg r.futures r.spot).map (·.symbol) := by
    obtain ⟨e, he⟩ := List.exists_mem_of_ne_nil _ hvs
    obtain ⟨s, hs, -⟩ := List.mem_map.1 he
    rw [List.mem_filter, decide_eq_true_eq] at hs
    exact List.mem_map.2 ⟨s, hs⟩
  have heligible : key ∈ (refreshEligible cfg maxConfidence r.futures r.spot m).2.1 ↔
      SomeQualifies (Readiness.symbolEvaluations cfg r key) := mem_eligible_iff hblank
  rw [← heligible]
  unfold refreshEligible
  dsimp only
  rw [lookup_cleanUp, getConfidence, hce, Option.getD_some, hsound.confidence]
  split_ifs with hout
  · exact .inl ⟨rfl, hout.1, hout.2.2⟩
  · exact .inr ⟨rfl, by tauto⟩

/-- **A refresh**: the evaluations of the key are counted, and the entry stays
if one of them qualifies or some confidence is left. -/
theorem Holds.refresh (hmax : 0 ≤ maxConfidence) (hblank : (m.getConfidence "").rollingCount = 0)
    (h : Holds m key c kept) (hc : 0 ≤ c) :
    Holds (refreshEligible cfg maxConfidence r.futures r.spot m).2.2 key
      (counted maxConfidence c (Readiness.symbolEvaluations cfg r key))
      (Readiness.symbolEvaluations cfg r key = [] ∧ kept ∨
        Readiness.symbolEvaluations cfg r key ≠ [] ∧
          (SomeQualifies (Readiness.symbolEvaluations cfg r key) ∨
            counted maxConfidence c (Readiness.symbolEvaluations cfg r key) ≠ 0)) := by
  by_cases hvs : Readiness.symbolEvaluations cfg r key = []
  · have hsame : (refreshEligible cfg maxConfidence r.futures r.spot m).2.2.lookup key =
        m.lookup key := lookup_refresh_of_nil hvs
    obtain ⟨hpasses, hentered, hsound⟩ := h
    refine ⟨?_, ?_, fun ce hce => hsound ce (hsame ▸ hce)⟩
    · rw [getConfidence, hsame, hvs]
      exact hpasses
    · rw [hsame, hentered, hvs]
      simp
  · obtain ⟨ce, hsound, hpasses, hlookup⟩ := lookup_refresh_of_evaluated hmax hblank
      (h.passes.symm ▸ hc) hvs
    rw [h.passes] at hpasses
    rw [← hpasses]
    rcases hlookup with ⟨hnone, hzero, hfails⟩ | ⟨hsome, hkept⟩
    · refine ⟨?_, ?_, fun ce' hce' => ?_⟩
      · rw [getConfidence, hnone, hzero]
        rfl
      · rw [hnone]
        refine iff_of_false Bool.false_ne_true ?_
        tauto
      · rw [hnone] at hce'
        cases hce'
    · refine ⟨?_, ?_, fun ce' hce' => ?_⟩
      · rw [getConfidence, hsome]
        rfl
      · rw [hsome]
        exact iff_of_true rfl (.inr ⟨hvs, hkept⟩)
      · rw [hsome] at hce'
        obtain rfl := Option.some.inj hce'
        exact hsound

/-! ### The enrichment -/

section Contexts

variable {e : ReportEntry}

theorem contextKeys_cons : Readiness.contextKeys cfg (e :: report) =
    (if (e.symbol ≠ "" && e.timeframe ≠ "") = true ∧ (Readiness.level cfg e).1.isLive = true then
      Readiness.contexts e else []) ++ Readiness.contextKeys cfg report := by
  unfold Readiness.contextKeys
  rw [List.filter_cons]
  simp only [← Bool.and_eq_true]
  split_ifs
  · rfl
  · rfl

theorem contextEvaluations_cons : Readiness.contextEvaluations cfg (e :: report) key =
    (if (e.symbol ≠ "" && e.timeframe ≠ "") = true then
      ((Readiness.contexts e).filter fun k => k = key).map fun _ =>
        ⟨true, if (Readiness.level cfg e).1.isLive then .qualifies else .fails⟩
      else []) ++ Readiness.contextEvaluations cfg report key := by
  unfold Readiness.contextEvaluations
  rw [List.filter_cons]
  by_cases hnamed : (e.symbol ≠ "" && e.timeframe ≠ "") = true
  · rw [if_pos hnamed, if_pos hnamed, List.flatMap_cons]
  · rw [if_neg hnamed, if_neg hnamed, List.nil_append]

/-- The passes of a key in a report by timeframe are its evaluations there that
qualify. -/
theorem counted_contextEvaluations (report : List ReportEntry) :
    counted maxConfidence c (((Readiness.contextKeys cfg report).filter fun k => k = key).map
        fun _ => ⟨true, .qualifies⟩) =
      counted maxConfidence c (Readiness.contextEvaluations cfg report key) := by
  induction report generalizing c with
  | nil => rfl
  | cons e report ih =>
      rw [contextKeys_cons, contextEvaluations_cons, List.filter_append, List.map_append,
        counted_append, counted_append, ← ih]
      by_cases hnamed : (e.symbol ≠ "" && e.timeframe ≠ "") = true
      · rw [if_pos hnamed]
        by_cases hlive : (Readiness.level cfg e).1.isLive = true
        · rw [if_pos ⟨hnamed, hlive⟩, if_pos hlive]
        · rw [if_neg fun h => hlive h.2, if_neg hlive, counted_missed]
          rfl
      · rw [if_neg hnamed, if_neg fun h => hnamed h.1]
        rfl

theorem someQualifies_contextEvaluations :
    SomeQualifies (Readiness.contextEvaluations cfg report key) ↔
      (Readiness.contextKeys cfg report).filter (fun k => k = key) ≠ [] := by
  unfold SomeQualifies Readiness.contextEvaluations Readiness.contextKeys
  rw [ne_eq, List.filter_eq_nil_iff]
  simp only [List.mem_flatMap, List.mem_filter, List.mem_map]
  constructor
  · rintro ⟨_, ⟨e, ⟨he, hnamed⟩, k, ⟨hk, hname⟩, rfl⟩, hverdict⟩ hnone
    refine hnone k ⟨e, ⟨he, ?_⟩, hk⟩ hname
    grind
  · intro hsome
    push Not at hsome
    obtain ⟨k, ⟨e, ⟨he, hlive⟩, hk⟩, hname⟩ := hsome
    refine ⟨_, ⟨e, ⟨he, ?_⟩, k, ⟨hk, hname⟩, rfl⟩, ?_⟩
    · grind
    · grind

end Contexts

/-- **An enrichment**: only the evaluations that qualify are counted. -/
theorem Holds.enrich (h : Holds m key c kept) :
    Holds (enrich cfg maxConfidence report m) key
      (counted maxConfidence c (Readiness.contextEvaluations cfg report key))
      (kept ∨ SomeQualifies (Readiness.contextEvaluations cfg report key)) := by
  obtain ⟨hpasses, hentered, hsound⟩ := h
  have hlookup : (Confidence.enrich cfg maxConfidence report m).lookup key = _ :=
    Table.lookup_foldl_tallyStep m
  simp only [id_eq] at hlookup
  by_cases hks : (Readiness.contextKeys cfg report).filter (fun k => k = key) = []
  · rw [if_pos hks] at hlookup
    rw [← counted_contextEvaluations, hks, someQualifies_contextEvaluations]
    refine ⟨?_, ?_, fun ce hce => hsound ce (hlookup ▸ hce)⟩
    · rw [getConfidence, hlookup]
      exact hpasses
    · rw [hlookup, hentered]
      exact (or_iff_left fun hne => hne hks).symm
  · obtain ⟨hcount, -, hnew⟩ := @ConfidenceEntry.foldl_passContext maxConfidence
      (m.getConfidence key) ((Readiness.contextKeys cfg report).filter fun k => k = key)
    rw [if_neg hks] at hlookup
    rw [← counted_contextEvaluations, someQualifies_contextEvaluations, ← hpasses]
    refine ⟨?_, ?_, fun ce hce => ?_⟩
    · rw [getConfidence, hlookup]
      exact hcount
    · rw [hlookup]
      exact iff_of_true rfl (.inr hks)
    · rw [hlookup] at hce
      obtain rfl := Option.some.inj hce
      exact hnew hks

/-! ### Cycles -/

theorem blank_refresh (hblank : (m.getConfidence "").rollingCount = 0) :
    ((refreshEligible cfg maxConfidence futures spot m).2.2.getConfidence "").rollingCount = 0 := by
  unfold refreshEligible
  dsimp only
  rw [getConfidence, lookup_cleanUp]
  split_ifs
  · rfl
  · have hsame : (buildRolling (futures ++ spot) m).lookup "" = m.lookup "" :=
      lookup_buildRolling fun e _ hne => hne
    rw [fst_foldl_refreshStep, Table.getD_lookup_foldl_tallyStep,
      ConfidenceEntry.rollingCount_foldl_evaluate, buildRolling_append, hsame]
    exact hblank

theorem blank_enrich (hblank : (m.getConfidence "").rollingCount = 0) :
    ((enrich cfg maxConfidence report m).getConfidence "").rollingCount = 0 := by
  rw [getConfidence, enrich, Table.getD_lookup_foldl_tallyStep]
  exact (ConfidenceEntry.foldl_passContext _).2.1.trans hblank

/-- Entries without a symbol never have rolling figures. -/
theorem blank_run (cycles : List Reports) :
    ((run cfg maxConfidence cycles).getConfidence "").rollingCount = 0 := by
  induction cycles using List.reverseRecOn with
  | nil => rfl
  | append_singleton cycles r ih =>
      rw [run, List.foldl_append]
      exact blank_enrich (blank_enrich (blank_refresh ih))

/-- **One cycle.** -/
theorem Holds.cycle (hmax : 0 ≤ maxConfidence) (hblank : (m.getConfidence "").rollingCount = 0)
    (h : Holds m key c kept) (hc : 0 ≤ c) (hzero : ¬ kept → c = 0) :
    Holds (cycle cfg maxConfidence m r) key
      (counted maxConfidence c (Readiness.cycleEvaluations cfg key r))
      (SomeQualifies (Readiness.cycleEvaluations cfg key r) ∨
        kept ∧ ¬ (Readiness.symbolEvaluations cfg r key ≠ [] ∧
          ¬ SomeQualifies (Readiness.symbolEvaluations cfg r key) ∧
          counted maxConfidence c (Readiness.symbolEvaluations cfg r key) = 0)) := by
  have hrefresh : Holds (refreshEligible cfg maxConfidence r.futures r.spot m).2.2 key _ _ :=
    h.refresh hmax hblank hc
  have hfutures : Holds (Confidence.enrich cfg maxConfidence r.futuresTf
      (refreshEligible cfg maxConfidence r.futures r.spot m).2.2) key _ _ := hrefresh.enrich
  have hcycle : Holds (Confidence.enrich cfg maxConfidence r.spotTf
      (Confidence.enrich cfg maxConfidence r.futuresTf
        (refreshEligible cfg maxConfidence r.futures r.spot m).2.2)) key _ _ := hfutures.enrich
  obtain ⟨hpasses, hentered, hsound⟩ := hcycle
  refine ⟨?_, hentered.trans ?_, hsound⟩
  · rw [Readiness.cycleEvaluations, counted_append, counted_append]
    exact hpasses
  · have hsome : SomeQualifies (Readiness.cycleEvaluations cfg key r) ↔
        (SomeQualifies (Readiness.symbolEvaluations cfg r key) ∨
          SomeQualifies (Readiness.contextEvaluations cfg r.futuresTf key)) ∨
          SomeQualifies (Readiness.contextEvaluations cfg r.spotTf key) := by
      simp only [SomeQualifies, Readiness.cycleEvaluations, List.mem_append, or_and_right,
        exists_or]
    -- without an entry there is no confidence, and none comes of failing
    have hstill : ¬ kept → ¬ SomeQualifies (Readiness.symbolEvaluations cfg r key) →
        counted maxConfidence c (Readiness.symbolEvaluations cfg r key) = 0 := by
      intro hout hfails
      rw [hzero hout]
      exact counted_zero hfails
    have hnil : Readiness.symbolEvaluations cfg r key = [] →
        ¬ SomeQualifies (Readiness.symbolEvaluations cfg r key) := by
      rintro hvs ⟨e, he, -⟩
      rw [hvs] at he
      cases he
    rw [hsome]
    clear hpasses hentered hsound hsome h hblank
    grind

/-- **After any cycles.** -/
theorem holds_run (hmax : 0 ≤ maxConfidence) (cycles : List Reports)
    (hes : NothingToLose maxConfidence (Readiness.evaluations cfg key cycles)) :
    Holds (run cfg maxConfidence cycles) key
      (expected maxConfidence (Readiness.evaluations cfg key cycles))
      (HeldSince (Readiness.QualifiesIn cfg key) (Readiness.LosesAllIn cfg maxConfidence key)
        cycles) := by
  induction cycles using List.reverseRecOn with
  | nil =>
      refine ⟨rfl, iff_of_false Bool.false_ne_true not_heldSince_nil, fun ce hce => ?_⟩
      cases hce
  | append_singleton cycles r ih =>
      have hsplit : Readiness.evaluations cfg key (cycles ++ [r]) =
          Readiness.evaluations cfg key cycles ++ Readiness.cycleEvaluations cfg key r := by
        rw [Readiness.evaluations, List.flatMap_append, List.flatMap_singleton]
        rfl
      have hloop : NothingToLose maxConfidence (Readiness.evaluations cfg key cycles ++
          Readiness.symbolEvaluations cfg r key) := by
        rw [hsplit, Readiness.cycleEvaluations, List.append_assoc, ← List.append_assoc] at hes
        exact hes.of_append
      rw [hsplit] at hes ⊢
      have hpast := ih hes.of_append
      have hnonneg : 0 ≤ expected maxConfidence (Readiness.evaluations cfg key cycles) := by
        rw [← hes.of_append.counted_eq]
        exact counted_nonneg hmax le_rfl
      have hzero : ¬ HeldSince (Readiness.QualifiesIn cfg key)
          (Readiness.LosesAllIn cfg maxConfidence key) cycles →
          expected maxConfidence (Readiness.evaluations cfg key cycles) = 0 := by
        intro hout
        have hnone := Option.not_isSome_iff_eq_none.1 (mt hpast.entered.1 hout)
        rw [← hpast.passes, getConfidence, hnone]
        rfl
      have hcycle : Holds (cycle cfg maxConfidence (run cfg maxConfidence cycles) r) key _ _ :=
        hpast.cycle hmax (blank_run cycles) hnonneg hzero
      rw [hes.counted_expected, hloop.counted_expected] at hcycle
      rw [run, List.foldl_append, heldSince_concat]
      exact hcycle

end Confidence

/-! ## A context that is no longer ready

A context is proven in one cycle and has a failing grade in the next.
-/

namespace LostContext

/-- Its entry when it is proven. -/
def proven : ReportEntry where
  symbol := "BTCUSDT"
  timeframe := "15"
  grade := "A"
  total := 30
  wins := 20
  winRate := 200 / 3
  totalPnl := 40
  avgPnl := 4 / 3

/-- Its entry after a run of losses. -/
def failing : ReportEntry where
  symbol := "BTCUSDT"
  timeframe := "15"
  grade := "F"
  total := 60
  wins := 20
  winRate := 100 / 3
  totalPnl := -40
  avgPnl := -2 / 3

/-- A cycle whose only report has one entry. -/
def cycle (e : ReportEntry) : Reports := { futuresTf := [e] }

theorem evaluateAll_nil (cfg : ReadinessConfig) : Readiness.evaluateAll cfg [] [] = [] := by
  rw [Readiness.evaluateAll]
  exact List.mergeSort_nil

/-- The reports by symbol are empty, so the evaluations are those of the entry. -/
theorem evaluations_eq (es : List ReportEntry) (key : String) :
    Readiness.evaluations {} key (es.map cycle) =
      es.flatMap fun e => Readiness.contextEvaluations {} [e] key := by
  rw [Readiness.evaluations, List.flatMap_map]
  refine List.flatMap_congr fun e _ => ?_
  rw [Readiness.cycleEvaluations, Readiness.symbolEvaluations]
  show (List.map _ (List.filter _ (Readiness.evaluateAll {} [] [])) ++ _) ++ _ = _
  rw [evaluateAll_nil]
  exact List.append_nil _

/-- The other way round: it fails first, with nothing to lose, and is proven
later. -/
theorem nothingToLose : NothingToLose 10
    (Readiness.evaluations {} "BTCUSDT:15:long" ([failing, proven].map cycle)) := by
  have hes : Readiness.evaluations {} "BTCUSDT:15:long" ([failing, proven].map cycle) =
      [⟨true, .fails⟩, ⟨true, .qualifies⟩] := by
    rw [evaluations_eq]
    decide +kernel
  rw [hes]
  rintro (_ | ⟨e', _ | ⟨e'', past⟩⟩) e rest heq - hfails
  · rfl
  · -- the second one does not fail
    obtain ⟨-, heq⟩ := List.cons.inj heq
    obtain rfl := (List.cons.inj heq).1
    cases hfails
  · cases past <;> cases heq

end LostContext

open LostContext in
theorem lostContext_keeps_confidence :
    ¬ ∀ (cfg : ReadinessConfig) (maxConfidence : ℤ) (cycles : List Reports) (key : String),
      ((Confidence.run cfg maxConfidence cycles).getConfidence key).confidence =
          expected maxConfidence (Readiness.evaluations cfg key cycles) ∧
        ((Confidence.run cfg maxConfidence cycles).getConfidence key).sizeBoost =
          confidenceToBoost
            ((Confidence.run cfg maxConfidence cycles).getConfidence key).confidence := by
  intro h
  have hconf := (h {} 10 ([proven, failing].map cycle) "BTCUSDT:15:long").1
  rw [evaluations_eq] at hconf
  revert hconf
  decide +kernel

/-- **Confidence follows performance** where no context that fails has
confidence to lose. The boost is that of the confidence exactly where the
key has qualified in some cycle and has not since lost all its confidence
in the reports by symbol. -/
theorem confidence_follows {cfg : ReadinessConfig} {maxConfidence : ℤ} {cycles : List Reports}
    {key : String} (hmax : 0 ≤ maxConfidence)
    (hes : NothingToLose maxConfidence (Readiness.evaluations cfg key cycles)) :
    ((Confidence.run cfg maxConfidence cycles).getConfidence key).confidence =
        expected maxConfidence (Readiness.evaluations cfg key cycles) ∧
      (((Confidence.run cfg maxConfidence cycles).getConfidence key).sizeBoost =
          confidenceToBoost
            ((Confidence.run cfg maxConfidence cycles).getConfidence key).confidence ↔
        HeldSince (Readiness.QualifiesIn cfg key) (Readiness.LosesAllIn cfg maxConfidence key)
          cycles) :=
  (Confidence.holds_run hmax cycles hes).reads

open LostContext in
theorem confidence_follows_proven :
    ((Confidence.run {} 10 ([failing, proven].map cycle)).getConfidence
          "BTCUSDT:15:long").confidence =
        expected 10 (Readiness.evaluations {} "BTCUSDT:15:long" ([failing, proven].map cycle)) ∧
      (((Confidence.run {} 10 ([failing, proven].map cycle)).getConfidence
            "BTCUSDT:15:long").sizeBoost =
          confidenceToBoost ((Confidence.run {} 10 ([failing, proven].map cycle)).getConfidence
            "BTCUSDT:15:long").confidence ↔
        HeldSince (Readiness.QualifiesIn {} "BTCUSDT:15:long")
          (Readiness.LosesAllIn {} 10 "BTCUSDT:15:long") ([failing, proven].map cycle)) :=
  confidence_follows (by decide) nothingToLose

end WebhookTrader
