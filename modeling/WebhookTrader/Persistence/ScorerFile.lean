import WebhookTrader.Common.Since
import WebhookTrader.Persistence.LearnerFile
import WebhookTrader.Persistence.Model.ScorerFile
import WebhookTrader.Risk.Scorer

/-!
# The figures of the closes over a restart

A score is read back as it was, but for the rounding of its timeframes.
The sums its figures are computed from are not written down: a scorer that
is started again begins them anew. So the figures of a context survive
until a close of it is written over them that does not remember an earlier
one.
-/

namespace WebhookTrader

/-! ## A score is read back -/

namespace TfSubScore

/-- What a timeframe's part comes back as. -/
def reloaded (s : TfSubScore) : TfSubScore :=
  { s with
    winRate := roundHalfAway (s.winRate * 1000) / 10 / 100
    pnl := roundHalfAway (s.pnl * 10000) / 10000 }

theorem fromJson_toJson (s : TfSubScore) : fromJson s.toJson = .ok s.reloaded := rfl

end TfSubScore

namespace FullScore

/-- **What a score comes back as.** -/
def reloaded (s : FullScore) : FullScore :=
  { s with
    tfScores := (Table.readEach TfSubScore.fromJson (s.tfScores.toPairs TfSubScore.toJson) ∅).1 }

/-- **A score is read back.** -/
theorem fromJson_toJson (s : FullScore) : fromJson s.toJson = .ok s.reloaded := rfl

@[simp] theorem metrics_reloaded (s : FullScore) : s.reloaded.metrics = s.metrics := rfl

end FullScore

namespace Scorer

/-- **The contexts' scores are read back**, key by key. -/
theorem lookup_loadContextScores (s : Scorer) (now key : String) :
    (loadContextScores (.document (s.contextScoresJson now))).lookup key =
      (s.contextScores.lookup key).map FullScore.reloaded := by
  have hfield : (s.contextScoresJson now).value Except.ok "context_scores" (.obj []) =
      .ok (.ofFields (s.contextScores.toPairs FullScore.toJson)) := rfl
  rw [loadContextScores, readScores, hfield]
  simp only [Json.items_ofFields]
  exact (Table.readEach_toPairs FullScore.fromJson_toJson s.contextScores).2 key

end Scorer

/-! ## Operations on a context -/

namespace ScorerOp

variable {key : String} {op : ScorerOp}

/-- It records a close of the context. -/
def Realizes (key : String) : ScorerOp → Prop
  | realizedTrade symbol timeframe direction .. =>
      Scorer.computeContextKey symbol timeframe direction = key
  | _ => False

/-- It makes the context's entry where there is none. -/
def Enters (key : String) : ScorerOp → Prop
  | contextTrade symbol timeframe direction .. =>
      Scorer.computeContextKey symbol timeframe direction = key
  | _ => False

/-- It is not a restart. -/
def records : ScorerOp → Bool
  | restart => false
  | _ => true

/-- What a close adds to the sums of its context. -/
def add : ScorerOp → RealizedAccumulator → RealizedAccumulator
  | realizedTrade _ _ _ grossPnl feeCost realizedRr _ =>
      Scorer.addRealized grossPnl feeCost realizedRr
  | _ => id

/-- **A close of the context has been forgotten**: there was a restart after
it. -/
def Forgotten (key : String) (ops : List ScorerOp) : Prop :=
  Once (fun past op => op = restart ∧ ∃ op' ∈ past, op'.Realizes key) ops

/-- The context has an entry, from the files or from a context trade. -/
def Entered (files : ScorerFiles) (key : String) (ops : List ScorerOp) : Prop :=
  ((Scorer.load files).metrics key).isSome = true ∨ ∃ op ∈ ops, op.Enters key

/-- **A close of the context is written over what has been forgotten**, into
its entry. -/
def Overwritten (files : ScorerFiles) (key : String) (ops : List ScorerOp) : Prop :=
  Once (fun past op => op.Realizes key ∧ Forgotten key past ∧ Entered files key past) ops

end ScorerOp

namespace ScorerProcess

open ScorerOp

variable {cfg : ScorerConfig} {files : ScorerFiles} {key : String} {op : ScorerOp}
  {p q : ScorerProcess} {past ops : List ScorerOp}

/-- The file has the figures of the contexts. -/
def Backed (p : ScorerProcess) : Prop := ∀ key, (Scorer.load p.files).metrics key =
  p.scorer.metrics key

theorem backed_save (now : String) : (p.saveContextScores now).Backed := by
  intro key
  have hload : (Scorer.load (p.saveContextScores now).files).contextScores =
      Scorer.loadContextScores (.document (p.scorer.contextScoresJson now)) := rfl
  rw [Scorer.metrics, hload, Scorer.lookup_loadContextScores, Option.map_map]
  rfl

/-- Only a context with an entry has figures to save. -/
theorem backed_step (h : p.Backed) : (p.step cfg op).Backed := by
  cases op with
  | contextTrade symbol timeframe direction pnl isWin now => exact backed_save now
  | restart => exact fun key => rfl
  | realizedTrade symbol timeframe direction grossPnl feeCost realizedRr now =>
      simp only [step]
      split_ifs with hentry
      · exact backed_save now
      · intro key
        show (Scorer.load p.files).metrics key = _
        rw [h key]
        by_cases hkey : Scorer.computeContextKey symbol timeframe direction = key
        · have hnone : p.scorer.metrics key = none := by
            rw [Scorer.metrics, ← hkey]
            rw [Scorer.getContextScore, Bool.not_eq_true, Option.isSome_eq_false_iff,
              Option.isNone_iff_eq_none] at hentry
            rw [hentry, Option.map_none]
          rw [Scorer.metrics_recordRealizedTrade hkey, hnone, Option.map_none]
        · rw [Scorer.metrics_recordRealizedTrade_ne hkey]

/-- The scorer after a realized trade, whether it is saved or not. -/
theorem scorer_realizedTrade {symbol timeframe direction now : String}
    {grossPnl feeCost realizedRr : ℚ} :
    (p.step cfg (.realizedTrade symbol timeframe direction grossPnl feeCost realizedRr now)).scorer =
      p.scorer.recordRealizedTrade symbol timeframe direction grossPnl feeCost realizedRr := by
  simp only [step]
  split_ifs <;> rfl

variable (cfg p) in
/-- **A close of the context** adds to the sums, and an entry follows
them. -/
theorem step_of_realizes (h : op.Realizes key) :
    (p.step cfg op).scorer.sums key = op.add (p.scorer.sums key) ∧
      (p.step cfg op).scorer.metrics key =
        (p.scorer.metrics key).map fun _ => (op.add (p.scorer.sums key)).metrics := by
  cases op with
  | realizedTrade =>
      rw [scorer_realizedTrade]
      exact ⟨Scorer.sums_recordRealizedTrade h, Scorer.metrics_recordRealizedTrade h⟩
  | _ => cases h

variable (cfg p) in
/-- **A context trade** makes the entry. -/
theorem step_of_enters (h : op.Enters key) :
    (p.step cfg op).scorer.sums key = p.scorer.sums key ∧
      (p.step cfg op).scorer.metrics key = some ((p.scorer.metrics key).getD {}) := by
  cases op with
  | contextTrade => exact ⟨rfl, Scorer.metrics_recordContextTrade h⟩
  | _ => cases h

variable (cfg key) in
/-- **A restart** begins the sums anew. -/
theorem step_restart (h : p.Backed) :
    (p.step cfg .restart).scorer.sums key = {} ∧
      (p.step cfg .restart).scorer.metrics key = p.scorer.metrics key := ⟨rfl, h key⟩

variable (cfg p) in
/-- Another context is left alone. -/
theorem step_of_others (hrealizes : ¬ op.Realizes key) (henters : ¬ op.Enters key)
    (hrestart : op ≠ .restart) :
    (p.step cfg op).scorer.sums key = p.scorer.sums key ∧
      (p.step cfg op).scorer.metrics key = p.scorer.metrics key := by
  cases op with
  | contextTrade => exact ⟨rfl, Scorer.metrics_recordContextTrade_ne henters⟩
  | realizedTrade =>
      rw [scorer_realizedTrade]
      exact ⟨Scorer.sums_recordRealizedTrade_ne hrealizes,
        Scorer.metrics_recordRealizedTrade_ne hrealizes⟩
  | restart => exact absurd rfl hrestart

/-! ## Two runs of a scorer -/

/-- **The sums of a context with restarts and without them.** They are the
same until a close has been forgotten, and then there are fewer. -/
structure Remembers (key : String) (past : List ScorerOp) (p q : Scorer) : Prop where
  none : (¬ ∃ op ∈ past, op.Realizes key) → q.sums key = {}
  some : (∃ op ∈ past, op.Realizes key) → 0 < (q.sums key).count
  same : ¬ Forgotten key past → p.sums key = q.sums key
  fewer : Forgotten key past → (p.sums key).count < (q.sums key).count

/-- **The figures of a context with restarts and without them.** Both have
an entry together. -/
structure Follows (files : ScorerFiles) (key : String) (past : List ScorerOp) (p q : Scorer) :
    Prop where
  left : (p.metrics key).isSome = true ↔ Entered files key past
  right : (q.metrics key).isSome = true ↔ Entered files key past
  same : p.metrics key = q.metrics key ↔ ¬ Overwritten files key past

section TwoRuns

theorem exists_concat_realizes : (∃ op' ∈ past ++ [op], op'.Realizes key) ↔
    (∃ op' ∈ past, op'.Realizes key) ∨ op.Realizes key := by
  simp [or_and_right, exists_or]

theorem entered_concat : Entered files key (past ++ [op]) ↔
    Entered files key past ∨ op.Enters key := by
  simp [Entered, or_and_right, exists_or, or_assoc]

theorem forgotten_concat : Forgotten key (past ++ [op]) ↔
    op = .restart ∧ (∃ op' ∈ past, op'.Realizes key) ∨ Forgotten key past := once_concat

theorem overwritten_concat : Overwritten files key (past ++ [op]) ↔
    (op.Realizes key ∧ Forgotten key past ∧ Entered files key past) ∨
      Overwritten files key past := once_concat

/-- What is forgotten was recorded. -/
theorem exists_of_forgotten (h : Forgotten key past) : ∃ op ∈ past, op.Realizes key := by
  obtain ⟨before, op, rest, rfl, -, op', hop', hrealizes⟩ := h
  exact ⟨op', List.mem_append_left _ hop', hrealizes⟩

/-- What is overwritten has been forgotten. -/
theorem forgotten_of_overwritten (h : Overwritten files key past) : Forgotten key past := by
  obtain ⟨before, op, rest, rfl, -, hforgotten, -⟩ := h
  exact hforgotten.append _

/-- Sums that count differently make different figures. -/
theorem metrics_ne_of_count_lt {acc acc' : RealizedAccumulator} (h : acc.count < acc'.count) :
    acc.metrics ≠ acc'.metrics := fun heq =>
  absurd (congrArg RealizedMetrics.realizedTradeCount heq) h.ne

theorem count_add (h : op.Realizes key) (acc : RealizedAccumulator) :
    (op.add acc).count = acc.count + 1 := by
  cases op with
  | realizedTrade => rfl
  | _ => cases h

/-- Entries that are there together are equal where they are there. -/
theorem some_getD_eq_iff {a b : Option RealizedMetrics} (h : a.isSome = b.isSome) :
    some (a.getD {}) = some (b.getD {}) ↔ a = b := by
  cases a with
  | none =>
      obtain rfl : b = none := Option.isNone_iff_eq_none.1 (by simpa using h.symm)
      exact iff_of_true rfl rfl
  | some m =>
      obtain ⟨m', rfl⟩ := Option.isSome_iff_exists.1 h.symm
      exact Iff.rfl

/-- A close of the context, in both runs. -/
theorem Remembers.realizes (h : Remembers key past p.scorer q.scorer) (hop : op.Realizes key) :
    Remembers key (past ++ [op]) (p.step cfg op).scorer (q.step cfg op).scorer := by
  have hrestart : op ≠ .restart := by
    rintro rfl
    exact hop
  have hforgotten : Forgotten key (past ++ [op]) ↔ Forgotten key past := by
    rw [forgotten_concat]
    exact or_iff_right fun hfirst => hrestart hfirst.1
  obtain ⟨hp, -⟩ := step_of_realizes cfg p hop
  obtain ⟨hq, -⟩ := step_of_realizes cfg q hop
  constructor
  · intro hnone
    exact absurd (exists_concat_realizes.2 (.inr hop)) hnone
  · intro _
    rw [hq, count_add hop]
    by_cases hpast : ∃ op' ∈ past, op'.Realizes key
    · have := h.some hpast
      omega
    · rw [h.none hpast]
      decide
  · intro hnot
    rw [hp, hq, h.same fun hpast => hnot (hforgotten.2 hpast)]
  · intro hpast
    have hfewer := h.fewer (hforgotten.1 hpast)
    rw [hp, hq, count_add hop, count_add hop]
    omega

/-- Another operation that is no restart, in both runs. -/
theorem Remembers.others (h : Remembers key past p.scorer q.scorer) (hop : ¬ op.Realizes key)
    (hrestart : op ≠ .restart) :
    Remembers key (past ++ [op]) (p.step cfg op).scorer (q.step cfg op).scorer := by
  have hsums : ∀ r : ScorerProcess, (r.step cfg op).scorer.sums key = r.scorer.sums key := by
    intro r
    by_cases henters : op.Enters key
    · exact (step_of_enters cfg r henters).1
    · exact (step_of_others cfg r hop henters hrestart).1
  have hrealized : (∃ op' ∈ past ++ [op], op'.Realizes key) ↔ ∃ op' ∈ past, op'.Realizes key := by
    rw [exists_concat_realizes]
    exact or_iff_left hop
  have hforgotten : Forgotten key (past ++ [op]) ↔ Forgotten key past := by
    rw [forgotten_concat]
    exact or_iff_right fun hfirst => hrestart hfirst.1
  constructor
  · rw [hrealized, hsums]
    exact h.none
  · rw [hrealized, hsums]
    exact h.some
  · rw [hforgotten, hsums, hsums]
    exact h.same
  · rw [hforgotten, hsums, hsums]
    exact h.fewer

/-- A restart in the one run. -/
theorem Remembers.restart (h : Remembers key past p.scorer q.scorer) (hp : p.Backed) :
    Remembers key (past ++ [.restart]) (p.step cfg .restart).scorer q.scorer := by
  have hrealized : (∃ op' ∈ past ++ [.restart], op'.Realizes key) ↔
      ∃ op' ∈ past, op'.Realizes key := by
    rw [exists_concat_realizes]
    exact or_iff_left id
  obtain ⟨hsums, -⟩ := step_restart cfg key hp
  constructor
  · rw [hrealized]
    exact h.none
  · rw [hrealized]
    exact h.some
  · intro hnot
    rw [hsums]
    refine (h.none fun hsome => hnot ?_).symm
    exact forgotten_concat.2 (.inl ⟨rfl, hsome⟩)
  · intro hforgotten
    have hsome : ∃ op' ∈ past, op'.Realizes key := by
      rcases forgotten_concat.1 hforgotten with ⟨-, hsome⟩ | hbefore
      · exact hsome
      · exact exists_of_forgotten hbefore
    rw [hsums]
    exact h.some hsome

/-- A close of the context, in both runs: it is written into the entry from
different sums where one has been forgotten. -/
theorem Follows.realizes (h : Follows files key past p.scorer q.scorer)
    (hsums : Remembers key past p.scorer q.scorer) (hop : op.Realizes key) :
    Follows files key (past ++ [op]) (p.step cfg op).scorer (q.step cfg op).scorer := by
  have hentered : Entered files key (past ++ [op]) ↔ Entered files key past := by
    rw [entered_concat]
    refine or_iff_left fun henters => ?_
    cases op with
    | realizedTrade => exact henters
    | _ => exact hop
  obtain ⟨-, hp⟩ := step_of_realizes cfg p hop
  obtain ⟨-, hq⟩ := step_of_realizes cfg q hop
  constructor
  · rw [hp, Option.isSome_map, hentered]
    exact h.left
  · rw [hq, Option.isSome_map, hentered]
    exact h.right
  rw [hp, hq, overwritten_concat]
  by_cases hentry : Entered files key past
  · obtain ⟨old, hold⟩ := Option.isSome_iff_exists.1 (h.left.2 hentry)
    obtain ⟨old', hold'⟩ := Option.isSome_iff_exists.1 (h.right.2 hentry)
    rw [hold, hold', Option.map_some, Option.map_some, Option.some.injEq]
    by_cases hforgotten : Forgotten key past
    · refine iff_of_false (metrics_ne_of_count_lt ?_) fun hnot => ?_
      · rw [count_add hop, count_add hop]
        have := hsums.fewer hforgotten
        omega
      · exact hnot (.inl ⟨hop, hforgotten, hentry⟩)
    · rw [hsums.same hforgotten]
      refine iff_of_true rfl ?_
      rintro (⟨-, hpast, -⟩ | hpast)
      · exact hforgotten hpast
      · exact hforgotten (forgotten_of_overwritten hpast)
  · -- without an entry there is nothing to write into
    have hnone : p.scorer.metrics key = none := by
      rw [← Option.not_isSome_iff_eq_none]
      exact fun hsome => hentry (h.left.1 hsome)
    have hnone' : q.scorer.metrics key = none := by
      rw [← Option.not_isSome_iff_eq_none]
      exact fun hsome => hentry (h.right.1 hsome)
    have hsame : ¬ Overwritten files key past := h.same.1 (by rw [hnone, hnone'])
    rw [hnone, hnone']
    refine iff_of_true rfl ?_
    rintro (⟨-, -, hpast⟩ | hpast)
    · exact hentry hpast
    · exact hsame hpast

/-- Another operation that is no restart, in both runs. -/
theorem Follows.others (h : Follows files key past p.scorer q.scorer) (hop : ¬ op.Realizes key)
    (hrestart : op ≠ .restart) :
    Follows files key (past ++ [op]) (p.step cfg op).scorer (q.step cfg op).scorer := by
  have hoverwritten : Overwritten files key (past ++ [op]) ↔ Overwritten files key past := by
    rw [overwritten_concat]
    exact or_iff_right fun hfirst => hop hfirst.1
  by_cases henters : op.Enters key
  · obtain ⟨-, hp⟩ := step_of_enters cfg p henters
    obtain ⟨-, hq⟩ := step_of_enters cfg q henters
    have hentered : Entered files key (past ++ [op]) := entered_concat.2 (.inr henters)
    constructor
    · rw [hp]
      exact iff_of_true rfl hentered
    · rw [hq]
      exact iff_of_true rfl hentered
    · rw [hp, hq, hoverwritten, ← h.same]
      exact some_getD_eq_iff (Bool.eq_iff_iff.2 (h.left.trans h.right.symm))
  · obtain ⟨-, hp⟩ := step_of_others cfg p hop henters hrestart
    obtain ⟨-, hq⟩ := step_of_others cfg q hop henters hrestart
    have hentered : Entered files key (past ++ [op]) ↔ Entered files key past := by
      rw [entered_concat]
      exact or_iff_left henters
    constructor
    · rw [hp, hentered]
      exact h.left
    · rw [hq, hentered]
      exact h.right
    · rw [hp, hq, hoverwritten]
      exact h.same

/-- A restart in the one run. -/
theorem Follows.restart (h : Follows files key past p.scorer q.scorer) (hp : p.Backed) :
    Follows files key (past ++ [.restart]) (p.step cfg .restart).scorer q.scorer := by
  obtain ⟨-, hmetrics⟩ := step_restart cfg key hp
  have hentered : Entered files key (past ++ [.restart]) ↔ Entered files key past := by
    rw [entered_concat]
    exact or_iff_left id
  have hoverwritten : Overwritten files key (past ++ [.restart]) ↔ Overwritten files key past := by
    rw [overwritten_concat]
    exact or_iff_right fun hfirst => hfirst.1
  constructor
  · rw [hmetrics, hentered]
    exact h.left
  · rw [hentered]
    exact h.right
  · rw [hmetrics, hoverwritten]
    exact h.same

end TwoRuns

/-- **The runs with restarts and without them**, one operation after the
other. -/
theorem followed (cfg : ScorerConfig) (files : ScorerFiles) (key : String)
    (ops : List ScorerOp) :
    (play cfg files ops).Backed ∧
      Remembers key ops (play cfg files ops).scorer
        (play cfg files (ops.filter records)).scorer ∧
      Follows files key ops (play cfg files ops).scorer
        (play cfg files (ops.filter records)).scorer := by
  induction ops using List.reverseRecOn with
  | nil =>
      refine ⟨fun _ => rfl, ⟨fun _ => rfl, ?_, fun _ => rfl, ?_⟩, ⟨?_, ?_, ?_⟩⟩
      · rintro ⟨op, hop, -⟩
        cases hop
      · intro h
        exact absurd h not_once_nil
      · exact (or_iff_left (by simp)).symm
      · exact (or_iff_left (by simp)).symm
      · exact iff_of_true rfl not_once_nil
  | append_singleton past op ih =>
      obtain ⟨hbacked, hsums, hfigures⟩ := ih
      have hplay : ∀ ops', play cfg files (ops' ++ [op]) = (play cfg files ops').step cfg op :=
        fun ops' => List.foldl_concat ..
      rw [List.filter_append, hplay]
      by_cases hrestart : op = .restart
      · subst hrestart
        rw [List.filter_cons_of_neg (by decide), List.filter_nil, List.append_nil]
        exact ⟨backed_step hbacked, hsums.restart hbacked, hfigures.restart hbacked⟩
      · have hrecords : records op = true := by
          cases op with
          | restart => exact absurd rfl hrestart
          | _ => rfl
        rw [List.filter_cons_of_pos hrecords, List.filter_nil, hplay]
        by_cases hop : op.Realizes key
        · exact ⟨backed_step hbacked, hsums.realizes hop, hfigures.realizes hsums hop⟩
        · exact ⟨backed_step hbacked, hsums.others hop hrestart, hfigures.others hop hrestart⟩

end ScorerProcess

namespace ScorerRun

/-- A close with a profit of nine and a fee of one. -/
def close : ScorerOp := .realizedTrade "BTCUSDT" "15" "long" 10 1 2 "2026-01-01T00:00:00Z"

/-- The context gets its entry and a close, and one more after a restart. -/
def ops : List ScorerOp :=
  [.contextTrade "BTCUSDT" "15" "long" 9 true "2026-01-01T00:00:00Z", close, .restart, close]

end ScorerRun

end WebhookTrader
