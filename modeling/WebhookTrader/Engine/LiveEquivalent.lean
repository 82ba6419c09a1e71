import WebhookTrader.Engine.Deeds
import WebhookTrader.Persistence.ShadowProcess

/-!
# Live-equivalent accounting

A handler marks an entry long after the tracker has opened a position for
it, under a key it builds by itself. A mark counts an entry whatever it
finds, while a close counts where it finds its key pending. The accounts
balance as long as every mark finds an open position under its key that
is not marked yet.
-/

namespace WebhookTrader

namespace ShadowTracker

variable {cfg : LearnerConfig} {now : ℕ} {sig : WebhookSignal} {t t' : ShadowTracker}
  {key reason : String} {price : ℚ} {vp : VirtualPosition}

/-- **The live-equivalent accounts balance**, and the books do. -/
structure LiveBalanced (t : ShadowTracker) : Prop where
  books : t.Balanced
  nodup : t.liveEquivKeys.Nodup
  entries : t.liveEquivStats.totalEntries =
    t.liveEquivStats.totalCloses + t.liveEquivKeys.length
  open_of_pending : ∀ k ∈ t.liveEquivKeys, (t.positions.lookup k).isSome = true

theorem liveBalanced_empty {learner : Learner} : LiveBalanced { learner } where
  books := balanced_empty
  nodup := List.nodup_nil
  entries := rfl
  open_of_pending := by rintro k ⟨⟩

/-- **A close of a position takes its key from the pending ones**, if it was
there, and counts it then. -/
theorem LiveBalanced.close (h : t.LiveBalanced) (hlookup : t.positions.lookup key = some vp) :
    (t.closePosition cfg now price reason key vp).LiveBalanced := by
  have hkey : key = vp.key := (t.keyed _ (AList.mem_lookup_iff.1 hlookup)).1
  have hopen : ∀ k, k ≠ vp.key → k ∈ t.liveEquivKeys →
      ((t.positions.erase key).lookup k).isSome = true := by
    intro k hne hmem
    rw [AList.lookup_erase_ne (hkey ▸ hne)]
    exact h.open_of_pending k hmem
  have hbooks : (t.closePosition cfg now price reason key vp).Balanced := h.books.close hlookup
  by_cases hmarked : vp.key ∈ t.liveEquivKeys
  · have hcontains : t.liveEquivKeys.contains vp.key = true := List.contains_iff_mem.2 hmarked
    have hlength := List.length_erase_of_mem hmarked
    have hpos := List.length_pos_of_mem hmarked
    refine ⟨hbooks, ?_, ?_, ?_⟩
    · simp only [closePosition, hcontains, if_true]
      exact h.nodup.erase _
    · have hentries := h.entries
      simp only [closePosition, hcontains, if_true, ShadowStats.close, hlength]
      omega
    · simp only [closePosition, hcontains, if_true]
      intro k hk
      exact hopen k (h.nodup.mem_erase_iff.1 hk).1 (h.nodup.mem_erase_iff.1 hk).2
  · have hcontains : t.liveEquivKeys.contains vp.key = false := by simpa using hmarked
    refine ⟨hbooks, ?_, ?_, ?_⟩
    · simp only [closePosition, hcontains, Bool.false_eq_true, if_false]
      exact h.nodup
    · simp only [closePosition, hcontains, Bool.false_eq_true, if_false]
      exact h.entries
    · simp only [closePosition, hcontains, Bool.false_eq_true, if_false]
      exact fun k hk => hopen k (fun heq => hmarked (heq ▸ hk)) hk

/-- An entry leaves the pending keys open. -/
theorem LiveBalanced.enter (h : t.LiveBalanced) (hbooks : (t.enter now sig).Balanced) :
    (t.enter now sig).LiveBalanced := by
  refine ⟨hbooks, h.nodup, h.entries, fun k hk => ?_⟩
  show ((AList.insert (opened now sig).key _ t.positions).lookup k).isSome = true
  by_cases heq : k = (opened now sig).key
  · rw [heq, AList.lookup_insert]
    rfl
  · rw [AList.lookup_insert_ne heq]
    exact h.open_of_pending k hk

theorem LiveBalanced.reverse (h : t.LiveBalanced) : (t.reverse cfg now sig).LiveBalanced := by
  unfold ShadowTracker.reverse
  split
  · rename_i vp hvp
    exact h.close hvp
  · exact h

theorem LiveBalanced.of_tracked (h : t.LiveBalanced) (htracked : Tracked cfg now sig t t') :
    t'.LiveBalanced := by
  have hbooks := h.books.of_tracked htracked
  cases htracked with
  | nothing => exact h
  | closes reason hlookup => exact h.close hlookup
  | enters hsymbol hfree hopp => exact h.enter hbooks
  | turns hsymbol hfree hopp => exact (h.close hopp).enter hbooks

/-- **Every signal keeps the accounts balanced.** -/
theorem LiveBalanced.track (h : t.LiveBalanced) : (t.track cfg now sig).LiveBalanced :=
  h.of_tracked tracked_track

/-- **A mark that finds a new open position** keeps them balanced. -/
theorem LiveBalanced.mark (h : t.LiveBalanced) (hopen : (t.positions.lookup key).isSome = true)
    (hnew : t.liveEquivKeys.contains key = false) : (t.markLiveEquivalent key).LiveBalanced := by
  have hnotMem : key ∉ t.liveEquivKeys := by simpa using hnew
  have hentries := h.entries
  refine ⟨h.books.mark key, ?_, ?_, ?_⟩
  · simp only [markLiveEquivalent, hnew, Bool.false_eq_true, if_false]
    exact List.nodup_cons.2 ⟨hnotMem, h.nodup⟩
  · simp only [markLiveEquivalent, hnew, Bool.false_eq_true, if_false, List.length_cons]
    omega
  · simp only [markLiveEquivalent, hnew, Bool.false_eq_true, if_false, List.forall_mem_cons]
    exact ⟨hopen, h.open_of_pending⟩

/-- **Accounts that were saved in balance come back in balance.** -/
theorem LiveBalanced.restored (h : t.LiveBalanced) (hrestored : t.RestoredAs t') :
    t'.LiveBalanced := by
  have hkeys := hrestored.liveEquivKeys h.nodup
  refine ⟨ShadowProcess.balanced_of_restored h.books hrestored, ?_, ?_, fun k hk => ?_⟩
  · rw [hkeys]
    exact List.nodup_reverse.2 h.nodup
  · rw [hkeys, hrestored.liveEquivStats, List.length_reverse]
    exact h.entries
  · rw [hkeys, List.mem_reverse] at hk
    obtain ⟨vp, hvp⟩ := Option.isSome_iff_exists.1 (h.open_of_pending k hk)
    have hmem : (⟨k, vp⟩ : Sigma fun _ : String => VirtualPosition) ∈ t'.positions.entries := by
      rw [hrestored.positions h.books.named, List.mem_reverse]
      exact AList.mem_lookup_iff.1 hvp
    rw [AList.mem_lookup_iff.2 hmem]
    rfl

end ShadowTracker

/-! ## Runs -/

section Runs

variable {cfg : DeskConfig} {parse : Text → Option Json} {s s' : Floor} {l : FloorLabel}
  {tracker : ShadowTracker}

/-- **What a step does to the tracker**: nothing, or it tracks a signal, or
it is a mark. -/
theorem Floor.shadow_of_next (h : (floorSystem cfg parse).next s l = some s') :
    s'.shared.shadow = s.shared.shadow ∨
      (∃ now sig, s'.shared.shadow = s.shared.shadow.track cfg.learner now sig) ∨
      ∃ key, l = .event (.markLive key) ∧
        s'.shared.shadow = s.shared.shadow.markLiveEquivalent key := by
  cases Threads.move_of_next h with
  | start => exact .inl rfl
  | work i hjob hstep =>
      cases Worker.move_of_step hstep with
      | shadow q now => exact .inr (.inl ⟨_, _, rfl⟩)
      | spot ticket hspot =>
          cases SpotJob.move_of_step hspot with
          | quiet => exact .inl rfl
          | account => exact .inl rfl
      | _ => exact .inl rfl
  | event e happly =>
      cases e with
      | markLive key =>
          obtain rfl := Option.some.inj happly
          exact .inr (.inr ⟨key, rfl, rfl⟩)
      | request withinRate req rd =>
          simp only [DeskEvent.apply] at happly
          split at happly <;> (obtain rfl := Option.some.inj happly; exact .inl rfl)
      | engine e =>
          obtain ⟨_, -, rfl⟩ := Option.map_eq_some_iff.1 happly
          exact .inl rfl
      | clearRecent =>
          simp only [DeskEvent.apply, Option.ite_none_right_eq_some, Option.some.injEq] at happly
          obtain ⟨-, rfl⟩ := happly
          exact .inl rfl
      | tick | stop =>
          obtain rfl := Option.some.inj happly
          exact .inl rfl

/-- **Every mark finds an open position that is not marked.** -/
def MarksOpen (s : Floor) : FloorLabel → Prop
  | .event (.markLive key) => (s.shared.shadow.positions.lookup key).isSome = true ∧
      s.shared.shadow.liveEquivKeys.contains key = false
  | _ => True

instance (s : Floor) (l : FloorLabel) : Decidable (MarksOpen s l) := by
  unfold MarksOpen
  split <;> infer_instance

/-- **Every mark is a handler's**, which has passed every check of the
entry, under the key the handler builds. -/
def MarksOwn (s : Floor) : FloorLabel → Prop
  | .event (.markLive key) => (s.jobs.any fun
      | .futures _ (.entry j) => j.pc = .dispatchShadow && j.contextKey = key
      | _ => false) = true
  | _ => True

instance (s : Floor) (l : FloorLabel) : Decidable (MarksOwn s l) := by
  unfold MarksOwn
  split <;> infer_instance

/-- **A tracker over the lives of the program**: new, after a run of the
engine, in the middle of a reversal, or loaded from what was saved. -/
inductive Lived (cfg : DeskConfig) (parse : Text → Option Json) (G : Floor → FloorLabel → Prop) :
    ShadowTracker → Prop
  | new (learner : Learner) : Lived cfg parse G { learner }
  | run {s s' : Floor} (hlived : Lived cfg parse G s.shared.shadow)
      (hinit : (floorSystem cfg parse).init s) (hrun : (floorSystem cfg parse).Run G s s') :
      Lived cfg parse G s'.shared.shadow
  | midway {t : ShadowTracker} (hlived : Lived cfg parse G t) (now : ℕ) (sig : WebhookSignal) :
      Lived cfg parse G (t.reverse cfg.learner now sig)
  | restart {t t' : ShadowTracker} (hlived : Lived cfg parse G t) (learner : Learner)
      (hload : ShadowTracker.load learner (.document t.toJson) = some t') : Lived cfg parse G t'

/-- **The step.** -/
theorem liveBalanced_next (hs : s.shared.shadow.LiveBalanced) (hg : MarksOpen s l)
    (h : (floorSystem cfg parse).next s l = some s') : s'.shared.shadow.LiveBalanced := by
  rcases Floor.shadow_of_next h with heq | ⟨now, sig, heq⟩ | ⟨key, rfl, heq⟩
  · exact heq ▸ hs
  · exact heq ▸ hs.track
  · exact heq ▸ hs.mark hg.1 hg.2

/-- **Over the program's lives.** -/
theorem liveBalanced_of_lived (h : Lived cfg parse MarksOpen tracker) : tracker.LiveBalanced := by
  induction h with
  | new learner => exact ShadowTracker.liveBalanced_empty
  | run _ _ hrun ih =>
      exact System.Run.invariant (I := fun s : Floor => s.shared.shadow.LiveBalanced)
        (fun _ _ _ hs hg hn => liveBalanced_next hs hg hn) hrun ih
  | midway _ now sig ih => exact ih.reverse
  | restart _ learner hload ih =>
      obtain ⟨t', hload', hrestored⟩ := ShadowTracker.load_toJson learner _
      obtain rfl := Option.some.inj (hload'.symm.trans hload)
      exact ih.restored hrestored

/-- **Live-equivalent accounting balances** in every run whose marks find
open positions that are not marked. -/
theorem live_equivalents_balance (h : Lived cfg parse MarksOpen tracker) :
    tracker.liveEquivStats.totalEntries =
        tracker.liveEquivStats.totalCloses + tracker.liveEquivKeys.length ∧
      ∀ k ∈ tracker.liveEquivKeys, ∃ vp, tracker.positions.lookup k = some vp ∧ vp.key = k := by
  have hbalanced := liveBalanced_of_lived h
  refine ⟨hbalanced.entries, fun k hk => ?_⟩
  obtain ⟨vp, hvp⟩ := Option.isSome_iff_exists.1 (hbalanced.open_of_pending k hk)
  exact ⟨vp, hvp, ((tracker.keyed _ (AList.mem_lookup_iff.1 hvp)).1).symm⟩

end Runs

/-! ## A buy without a timeframe -/

namespace MarkRun

open FloorRun

/-- A buy in the indicator's format. -/
def alertBuy : Json :=
  .obj [("alert", .str "BUY"), ("signal_direction", .str "bull"), ("ticker", .str "BTCUSDT.P"),
    ("close", .int 50), ("timeframe", .str "15")]

/-- A request is accepted, and a worker handles it up to the mark. -/
def labels (key : String) : List FloorLabel :=
  request 0 {} :: works 0 18 ++ [.event (.markLive key)]

end MarkRun

open MarkRun FloorRun in
/-- **A mark under a key of its own.** The tracker opens a position for a
buy of the generic format under the timeframe `0`, and the handler marks
the timeframe `unknown`. -/
theorem mark_without_position :
    ¬ ∀ (cfg : DeskConfig) (parse : Text → Option Json) (tracker : ShadowTracker),
      Lived cfg parse MarksOwn tracker →
      tracker.liveEquivStats.totalEntries =
          tracker.liveEquivStats.totalCloses + tracker.liveEquivKeys.length ∧
        ∀ k ∈ tracker.liveEquivKeys, ∃ vp, tracker.positions.lookup k = some vp ∧ vp.key = k := by
  intro h
  obtain ⟨s, hrun, hs⟩ := System.exists_run_of_play
    (M := floorSystem (shadow 1) fun _ => some (buy "BTCUSDT")) (G := MarksOwn)
    (s := (start (shadow 1) ∅).1) (labels "BTCUSDT:unknown:long")
    (P := fun s => s.shared.shadow.liveEquivKeys = ["BTCUSDT:unknown:long"] ∧
      s.shared.shadow.positions.lookup "BTCUSDT:unknown:long" = none) (by decide +kernel)
  have hlived : Lived (shadow 1) (fun _ => some (buy "BTCUSDT")) MarksOwn s.shared.shadow :=
    .run (.new ∅) (start_init _ _ _).1 hrun
  obtain ⟨vp, hvp, -⟩ := (h _ _ _ hlived).2 "BTCUSDT:unknown:long" (by rw [hs.1]; exact .head _)
  rw [hs.2] at hvp
  cases hvp

open MarkRun FloorRun in
theorem live_equivalents_balance_alertBuy :
    ∃ s, (floorSystem (shadow 1) fun _ => some alertBuy).Run MarksOpen (start (shadow 1) ∅).1 s ∧
      s.shared.shadow.liveEquivKeys = ["BTCUSDT:15:long"] ∧
      s.shared.shadow.liveEquivStats.totalEntries =
          s.shared.shadow.liveEquivStats.totalCloses + s.shared.shadow.liveEquivKeys.length ∧
      ∀ k ∈ s.shared.shadow.liveEquivKeys, ∃ vp,
        s.shared.shadow.positions.lookup k = some vp ∧ vp.key = k := by
  obtain ⟨s, hrun, hs⟩ := System.exists_run_of_play
    (M := floorSystem (shadow 1) fun _ => some alertBuy) (G := MarksOpen)
    (s := (start (shadow 1) ∅).1) (labels "BTCUSDT:15:long")
    (P := fun s => s.shared.shadow.liveEquivKeys = ["BTCUSDT:15:long"]) (by decide +kernel)
  have hlived : Lived (shadow 1) (fun _ => some alertBuy) MarksOpen s.shared.shadow :=
    .run (.new ∅) (start_init _ _ _).1 hrun
  exact ⟨s, hrun, hs, live_equivalents_balance hlived⟩

end WebhookTrader
