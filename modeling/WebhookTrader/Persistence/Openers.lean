import WebhookTrader.Persistence.ShadowProcess
import WebhookTrader.Persistence.SpotGrades
import WebhookTrader.Risk.Learner

/-!
# Whose position it is

A virtual position is the one of the signal that opened it, whatever
other signals do and over restarts, until it is closed. Neither tracker
keeps that signal: the position has its symbol and, as the tracker spells
it, its timeframe, and whatever is recorded of the position goes by them.
-/

namespace WebhookTrader

namespace ShadowTracker

variable {cfg : LearnerConfig} {now : ℕ} {sig other : WebhookSignal} {t t' : ShadowTracker}
  {k key reason : String} {price : ℚ} {vp vp' : VirtualPosition}

/-- **The position a signal opened is open**: no position was there before
the signal, and one has been ever since. The tracker may have saved itself
in the middle of a reversal. -/
inductive OpenFor (cfg : LearnerConfig) (sig : WebhookSignal) : ShadowTracker → Prop
  | entered {t : ShadowTracker} (now : ℕ) (hfree : t.positions.lookup (signalKey sig) = none)
      (hthere : (t.track cfg now sig).positions.lookup (signalKey sig) ≠ none) :
      OpenFor cfg sig (t.track cfg now sig)
  | tracked {t : ShadowTracker} (h : OpenFor cfg sig t) (now : ℕ) (other : WebhookSignal)
      (hthere : (t.track cfg now other).positions.lookup (signalKey sig) ≠ none) :
      OpenFor cfg sig (t.track cfg now other)
  | midway {t : ShadowTracker} (h : OpenFor cfg sig t) (now : ℕ) (other : WebhookSignal)
      (hthere : (t.reverse cfg now other).positions.lookup (signalKey sig) ≠ none) :
      OpenFor cfg sig (t.reverse cfg now other)
  | marked {t : ShadowTracker} (h : OpenFor cfg sig t) (key : String) :
      OpenFor cfg sig (t.markLiveEquivalent key)
  | loaded {t t' : ShadowTracker} (h : OpenFor cfg sig t) (learner : Learner)
      (hload : load learner (.document t.toJson) = some t')
      (hthere : t'.positions.lookup (signalKey sig) ≠ none) : OpenFor cfg sig t'

/-! ## The position is the signal's -/

/-- What a close leaves was there. -/
theorem lookup_of_closePosition
    (h : (t.closePosition cfg now price reason key vp).positions.lookup k = some vp') :
    t.positions.lookup k = some vp' := Table.of_lookup_erase h

theorem lookup_of_reverse (h : (t.reverse cfg now sig).positions.lookup k = some vp) :
    t.positions.lookup k = some vp := by
  unfold reverse at h
  split at h
  · exact lookup_of_closePosition h
  · exact h

/-- What is there after an entry was there, or is the entry's. -/
theorem lookup_of_enter (h : (t.enter now sig).positions.lookup k = some vp) :
    t.positions.lookup k = some vp ∨ k = signalKey sig ∧ vp = opened now sig := by
  have hinsert : (AList.insert (signalKey sig) (opened now sig) t.positions).lookup k = some vp := h
  by_cases heq : k = signalKey sig
  · rw [heq, AList.lookup_insert] at hinsert
    exact .inr ⟨heq, (Option.some.inj hinsert).symm⟩
  · rw [AList.lookup_insert_ne heq] at hinsert
    exact .inl hinsert

/-- **What is there after a signal** was there, or is a position the signal
opened under a free key. -/
theorem lookup_of_tracked (htracked : Tracked cfg now sig t t')
    (h : t'.positions.lookup k = some vp) : t.positions.lookup k = some vp ∨
      sig.symbol ≠ "" ∧ t.positions.lookup k = none ∧ k = signalKey sig ∧ vp = opened now sig := by
  cases htracked with
  | nothing => exact .inl h
  | closes reason hlookup => exact .inl (lookup_of_closePosition h)
  | enters hsymbol hfree hopp =>
      rcases lookup_of_enter h with hold | ⟨rfl, hnew⟩
      · exact .inl hold
      · exact .inr ⟨hsymbol, hfree, rfl, hnew⟩
  | turns hsymbol hfree hopp =>
      rcases lookup_of_enter h with hold | ⟨rfl, hnew⟩
      · exact .inl (lookup_of_closePosition hold)
      · exact .inr ⟨hsymbol, hfree, rfl, hnew⟩

/-- **The position of a signal** is one that the signal opens, at some
time. -/
theorem OpenFor.position (h : OpenFor cfg sig t) : sig.symbol ≠ "" ∧
    ∃ now, t.positions.lookup (signalKey sig) = some (opened now sig) := by
  -- what is there after a step was there before, and is then the signal's
  have hkept : ∀ {t t' : ShadowTracker},
      (∀ vp, t'.positions.lookup (signalKey sig) = some vp →
        t.positions.lookup (signalKey sig) = some vp) →
      t'.positions.lookup (signalKey sig) ≠ none →
      (∃ now, t.positions.lookup (signalKey sig) = some (opened now sig)) →
        ∃ now, t'.positions.lookup (signalKey sig) = some (opened now sig) := by
    rintro t t' hback hthere ⟨now, hnow⟩
    obtain ⟨vp, hvp⟩ := Option.ne_none_iff_exists'.1 hthere
    have hsame := (hback vp hvp).symm.trans hnow
    exact ⟨now, hvp.trans hsame⟩
  induction h with
  | entered now hfree hthere =>
      obtain ⟨vp, hvp⟩ := Option.ne_none_iff_exists'.1 hthere
      rcases lookup_of_tracked tracked_track hvp with hold | ⟨hsymbol, -, -, rfl⟩
      · rw [hfree] at hold
        cases hold
      · exact ⟨hsymbol, now, hvp⟩
  | tracked h now other hthere ih =>
      refine ⟨ih.1, hkept (fun vp hvp => ?_) hthere ih.2⟩
      rcases lookup_of_tracked tracked_track hvp with hold | ⟨-, hnone, -⟩
      · exact hold
      · obtain ⟨_, hthere'⟩ := ih.2
        rw [hnone] at hthere'
        cases hthere'
  | midway h now other hthere ih =>
      exact ⟨ih.1, hkept (fun vp hvp => lookup_of_reverse hvp) hthere ih.2⟩
  | marked h key ih => exact ih
  | loaded h learner hload hthere ih =>
      exact ⟨ih.1, hkept (fun vp hvp => lookup_load hload hvp) hthere ih.2⟩


/-- Every position is some signal's. -/
def AllOpenFor (cfg : LearnerConfig) (t : ShadowTracker) : Prop :=
  ∀ k vp, t.positions.lookup k = some vp → ∃ sig, k = signalKey sig ∧ OpenFor cfg sig t

theorem kept_allOpenFor : ShadowProcess.Kept cfg (AllOpenFor cfg) where
  empty learner k vp h := by cases h
  reverse t now other h k vp hvp := by
    obtain ⟨sig, rfl, hopen⟩ := h k vp (lookup_of_reverse hvp)
    exact ⟨sig, rfl, hopen.midway now other (Option.ne_none_iff_exists'.2 ⟨vp, hvp⟩)⟩
  track t now other h k vp hvp := by
    have hthere : (t.track cfg now other).positions.lookup k ≠ none :=
      Option.ne_none_iff_exists'.2 ⟨vp, hvp⟩
    rcases lookup_of_tracked tracked_track hvp with hold | ⟨-, hfree, rfl, -⟩
    · obtain ⟨sig, rfl, hopen⟩ := h k vp hold
      exact ⟨sig, rfl, hopen.tracked now other hthere⟩
    · exact ⟨other, rfl, .entered now hfree hthere⟩
  mark t key h k vp hvp := by
    obtain ⟨sig, rfl, hopen⟩ := h k vp hvp
    exact ⟨sig, rfl, hopen.marked key⟩
  load t learner t' h hload k vp hvp := by
    obtain ⟨sig, rfl, hopen⟩ := h k vp (lookup_load hload hvp)
    exact ⟨sig, rfl, hopen.loaded learner hload (Option.ne_none_iff_exists'.2 ⟨vp, hvp⟩)⟩

/-- **Every position is some signal's** in every run of the tracker with
its file. -/
theorem openFor_of_reachable {p : ShadowProcess}
    (h : (shadowProcess cfg).Reachable System.anyStep p) : AllOpenFor cfg p.tracker :=
  (ShadowProcess.holds_of_reachable h kept_allOpenFor).tracker

/-! ## What is filed of it -/

/-- **A close is filed with the learner**, by the position's symbol and
timeframe. -/
theorem learner_of_tracked (htracked : Tracked cfg now other t t')
    (h : t.positions.lookup k = some vp) (hgone : t'.positions.lookup k = none) :
    ∃ reason, t'.learner = t.learner.recordTrade cfg now (closedTrade vp other.price reason) := by
  -- the position that is gone is the one that was closed
  have hclosed : ∀ {key vp₀ price reason},
      t.positions.lookup key = some vp₀ →
      (t.closePosition cfg now price reason key vp₀).positions.lookup k = none → vp₀ = vp := by
    intro key vp₀ price reason hlookup hnone
    have herase : (t.positions.erase key).lookup k = none := hnone
    by_cases heq : k = key
    · rw [← heq, h] at hlookup
      exact (Option.some.inj hlookup).symm
    · rw [AList.lookup_erase_ne heq, h] at herase
      cases herase
  have hentered : ∀ {t : ShadowTracker}, (t.enter now other).positions.lookup k = none →
      t.positions.lookup k = none := by
    intro t hnone
    have hinsert : (AList.insert (signalKey other) (opened now other) t.positions).lookup k =
      none := hnone
    by_cases heq : k = signalKey other
    · rw [heq, AList.lookup_insert] at hinsert
      cases hinsert
    · rwa [AList.lookup_insert_ne heq] at hinsert
  cases htracked with
  | nothing =>
      rw [hgone] at h
      cases h
  | closes reason hlookup =>
      obtain rfl := hclosed hlookup hgone
      exact ⟨reason, rfl⟩
  | enters hsymbol hfree hopp =>
      rw [hentered hgone] at h
      cases h
  | turns hsymbol hfree hopp =>
      obtain rfl := hclosed hopp (hentered hgone)
      exact ⟨"REVERSAL", rfl⟩

/-- **The results of a signal's position** are filed under the signal's
symbol and the timeframe as the tracker spells it. -/
theorem OpenFor.sets (h : OpenFor cfg sig t) (hon : cfg.enabled = true)
    (hgone : (t.track cfg now other).positions.lookup (signalKey sig) = none) :
    Table.Sets (Learner.makeKey sig.symbol (timeframe sig)) t.learner
      (t.track cfg now other).learner := by
  obtain ⟨hsymbol, _, hlookup⟩ := h.position
  obtain ⟨reason, heq⟩ := learner_of_tracked tracked_track hlookup hgone
  rw [heq]
  exact Learner.sets_recordTrade hon hsymbol

/-- With learning switched off nothing is filed. -/
theorem OpenFor.learner_eq (h : OpenFor cfg sig t) (hoff : cfg.enabled = false)
    (hgone : (t.track cfg now other).positions.lookup (signalKey sig) = none) :
    (t.track cfg now other).learner = t.learner := by
  obtain ⟨-, _, hlookup⟩ := h.position
  obtain ⟨reason, heq⟩ := learner_of_tracked tracked_track hlookup hgone
  rw [heq, Learner.recordTrade_of_disabled hoff]

end ShadowTracker

namespace SpotShadowTracker

open VirtualPosition (makeKey)

variable {now : ℕ} {sig other : WebhookSignal} {t : SpotShadowTracker} {d : SpotDeed}
  {k key : String} {vp : VirtualSpotPosition} {tr : TradeRecord} {rest : Option ℚ}

/-- **The spot position a signal opened is open**, what is left of it. -/
inductive OpenFor (sig : WebhookSignal) : SpotShadowTracker → Prop
  | entered {t : SpotShadowTracker} (now : ℕ) (hfree : t.positions.lookup (signalKey sig) = none)
      (hthere : (t.track now sig).positions.lookup (signalKey sig) ≠ none) :
      OpenFor sig (t.track now sig)
  | tracked {t : SpotShadowTracker} (h : OpenFor sig t) (now : ℕ) (other : WebhookSignal)
      (hthere : (t.track now other).positions.lookup (signalKey sig) ≠ none) :
      OpenFor sig (t.track now other)
  | loaded {t : SpotShadowTracker} (h : OpenFor sig t)
      (hthere : (load (.document t.toJson)).positions.lookup (signalKey sig) ≠ none) :
      OpenFor sig (load (.document t.toJson))

/-- A position is of a key's symbol, timeframe and exchange. -/
def Spells (key : String) (vp : VirtualSpotPosition) : Prop :=
  makeKey vp.symbol vp.timeframe vp.exchange = key

/-- **What is there after a signal** was there, at least as much of it, or
is a position the signal opened under a free key. -/
theorem lookup_of_track (h : (t.track now sig).positions.lookup k = some vp) :
    (∃ vp₀, t.positions.lookup k = some vp₀ ∧ vp = { vp₀ with remainingPct := vp.remainingPct }) ∨
      t.positions.lookup k = none ∧ k = signalKey sig ∧ vp = opened now sig := by
  rw [track_eq] at h
  cases hdeed : t.deed now sig with
  | none =>
      rw [hdeed] at h
      exact .inl ⟨vp, h, rfl⟩
  | some d =>
      rw [hdeed, Option.elim_some] at h
      rcases deed_cases hdeed with ⟨hfree, rfl⟩ | ⟨key, vp₀, -, ⟨reason, rfl⟩ | ⟨-, rfl⟩⟩
      · have hinsert : (AList.insert (signalKey sig) (opened now sig) t.positions).lookup k =
          some vp := h
        by_cases heq : k = signalKey sig
        · subst heq
          rw [AList.lookup_insert] at hinsert
          exact .inr ⟨hfree, rfl, (Option.some.inj hinsert).symm⟩
        · rw [AList.lookup_insert_ne heq] at hinsert
          exact .inl ⟨vp, hinsert, rfl⟩
      · exact .inl ⟨vp, Table.of_lookup_erase h, rfl⟩
      · unfold sellsShare at h
        dsimp only at h
        split_ifs at h
        · exact .inl ⟨vp, Table.of_lookup_erase h, rfl⟩
        · -- a share that is left is of the same position
          have hmodify : (t.positions.modify key fun vp =>
              { vp with remainingPct :=
                vp₀.remainingPct * (1 - tpClosePct sig.tpLevel / 100) }).lookup k = some vp := h
          by_cases heq : k = key
          · subst heq
            rw [Table.lookup_modify] at hmodify
            obtain ⟨vp₁, hvp₁, rfl⟩ := Option.map_eq_some_iff.1 hmodify
            exact .inl ⟨vp₁, hvp₁, rfl⟩
          · rw [Table.lookup_modify_ne heq] at hmodify
            exact .inl ⟨vp, hmodify, rfl⟩

/-- **The position of a signal** is of the signal's key. -/
theorem OpenFor.position (h : OpenFor sig t) :
    ∃ vp, t.positions.lookup (signalKey sig) = some vp ∧ Spells (signalKey sig) vp := by
  induction h with
  | entered now hfree hthere =>
      obtain ⟨vp, hvp⟩ := Option.ne_none_iff_exists'.1 hthere
      rcases lookup_of_track hvp with ⟨_, hold, -⟩ | ⟨-, -, rfl⟩
      · rw [hfree] at hold
        cases hold
      · exact ⟨_, hvp, rfl⟩
  | tracked h now other hthere ih =>
      obtain ⟨vp₀, hvp₀, hkey⟩ := ih
      obtain ⟨vp, hvp⟩ := Option.ne_none_iff_exists'.1 hthere
      refine ⟨vp, hvp, ?_⟩
      rcases lookup_of_track hvp with ⟨vp₁, hold, heq⟩ | ⟨hnone, -⟩
      · obtain rfl := Option.some.inj (hold.symm.trans hvp₀)
        rw [heq]
        exact hkey
      · rw [hnone] at hvp₀
        cases hvp₀
  | loaded h hthere ih =>
      obtain ⟨vp₀, hvp₀, hkey⟩ := ih
      obtain ⟨vp, hvp⟩ := Option.ne_none_iff_exists'.1 hthere
      obtain rfl := Option.some.inj ((lookup_load _ hvp).symm.trans hvp₀)
      exact ⟨vp, hvp, hkey⟩

/-- Every spot position is some signal's. -/
def AllOpenFor (t : SpotShadowTracker) : Prop :=
  ∀ k vp, t.positions.lookup k = some vp → ∃ sig, k = signalKey sig ∧ OpenFor sig t

theorem AllOpenFor.track (h : t.AllOpenFor) (now : ℕ) (other : WebhookSignal) :
    (t.track now other).AllOpenFor := by
  intro k vp hvp
  have hthere : (t.track now other).positions.lookup k ≠ none :=
    Option.ne_none_iff_exists'.2 ⟨vp, hvp⟩
  rcases lookup_of_track hvp with ⟨vp₀, hold, -⟩ | ⟨hfree, rfl, -⟩
  · obtain ⟨sig, rfl, hopen⟩ := h k vp₀ hold
    exact ⟨sig, rfl, hopen.tracked now other hthere⟩
  · exact ⟨other, rfl, .entered now hfree hthere⟩

theorem AllOpenFor.load (h : t.AllOpenFor) : (load (.document t.toJson)).AllOpenFor := by
  intro k vp hvp
  obtain ⟨sig, rfl, hopen⟩ := h k vp (lookup_load _ hvp)
  exact ⟨sig, rfl, hopen.loaded (Option.ne_none_iff_exists'.2 ⟨vp, hvp⟩)⟩

/-- **A sale is filed with the grades** under the key of the position. -/
theorem OpenFor.sets (h : OpenFor sig t)
    (hsells : t.deed now other = some (.sells (signalKey sig) vp tr rest)) :
    Table.Sets (signalKey sig) t.symbolGrades (t.track now other).symbolGrades := by
  obtain ⟨vp₀, hvp₀, hkey⟩ := h.position
  have hreport : reportKey tr = signalKey sig := by
    rcases deed_cases hsells with ⟨-, heq⟩ | ⟨key, vp₁, hvp₁, ⟨reason, heq⟩ | ⟨-, heq⟩⟩
    · cases heq
    · cases heq
      obtain rfl := Option.some.inj (hvp₁.symm.trans hvp₀)
      exact hkey
    · cases heq
      obtain rfl := Option.some.inj (hvp₁.symm.trans hvp₀)
      exact hkey
  have hgrades : (t.track now other).symbolGrades = (t.record tr).symbolGrades := by
    rw [track_eq, hsells, Option.elim_some]
    cases rest <;> rfl
  rw [hgrades, symbolGrades_record, hreport]
  exact Table.sets_insert _ _ _

end SpotShadowTracker

/-- **Every spot position is some signal's** along any signals, saves and
restarts. -/
theorem SpotProcess.openFor_of_step {p : SpotProcess} {e : SpotEvent}
    (h : p.Holds fun t _ => t.AllOpenFor) : (p.step e).Holds fun t _ => t.AllOpenFor := by
  cases e with
  | track now sig =>
      refine h.track fun d hd => ?_
      have hnext := h.now.track now sig
      rw [SpotShadowTracker.track_eq, hd] at hnext
      exact hnext
  | save => exact h.saveState
  | restart => exact h.restart (fun k vp hvp => by cases hvp) fun s hs => (h.saved s hs).load

end WebhookTrader
