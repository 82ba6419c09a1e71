import Mathlib.Logic.Relation
import Mathlib.Data.List.Basic

/-!
# Labelled systems, guarded runs and their invariants

A `System` computes its steps: a label carries whatever the environment
chooses, and `next` answers with the state after the step, or with
nothing where the label is not enabled. A `Run` is taken under a guard,
a condition on each step, so that one notion serves both for what a
system can do at all and for what it can do while some discipline is
kept. Every invariant of this development is proved along `Run`.
-/

namespace WebhookTrader

universe u v

/-- **A labelled system whose steps are computed.** -/
structure System (σ : Type u) (ℓ : Type v) where
  /-- The states a run may start from. -/
  init : σ → Prop
  /-- The state after a step under a label, where the label is enabled. -/
  next : σ → ℓ → Option σ

namespace System

variable {σ : Type u} {ℓ : Type v} {M : System σ ℓ}

/-- **Runs whose every step meets a guard.** -/
inductive Run (M : System σ ℓ) (G : σ → ℓ → Prop) (s : σ) : σ → Prop
  /-- The empty run. -/
  | refl : Run M G s s
  /-- One more step at the end. -/
  | tail {t u : σ} {l : ℓ} : Run M G s t → G t l → M.next t l = some u → Run M G s u

/-- The states a guarded run reaches from an initial one. -/
def Reachable (M : System σ ℓ) (G : σ → ℓ → Prop) (t : σ) : Prop :=
  ∃ s, M.init s ∧ M.Run G s t

/-- The guard that lets every step through. -/
def anyStep : σ → ℓ → Prop := fun _ _ => True

instance (s : σ) (l : ℓ) : Decidable (anyStep s l) := inferInstanceAs (Decidable True)

variable {G G' : σ → ℓ → Prop} {s t u : σ}

namespace Run

theorem trans (h : M.Run G s t) (h' : M.Run G t u) : M.Run G s u := by
  induction h' with
  | refl => exact h
  | tail _ hg hn ih => exact ih.tail hg hn

/-- A weaker guard admits more runs. -/
theorem mono (hGG : ∀ s l, G s l → G' s l) (h : M.Run G s t) : M.Run G' s t := by
  induction h with
  | refl => exact refl
  | tail _ hg hn ih => exact ih.tail (hGG _ _ hg) hn

/-- **The invariant rule.** What every guarded step keeps, a guarded run
keeps. -/
theorem invariant {I : σ → Prop}
    (hstep : ∀ s l t, I s → G s l → M.next s l = some t → I t)
    (h : M.Run G s t) (hs : I s) : I t := by
  induction h with
  | refl => exact hs
  | tail _ hg hn ih => exact hstep _ _ _ ih hg hn

end Run

/-- **The invariant rule, from the initial states.** -/
theorem Reachable.invariant {I : σ → Prop} (h0 : ∀ s, M.init s → I s)
    (hstep : ∀ s l t, I s → G s l → M.next s l = some t → I t)
    (h : M.Reachable G t) : I t := by
  obtain ⟨s, hs, hrun⟩ := h
  exact hrun.invariant hstep (h0 s hs)

theorem Reachable.mono (hGG : ∀ s l, G s l → G' s l) (h : M.Reachable G t) :
    M.Reachable G' t := by
  obtain ⟨s, hs, hrun⟩ := h
  exact ⟨s, hs, hrun.mono hGG⟩

/-- A run extends what is reachable. -/
theorem Reachable.run (h : M.Reachable G s) (h' : M.Run G s t) : M.Reachable G t := by
  obtain ⟨s₀, hs, hrun⟩ := h
  exact ⟨s₀, hs, hrun.trans h'⟩

/-! ## Replaying a list of labels -/

/-- Follow a list of labels, as long as each is enabled and meets the
guard. -/
def play (M : System σ ℓ) (G : σ → ℓ → Prop) [∀ s l, Decidable (G s l)] : σ → List ℓ → Option σ
  | s, [] => some s
  | s, l :: ls => if G s l then (M.next s l).bind fun t => M.play G t ls else none

/-- Where a replay ends, and the state it started from where it does not
get through. -/
def endOf (M : System σ ℓ) (s : σ) (ls : List ℓ) : σ := (M.play anyStep s ls).getD s

/-- What a replay reaches, a guarded run reaches. -/
theorem run_of_play [∀ s l, Decidable (G s l)] :
    ∀ {ls : List ℓ} {s t : σ}, M.play G s ls = some t → M.Run G s t
  | [], s, t, h => by
      obtain rfl : s = t := by simpa [play] using h
      exact Run.refl
  | l :: ls, s, t, h => by
      rw [play] at h
      split at h
      · rename_i hg
        obtain ⟨u, hu, hrest⟩ := Option.bind_eq_some_iff.1 h
        exact (Run.refl.tail hg hu).trans (run_of_play hrest)
      · cases h

/-- A guard only stops a replay. -/
theorem play_of_guarded [∀ s l, Decidable (G s l)] :
    ∀ {ls : List ℓ} {s t : σ}, M.play G s ls = some t → M.play anyStep s ls = some t
  | [], _, _, h => h
  | l :: ls, s, t, h => by
      rw [play] at h
      split at h
      · obtain ⟨u, hu, hrest⟩ := Option.bind_eq_some_iff.1 h
        have hany : anyStep s l := trivial
        rw [play, if_pos hany, hu]
        exact play_of_guarded hrest
      · cases h

/-- **A replay that gets through** ends where a run does. -/
theorem run_endOf [∀ s l, Decidable (G s l)] (ls : List ℓ) (h : (M.play G s ls).isSome = true) :
    M.Run G s (M.endOf s ls) := by
  obtain ⟨t, ht⟩ := Option.isSome_iff_exists.1 h
  rw [endOf, play_of_guarded ht]
  exact run_of_play ht

/-- One step of a replay. -/
theorem next_endOf {l : ℓ} (h : (M.next s l).isSome = true) : M.next s l = some (M.endOf s [l]) := by
  obtain ⟨t, ht⟩ := Option.isSome_iff_exists.1 h
  simp [endOf, play, anyStep, ht]

/-- **A replay that ends in a state with a property exhibits a run that
does.** The form the concrete runs of this development are given in. -/
theorem exists_run_of_play [∀ s l, Decidable (G s l)] (ls : List ℓ) {P : σ → Prop}
    [DecidablePred P] (h : (M.play G s ls).any (fun t => decide (P t)) = true) :
    ∃ t, M.Run G s t ∧ P t := by
  obtain ⟨t, ht, hP⟩ := (Option.any_eq_true_iff_get _ _).1 h |> fun ⟨hs, hp⟩ =>
    (⟨_, (Option.some_get hs).symm, hp⟩ : ∃ t, M.play G s ls = some t ∧ decide (P t) = true)
  exact ⟨t, run_of_play ht, of_decide_eq_true hP⟩

/-! ## Systems with a log -/

section Logged

variable {ο : Type*} {obs : σ → ℓ → Option ο} {G : σ × List ο → ℓ → Prop}

/-- **A system with a log** of what is observed of its steps, latest first.
The log is a history: no step depends on it. -/
def logged (M : System σ ℓ) (obs : σ → ℓ → Option ο) : System (σ × List ο) ℓ where
  init s := M.init s.1 ∧ s.2 = []
  next s l := (M.next s.1 l).map fun t => (t, (obs s.1 l).toList ++ s.2)

/-- A step with a log is a step, with its observation on the log. -/
theorem next_logged {s t : σ × List ο} {l : ℓ} :
    (M.logged obs).next s l = some t ↔
      M.next s.1 l = some t.1 ∧ t.2 = (obs s.1 l).toList ++ s.2 := by
  obtain ⟨t, log⟩ := t
  simp only [logged, Option.map_eq_some_iff, Prod.mk.injEq]
  constructor
  · rintro ⟨u, hu, rfl, rfl⟩
    exact ⟨hu, rfl⟩
  · rintro ⟨hnext, rfl⟩
    exact ⟨t, hnext, rfl, rfl⟩

/-- **The log does not disturb the run.** -/
theorem Run.of_logged {s t : σ × List ο} {G' : σ → ℓ → Prop}
    (hGG : ∀ s l, G s l → G' s.1 l) (h : (M.logged obs).Run G s t) : M.Run G' s.1 t.1 := by
  induction h with
  | refl => exact .refl
  | tail _ hg hn ih => exact ih.tail (hGG _ _ hg) (next_logged.1 hn).1

/-- **Every run has a log.** -/
theorem Run.exists_logged {s t : σ} {G' : σ → ℓ → Prop} (h : M.Run G' s t) (log : List ο) :
    ∃ log', (M.logged obs).Run (fun s l => G' s.1 l) (s, log) (t, log') := by
  induction h with
  | refl => exact ⟨log, .refl⟩
  | tail _ hg hn ih =>
      obtain ⟨log', hrun⟩ := ih
      exact ⟨_, hrun.tail hg (next_logged.2 ⟨hn, rfl⟩)⟩

end Logged

end System

end WebhookTrader
