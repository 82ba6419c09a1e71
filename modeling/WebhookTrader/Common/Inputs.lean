import Mathlib.Data.List.Basic

/-!
# Machines fed with inputs

A machine that takes every input, and what holds along its run over a
list of them. Where one step keeps an invariant just under a condition,
the invariant holds along a run just where every step meets it.

The last section has two runs of one machine, the second without some of
the inputs of the first. The states stay alike where the inputs that are
left out keep them alike on one side and the others on both: the
unwinding argument for noninterference.
-/

namespace WebhookTrader

namespace Inputs

variable {σ ι : Type*} {step : σ → ι → σ} {G : σ → ι → Prop} {I : σ → Prop}

/-- **Every step of a run** over some inputs meets a guard. -/
def Guarded (step : σ → ι → σ) (G : σ → ι → Prop) : σ → List ι → Prop
  | _, [] => True
  | s, i :: is => G s i ∧ Guarded step G (step s i) is

/-- **Every state of a run** over some inputs has a property, the first one
apart. -/
def Always (step : σ → ι → σ) (I : σ → Prop) : σ → List ι → Prop
  | _, [] => True
  | s, i :: is => I (step s i) ∧ Always step I (step s i) is

/-- Whether a run is guarded. -/
def decideGuarded [∀ s i, Decidable (G s i)] : ∀ is s, Decidable (Guarded step G s is)
  | [], _ => isTrue trivial
  | i :: is, s => @instDecidableAnd _ _ _ (decideGuarded is (step s i))

instance [∀ s i, Decidable (G s i)] (s : σ) (is : List ι) : Decidable (Guarded step G s is) :=
  decideGuarded is s

/-- Inputs that are all good make a guarded run. -/
theorem guarded_of_forall {P : ι → Prop} {is : List ι} {s : σ} (h : ∀ i ∈ is, P i) :
    Guarded step (fun _ i => P i) s is := by
  induction is generalizing s with
  | nil => trivial
  | cons i is ih =>
      exact ⟨h i List.mem_cons_self, ih fun i' hi' => h i' (List.mem_cons_of_mem _ hi')⟩

/-- **The invariant rule.** -/
theorem invariant (hstep : ∀ s i, I s → G s i → I (step s i)) {is : List ι} {s : σ} (hs : I s)
    (h : Guarded step G s is) : I (is.foldl step s) := by
  induction is generalizing s with
  | nil => exact hs
  | cons i is ih => exact ih (hstep s i hs h.1) h.2

/-- **A property with an exact condition**: where, in the states of an
invariant, a step leads to the property just under the guard, and with the
property to the invariant again, the property holds along a run just where
the run is guarded. -/
theorem always_iff_guarded {J : σ → Prop} (hstep : ∀ s i, I s → (J (step s i) ↔ G s i))
    (hkeep : ∀ s i, I s → J (step s i) → I (step s i)) {is : List ι} {s : σ} (hs : I s) :
    Always step J s is ↔ Guarded step G s is := by
  induction is generalizing s with
  | nil => exact Iff.rfl
  | cons i is ih =>
      constructor
      · rintro ⟨hnext, hrest⟩
        exact ⟨(hstep s i hs).1 hnext, (ih (hkeep s i hs hnext)).1 hrest⟩
      · rintro ⟨hguard, hrest⟩
        have hnext := (hstep s i hs).2 hguard
        exact ⟨hnext, (ih (hkeep s i hs hnext)).2 hrest⟩

/-! ## Leaving inputs out -/

variable {hidden : ι → Prop} {R : σ → σ → Prop}

/-- **The unwinding conditions** of a relation between states. -/
structure Unwinds (step : σ → ι → σ) (G : σ → ι → Prop) (hidden : ι → Prop)
    (R : σ → σ → Prop) : Prop where
  /-- An input that is left out, taken on the left alone. -/
  skip : ∀ {s s' i}, G s i → hidden i → R s s' → R (step s i) s'
  /-- An input that is not, taken on both sides. -/
  keep : ∀ {s s' i}, G s i → G s' i → ¬ hidden i → R s s' → R (step s i) (step s' i)

/-- **What is left out is not missed.** -/
theorem Unwinds.run [DecidablePred hidden] (h : Unwinds step G hidden R) {is : List ι} {s s' : σ}
    (hrel : R s s') (hguard : Guarded step G s is)
    (hguard' : Guarded step G s' (is.filter fun i => ¬ hidden i)) :
    R (is.foldl step s) ((is.filter fun i => ¬ hidden i).foldl step s') := by
  induction is generalizing s s' with
  | nil => exact hrel
  | cons i is ih =>
      obtain ⟨hstep, hrest⟩ := hguard
      rw [List.foldl_cons]
      by_cases hi : hidden i
      · rw [List.filter_cons_of_neg (by simpa using hi)] at hguard' ⊢
        exact ih (h.skip hstep hi hrel) hrest hguard'
      · rw [List.filter_cons_of_pos (by simpa using hi)] at hguard' ⊢
        obtain ⟨hstep', hrest'⟩ := hguard'
        exact ih (h.keep hstep hstep' hi hrel) hrest hrest'

end Inputs

end WebhookTrader
