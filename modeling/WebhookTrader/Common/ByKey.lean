import Mathlib.Algebra.BigOperators.Group.Finset.Basic
import Mathlib.Tactic.Abel
import WebhookTrader.Common.Since

/-!
# Machines that go by keys

Every input of a machine has a key. Where an input does to a state what it
does to any other that is the same under its key, and leaves the state the
same under every other key, the run of many inputs is under each key the
run of the inputs of that key alone; and an amount that an input adds to by
what is under its key has grown by what it grows in those runs together.
-/

namespace WebhookTrader

open Finset

variable {σ ι κ : Type} [DecidableEq κ] {step : σ → ι → σ} {key : ι → κ} {ok : σ → ι → Prop}
  {Same : κ → σ → σ → Prop} {b c : σ} {k : κ} {inputs : List ι}

/-- The inputs of a key. -/
abbrev ofKey (key : ι → κ) (k : κ) (inputs : List ι) : List ι := inputs.filter fun i => key i = k

theorem ofKey_concat_self (inputs : List ι) (i : ι) :
    ofKey key (key i) (inputs ++ [i]) = ofKey key (key i) inputs ++ [i] := by
  rw [ofKey, List.filter_append, List.filter_cons_of_pos (by simp), List.filter_nil]

theorem ofKey_concat_ne {i : ι} (inputs : List ι) (h : key i ≠ k) :
    ofKey key k (inputs ++ [i]) = ofKey key k inputs := by
  rw [ofKey, List.filter_append, List.filter_cons_of_neg (by simpa using h), List.filter_nil,
    List.append_nil]

/-- **A condition at every input of a run** from a state. -/
def Always (step : σ → ι → σ) (ok : σ → ι → Prop) (b : σ) (inputs : List ι) : Prop :=
  Throughout (fun past i => ok (past.foldl step b) i) inputs

theorem always_concat {i : ι} :
    Always step ok b (inputs ++ [i]) ↔ Always step ok b inputs ∧ ok (inputs.foldl step b) i :=
  throughout_concat

theorem always_of_forall (h : ∀ s i, ok s i) : Always step ok b inputs := fun _ _ _ _ => h _ _

/-- **A machine goes by keys**, where its inputs meet a condition. -/
structure ByKey (step : σ → ι → σ) (key : ι → κ) (ok : σ → ι → Prop) (Same : κ → σ → σ → Prop) :
    Prop where
  own : ∀ {b c i}, Same (key i) b c → ok b i → ok c i → Same (key i) (step b i) (step c i)
  others : ∀ {b c i k}, Same k b c → key i ≠ k → Same k (step b i) c

/-- **The run of many inputs is under a key that of the inputs of the key.** -/
theorem ByKey.same (h : ByKey step key ok Same) (hb : Always step ok b inputs)
    (hc : Always step ok c (ofKey key k inputs)) (hsame : Same k b c) :
    Same k (inputs.foldl step b) ((ofKey key k inputs).foldl step c) := by
  induction inputs using List.reverseRecOn with
  | nil => exact hsame
  | append_singleton inputs i ih =>
      obtain ⟨hb, hok⟩ := always_concat.1 hb
      rw [List.foldl_append]
      by_cases hkey : key i = k
      · subst hkey
        rw [ofKey_concat_self, always_concat] at hc
        rw [ofKey_concat_self, List.foldl_append]
        exact h.own (ih hb hc.1) hok hc.2
      · rw [ofKey_concat_ne _ hkey] at hc ⊢
        exact h.others (ih hb hc) hkey

variable {M : Type} [AddCommGroup M] {amount : σ → M} {keys : Finset κ} {alone : κ → σ}

/-- **What an amount has grown by** is what it grows by in the runs of the
single keys. -/
theorem ByKey.growth (h : ByKey step key ok Same)
    (hamount : ∀ {b c i}, Same (key i) b c → ok b i → ok c i →
      amount (step b i) - amount b = amount (step c i) - amount c)
    (hkeys : ∀ i ∈ inputs, key i ∈ keys) (hb : Always step ok b inputs)
    (hc : ∀ k, Always step ok (alone k) (ofKey key k inputs)) (hsame : ∀ k, Same k b (alone k)) :
    amount (inputs.foldl step b) - amount b =
      ∑ k ∈ keys, (amount ((ofKey key k inputs).foldl step (alone k)) - amount (alone k)) := by
  induction inputs using List.reverseRecOn with
  | nil =>
      simp only [List.foldl_nil, List.filter_nil, sub_self, sum_const_zero]
  | append_singleton inputs i ih =>
      obtain ⟨hb, hok⟩ := always_concat.1 hb
      have hself := hc (key i)
      rw [ofKey_concat_self, always_concat] at hself
      have hpast : ∀ k, Always step ok (alone k) (ofKey key k inputs) := fun k => by
        by_cases hkey : key i = k
        · exact hkey ▸ hself.1
        · exact ofKey_concat_ne inputs hkey ▸ hc k
      have hmem : key i ∈ keys := hkeys i (List.mem_append_right _ (List.mem_singleton_self i))
      have hbefore := ih (fun i hi => hkeys i (List.mem_append_left _ hi)) hb hpast
      -- the other keys' runs are what they were before
      have hrest : ∀ k ∈ keys.erase (key i),
          amount ((ofKey key k (inputs ++ [i])).foldl step (alone k)) - amount (alone k) =
            amount ((ofKey key k inputs).foldl step (alone k)) - amount (alone k) := fun k hk => by
        rw [ofKey_concat_ne inputs (ne_of_mem_erase hk).symm]
      have hlast := hamount (h.same hb (hpast (key i)) (hsame (key i))) hok hself.2
      rw [← add_sum_erase _ _ hmem] at hbefore ⊢
      rw [sum_congr rfl hrest, ofKey_concat_self, List.foldl_append, List.foldl_append]
      show amount (step _ i) - amount b = amount (step _ i) - _ + _
      rw [sub_eq_iff_eq_add.1 hlast, sub_eq_iff_eq_add.1 hbefore]
      abel

end WebhookTrader
