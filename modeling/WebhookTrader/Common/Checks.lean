import Mathlib.Data.List.Basic

/-!
# Checks in order

A list of named conditions that are checked one after the other, up to the
first that fails. What comes out of it is that one's name, or nothing
where all of them hold.
-/

namespace WebhookTrader

namespace Checks

variable {ι : Type*} {checks : List (ι × Prop)} {outcome : Option ι} {name : ι} {c : Prop}

/-- **What comes out of some checks.** -/
inductive Yields : List (ι × Prop) → Option ι → Prop
  | passed : Yields [] none
  | fails {name : ι} {c : Prop} {checks : List (ι × Prop)} (h : ¬ c) :
      Yields ((name, c) :: checks) (some name)
  | holds {name : ι} {c : Prop} {checks : List (ι × Prop)} {outcome : Option ι} (h : c)
      (hrest : Yields checks outcome) : Yields ((name, c) :: checks) outcome

/-- **Nothing comes out where all hold**, and there alone. -/
theorem Yields.eq_none_iff (h : Yields checks outcome) :
    outcome = none ↔ ∀ check ∈ checks, check.2 := by
  induction h with
  | passed => exact iff_of_true rfl fun _ hcheck => absurd hcheck List.not_mem_nil
  | fails hnot => exact iff_of_false nofun fun hall => hnot (hall _ List.mem_cons_self)
  | holds hc _ ih =>
      rw [ih, List.forall_mem_cons]
      exact (and_iff_right hc).symm

/-- **The name that comes out** is that of the first condition that fails. -/
theorem Yields.first (h : Yields checks (some name)) :
    ∃ before c rest, checks = before ++ (name, c) :: rest ∧ ¬ c ∧
      ∀ check ∈ before, check.2 := by
  generalize hout : some name = outcome at h
  induction h with
  | passed => cases hout
  | @fails name' c checks hnot =>
      cases hout
      exact ⟨[], c, checks, rfl, hnot, fun _ hcheck => absurd hcheck List.not_mem_nil⟩
  | @holds name' c checks outcome hc _ ih =>
      obtain ⟨before, c', rest, rfl, hnot, hbefore⟩ := ih hout
      refine ⟨(name', c) :: before, c', rest, rfl, hnot, ?_⟩
      exact List.forall_mem_cons.2 ⟨hc, hbefore⟩

end Checks

end WebhookTrader
