import WebhookTrader.Common.Tally

/-!
# Tables that are alike

Two tables are alike in a view of their values when they have the same
keys and, under each, values that look the same. What only a part of the
values decides cannot tell such tables apart, and what is done to both
keeps them alike where the view of a value decides the view of what
becomes of it.
-/

namespace WebhookTrader

namespace Table

variable {α β V W : Type} [DecidableEq α] {view : V → W}

/-- **They look the same**, key by key. -/
def Alike (view : V → W) (t t' : Table α V) : Prop :=
  ∀ k, (t.lookup k).map view = (t'.lookup k).map view

namespace Alike

variable {t t' t'' : Table α V} {k : α} {v v' zero : V}

@[refl] theorem refl (t : Table α V) : Alike view t t := fun _ => rfl

theorem symm (h : Alike view t t') : Alike view t' t := fun k => (h k).symm

theorem trans (h : Alike view t t') (h' : Alike view t' t'') : Alike view t t'' :=
  fun k => (h k).trans (h' k)

/-- What is read with a default looks the same. -/
theorem getD (h : Alike view t t') (k : α) (zero : V) :
    view ((t.lookup k).getD zero) = view ((t'.lookup k).getD zero) := by
  have hk := congrArg (Option.getD · (view zero)) (h k)
  simpa only [Option.getD_map] using hk

theorem insert (h : Alike view t t') (hv : view v = view v') :
    Alike view (AList.insert k v t) (AList.insert k v' t') := by
  intro k'
  rcases eq_or_ne k' k with rfl | hne
  · rw [AList.lookup_insert, AList.lookup_insert, Option.map_some, Option.map_some, hv]
  · rw [AList.lookup_insert_ne hne, AList.lookup_insert_ne hne]
    exact h k'

variable {key : β → α} {add : V → β → V}

theorem tallyStep (hadd : ∀ v v' x, view v = view v' → view (add v x) = view (add v' x))
    (h : Alike view t t') (x : β) :
    Alike view (Table.tallyStep key add zero t x) (Table.tallyStep key add zero t' x) :=
  h.insert (hadd _ _ x (h.getD _ _))

/-- **Counting on in both.** -/
theorem foldl_tallyStep (hadd : ∀ v v' x, view v = view v' → view (add v x) = view (add v' x))
    (h : Alike view t t') (xs : List β) :
    Alike view (xs.foldl (Table.tallyStep key add zero) t)
      (xs.foldl (Table.tallyStep key add zero) t') := by
  induction xs generalizing t t' with
  | nil => exact h
  | cons x xs ih => exact ih (h.tallyStep hadd x)

/-- **Reading back what was written down**, where a value that is read looks
like the one that was written. -/
theorem readEach_toPairs {ε γ : Type} {write : V → γ} {read : γ → Except ε V} {back : V → V}
    (hread : ∀ v, read (write v) = .ok (back v)) (hback : ∀ v, view (back v) = view v)
    (t : Table α V) : Alike view (readEach read (t.toPairs write) ∅).1 t := by
  intro k
  rw [(Table.readEach_toPairs hread t).2 k, Option.map_map]
  exact congrArg (Option.map · (t.lookup k)) (funext hback)

end Alike

end Table

end WebhookTrader
