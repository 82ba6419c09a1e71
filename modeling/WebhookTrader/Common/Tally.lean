import WebhookTrader.Common.Table

/-!
# Tallies

A tally goes through a list once and accumulates what it meets under the
key of each element, in a table that starts empty. What it has under a
key in the end depends on the elements of that key alone. The second part
is the inverse of listing a table: entries with no key twice are inserted
one by one.
-/

namespace WebhookTrader

namespace Table

variable {α β V : Type} [DecidableEq α]

/-! ## Accumulating under keys -/

/-- One more element. -/
def tallyStep (key : β → α) (add : V → β → V) (zero : V) (t : Table α V) (x : β) : Table α V :=
  t.insert (key x) (add ((t.lookup (key x)).getD zero) x)

/-- **The tally of a list.** -/
def tally (key : β → α) (add : V → β → V) (zero : V) (xs : List β) : Table α V :=
  xs.foldl (tallyStep key add zero) ∅

variable {key : β → α} {add : V → β → V} {zero : V} {xs : List β} {k : α}

theorem lookup_foldl_tallyStep (t : Table α V) :
    (xs.foldl (tallyStep key add zero) t).lookup k =
      if xs.filter (fun x => key x = k) = [] then t.lookup k
      else some ((xs.filter fun x => key x = k).foldl add ((t.lookup k).getD zero)) := by
  induction xs generalizing t with
  | nil => simp
  | cons x xs ih =>
      rw [List.foldl_cons, ih, tallyStep]
      by_cases hx : key x = k
      · subst hx
        rw [AList.lookup_insert, List.filter_cons_of_pos (by simp), List.foldl_cons,
          if_neg (List.cons_ne_nil _ _), Option.getD_some]
        split_ifs with hnil
        · rw [hnil, List.foldl_nil]
        · rfl
      · rw [AList.lookup_insert_ne (Ne.symm hx), List.filter_cons_of_neg (by simpa using hx)]

theorem getD_lookup_foldl_tallyStep (t : Table α V) :
    ((xs.foldl (tallyStep key add zero) t).lookup k).getD zero =
      (xs.filter fun x => key x = k).foldl add ((t.lookup k).getD zero) := by
  rw [lookup_foldl_tallyStep]
  split_ifs with hnil
  · rw [hnil, List.foldl_nil]
  · rfl

/-- **What is under a key**: what its elements come to, where there are
any. -/
theorem lookup_tally : (tally key add zero xs).lookup k =
    if xs.filter (fun x => key x = k) = [] then none
    else some ((xs.filter fun x => key x = k).foldl add zero) := by
  rw [tally, lookup_foldl_tallyStep, AList.lookup_empty]
  rfl

/-- **The entries of a tally.** -/
theorem mem_tally {e : Sigma fun _ : α => V} : e ∈ (tally key add zero xs).entries ↔
    (∃ x ∈ xs, key x = e.1) ∧ e.2 = (xs.filter fun x => key x = e.1).foldl add zero := by
  obtain ⟨k, v⟩ := e
  have hnil : xs.filter (fun x => key x = k) = [] ↔ ¬ ∃ x ∈ xs, key x = k := by
    simp [List.filter_eq_nil_iff]
  rw [← AList.mem_lookup_iff, lookup_tally]
  by_cases hsome : ∃ x ∈ xs, key x = k
  · rw [if_neg fun h => hnil.1 h hsome, Option.mem_some_iff]
    exact ⟨fun h => ⟨hsome, h.symm⟩, fun h => h.2.symm⟩
  · rw [if_pos (hnil.2 hsome)]
    exact ⟨fun h => (Option.not_mem_none _ h).elim, fun h => (hsome h.1).elim⟩

/-! ## Sums over a tally -/

section Sums

variable {M : Type} [AddCommMonoid M] {f : V → M} {g : β → M}

/-- One more element adds its own amount to the sum. -/
theorem sum_tallyStep (hzero : f zero = 0) (hadd : ∀ v x, f (add v x) = f v + g x)
    (t : Table α V) (x : β) :
    ((tallyStep key add zero t x).entries.map fun e => f e.2).sum =
      (t.entries.map fun e => f e.2).sum + g x := by
  unfold tallyStep
  cases hlookup : t.lookup (key x) with
  | none =>
      rw [AList.entries_insert_of_notMem (AList.lookup_eq_none.1 hlookup), List.map_cons,
        List.sum_cons, Option.getD_none, hadd, hzero, zero_add, add_comm]
  | some v =>
      -- the old entry gives way to the new one
      rw [AList.entries_insert, List.map_cons, List.sum_cons, Option.getD_some, hadd,
        sum_map_entries f hlookup]
      exact add_right_comm _ _ _

/-- **A tally loses nothing**: an amount that every element adds to what is
under its key sums to the same over the entries and over the elements. -/
theorem sum_tally (hzero : f zero = 0) (hadd : ∀ v x, f (add v x) = f v + g x) (xs : List β) :
    ((tally key add zero xs).entries.map fun e => f e.2).sum = (xs.map g).sum := by
  have hfold : ∀ (xs : List β) (t : Table α V),
      ((xs.foldl (tallyStep key add zero) t).entries.map fun e => f e.2).sum =
        (t.entries.map fun e => f e.2).sum + (xs.map g).sum := by
    intro xs
    induction xs with
    | nil =>
        intro t
        rw [List.foldl_nil, List.map_nil, List.sum_nil, add_zero]
    | cons x xs ih =>
        intro t
        rw [List.foldl_cons, ih, sum_tallyStep hzero hadd, List.map_cons, List.sum_cons, add_assoc]
  have hempty : (((∅ : Table α V).entries.map fun e => f e.2)).sum = 0 := by rfl
  rw [tally, hfold, hempty, zero_add]

/-- **The groups of a list come to the list**: an amount that comes to nothing
in every group comes to nothing. -/
theorem sum_eq_zero_of_groups (key : β → α)
    (h : ∀ k, ((xs.filter fun x => key x = k).map g).sum = 0) : (xs.map g).sum = 0 := by
  have hsum : ((tally key (fun v x => v + g x) 0 xs).entries.map fun e => e.2).sum =
      (xs.map g).sum := sum_tally (f := fun v : M => v) rfl (fun v x => rfl) xs
  rw [← hsum]
  refine List.sum_eq_zero fun v hv => ?_
  obtain ⟨e, he, rfl⟩ := List.mem_map.1 hv
  have hown := h e.1
  rw [List.sum_eq_foldl, List.foldl_map] at hown
  exact (mem_tally.1 he).2.trans hown

end Sums

/-- **The order of the list does not matter** to what a tally has under a
key, where the order of two elements does not matter to the accumulation. -/
theorem lookup_tally_perm {xs' : List β} (h : xs'.Perm xs)
    (hcomm : ∀ v x y, add (add v x) y = add (add v y) x) :
    (tally key add zero xs').lookup k = (tally key add zero xs).lookup k := by
  have hown : (xs'.filter fun x => key x = k).Perm (xs.filter fun x => key x = k) := h.filter _
  rw [lookup_tally, lookup_tally, hown.foldl_eq' (fun x _ y _ v => hcomm v x y) zero]
  by_cases hnil : xs.filter (fun x => key x = k) = []
  · have hnil' : xs'.filter (fun x => key x = k) = [] := by
      rw [hnil] at hown
      exact hown.eq_nil
    rw [if_pos hnil, if_pos hnil']
  · have hnil' : xs'.filter (fun x => key x = k) ≠ [] := by
      intro heq
      rw [heq] at hown
      exact hnil hown.symm.eq_nil
    rw [if_neg hnil, if_neg hnil']

/-! ## Inserting the entries of a table -/

section Inserted

variable {W : Type} (value : α → V → W)

theorem lookup_foldl_insert (l : List (Sigma fun _ : α => V)) (hl : l.NodupKeys) (t : Table α W) :
    (l.foldl (fun t e => t.insert e.1 (value e.1 e.2)) t).lookup k =
      ((l.dlookup k).map (value k)).or (t.lookup k) := by
  induction l generalizing t with
  | nil => rfl
  | cons e l ih =>
      obtain ⟨k₀, v⟩ := e
      rw [List.nodupKeys_cons] at hl
      obtain ⟨hfresh, hl⟩ := hl
      rw [List.foldl_cons, ih hl]
      by_cases hk : k = k₀
      · subst hk
        rw [List.dlookup_eq_none.2 hfresh, List.dlookup_cons_eq, AList.lookup_insert]
        rfl
      · rw [List.dlookup_cons_ne _ _ hk, AList.lookup_insert_ne hk]

/-- **A table made entry by entry** has under a key what is made of the
entry under it. -/
theorem lookup_foldl_insert_entries (t : Table α V) :
    (t.entries.foldl (fun t e => t.insert e.1 (value e.1 e.2)) (∅ : Table α W)).lookup k =
      (t.lookup k).map (value k) := by
  rw [lookup_foldl_insert value t.entries t.nodupKeys, AList.lookup_empty, Option.or_none]
  rfl

end Inserted

end Table

end WebhookTrader
