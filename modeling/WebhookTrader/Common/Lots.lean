import Mathlib.Data.List.Basic
import Mathlib.Data.List.Pairwise
import Mathlib.Data.List.Flatten

/-!
# Lots

What is acquired under a key and given away in parts: a list of lots,
latest first, and each part is booked on the latest lot of its key. A lot
that a later one of its key has superseded gets no more parts, so what
held of it when it was superseded holds for good.
-/

namespace WebhookTrader

/-- **An acquisition and the parts that were booked on it.** -/
structure Lot (P R : Type) where
  item : P
  parts : List R := []

namespace Lot

variable {α P R : Type} [DecidableEq α] (key : P → α) (tag : R → α)

/-- The latest lot of a key. -/
def latest (k : α) (lots : List (Lot P R)) : Option (Lot P R) :=
  lots.find? fun lot => key lot.item = k

/-- A part is added to a lot. -/
def add (r : R) (lot : Lot P R) : Lot P R := { lot with parts := lot.parts ++ [r] }

/-- **A part is booked on the latest lot of its key.** -/
def book (r : R) : List (Lot P R) → List (Lot P R)
  | [] => []
  | lot :: lots =>
      if key lot.item = tag r then lot.add r :: lots else lot :: book r lots

/-- **Every lot with a later one of its key** has a property. -/
def Superseded (p : Lot P R → Prop) (lots : List (Lot P R)) : Prop :=
  lots.Pairwise fun later lot => key later.item = key lot.item → p lot

variable {key tag} {k : α} {r : R} {lot : Lot P R} {lots : List (Lot P R)} {p : Lot P R → Prop}

theorem latest_cons_self : latest key (key lot.item) (lot :: lots) = some lot :=
  List.find?_cons_of_pos (by simp)

theorem latest_cons_ne (h : k ≠ key lot.item) : latest key k (lot :: lots) = latest key k lots :=
  List.find?_cons_of_neg (by simpa using h.symm)

theorem key_of_latest (h : latest key k lots = some lot) : key lot.item = k := by
  simpa using List.find?_some h

theorem mem_of_latest (h : latest key k lots = some lot) : lot ∈ lots := List.mem_of_find?_eq_some h

/-! ## What booking a part changes -/

theorem latest_book_self : latest key (tag r) (book key tag r lots) =
    (latest key (tag r) lots).map (add r) := by
  induction lots with
  | nil => rfl
  | cons lot lots ih =>
      rw [book]
      by_cases hkey : key lot.item = tag r
      · rw [if_pos hkey, ← hkey, latest_cons_self]
        exact latest_cons_self
      · rw [if_neg hkey, latest_cons_ne (Ne.symm hkey), latest_cons_ne (Ne.symm hkey), ih]

theorem latest_book_ne (h : k ≠ tag r) :
    latest key k (book key tag r lots) = latest key k lots := by
  induction lots with
  | nil => rfl
  | cons lot lots ih =>
      rw [book]
      by_cases hkey : key lot.item = tag r
      · have hne : k ≠ key lot.item := hkey ▸ h
        rw [if_pos hkey, latest_cons_ne hne]
        exact latest_cons_ne hne
      · rw [if_neg hkey]
        by_cases hk : k = key lot.item
        · rw [hk, latest_cons_self, latest_cons_self]
        · rw [latest_cons_ne hk, latest_cons_ne hk, ih]

/-- The acquisitions stay as they are. -/
theorem map_book {β : Type} (f : P → β) :
    (book key tag r lots).map (fun lot => f lot.item) = lots.map fun lot => f lot.item := by
  induction lots with
  | nil => rfl
  | cons lot lots ih =>
      rw [book]
      split_ifs
      · rfl
      · rw [List.map_cons, List.map_cons, ih]

/-- **Where its key has a lot, a part is booked.** -/
theorem parts_book (h : latest key (tag r) lots = some lot) :
    ((book key tag r lots).flatMap parts).Perm (lots.flatMap parts ++ [r]) := by
  induction lots with
  | nil => cases h
  | cons lot' lots ih =>
      rw [book]
      by_cases hkey : key lot'.item = tag r
      · rw [if_pos hkey, List.flatMap_cons, List.flatMap_cons, List.append_assoc]
        show ((lot'.parts ++ [r]) ++ lots.flatMap parts).Perm _
        rw [List.append_assoc]
        exact List.perm_append_comm.append_left lot'.parts
      · rw [latest_cons_ne (Ne.symm hkey)] at h
        rw [if_neg hkey, List.flatMap_cons, List.flatMap_cons, List.append_assoc]
        exact (ih h).append_left lot'.parts

/-- What is among the lots after booking was there, or is the latest of the
key with the part added. -/
theorem mem_book (h : lot ∈ book key tag r lots) :
    lot ∈ lots ∨ ∃ lot', latest key (tag r) lots = some lot' ∧ lot = lot'.add r := by
  induction lots with
  | nil => cases h
  | cons lot' lots ih =>
      rw [book] at h
      by_cases hkey : key lot'.item = tag r
      · rw [if_pos hkey, List.mem_cons] at h
        rcases h with rfl | h
        · exact .inr ⟨lot', hkey ▸ latest_cons_self, rfl⟩
        · exact .inl (List.mem_cons_of_mem _ h)
      · rw [if_neg hkey, List.mem_cons] at h
        rw [latest_cons_ne (Ne.symm hkey)]
        rcases h with rfl | h
        · exact .inl List.mem_cons_self
        · exact (ih h).imp_left (List.mem_cons_of_mem _)

/-! ## Lots that are superseded -/

/-- A lot supersedes what was the latest of its key. -/
theorem Superseded.cons (h : Superseded key p lots)
    (hlatest : ∀ old, latest key (key lot.item) lots = some old → p old) :
    Superseded key p (lot :: lots) := by
  refine List.Pairwise.cons ?_ h
  intro old hold hkey
  induction lots with
  | nil => cases hold
  | cons first lots ih =>
      obtain ⟨hfirst, hrest⟩ := List.pairwise_cons.1 h
      by_cases hk : key first.item = key lot.item
      · rcases List.mem_cons.1 hold with rfl | hmem
        · exact hlatest old (hk ▸ latest_cons_self)
        · exact hfirst old hmem (hk.trans hkey)
      · rw [latest_cons_ne (Ne.symm hk)] at hlatest
        rcases List.mem_cons.1 hold with rfl | hmem
        · exact absurd hkey.symm hk
        · exact ih hrest hlatest hmem

/-- **A part is booked on no lot that is superseded.** -/
theorem Superseded.book (h : Superseded key p lots) : Superseded key p (book key tag r lots) := by
  induction lots with
  | nil => exact h
  | cons first lots ih =>
      obtain ⟨hfirst, hrest⟩ := List.pairwise_cons.1 h
      rw [Lot.book]
      by_cases hkey : key first.item = tag r
      · rw [if_pos hkey]
        exact List.pairwise_cons.2 ⟨hfirst, hrest⟩
      · rw [if_neg hkey]
        refine List.pairwise_cons.2 ⟨fun lot hlot hsame => ?_, ih hrest⟩
        rcases mem_book hlot with hold | ⟨lot', hlatest, rfl⟩
        · exact hfirst lot hold hsame
        · have hfirst : key first.item = key lot'.item := hsame
          exact absurd (hfirst.trans (key_of_latest hlatest)) hkey

/-- **Every lot has the property** where also the latest of each key has it. -/
theorem Superseded.forall (h : Superseded key p lots)
    (hlatest : ∀ k lot, latest key k lots = some lot → p lot) : ∀ lot ∈ lots, p lot := by
  induction lots with
  | nil => exact fun _ hlot => absurd hlot List.not_mem_nil
  | cons first lots ih =>
      obtain ⟨hfirst, hrest⟩ := List.pairwise_cons.1 h
      intro lot hlot
      rcases List.mem_cons.1 hlot with rfl | hmem
      · exact hlatest _ _ latest_cons_self
      · by_cases hkey : key first.item = key lot.item
        · exact hfirst lot hmem hkey
        · refine ih hrest (fun k old hold => ?_) lot hmem
          by_cases hk : k = key first.item
          · exact hfirst old (mem_of_latest hold) (hk.symm.trans (key_of_latest hold).symm)
          · exact hlatest k old ((latest_cons_ne hk).trans hold)

end Lot

end WebhookTrader
