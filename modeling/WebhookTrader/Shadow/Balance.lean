import WebhookTrader.Shadow.Model.Futures

/-!
# The shadow tracker's books balance

Every entry that was counted is open or closed, every close is a win or a
loss, and where there is a long position there is no short one under the
same symbol and timeframe. A reversal closes before it opens, so the
books balance in between as well.
-/

namespace WebhookTrader

namespace Table

variable {α V : Type} [DecidableEq α] {t : Table α V} {k : α} {v : V}

/-- An entry that counts, less. -/
theorem countP_erase {p : (Sigma fun _ : α => V) → Bool} (h : t.lookup k = some v)
    (hp : p ⟨k, v⟩ = true) : (t.erase k).entries.countP p + 1 = t.entries.countP p := by
  have hmem := AList.mem_lookup_iff.1 h
  obtain ⟨e, before, after, -, he, hsplit, herase⟩ :=
    List.exists_of_eraseP hmem (p := fun e : Sigma fun _ : α => V => decide (k = e.1))
      (decide_eq_true rfl)
  have hsame : e = ⟨k, v⟩ :=
    eq_of_mem (hsplit ▸ List.mem_append_right _ List.mem_cons_self) hmem
      (of_decide_eq_true he).symm
  have hentries : (t.erase k).entries = before ++ after := herase
  rw [hentries, hsplit, List.countP_append, List.countP_append, List.countP_cons, hsame, if_pos hp,
    Nat.add_assoc]

/-- One entry less. -/
theorem size_erase (h : t.lookup k = some v) : size (t.erase k) + 1 = t.size := by
  have hcount := countP_erase (p := fun _ => true) h rfl
  rw [List.countP_true] at hcount
  exact hcount

end Table

namespace VirtualPosition

/-- **A key tells its side.** -/
theorem append_side_inj {p q side side' : String} (hside : side = "long" ∨ side = "short")
    (hside' : side' = "long" ∨ side' = "short") (h : p ++ side = q ++ side') :
    p = q ∧ side = side' := by
  have hlist : p.toList ++ side.toList = q.toList ++ side'.toList := by
    rw [← String.toList_append, ← String.toList_append, h]
  have hlast := congrArg List.getLast? hlist
  rcases hside with rfl | rfl <;> rcases hside' with rfl | rfl
  · exact ⟨String.toList_injective (List.append_cancel_right hlist), rfl⟩
  · rw [List.getLast?_append, List.getLast?_append] at hlast
    exact absurd (Option.some.inj hlast) (by decide)
  · rw [List.getLast?_append, List.getLast?_append] at hlast
    exact absurd (Option.some.inj hlast) (by decide)
  · exact ⟨String.toList_injective (List.append_cancel_right hlist), rfl⟩

theorem side_eq_of_makeKey {symbol symbol' tf tf' side side' : String}
    (hside : side = "long" ∨ side = "short") (hside' : side' = "long" ∨ side' = "short")
    (h : makeKey symbol tf side = makeKey symbol' tf' side') : side = side' :=
  (append_side_inj hside hside' h).2

end VirtualPosition

namespace ShadowTracker

variable {cfg : LearnerConfig} {now : ℕ} {sig : WebhookSignal} {t : ShadowTracker}
  {key reason : String} {price : ℚ} {vp : VirtualPosition}

/-! ## What an exit closes -/

/-- A position is on the side its key tells. -/
theorem side_of_lookup {symbol tf s : String} (hs : s = "long" ∨ s = "short")
    (h : t.positions.lookup (VirtualPosition.makeKey symbol tf s) = some vp) : vp.side = s := by
  obtain ⟨hkey, hside⟩ := t.keyed _ (AList.mem_lookup_iff.1 h)
  exact (VirtualPosition.side_eq_of_makeKey hs hside hkey).symm

/-- What an exit closes is on the exit's side. -/
theorem match?_eq_some (h : t.match? sig = some (key, vp)) :
    t.positions.lookup key = some vp ∧ vp.side = dirToSide sig := by
  unfold match? at h
  split at h
  · rename_i vp' hvp
    cases h
    exact ⟨hvp, side_of_lookup (dirToSide_eq sig) hvp⟩
  · obtain ⟨hsame, hlookup⟩ := Table.findValue_eq_some h
    simp only [Bool.and_eq_true, decide_eq_true_eq] at hsame
    exact ⟨hlookup, hsame.2⟩

/-! ## What a signal does -/

/-- **What a signal does to the tracker**: nothing, the close of a position
on its side, an entry, or a reversal, which closes before it enters. -/
inductive Tracked (cfg : LearnerConfig) (now : ℕ) (sig : WebhookSignal) (t : ShadowTracker) :
    ShadowTracker → Prop
  | nothing : Tracked cfg now sig t t
  | closes {key : String} {vp : VirtualPosition} (reason : String)
      (hlookup : t.positions.lookup key = some vp) (hside : vp.side = dirToSide sig) :
      Tracked cfg now sig t (t.closePosition cfg now sig.price reason key vp)
  | enters (hsymbol : sig.symbol ≠ "") (hfree : t.positions.lookup (signalKey sig) = none)
      (hopp : t.positions.lookup (oppKey sig) = none) : Tracked cfg now sig t (t.enter now sig)
  | turns {vp : VirtualPosition} (hsymbol : sig.symbol ≠ "")
      (hfree : t.positions.lookup (signalKey sig) = none)
      (hopp : t.positions.lookup (oppKey sig) = some vp) :
      Tracked cfg now sig t
        ((t.closePosition cfg now sig.price "REVERSAL" (oppKey sig) vp).enter now sig)

theorem tracked_trackEntry (hsymbol : sig.symbol ≠ "") :
    Tracked cfg now sig t (t.trackEntry cfg now sig) := by
  unfold trackEntry reverse
  split_ifs with hthere
  · exact .nothing
  · have hfree : t.positions.lookup (signalKey sig) = none := by simpa using hthere
    cases hopp : t.positions.lookup (oppKey sig) with
    | none => exact .enters hsymbol hfree hopp
    | some vp => exact .turns hsymbol hfree hopp

theorem tracked_trackExit : Tracked cfg now sig t (t.trackExit cfg now reason sig) := by
  unfold trackExit
  rcases hmatch : t.match? sig with - | ⟨key, vp⟩
  · exact .nothing
  · obtain ⟨hlookup, hside⟩ := match?_eq_some hmatch
    exact .closes reason hlookup hside

/-- **A signal does no more than that.** -/
theorem tracked_track : Tracked cfg now sig t (t.track cfg now sig) := by
  unfold track
  split_ifs with hmarket
  · exact .nothing
  · have hsymbol : sig.symbol ≠ "" := fun heq => hmarket (.inr heq)
    split
    · exact tracked_trackEntry hsymbol
    · exact tracked_trackEntry hsymbol
    · exact tracked_trackExit
    · exact tracked_trackExit
    · exact .nothing

/-! ## The books -/

/-- **The books balance.** -/
structure Balanced (t : ShadowTracker) : Prop where
  entries : t.totalEntries = t.totalCloses + t.positions.size
  outcomes : t.wins + t.losses = t.totalCloses
  named : ∀ e ∈ t.positions.entries, e.2.symbol ≠ ""
  oneSided : ∀ p, t.positions.lookup (p ++ "long") = none ∨
    t.positions.lookup (p ++ "short") = none

theorem balanced_empty {learner : Learner} : Balanced { learner } where
  entries := rfl
  outcomes := rfl
  named := by rintro e ⟨⟩
  oneSided _ := .inl rfl

/-- A close opens nothing. -/
theorem lookup_closePosition_of_none {k : String} (h : t.positions.lookup k = none) :
    (t.closePosition cfg now price reason key vp).positions.lookup k = none :=
  Table.lookup_erase_of_none h

/-- **A close balances.** -/
theorem Balanced.close (h : t.Balanced) (hlookup : t.positions.lookup key = some vp) :
    (t.closePosition cfg now price reason key vp).Balanced := by
  have hsize := Table.size_erase hlookup
  refine ⟨?_, ?_, fun e he => h.named e (Table.mem_erase.1 he).2, fun p => ?_⟩
  · show t.totalEntries = t.totalCloses + 1 + Table.size (t.positions.erase key)
    have := h.entries
    omega
  · show (if 0 < (closedTrade vp price reason).netPnl then t.wins + 1 else t.wins) +
      (if 0 < (closedTrade vp price reason).netPnl then t.losses else t.losses + 1) =
        ((t.totalCloses + 1 : ℕ) : ℤ)
    have := h.outcomes
    split_ifs <;> push_cast <;> omega
  · exact (h.oneSided p).imp lookup_closePosition_of_none lookup_closePosition_of_none

/-- Where the opposite position is gone, the signal's can be opened. -/
theorem Balanced.enter (h : t.Balanced) (hsymbol : sig.symbol ≠ "")
    (hkey : t.positions.lookup (signalKey sig) = none)
    (hopp : t.positions.lookup (oppKey sig) = none) : (t.enter now sig).Balanced := by
  refine ⟨?_, h.outcomes, fun e he => ?_, fun p => ?_⟩
  · have hsize : (t.enter now sig).positions.size = t.positions.size + 1 := Table.size_insert hkey
    show t.totalEntries + 1 = t.totalCloses + (t.enter now sig).positions.size
    rw [hsize]
    have := h.entries
    omega
  · rcases Table.mem_insert.1 he with rfl | ⟨-, hold⟩
    · exact hsymbol
    · exact h.named e hold
  · -- a key with one side is the signal's own, and then the other is the opposite one
    have hother : ∀ {side : String}, (side = "long" ∨ side = "short") →
        p ++ side ≠ signalKey sig → t.positions.lookup (p ++ side) = none →
          (t.enter now sig).positions.lookup (p ++ side) = none := by
      intro side _ hne hnone
      exact (AList.lookup_insert_ne hne).trans hnone
    by_cases hlong : p ++ "long" = signalKey sig
    · right
      obtain ⟨hp, hside⟩ := VirtualPosition.append_side_inj (.inl rfl) (dirToSide_eq sig) hlong
      have hopp' : p ++ "short" = oppKey sig := by
        rw [oppKey, ← hside, if_pos rfl, hp]
        rfl
      refine hother (.inr rfl) (fun hshort => ?_) (hopp' ▸ hopp)
      have := (VirtualPosition.append_side_inj (.inr rfl) (dirToSide_eq sig) hshort).2
      rw [← hside] at this
      exact absurd this (by decide)
    · by_cases hshort : p ++ "short" = signalKey sig
      · left
        obtain ⟨hp, hside⟩ := VirtualPosition.append_side_inj (.inr rfl) (dirToSide_eq sig) hshort
        have hopp' : p ++ "long" = oppKey sig := by
          rw [oppKey, ← hside, if_neg (by decide), hp]
          rfl
        exact hother (.inl rfl) hlong (hopp' ▸ hopp)
      · exact (h.oneSided p).imp (hother (.inl rfl) hlong) (hother (.inr rfl) hshort)

theorem Balanced.reverse (h : t.Balanced) : (t.reverse cfg now sig).Balanced := by
  unfold ShadowTracker.reverse
  split
  · rename_i vp hvp
    exact h.close hvp
  · exact h

theorem Balanced.of_tracked {t' : ShadowTracker} (h : t.Balanced)
    (htracked : Tracked cfg now sig t t') : t'.Balanced := by
  cases htracked with
  | nothing => exact h
  | closes reason hlookup => exact h.close hlookup
  | enters hsymbol hfree hopp => exact h.enter hsymbol hfree hopp
  | turns hsymbol hfree hopp =>
      exact (h.close hopp).enter hsymbol (lookup_closePosition_of_none hfree)
        (AList.lookup_erase _ _)

/-- **Every signal keeps the books balanced.** -/
theorem Balanced.track (h : t.Balanced) : (t.track cfg now sig).Balanced :=
  h.of_tracked tracked_track

/-- Marking a key touches none of it. -/
theorem Balanced.mark (h : t.Balanced) (key : String) : (t.markLiveEquivalent key).Balanced :=
  ⟨h.entries, h.outcomes, h.named, h.oneSided⟩

/-- **No symbol and timeframe has a long and a short position.** -/
theorem Balanced.not_both (h : t.Balanced) {e e' : Sigma fun _ : String => VirtualPosition}
    (he : e ∈ t.positions.entries) (he' : e' ∈ t.positions.entries)
    (hsymbol : e.2.symbol = e'.2.symbol) (htf : e.2.timeframe = e'.2.timeframe)
    (hlong : e.2.side = "long") (hshort : e'.2.side = "short") : False := by
  have hkey := (t.keyed e he).1
  have hkey' := (t.keyed e' he').1
  rw [VirtualPosition.key, VirtualPosition.makeKey, hlong] at hkey
  rw [VirtualPosition.key, VirtualPosition.makeKey, hshort, ← hsymbol, ← htf] at hkey'
  have hlookup := AList.mem_lookup_iff.2 he
  have hlookup' := AList.mem_lookup_iff.2 he'
  rcases h.oneSided (e.2.symbol ++ ":" ++ e.2.timeframe ++ ":") with hnone | hnone
  · rw [hkey, hnone] at hlookup
    cases hlookup
  · rw [hkey', hnone] at hlookup'
    cases hlookup'

end ShadowTracker

end WebhookTrader
