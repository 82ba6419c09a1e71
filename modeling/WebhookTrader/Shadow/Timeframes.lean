import WebhookTrader.Common.Inputs
import WebhookTrader.Shadow.History
import WebhookTrader.Shadow.Repetition
import WebhookTrader.Shadow.Report

/-!
# Timeframes of the shadow tracker

Positions are followed by symbol and timeframe. An entry looks at its own
timeframe only; an exit that finds nothing under its own key closes a
position of another one, and every trade can push an old one off the
list. Where neither happens to a timeframe, its positions and trades are
the same without the signals of another.
-/

namespace WebhookTrader

/-! ## Symbols with timeframes -/

/-- The symbol and timeframe a position is followed under. -/
def VirtualPosition.frame (vp : VirtualPosition) : String := vp.symbol ++ ":" ++ vp.timeframe

/-- The symbol and timeframe of a trade. -/
def TradeRecord.frame (tr : TradeRecord) : String := tr.symbol ++ ":" ++ tr.timeframe

namespace ShadowTracker

open VirtualPosition (makeKey)

/-- The symbol and timeframe of a signal. -/
def frame (sig : WebhookSignal) : String := sig.symbol ++ ":" ++ timeframe sig

/-- A signal is tracked at all. -/
def Tracks (sig : WebhookSignal) : Prop := ¬ (sig.marketType = "spot" ∨ sig.symbol = "")

instance (sig : WebhookSignal) : Decidable (Tracks sig) := inferInstanceAs (Decidable (¬ _))

variable {cfg : LearnerConfig} {now : ℕ} {sig : WebhookSignal} {t t' : ShadowTracker}
  {name key reason side : String} {price : ℚ} {vp : VirtualPosition}

/-- **What is under a key of a symbol and timeframe** is a position of them. -/
theorem frame_of_lookup (hside : side = "long" ∨ side = "short")
    (h : t.positions.lookup (name ++ ":" ++ side) = some vp) : vp.frame = name := by
  obtain ⟨hkey, hvp⟩ := t.keyed _ (AList.mem_lookup_iff.1 h)
  have hframe := (VirtualPosition.append_side_inj hside hvp hkey).1
  exact ((String.append_left_inj ":").1 hframe).symm

/-- A position of another symbol or timeframe is under another key. -/
theorem key_ne_of_frame (h : t.positions.lookup key = some vp) (hname : vp.frame ≠ name)
    (hside : side = "long" ∨ side = "short") : name ++ ":" ++ side ≠ key := by
  rintro rfl
  exact hname (frame_of_lookup hside h)

/-- A key of a side tells the symbol and timeframe. -/
theorem frame_inj {side' : String} (hside : side = "long" ∨ side = "short")
    (hside' : side' = "long" ∨ side' = "short")
    (h : name ++ ":" ++ side = frame sig ++ ":" ++ side') : frame sig = name := by
  have hframe := (VirtualPosition.append_side_inj hside hside' h).1
  exact ((String.append_left_inj ":").1 hframe).symm

/-! ## What a timeframe has -/

/-- The trades of a symbol and timeframe. -/
def framed (name : String) (trades : List TradeRecord) : List TradeRecord :=
  trades.filter fun tr => tr.frame = name

/-- **Two trackers have the same of a symbol and timeframe.** -/
structure Alike (name : String) (t t' : ShadowTracker) : Prop where
  positions : ∀ side, side = "long" ∨ side = "short" →
    t.positions.lookup (name ++ ":" ++ side) = t'.positions.lookup (name ++ ":" ++ side)
  trades : framed name t.trades = framed name t'.trades

/-- One more trade pushes none of a symbol's and timeframe's off a list. -/
def KeepsTrades (name : String) (trades : List TradeRecord) : Prop :=
  ∀ tr ∈ trades.take (trades.length + 1 - 5000), tr.frame ≠ name

/-- **A signal spares a symbol and timeframe**: as an exit, it closes a
position of them only where they are its own, and the trade it closes a
position with pushes none of theirs off the list. -/
structure Spares (name : String) (t : ShadowTracker) (s : ℕ × WebhookSignal) : Prop where
  exit : Tracks s.2 → s.2.Exits → ∀ e ∈ t.match? s.2, e.2.frame = name → frame s.2 = name
  cap : (t.closes s.2).isSome = true → KeepsTrades name t.trades

instance (name : String) (trades : List TradeRecord) : Decidable (KeepsTrades name trades) :=
  inferInstanceAs (Decidable (∀ tr ∈ _, _))

instance (name : String) (t : ShadowTracker) (s : ℕ × WebhookSignal) :
    Decidable (Spares name t s) :=
  decidable_of_iff ((Tracks s.2 → s.2.Exits → ∀ e ∈ t.match? s.2, e.2.frame = name →
      frame s.2 = name) ∧ ((t.closes s.2).isSome = true → KeepsTrades name t.trades))
    ⟨fun h => ⟨h.1, h.2⟩, fun h => ⟨h.exit, h.cap⟩⟩

theorem Alike.symm (h : Alike name t t') : Alike name t' t :=
  ⟨fun side hside => (h.positions side hside).symm, h.trades.symm⟩

/-- The trades of a symbol and timeframe after one more trade. -/
theorem framed_capTrades {most : ℕ} {trades : List TradeRecord} {tr : TradeRecord}
    (hmost : 0 < most) (h : ∀ tr ∈ trades.take (trades.length + 1 - most), tr.frame ≠ name) :
    framed name (capTrades most (trades ++ [tr])) = framed name trades ++ framed name [tr] := by
  rw [capTrades_concat hmost, framed, List.filter_append]
  congr 1
  have hsplit := List.take_append_drop (trades.length + 1 - most) trades
  have hnone : (trades.take (trades.length + 1 - most)).filter (fun tr => tr.frame = name) = [] :=
    List.filter_eq_nil_iff.2 fun tr htr => by simpa using h tr htr
  conv_rhs => rw [framed, ← hsplit, List.filter_append, hnone, List.nil_append]

/-! ## One close, one entry -/

@[simp] theorem frame_closedTrade : (closedTrade vp price reason).frame = vp.frame := rfl

/-- A close of another symbol or timeframe. -/
theorem Alike.close_other (h : Alike name t t') (hlookup : t.positions.lookup key = some vp)
    (hname : vp.frame ≠ name) (hcap : KeepsTrades name t.trades) :
    Alike name (t.closePosition cfg now price reason key vp) t' := by
  refine ⟨fun side hside => ?_, ?_⟩
  · rw [← h.positions side hside]
    exact AList.lookup_erase_ne (key_ne_of_frame hlookup hname hside)
  · have htrade : framed name [closedTrade vp price reason] = [] :=
      List.filter_eq_nil_iff.2 fun tr htr => by
        rw [List.mem_singleton.1 htr]
        exact decide_eq_false hname ▸ Bool.false_ne_true
    rw [trades_closePosition, framed_capTrades (by omega) hcap, htrade, List.append_nil]
    exact h.trades

/-- The same close on both sides. -/
theorem Alike.close_both (h : Alike name t t') (hcap : KeepsTrades name t.trades)
    (hcap' : KeepsTrades name t'.trades) :
    Alike name (t.closePosition cfg now price reason key vp)
      (t'.closePosition cfg now price reason key vp) := by
  refine ⟨fun side hside => ?_, ?_⟩
  · show (t.positions.erase key).lookup _ = (t'.positions.erase key).lookup _
    by_cases hkey : name ++ ":" ++ side = key
    · rw [hkey, AList.lookup_erase, AList.lookup_erase]
    · rw [AList.lookup_erase_ne hkey, AList.lookup_erase_ne hkey]
      exact h.positions side hside
  · rw [trades_closePosition, trades_closePosition, framed_capTrades (by omega) hcap,
      framed_capTrades (by omega) hcap', h.trades]

/-- An entry of another symbol or timeframe. -/
theorem Alike.enter_other (h : Alike name t t') (hname : frame sig ≠ name) :
    Alike name (t.enter now sig) t' := by
  refine ⟨fun side hside => ?_, h.trades⟩
  rw [← h.positions side hside]
  refine AList.lookup_insert_ne fun hkey => hname ?_
  exact frame_inj hside (dirToSide_eq sig) hkey

/-- The same entry on both sides. -/
theorem Alike.enter_both (h : Alike name t t') :
    Alike name (t.enter now sig) (t'.enter now sig) := by
  refine ⟨fun side hside => ?_, h.trades⟩
  show (AList.insert (opened now sig).key _ t.positions).lookup _ =
    (AList.insert (opened now sig).key _ t'.positions).lookup _
  by_cases hkey : name ++ ":" ++ side = (opened now sig).key
  · rw [hkey, AList.lookup_insert, AList.lookup_insert]
  · rw [AList.lookup_insert_ne hkey, AList.lookup_insert_ne hkey]
    exact h.positions side hside

/-! ## One signal -/

theorem oppSide_eq (sig : WebhookSignal) :
    (if dirToSide sig = "long" then "short" else "long") = "long" ∨
      (if dirToSide sig = "long" then "short" else "long") = "short" := by
  split_ifs <;> simp

/-- The opposite position is of the signal's symbol and timeframe. -/
theorem frame_of_opposite (h : t.positions.lookup (oppKey sig) = some vp) :
    vp.frame = frame sig := frame_of_lookup (oppSide_eq sig) h

/-- What a signal finds under its own key is of its symbol and timeframe. -/
theorem frame_of_own (h : t.positions.lookup (signalKey sig) = some vp) : vp.frame = frame sig :=
  frame_of_lookup (dirToSide_eq sig) h

/-- What the signals of a symbol and timeframe look up is among what they
have. -/
theorem Alike.lookup (h : Alike name t t') (hname : frame sig = name) :
    t.positions.lookup (signalKey sig) = t'.positions.lookup (signalKey sig) ∧
      t.positions.lookup (oppKey sig) = t'.positions.lookup (oppKey sig) := by
  subst hname
  exact ⟨h.positions _ (dirToSide_eq sig), h.positions _ (oppSide_eq sig)⟩

/-- An exit's trade is recorded where there is a position. -/
theorem closes_of_exit (htracks : Tracks sig) (hexit : sig.Exits) (h : t.match? sig = some (key, vp)) :
    (t.closes sig).isSome = true := by
  unfold closes
  rw [if_neg htracks]
  rcases hexit with htype | htype <;> rw [htype] <;> simp [h]

/-- A reversal's trade is recorded where there is an opposite position. -/
theorem closes_of_entry (htracks : Tracks sig)
    (hentry : sig.sigType = .entry ∨ sig.sigType = .reEntry)
    (hnone : t.positions.lookup (signalKey sig) = none)
    (hopp : t.positions.lookup (oppKey sig) = some vp) : (t.closes sig).isSome = true := by
  unfold closes
  rw [if_neg htracks]
  rcases hentry with htype | htype <;> rw [htype] <;> simp [hnone, hopp]

section Entry

variable (htracks : Tracks sig) (hentry : sig.sigType = .entry ∨ sig.sigType = .reEntry)
include htracks hentry

/-- **An entry of another symbol or timeframe.** -/
theorem Alike.trackEntry_other (h : Alike name t t') (hspares : Spares name t (now, sig))
    (hname : frame sig ≠ name) : Alike name (t.trackEntry cfg now sig) t' := by
  unfold trackEntry
  split_ifs with hthere
  · exact h
  have hnone : t.positions.lookup (signalKey sig) = none := by simpa using hthere
  refine Alike.enter_other ?_ hname
  unfold reverse
  cases hopp : t.positions.lookup (oppKey sig) with
  | none => exact h
  | some vp =>
      have hcap := hspares.cap (closes_of_entry htracks hentry hnone hopp)
      exact h.close_other hopp (by rw [frame_of_opposite hopp]; exact hname) hcap

/-- **An entry of the symbol and timeframe.** -/
theorem Alike.trackEntry_own (h : Alike name t t') (hspares : Spares name t (now, sig))
    (hspares' : Spares name t' (now, sig)) (hname : frame sig = name) :
    Alike name (t.trackEntry cfg now sig) (t'.trackEntry cfg now sig) := by
  obtain ⟨hkey, hoppKey⟩ := h.lookup hname
  unfold trackEntry
  rw [← hkey]
  split_ifs with hthere
  · exact h
  have hnone : t.positions.lookup (signalKey sig) = none := by simpa using hthere
  refine Alike.enter_both ?_
  unfold reverse
  rw [← hoppKey]
  cases hopp : t.positions.lookup (oppKey sig) with
  | none => exact h
  | some vp =>
      have hcap := hspares.cap (closes_of_entry htracks hentry hnone hopp)
      have hcap' := hspares'.cap (closes_of_entry htracks hentry (hkey ▸ hnone) (hoppKey ▸ hopp))
      exact h.close_both hcap hcap'

end Entry

section Exit

variable (htracks : Tracks sig) (hexit : sig.Exits)
include htracks hexit

/-- **An exit that closes nothing** of the symbol and timeframe. -/
theorem Alike.trackExit_spared (h : Alike name t t') (hspares : Spares name t (now, sig))
    (hspared : ∀ e ∈ t.match? sig, e.2.frame ≠ name) :
    Alike name (t.trackExit cfg now reason sig) t' := by
  unfold trackExit
  cases hmatch : t.match? sig with
  | none => exact h
  | some e =>
      obtain ⟨key, vp⟩ := e
      have hcap := hspares.cap (closes_of_exit htracks hexit hmatch)
      exact h.close_other (match?_eq_some hmatch).1 (hspared _ hmatch) hcap

/-- **An exit of the symbol and timeframe.** Where it finds nothing under
its key, what it closes instead is of another timeframe. -/
theorem Alike.trackExit_own (h : Alike name t t') (hspares : Spares name t (now, sig))
    (hspares' : Spares name t' (now, sig)) (hname : frame sig = name) :
    Alike name (t.trackExit cfg now reason sig) (t'.trackExit cfg now reason sig) := by
  obtain ⟨hkey, -⟩ := h.lookup hname
  cases hown : t.positions.lookup (signalKey sig) with
  | none =>
      -- a position of the timeframe on the signal's side would be under its key
      have hspared : ∀ {u : ShadowTracker}, u.positions.lookup (signalKey sig) = none →
          ∀ e ∈ u.match? sig, e.2.frame ≠ name := by
        rintro u hnone ⟨key, vp⟩ hmatch hframe
        obtain ⟨hlookup, hside⟩ := match?_eq_some hmatch
        have hvp : key = vp.frame ++ ":" ++ vp.side := (u.keyed _ (AList.mem_lookup_iff.1 hlookup)).1
        have hsignal : signalKey sig = key := by
          rw [hvp, hframe, hside, ← hname]
          rfl
        rw [← hsignal, hnone] at hlookup
        cases hlookup
      have hleft : Alike name (t.trackExit cfg now reason sig) t' :=
        h.trackExit_spared htracks hexit hspares (hspared hown)
      have hright : Alike name (t'.trackExit cfg now reason sig) (t.trackExit cfg now reason sig) :=
        hleft.symm.trackExit_spared htracks hexit hspares' (hspared (hkey ▸ hown))
      exact hright.symm
  | some vp =>
      have hmatch : t.match? sig = some (signalKey sig, vp) := by rw [match?, hown]
      have hmatch' : t'.match? sig = some (signalKey sig, vp) := by rw [match?, ← hkey, hown]
      unfold trackExit
      rw [hmatch, hmatch']
      exact h.close_both (hspares.cap (closes_of_exit htracks hexit hmatch))
        (hspares'.cap (closes_of_exit htracks hexit hmatch'))

end Exit

/-! ## A run -/

/-- **The unwinding conditions**: what a timeframe has is kept by the
signals of others, and depends on its own alone. -/
theorem unwinds (cfg : LearnerConfig) (name : String) {hidden : ℕ × WebhookSignal → Prop}
    (hhidden : ∀ s, hidden s → frame s.2 ≠ name) :
    Inputs.Unwinds (fun t s => track cfg s.1 s.2 t) (Spares name) hidden (Alike name) := by
  have hother : ∀ {t t' s}, Spares name t s → frame s.2 ≠ name → Alike name t t' →
      Alike name (t.track cfg s.1 s.2) t' := by
    rintro t t' ⟨now, sig⟩ hspares hname h
    unfold track
    split_ifs with hskip
    · exact h
    · have hexit : sig.Exits → ∀ e ∈ t.match? sig, e.2.frame ≠ name := fun hexit e he hframe =>
        hname (hspares.exit hskip hexit e he hframe)
      cases htype : sig.sigType with
      | entry => exact h.trackEntry_other hskip (.inl htype) hspares hname
      | reEntry => exact h.trackEntry_other hskip (.inr htype) hspares hname
      | tp => exact h.trackExit_spared hskip (.inl htype) hspares (hexit (.inl htype))
      | sl => exact h.trackExit_spared hskip (.inr htype) hspares (hexit (.inr htype))
      | unknown => exact h
  refine ⟨fun hspares hi h => hother hspares (hhidden _ hi) h, ?_⟩
  rintro t t' ⟨now, sig⟩ hspares hspares' - h
  by_cases hname : frame sig = name
  · dsimp only
    unfold track
    split_ifs with hskip
    · exact h
    · cases htype : sig.sigType with
      | entry => exact h.trackEntry_own hskip (.inl htype) hspares hspares' hname
      | reEntry => exact h.trackEntry_own hskip (.inr htype) hspares hspares' hname
      | tp => exact h.trackExit_own hskip (.inl htype) hspares hspares' hname
      | sl => exact h.trackExit_own hskip (.inr htype) hspares hspares' hname
      | unknown => exact h
  · exact (hother hspares' hname (hother hspares hname h).symm).symm

/-- The signals without those of a symbol's timeframe. -/
def without (symbol tf : String) (sigs : List (ℕ × WebhookSignal)) : List (ℕ × WebhookSignal) :=
  sigs.filter fun s => ¬ (s.2.symbol = symbol ∧ timeframe s.2 = tf)

/-- **A run spares a symbol and timeframe**, at every signal. -/
abbrev SparesAlong (cfg : LearnerConfig) (name : String) (t : ShadowTracker)
    (sigs : List (ℕ × WebhookSignal)) : Prop :=
  Inputs.Guarded (fun t s => track cfg s.1 s.2 t) (Spares name) t sigs

theorem alike_without {symbol tf₁ tf₂ : String} {sigs : List (ℕ × WebhookSignal)} (htf : tf₁ ≠ tf₂)
    (h : SparesAlong cfg (symbol ++ ":" ++ tf₂) t sigs)
    (h' : SparesAlong cfg (symbol ++ ":" ++ tf₂) t (without symbol tf₁ sigs)) :
    Alike (symbol ++ ":" ++ tf₂) (t.trackAll cfg sigs)
      (t.trackAll cfg (without symbol tf₁ sigs)) := by
  have hunwinds : Inputs.Unwinds (fun t s => track cfg s.1 s.2 t)
      (Spares (symbol ++ ":" ++ tf₂))
      (fun s : ℕ × WebhookSignal => s.2.symbol = symbol ∧ timeframe s.2 = tf₁)
      (Alike (symbol ++ ":" ++ tf₂)) := by
    refine unwinds cfg _ ?_
    rintro ⟨now, sig⟩ ⟨rfl, rfl⟩ hframe
    exact htf ((String.append_right_inj _).1 hframe)
  exact hunwinds.run ⟨fun _ _ => rfl, rfl⟩ h h'

/-- **Timeframes do not interfere** where, with the signals of the one and
without, the other is spared. -/
theorem timeframes_apart {symbol tf₁ tf₂ : String} {sigs : List (ℕ × WebhookSignal)}
    (htf : tf₁ ≠ tf₂) (h : SparesAlong cfg (symbol ++ ":" ++ tf₂) t sigs)
    (h' : SparesAlong cfg (symbol ++ ":" ++ tf₂) t (without symbol tf₁ sigs)) :
    (∀ side, side = "long" ∨ side = "short" →
      (t.trackAll cfg sigs).positions.lookup (makeKey symbol tf₂ side) =
        (t.trackAll cfg (without symbol tf₁ sigs)).positions.lookup (makeKey symbol tf₂ side)) ∧
    ((t.trackAll cfg sigs).trades.filter fun tr => tr.symbol = symbol ∧ tr.timeframe = tf₂) =
      (t.trackAll cfg (without symbol tf₁ sigs)).trades.filter fun tr =>
        tr.symbol = symbol ∧ tr.timeframe = tf₂ := by
  obtain ⟨hpositions, htrades⟩ := alike_without htf h h'
  refine ⟨hpositions, ?_⟩
  have hown : ∀ trades, (trades.filter fun tr => tr.symbol = symbol ∧ tr.timeframe = tf₂) =
      (framed (symbol ++ ":" ++ tf₂) trades).filter fun tr =>
        tr.symbol = symbol ∧ tr.timeframe = tf₂ := by
    intro trades
    rw [framed, List.filter_filter]
    refine List.filter_congr fun tr _ => ?_
    rw [Bool.eq_iff_iff]
    simp only [decide_eq_true_eq, Bool.and_eq_true]
    constructor
    · rintro ⟨rfl, rfl⟩
      exact ⟨⟨rfl, rfl⟩, rfl⟩
    · exact And.left
  rw [hown, htrades, ← hown]

/-- An exit of another timeframe that closes a position does interfere. -/
theorem not_alike_of_exit (htracks : Tracks sig) (hexit : sig.Exits)
    (hmatch : t.match? sig = some (key, vp)) :
    ¬ Alike vp.frame (t.track cfg now sig) t := by
  obtain ⟨hlookup, hside⟩ := match?_eq_some hmatch
  have hkey : key = vp.frame ++ ":" ++ vp.side := (t.keyed _ (AList.mem_lookup_iff.1 hlookup)).1
  have hclosed : (t.track cfg now sig).positions.lookup key = none := by
    unfold track
    rw [if_neg htracks]
    rcases hexit with htype | htype <;> rw [htype] <;> dsimp only <;> unfold trackExit <;>
      rw [hmatch] <;> exact AList.lookup_erase _ _
  intro h
  have hsame := h.positions vp.side (hside ▸ dirToSide_eq sig)
  rw [← hkey, hclosed, hlookup] at hsame
  cases hsame

/-! ## The report -/

/-- Every position and trade has a timeframe. -/
structure Timed (t : ShadowTracker) : Prop where
  positions : ∀ e ∈ t.positions.entries, e.2.timeframe ≠ ""
  trades : ∀ tr ∈ t.trades, tr.timeframe ≠ ""

theorem timeframe_ne (sig : WebhookSignal) : timeframe sig ≠ "" := by
  unfold timeframe
  split_ifs with h
  · decide
  · exact h

theorem Timed.close (h : t.Timed) (hlookup : t.positions.lookup key = some vp) :
    (t.closePosition cfg now price reason key vp).Timed := by
  refine ⟨fun e he => h.positions e (Table.mem_erase.1 he).2, fun tr htr => ?_⟩
  rw [trades_closePosition] at htr
  rcases List.mem_append.1 (List.mem_of_mem_drop htr) with hold | hnew
  · exact h.trades tr hold
  · rw [List.mem_singleton.1 hnew]
    exact h.positions _ (AList.mem_lookup_iff.1 hlookup)

theorem Timed.enter (h : t.Timed) : (t.enter now sig).Timed := by
  refine ⟨fun e he => ?_, h.trades⟩
  rcases Table.mem_insert.1 he with rfl | ⟨-, hold⟩
  · exact timeframe_ne sig
  · exact h.positions e hold

theorem Timed.of_tracked (h : t.Timed) (htracked : Tracked cfg now sig t t') : t'.Timed := by
  cases htracked with
  | nothing => exact h
  | closes reason hlookup => exact h.close hlookup
  | enters hsymbol hfree hopp => exact h.enter
  | turns hsymbol hfree hopp => exact (h.close hopp).enter

theorem Timed.track (h : t.Timed) : (t.track cfg now sig).Timed := h.of_tracked tracked_track

theorem Timed.trackAll {sigs : List (ℕ × WebhookSignal)} (h : t.Timed) :
    (t.trackAll cfg sigs).Timed := by
  induction sigs generalizing t with
  | nil => exact h
  | cons s sigs ih => exact ih h.track

/-- **The report grades a timeframe on its own signals** in such runs: its
row is the same without the signals of another. -/
theorem report_apart {symbol tf₁ tf₂ : String} {sigs : List (ℕ × WebhookSignal)}
    (htf : tf₁ ≠ tf₂) (ht : t.Timed) (h : SparesAlong cfg (symbol ++ ":" ++ tf₂) t sigs)
    (h' : SparesAlong cfg (symbol ++ ":" ++ tf₂) t (without symbol tf₁ sigs)) (row : ReportRow)
    (hrow : row.key = symbol ++ ":" ++ tf₂) :
    row ∈ (t.trackAll cfg sigs).getSymbolTfReport ↔
      row ∈ (t.trackAll cfg (without symbol tf₁ sigs)).getSymbolTfReport := by
  have hkeyed : ∀ {u : ShadowTracker}, u.Timed →
      (u.trades.filter fun tr => symbolTfKey tr = row.key) =
        framed (symbol ++ ":" ++ tf₂) u.trades := by
    intro u hu
    refine List.filter_congr fun tr htr => ?_
    rw [symbolTfKey, if_neg (hu.trades tr htr), hrow]
    rfl
  have hsame := (hkeyed ht.trackAll).trans
    ((alike_without htf h h').trades.trans (hkeyed ht.trackAll).symm)
  have hiff : ∀ {trades trades' : List TradeRecord},
      (trades.filter fun tr => symbolTfKey tr = row.key) =
        (trades'.filter fun tr => symbolTfKey tr = row.key) →
      row ∈ reportOf symbolTfKey symbolTfRow trades →
        row ∈ reportOf symbolTfKey symbolTfRow trades' := by
    intro trades trades' hfilter hmem
    obtain ⟨k, ⟨tr, htr, rfl⟩, heq⟩ := mem_reportOf.1 hmem
    have hkey : row.key = symbolTfKey tr := by rw [heq]; rfl
    rw [← hkey, hfilter] at heq
    have htr' : tr ∈ trades'.filter fun tr => symbolTfKey tr = row.key := by
      rw [← hfilter]
      exact List.mem_filter.2 ⟨htr, by simp [hkey]⟩
    exact mem_reportOf.2 ⟨row.key, ⟨tr, (List.mem_filter.1 htr').1, hkey.symm⟩, heq⟩
  exact ⟨hiff hsame, hiff hsame.symm⟩

/-! ## A second take-profit -/

end ShadowTracker

namespace FrameRun

/-- A buy of the symbol on a timeframe. -/
def buy (tf : String) : WebhookSignal where
  symbol := "BTCUSDT"
  timeframe := tf
  alert := "BUY"
  action := "buy"
  signalDirection := "bull"
  sigType := .entry
  price := 100

/-- A take-profit level of that buy. -/
def takeProfit (tf level : String) : WebhookSignal :=
  { buy tf with alert := level, tpLevel := level, sigType := .tp, price := 110 }

/-- Two buys, each followed by take-profits of its own timeframe. -/
def signals (levels : List String) : List (ℕ × WebhookSignal) :=
  [(0, buy "5"), (60, buy "15")] ++ levels.map fun level => (120, takeProfit "5" level)

/-- Every exit follows an entry of its symbol, timeframe and side. -/
def ExitsFollow (sigs : List (ℕ × WebhookSignal)) : Prop :=
  ∀ n < sigs.length, ∀ s ∈ sigs[n]?, s.2.Exits → ∃ e ∈ sigs.take n, ¬ e.2.Exits ∧
    ShadowTracker.signalKey e.2 = ShadowTracker.signalKey s.2

instance (sigs : List (ℕ × WebhookSignal)) : Decidable (ExitsFollow sigs) :=
  inferInstanceAs (Decidable (∀ n < _, _))

end FrameRun

namespace ShadowTracker

open FrameRun
open VirtualPosition (makeKey)

theorem timeframes_apart_btc :
    SparesAlong {} ("BTCUSDT" ++ ":" ++ "15") {} (signals ["TP1"]) ∧
    (∀ side, side = "long" ∨ side = "short" →
      (trackAll {} (signals ["TP1"]) {}).positions.lookup (makeKey "BTCUSDT" "15" side) =
        (trackAll {} (without "BTCUSDT" "5" (signals ["TP1"])) {}).positions.lookup
          (makeKey "BTCUSDT" "15" side)) ∧
    ((trackAll {} (signals ["TP1"]) {}).trades.filter fun tr =>
      tr.symbol = "BTCUSDT" ∧ tr.timeframe = "15") =
      (trackAll {} (without "BTCUSDT" "5" (signals ["TP1"])) {}).trades.filter fun tr =>
        tr.symbol = "BTCUSDT" ∧ tr.timeframe = "15" := by
  have h : SparesAlong {} ("BTCUSDT" ++ ":" ++ "15") {} (signals ["TP1"]) := by decide +kernel
  exact ⟨h, timeframes_apart (by decide) h (by decide +kernel)⟩

/-- The second take-profit of the one timeframe closes the other's position. -/
theorem timeframes_interfere :
    ExitsFollow (signals ["TP1", "TP2"]) ∧
      (trackAll {} (signals ["TP1", "TP2"]) {}).positions.lookup (makeKey "BTCUSDT" "15" "long") =
        none ∧
      (trackAll {} (without "BTCUSDT" "5" (signals ["TP1", "TP2"])) {}).positions.lookup
        (makeKey "BTCUSDT" "15" "long") ≠ none := by
  decide +kernel

end ShadowTracker

end WebhookTrader
