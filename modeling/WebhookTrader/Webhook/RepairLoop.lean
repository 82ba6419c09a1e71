import WebhookTrader.Webhook.Model.RepairLoop
import WebhookTrader.Webhook.RepairScan

/-!
# The repair loop ends, reads in range and only inserts

The loop with its reads written out never fails, and needs one turn for
each colon of the text and one more: the position it searches from moves
behind a colon in every turn that goes on, and a quote put in is no
colon. What it makes of the text is the text with quotes before some of
its commas.
-/

namespace WebhookTrader

namespace Text

variable {t u : Text} {i s : ℕ} {c : Char}

/-! ## The reads are in range -/

theorem readAt_of_lt (h : i < t.length) : t.readAt i = some t[i] := List.getElem?_eq_getElem h

theorem skipBlanks_of_le (h : t.length ≤ i) : skipBlanks t i = i := by
  rw [skipBlanks, List.drop_eq_nil_of_le h]
  rfl

theorem skipBlanks_of_lt (h : i < t.length) :
    skipBlanks t i = if t[i] = byte ' ' then skipBlanks t (i + 1) else i := by
  rw [skipBlanks, List.drop_eq_getElem_cons h, List.takeWhile_cons]
  by_cases hblank : t[i] = byte ' '
  · rw [if_pos (decide_eq_true hblank), if_pos hblank, skipBlanks, List.length_cons]
    omega
  · rw [if_neg (by simpa using hblank), if_neg hblank]
    rfl

theorem readBlanks_eq (t : Text) (i : ℕ) : t.readBlanks i = some (skipBlanks t i) := by
  induction hn : t.length - i generalizing i with
  | zero =>
      have hle : t.length ≤ i := by omega
      rw [readBlanks, dif_neg (Nat.not_lt.2 hle), skipBlanks_of_le hle]
      rfl
  | succ n ih =>
      have hlt : i < t.length := by omega
      rw [readBlanks, dif_pos hlt, readAt_of_lt hlt, skipBlanks_of_lt hlt]
      simp only [Option.bind_eq_bind, Option.bind_some]
      split_ifs
      · exact ih (i + 1) (by omega)
      · rfl

theorem readIs_eq (t : Text) (i : ℕ) (c : Char) :
    t.readIs i c = some (decide (t[i]? = some (byte c))) := by
  unfold readIs
  split_ifs with h
  · simp [readAt_of_lt h, List.getElem?_eq_getElem h]
  · simp [List.getElem?_eq_none (Nat.not_lt.1 h)]

theorem readKey_eq (t : Text) (s : ℕ) : t.readKey s = some (keyFollows t s) := by
  unfold readKey keyFollows
  split_ifs with h
  · simp only [readBlanks_eq, readIs_eq, Option.bind_eq_bind, Option.bind_some]
    by_cases hquote : t[skipBlanks t (s + 1)]? = some (byte '"')
    · simp only [hquote, decide_true, if_true, Bool.true_and]
      cases findFrom t '"' (skipBlanks t (s + 1) + 1) <;> rfl
    · simp [hquote]
  · have hnone : t[skipBlanks t (s + 1)]? = none := by
      rw [skipBlanks_of_le (Nat.not_lt.1 h)]
      exact List.getElem?_eq_none (Nat.not_lt.1 h)
    simp [hnone]

theorem readValue_eq (t : Text) (s : ℕ) : t.readValue s = some (closeValue t s) := by
  fun_induction closeValue t s with
  | case1 s hs hescape ih =>
      rw [readValue, dif_pos hs, readAt_of_lt hs]
      simp only [Option.bind_eq_bind, Option.bind_some, if_pos hescape]
      exact ih
  | case2 s hs hescape hquote =>
      rw [readValue, dif_pos hs, readAt_of_lt hs]
      simp only [Option.bind_eq_bind, Option.bind_some, if_neg hescape, if_pos hquote]
      rfl
  | case3 s hs hescape hquote hcomma =>
      rw [readValue, dif_pos hs, readAt_of_lt hs]
      simp only [Option.bind_eq_bind, Option.bind_some, if_neg hescape, if_neg hquote,
        if_pos hcomma.1, readKey_eq, hcomma.2]
      rfl
  | case4 s hs hescape hquote hcomma ih =>
      rw [readValue, dif_pos hs, readAt_of_lt hs]
      simp only [Option.bind_eq_bind, Option.bind_some, if_neg hescape, if_neg hquote, readKey_eq]
      by_cases hbyte : t[s] = byte ','
      · have hkey : keyFollows t s = false := by simpa [hbyte] using hcomma
        simpa only [if_pos hbyte, hkey, Option.bind_some, Bool.false_eq_true, if_false] using ih
      · simpa only [if_neg hbyte, Option.bind_some, Bool.false_eq_true, if_false] using ih
  | case5 s hs =>
      rw [readValue, dif_neg hs]
      rfl

/-! ## A turn passes a colon -/

/-- What a search finds. -/
theorem findFrom_spec {k : ℕ} (h : findFrom t c i = some k) :
    i ≤ k ∧ ∃ hk : k < t.length, t[k] = byte c := by
  rw [findFrom] at h
  split at h
  · rename_i hfound
    obtain rfl := Option.some.inj h
    have hlt : (t.drop i).idxOf (byte c) < (t.drop i).length := List.idxOf_lt_length_of_mem hfound.2
    have hget : (t.drop i)[(t.drop i).idxOf (byte c)] = byte c := List.getElem_idxOf hlt
    rw [List.getElem_drop] at hget
    rw [List.length_drop] at hlt
    exact ⟨Nat.le_add_right _ _, by omega, hget⟩
  · cases h

/-- The colons from a position on. -/
def colonsFrom (t : Text) (i : ℕ) : ℕ := (t.drop i).count (byte ':')

theorem colonsFrom_anti {j : ℕ} (h : i ≤ j) : t.colonsFrom j ≤ t.colonsFrom i := by
  obtain ⟨d, rfl⟩ := Nat.exists_eq_add_of_le h
  rw [colonsFrom, ← List.drop_drop]
  exact (List.drop_sublist d _).count_le _

theorem colonsFrom_lt {k : ℕ} (h : findFrom t ':' i = some k) :
    t.colonsFrom (k + 1) < t.colonsFrom i := by
  obtain ⟨hik, hk, hcolon⟩ := findFrom_spec h
  calc t.colonsFrom (k + 1) < t.colonsFrom k := by
        rw [colonsFrom, colonsFrom, List.drop_eq_getElem_cons hk, hcolon, List.count_cons_self]
        exact Nat.lt_succ_self _
    _ ≤ t.colonsFrom i := colonsFrom_anti hik

/-- **What the scan of a value leaves**: the text itself, or the text with a
quote before the comma the scan stops at. -/
theorem closeValue_cases (t : Text) (s : ℕ) :
    (closeValue t s).1 = t ∨ ∃ h : (closeValue t s).2 < t.length,
      t[(closeValue t s).2] = byte ',' ∧
        (closeValue t s).1 = t.insertIdx (closeValue t s).2 (byte '"') := by
  fun_induction closeValue t s with
  | case1 _ _ _ ih => exact ih
  | case2 => exact .inl rfl
  | case3 s hs _ _ hcomma => exact .inr ⟨hs, hcomma.1, rfl⟩
  | case4 _ _ _ _ _ ih => exact ih
  | case5 => exact .inl rfl

theorem insertIdx_eq (b : UInt8) (h : s ≤ t.length) :
    t.insertIdx s b = t.take s ++ b :: t.drop s := by
  have hinsert := insertIdx_append (t.take s) (t.drop s) b 0
  rwa [List.take_append_drop, List.length_take_of_le h, Nat.add_zero, List.insertIdx_zero]
    at hinsert

/-- Behind a quote that is put in, the text stands from the comma on. -/
theorem colonsFrom_closeValue (t : Text) (s : ℕ) :
    (closeValue t s).1.colonsFrom ((closeValue t s).2 + 1) ≤ t.colonsFrom s := by
  rcases closeValue_cases t s with hsame | ⟨hlt, -, hinsert⟩
  · rw [hsame]
    exact colonsFrom_anti (Nat.le_succ_of_le (le_closeValue t s))
  · have hdrop : (closeValue t s).1.drop ((closeValue t s).2 + 1) = t.drop (closeValue t s).2 := by
      rw [hinsert, insertIdx_eq _ hlt.le]
      rw [← List.drop_drop, List.drop_left' (List.length_take_of_le hlt.le)]
      rfl
    rw [colonsFrom, hdrop]
    exact colonsFrom_anti (le_closeValue t s)

/-- **The loop ends**, without a read out of range, where it has more turns
than there are colons ahead. -/
theorem repairLoop_eq (t : Text) (i : ℕ) :
    ∀ turns, t.colonsFrom i < turns → t.repairLoop turns i = some (repairFrom t i) := by
  fun_induction repairFrom t i with
  | case1 t i hi hnone =>
      intro turns h
      obtain ⟨turns, rfl⟩ := Nat.exists_eq_succ_of_ne_zero (Nat.ne_zero_of_lt h)
      rw [repairLoop, if_pos hi, hnone]
      rfl
  | case2 t i hi colon hcolon start hquote ih =>
      intro turns h
      obtain ⟨turns, rfl⟩ := Nat.exists_eq_succ_of_ne_zero (Nat.ne_zero_of_lt h)
      rw [repairLoop, if_pos hi, hcolon]
      simp only [readBlanks_eq, readIs_eq, readValue_eq, Option.bind_eq_bind, Option.bind_some]
      rw [if_pos (decide_eq_true hquote)]
      refine ih turns ?_
      -- the next turn starts behind this colon, and a quote put in is no colon
      calc (closeValue t (start + 1)).1.colonsFrom ((closeValue t (start + 1)).2 + 1)
          ≤ t.colonsFrom (start + 1) := colonsFrom_closeValue t (start + 1)
        _ ≤ t.colonsFrom (colon + 1) :=
            colonsFrom_anti (Nat.le_succ_of_le (Nat.le_add_right (colon + 1) _))
        _ < t.colonsFrom i := colonsFrom_lt hcolon
        _ ≤ turns := Nat.le_of_lt_succ h
  | case3 t i hi colon hcolon start hquote ih =>
      intro turns h
      obtain ⟨turns, rfl⟩ := Nat.exists_eq_succ_of_ne_zero (Nat.ne_zero_of_lt h)
      rw [repairLoop, if_pos hi, hcolon]
      simp only [readBlanks_eq, readIs_eq, Option.bind_eq_bind, Option.bind_some]
      rw [if_neg (by simpa using hquote)]
      exact ih turns (Nat.lt_of_lt_of_le (colonsFrom_lt hcolon) (Nat.le_of_lt_succ h))
  | case4 t i hi =>
      intro turns h
      unfold repairLoop
      rw [if_neg hi]
      rfl

/-! ## What is put in -/

namespace QuotesBeforeCommas

theorem refl : ∀ t, QuotesBeforeCommas t t
  | [] => .nil
  | b :: t => .keep b (refl t)

/-- What stands in front stays. -/
theorem append (h : QuotesBeforeCommas t u) : ∀ pre, QuotesBeforeCommas (pre ++ t) (pre ++ u)
  | [] => h
  | b :: pre => .keep b (h.append pre)

end QuotesBeforeCommas

/-- **A text repaired behind a position**: the same up to there, and with
quotes put in after it. -/
def RepairedFrom (t : Text) (i : ℕ) (u : Text) : Prop :=
  ∃ r, u = t.take i ++ r ∧ QuotesBeforeCommas (t.drop i) r

theorem RepairedFrom.refl (t : Text) (i : ℕ) : t.RepairedFrom i t :=
  ⟨t.drop i, (List.take_append_drop i t).symm, .refl _⟩

/-- Behind a later position is behind an earlier one. -/
theorem RepairedFrom.earlier {j : ℕ} (hij : i ≤ j) (h : t.RepairedFrom j u) :
    t.RepairedFrom i u := by
  obtain ⟨r, rfl, hr⟩ := h
  obtain ⟨d, rfl⟩ := Nat.exists_eq_add_of_le hij
  refine ⟨(t.drop i).take d ++ r, by rw [List.take_add, List.append_assoc], ?_⟩
  have hkept := hr.append ((t.drop i).take d)
  rwa [← List.drop_drop, List.take_append_drop] at hkept

/-- **A quote put in**, and a repair behind the comma it stands before. -/
theorem RepairedFrom.insert (hs : s < t.length) (hcomma : t[s] = byte ',')
    (h : RepairedFrom (t.insertIdx s (byte '"')) (s + 2) u) : t.RepairedFrom s u := by
  obtain ⟨r, rfl, hr⟩ := h
  have hlen : (t.take s).length = s := List.length_take_of_le hs.le
  have hrest : t.drop s = byte ',' :: t.drop (s + 1) := by
    rw [List.drop_eq_getElem_cons hs, hcomma]
  have hput : t.insertIdx s (byte '"') = t.take s ++ byte '"' :: byte ',' :: t.drop (s + 1) := by
    rw [insertIdx_eq _ hs.le, hrest]
  have htake : (t.insertIdx s (byte '"')).take (s + 2) = t.take s ++ [byte '"', byte ','] := by
    have hlong : (t.take s ++ byte '"' :: byte ',' :: t.drop (s + 1)).take
        ((t.take s).length + 2) = t.take s ++ [byte '"', byte ','] :=
      List.take_length_add_append 2
    rwa [hlen, ← hput] at hlong
  have hdrop : (t.insertIdx s (byte '"')).drop (s + 2) = t.drop (s + 1) := by
    have hlong : (t.take s ++ byte '"' :: byte ',' :: t.drop (s + 1)).drop
        ((t.take s).length + 2) = t.drop (s + 1) :=
      List.drop_length_add_append 2
    rwa [hlen, ← hput] at hlong
  refine ⟨byte '"' :: byte ',' :: r, ?_, ?_⟩
  · rw [htake, List.append_assoc]
    rfl
  · rw [hrest]
    exact .quote (hdrop ▸ hr)

/-- **The repair only puts quotes in**, behind the position it starts
from. -/
theorem repairedFrom_repairFrom (t : Text) (i : ℕ) : t.RepairedFrom (i + 1) (repairFrom t i) := by
  fun_induction repairFrom t i with
  | case1 t i hi hnone => exact .refl t _
  | case2 t i hi colon hcolon start hquote ih =>
      have hstop : i + 1 ≤ (closeValue t (start + 1)).2 := by
        have hcolon := le_findFrom hcolon
        have hstart : colon + 1 ≤ start := Nat.le_add_right _ _
        have hscan := le_closeValue t (start + 1)
        omega
      rcases closeValue_cases t (start + 1) with hsame | ⟨hlt, hcomma, hinsert⟩
      · rw [hsame] at ih ⊢
        exact ih.earlier (by omega)
      · -- the turn after this one starts behind the comma
        rw [hinsert] at ih ⊢
        exact (RepairedFrom.insert hlt hcomma ih).earlier hstop
  | case3 t i hi colon hcolon start hquote ih =>
      exact ih.earlier (Nat.succ_le_succ (Nat.le_succ_of_le (le_findFrom hcolon)))
  | case4 t i hi => exact .refl t _

/-- The first character is no place for a quote. -/
theorem quotesBeforeCommas_closeQuotes (t : Text) : QuotesBeforeCommas t (closeQuotes t) := by
  obtain ⟨r, hr, hinserted⟩ := (repairedFrom_repairFrom t 0).earlier (Nat.zero_le 1)
  rw [closeQuotes, hr]
  exact hinserted

/-- **The repair loop ends and only inserts**: for every text it has a result
within one turn for each colon and one more, no index it reads is out of
range, and the result is the text with quotes put in, each directly before a
comma. -/
theorem repairLoop_ends (t : Text) :
    t.repairLoop (t.count (byte ':') + 1) 0 = some (closeQuotes t) ∧
      QuotesBeforeCommas t (closeQuotes t) :=
  ⟨repairLoop_eq t 0 _ (Nat.lt_succ_self _), quotesBeforeCommas_closeQuotes t⟩

end Text

end WebhookTrader
