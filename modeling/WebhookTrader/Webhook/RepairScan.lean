import WebhookTrader.Webhook.Model.Parser

/-!
# The repair looks ahead only

Every search of the third attempt starts where the last one stopped and
looks at nothing before that. So what stands before the position it has
reached can be cut off, and the repair of a text goes on as the repair of
the rest of it would begin.
-/

namespace WebhookTrader

namespace Text

variable {pre t rest xs : Text} {c : Char} {b : UInt8} {g : ℕ}

/-! ## One turn of the loop -/

theorem lt_of_findFrom {i k : ℕ} (h : findFrom t c i = some k) : i < t.length := by
  rw [findFrom] at h
  split at h
  · next hfound => exact hfound.1
  · cases h

theorem repairFrom_none {i : ℕ} (h : findFrom t ':' i = none) : repairFrom t i = t := by
  rw [repairFrom]
  split
  · split
    · rfl
    · next heq => exact absurd (h.symm.trans heq) (by simp)
  · rfl

theorem repairFrom_of_le {i : ℕ} (h : t.length ≤ i) : repairFrom t i = t := by
  rw [repairFrom, dif_neg (Nat.not_lt.2 h)]

/-- No string follows the colon. -/
theorem repairFrom_bare {i colon : ℕ} (h : findFrom t ':' i = some colon)
    (hquote : t[skipBlanks t (colon + 1)]? ≠ some (byte '"')) :
    repairFrom t i = repairFrom t (colon + 1) := by
  rw [repairFrom, dif_pos (lt_of_findFrom h)]
  split
  · next heq => exact absurd (heq.symm.trans h) (by simp)
  · next heq =>
      obtain rfl := Option.some.inj (heq.symm.trans h)
      exact if_neg hquote

/-- A string follows the colon. -/
theorem repairFrom_string {i colon : ℕ} (h : findFrom t ':' i = some colon)
    (hquote : t[skipBlanks t (colon + 1)]? = some (byte '"')) :
    repairFrom t i = repairFrom (closeValue t (skipBlanks t (colon + 1) + 1)).1
      ((closeValue t (skipBlanks t (colon + 1) + 1)).2 + 1) := by
  rw [repairFrom, dif_pos (lt_of_findFrom h)]
  split
  · next heq => exact absurd (heq.symm.trans h) (by simp)
  · next heq =>
      obtain rfl := Option.some.inj (heq.symm.trans h)
      exact if_pos hquote

/-! ## Cutting off what has been passed -/

theorem findFrom_append (pre t : Text) (c : Char) (i : ℕ) :
    findFrom (pre ++ t) c (pre.length + i) = (findFrom t c i).map (pre.length + ·) := by
  have hlen : pre.length + i < (pre ++ t).length ↔ i < t.length := by
    rw [List.length_append, Nat.add_lt_add_iff_left]
  unfold findFrom
  simp only [List.drop_length_add_append, hlen]
  split_ifs
  · rw [Option.map_some, Nat.add_assoc]
  · rfl

theorem skipBlanks_append (pre t : Text) (i : ℕ) :
    skipBlanks (pre ++ t) (pre.length + i) = pre.length + skipBlanks t i := by
  rw [skipBlanks, skipBlanks, List.drop_length_add_append, Nat.add_assoc]

theorem getElem?_length_add (pre t : Text) (i : ℕ) : (pre ++ t)[pre.length + i]? = t[i]? := by
  rw [List.getElem?_append_right (Nat.le_add_right ..), Nat.add_sub_cancel_left]

theorem insertIdx_append (pre t : Text) (b : UInt8) (i : ℕ) :
    (pre ++ t).insertIdx (pre.length + i) b = pre ++ t.insertIdx i b := by
  induction pre with
  | nil => rw [List.nil_append, List.nil_append, List.length_nil, Nat.zero_add]
  | cons c pre ih =>
      rw [List.cons_append, List.length_cons, Nat.add_right_comm, List.insertIdx_succ_cons, ih,
        List.cons_append]

/-- What the look ahead asks of the first position that is not blank. -/
def keyAt (t : Text) (next : ℕ) : Bool :=
  t[next]? = some (byte '"') &&
    match findFrom t '"' (next + 1) with
    | none => false
    | some closing => t[skipBlanks t (closing + 1)]? = some (byte ':')

theorem keyFollows_eq (t : Text) (s : ℕ) : keyFollows t s = keyAt t (skipBlanks t (s + 1)) := rfl

theorem keyAt_append (pre t : Text) (next : ℕ) :
    keyAt (pre ++ t) (pre.length + next) = keyAt t next := by
  unfold keyAt
  rw [getElem?_length_add, Nat.add_assoc, findFrom_append]
  cases findFrom t '"' (next + 1) with
  | none => rfl
  | some closing =>
      dsimp only [Option.map_some]
      rw [Nat.add_assoc, skipBlanks_append, getElem?_length_add]

theorem keyFollows_append (pre t : Text) (s : ℕ) :
    keyFollows (pre ++ t) (pre.length + s) = keyFollows t s := by
  rw [keyFollows_eq, keyFollows_eq, Nat.add_assoc, skipBlanks_append, keyAt_append]

theorem getElem_length_add {s : ℕ} (h : s < t.length)
    (hpre : pre.length + s < (pre ++ t).length) : (pre ++ t)[pre.length + s] = t[s] := by
  rw [List.getElem_append_right (Nat.le_add_right ..)]
  simp only [Nat.add_sub_cancel_left]

/-- The scan of a value leaves alone what stands before it. -/
theorem closeValue_append (pre t : Text) (s : ℕ) :
    closeValue (pre ++ t) (pre.length + s) =
      (pre ++ (closeValue t s).1, pre.length + (closeValue t s).2) := by
  -- the two scans take the same branches, so the turns of one are those of the other
  have hlen : ∀ s, pre.length + s < (pre ++ t).length ↔ s < t.length := by
    intro s
    rw [List.length_append, Nat.add_lt_add_iff_left]
  fun_induction closeValue t s with
  | case1 s hs hescape ih =>
      rw [closeValue, dif_pos ((hlen s).2 hs), getElem_length_add hs ((hlen s).2 hs),
        if_pos ⟨hescape.1, (hlen (s + 1)).2 hescape.2⟩]
      exact ih
  | case2 s hs hescape hquote =>
      rw [closeValue, dif_pos ((hlen s).2 hs), getElem_length_add hs ((hlen s).2 hs),
        if_neg fun h => hescape ⟨h.1, (hlen (s + 1)).1 h.2⟩, if_pos hquote]
  | case3 s hs hescape hquote hcomma =>
      rw [closeValue, dif_pos ((hlen s).2 hs), getElem_length_add hs ((hlen s).2 hs),
        if_neg fun h => hescape ⟨h.1, (hlen (s + 1)).1 h.2⟩, if_neg hquote, keyFollows_append,
        if_pos hcomma, insertIdx_append]
  | case4 s hs hescape hquote hcomma ih =>
      rw [closeValue, dif_pos ((hlen s).2 hs), getElem_length_add hs ((hlen s).2 hs),
        if_neg fun h => hescape ⟨h.1, (hlen (s + 1)).1 h.2⟩, if_neg hquote, keyFollows_append,
        if_neg hcomma]
      exact ih
  | case5 s hs => rw [closeValue, dif_neg fun h => hs ((hlen s).1 h)]

/-- **The repair leaves alone what stands before it**, and what it does
from there on does not depend on that. -/
theorem repairFrom_append (pre t : Text) (i : ℕ) :
    repairFrom (pre ++ t) (pre.length + i) = pre ++ repairFrom t i := by
  have hfind := fun (t : Text) (i : ℕ) => findFrom_append pre t ':' i
  fun_induction repairFrom t i with
  | case1 t i hi hnone => exact repairFrom_none (by rw [hfind, hnone, Option.map_none])
  | case2 t i hi colon hcolon start hquote ih =>
      have hstart : skipBlanks (pre ++ t) (pre.length + colon + 1) = pre.length + start := by
        rw [Nat.add_assoc, skipBlanks_append]
      rw [repairFrom_string (by rw [hfind, hcolon, Option.map_some])
        (by rw [hstart, getElem?_length_add, hquote]), hstart, Nat.add_assoc, closeValue_append,
        Nat.add_assoc]
      exact ih
  | case3 t i hi colon hcolon start hquote ih =>
      rw [repairFrom_bare (by rw [hfind, hcolon, Option.map_some])
        (by rw [Nat.add_assoc, skipBlanks_append, getElem?_length_add]; exact hquote),
        Nat.add_assoc]
      exact ih
  | case4 t i hi =>
      rw [repairFrom, dif_neg]
      rw [List.length_append, Nat.add_lt_add_iff_left]
      exact hi

/-! ## Searches from the start -/

theorem findFrom_zero (h : byte c ∉ xs) :
    findFrom (xs ++ byte c :: rest) c 0 = some xs.length := by
  have hlt : 0 < (xs ++ byte c :: rest).length := by
    rw [List.length_append, List.length_cons]
    omega
  rw [findFrom, List.drop_zero, if_pos ⟨hlt, by simp⟩,
    List.idxOf_append_of_notMem h, List.idxOf_cons_self, Nat.add_zero, Nat.zero_add]

theorem findFrom_eq_none (h : byte c ∉ t) : findFrom t c 0 = none := by
  rw [findFrom, List.drop_zero]
  exact if_neg fun hfound => h hfound.2

/-- So many blanks. -/
def blanks (g : ℕ) : Text := List.replicate g (byte ' ')

theorem skipBlanks_blanks (h : t.head? ≠ some (byte ' ')) : skipBlanks (blanks g ++ t) 0 = g := by
  have hhead : t.takeWhile (· = byte ' ') = [] := by
    cases t with
    | nil => rfl
    | cons b t => exact List.takeWhile_cons_of_neg (by simpa using h)
  rw [skipBlanks, List.drop_zero, List.takeWhile_append_of_pos, hhead, List.append_nil, blanks,
    List.length_replicate, Nat.zero_add]
  intro b hb
  exact decide_eq_true (List.eq_of_mem_replicate hb)

/-- What stands after the blanks. -/
theorem getElem?_skipBlanks (h : t.head? ≠ some (byte ' ')) :
    (blanks g ++ t)[skipBlanks (blanks g ++ t) 0]? = t.head? := by
  have hget := getElem?_length_add (blanks g) t 0
  rw [blanks, List.length_replicate, Nat.add_zero] at hget
  rw [skipBlanks_blanks h, List.head?_eq_getElem?]
  exact hget

/-! ## The look ahead -/

/-- The look ahead passes over blanks. -/
theorem keyFollows_cons (b : UInt8) (h : t.head? ≠ some (byte ' ')) :
    keyFollows (b :: (blanks g ++ t)) 0 = keyAt t 0 := by
  have hskip : skipBlanks (b :: (blanks g ++ t)) (0 + 1) = (b :: blanks g).length + 0 := by
    have hpass := skipBlanks_append [b] (blanks g ++ t) 0
    rw [skipBlanks_blanks h] at hpass
    rw [List.length_cons, blanks, List.length_replicate]
    exact hpass.trans (Nat.add_comm 1 g)
  rw [keyFollows_eq, hskip]
  exact keyAt_append (b :: blanks g) t 0

theorem keyAt_eq_false (h : t.head? ≠ some (byte '"')) : keyAt t 0 = false := by
  rw [keyAt, ← List.head?_eq_getElem?, decide_eq_false h, Bool.false_and]

/-- A quote with none after it begins no key. -/
theorem keyAt_quote_of_notMem (h : byte '"' ∉ t) : keyAt (byte '"' :: t) 0 = false := by
  have hnone := findFrom_append [byte '"'] t '"' 0
  rw [findFrom_eq_none h, Option.map_none] at hnone
  unfold keyAt
  rw [show findFrom (byte '"' :: t) '"' (0 + 1) = none from hnone, Bool.and_false]

/-- A quoted text is a key where a colon follows it. -/
theorem keyAt_quote (h : byte '"' ∉ xs) :
    keyAt (byte '"' :: (xs ++ byte '"' :: t)) 0 =
      decide (t[skipBlanks t 0]? = some (byte ':')) := by
  have hclosing := findFrom_append [byte '"'] (xs ++ byte '"' :: t) '"' 0
  rw [findFrom_zero h, Option.map_some] at hclosing
  -- what stands behind the closing quote does not depend on the key
  have hpass := skipBlanks_append (byte '"' :: xs ++ [byte '"']) t 0
  have hafter := getElem?_length_add (byte '"' :: xs ++ [byte '"']) t (skipBlanks t 0)
  rw [List.length_append, List.length_cons, List.length_singleton, List.append_assoc,
    List.cons_append, List.singleton_append] at hpass hafter
  unfold keyAt
  rw [show findFrom (byte '"' :: (xs ++ byte '"' :: t)) '"' (0 + 1) = some (1 + xs.length) from
    hclosing]
  dsimp only
  rw [Nat.add_comm 1, hpass, hafter]
  rfl

/-! ## The scan of a value -/

theorem closeValue_zero (b : UInt8) (t : Text) : closeValue (b :: t) 0 =
    if b = byte '\\' ∧ 0 + 1 < (b :: t).length then closeValue (b :: t) (0 + 2)
    else if b = byte '"' then (b :: t, 0)
    else if b = byte ',' ∧ keyFollows (b :: t) 0 then (byte '"' :: b :: t, 0)
    else closeValue (b :: t) (0 + 1) := by
  have hlen : 0 < (b :: t).length := Nat.zero_lt_succ _
  rw [closeValue, dif_pos hlen]
  rfl

theorem closeValue_quote (t : Text) : closeValue (byte '"' :: t) 0 = (byte '"' :: t, 0) := by
  rw [closeValue_zero, if_neg fun h => absurd h.1 (by decide), if_pos rfl]

/-- A comma with a key after it ends the value. -/
theorem closeValue_comma (h : keyFollows (byte ',' :: t) 0 = true) :
    closeValue (byte ',' :: t) 0 = (byte '"' :: byte ',' :: t, 0) := by
  rw [closeValue_zero, if_neg fun h => absurd h.1 (by decide), if_neg (by decide),
    if_pos ⟨rfl, h⟩]

/-- Any other character is passed over. -/
theorem closeValue_cons (hescape : b ≠ byte '\\') (hquote : b ≠ byte '"')
    (hcomma : b = byte ',' → keyFollows (b :: t) 0 = false) :
    closeValue (b :: t) 0 = (b :: (closeValue t 0).1, 1 + (closeValue t 0).2) := by
  have hnot : ¬ (b = byte ',' ∧ keyFollows (b :: t) 0 = true) := fun h =>
    Bool.false_ne_true ((hcomma h.1).symm.trans h.2)
  rw [closeValue_zero, if_neg fun h => hescape h.1, if_neg hquote, if_neg hnot]
  exact closeValue_append [b] t 0

/-- **The inside of a value is passed over** where no comma in it looks
like the one before a key. -/
theorem closeValue_content (hxs : ∀ b ∈ xs, b ≠ byte '"' ∧ b ≠ byte '\\')
    (hahead : ∀ zs, byte '"' ∉ zs → keyFollows (byte ',' :: (zs ++ rest)) 0 = false) :
    closeValue (xs ++ rest) 0 =
      (xs ++ (closeValue rest 0).1, xs.length + (closeValue rest 0).2) := by
  induction xs with
  | nil => rw [List.nil_append, List.nil_append, List.length_nil, Nat.zero_add]
  | cons b xs ih =>
      obtain ⟨hb, hmore⟩ := List.forall_mem_cons.1 hxs
      have hcomma : b = byte ',' → keyFollows (b :: (xs ++ rest)) 0 = false := by
        rintro rfl
        exact hahead xs fun hmem => (hmore _ hmem).1 rfl
      rw [List.cons_append, closeValue_cons hb.2 hb.1 hcomma, ih hmore, List.length_cons,
        List.cons_append, Nat.add_right_comm, Nat.add_comm 1]

/-! ## From a colon on -/

/-- The first colon, and what stands after the blanks behind it. -/
theorem findFrom_colon (hlead : byte ':' ∉ pre) (hhead : t.head? ≠ some (byte ' ')) :
    findFrom (pre ++ byte ':' :: (blanks g ++ t)) ':' 0 = some pre.length ∧
      skipBlanks (pre ++ byte ':' :: (blanks g ++ t)) (pre.length + 1) = pre.length + 1 + g ∧
      (pre ++ byte ':' :: (blanks g ++ t))[pre.length + 1 + g]? = t.head? := by
  have hpass := skipBlanks_append (pre ++ [byte ':']) (blanks g ++ t) 0
  have hget := getElem?_length_add (pre ++ [byte ':']) (blanks g ++ t) g
  have hskip := getElem?_skipBlanks (g := g) hhead
  rw [skipBlanks_blanks hhead] at hpass hskip
  rw [hskip] at hget
  rw [List.append_assoc, List.singleton_append, List.length_append, List.length_singleton]
    at hpass hget
  exact ⟨findFrom_zero hlead, hpass, hget⟩

/-- No string follows the first colon: the repair goes on behind it. -/
theorem repairFrom_colon_bare (hlead : byte ':' ∉ pre) (hblank : t.head? ≠ some (byte ' '))
    (hquote : t.head? ≠ some (byte '"')) :
    repairFrom (pre ++ byte ':' :: (blanks g ++ t)) 0 =
      pre ++ [byte ':'] ++ repairFrom (blanks g ++ t) 0 := by
  obtain ⟨hfind, hskip, hget⟩ := findFrom_colon (g := g) hlead hblank
  have hgo := repairFrom_append (pre ++ [byte ':']) (blanks g ++ t) 0
  rw [List.append_assoc, List.singleton_append, List.length_append, List.length_singleton] at hgo
  rw [repairFrom_bare hfind (by rw [hskip, hget]; exact hquote)]
  exact hgo

/-- **A string follows the first colon**: the repair goes on where the scan
of it has stopped. -/
theorem repairFrom_colon_quote (hlead : byte ':' ∉ pre) :
    repairFrom (pre ++ byte ':' :: (blanks g ++ byte '"' :: t)) 0 =
      pre ++ byte ':' :: (blanks g ++ [byte '"']) ++
        repairFrom (closeValue t 0).1 ((closeValue t 0).2 + 1) := by
  obtain ⟨hfind, hskip, hget⟩ := findFrom_colon (t := byte '"' :: t) (g := g) hlead
    (by simp; decide)
  have hlen : (pre ++ byte ':' :: (blanks g ++ [byte '"'])).length = pre.length + 1 + g + 1 := by
    simp only [List.length_append, List.length_cons, blanks, List.length_replicate,
      List.length_nil]
    omega
  have hscan := closeValue_append (pre ++ byte ':' :: (blanks g ++ [byte '"'])) t 0
  have hsplit : pre ++ byte ':' :: (blanks g ++ [byte '"']) ++ t =
      pre ++ byte ':' :: (blanks g ++ byte '"' :: t) := by simp
  rw [hlen, Nat.add_zero, hsplit] at hscan
  rw [repairFrom_string hfind (by rw [hskip, hget]; rfl), hskip, hscan, ← repairFrom_append, hlen,
    ← Nat.add_assoc]

end Text

end WebhookTrader
