import Mathlib.Data.List.Induction
import WebhookTrader.Common.Decimal
import WebhookTrader.Common.Printed

/-!
# Fixed-point numbers printed into a buffer

The text of a number that is not negative, cut to the characters a buffer
has room for, and what it is read as: the digits before the point and as
many after it as there is room for. So a number comes back just where it
needs no more places than are printed and have room.
-/

namespace WebhookTrader

namespace Cxx

variable {xs ys cs : List Char} {c : Char} {k : ℕ}

/-! ## Numbers and their digits -/

theorem digits_concat : digits 10 (cs ++ [c]) = digits 10 cs * 10 + digit c := List.foldl_concat ..

theorem digits_append (xs ys : List Char) :
    digits 10 (xs ++ ys) = digits 10 xs * 10 ^ ys.length + digits 10 ys := by
  induction ys using List.reverseRecOn with
  | nil =>
      rw [List.append_nil, List.length_nil, pow_zero, mul_one]
      rfl
  | append_singleton ys c ih =>
      rw [← List.append_assoc, digits_concat, ih, digits_concat, List.length_append,
        List.length_singleton]
      ring

theorem digit_lt (h : c.isDigit = true) : digit c < 10 := by
  have hdigit : digit c = c.toNat - '0'.toNat := if_pos h
  simp only [Char.isDigit, Bool.and_eq_true, decide_eq_true_eq] at h
  have hle : c.toNat ≤ 57 := by exact_mod_cast UInt32.le_iff_toNat_le.1 h.2
  have hzero : '0'.toNat = 48 := rfl
  rw [hdigit, hzero]
  omega

theorem digits_lt (h : ∀ c ∈ cs, c.isDigit = true) : digits 10 cs < 10 ^ cs.length := by
  induction cs using List.reverseRecOn with
  | nil => exact Nat.one_pos
  | append_singleton cs c ih =>
      have hrest := ih fun c' hc' => h c' (List.mem_append_left _ hc')
      have hlast := digit_lt (h c (by simp))
      rw [digits_concat, List.length_append, List.length_singleton, pow_succ]
      omega

/-- **The first digits of a number** are the number without the others. -/
theorem digits_take (h : ∀ c ∈ cs, c.isDigit = true) (k : ℕ) :
    digits 10 (cs.take k) = digits 10 cs / 10 ^ (cs.length - k) := by
  have hsplit := digits_append (cs.take k) (cs.drop k)
  rw [List.take_append_drop, List.length_drop] at hsplit
  have hless : digits 10 (cs.drop k) < 10 ^ (cs.drop k).length :=
    digits_lt fun c hc => h c (List.mem_of_mem_drop hc)
  rw [List.length_drop] at hless
  rw [hsplit, mul_comm, Nat.mul_add_div (by positivity), Nat.div_eq_of_lt hless, add_zero]

theorem digits_replicate_zero (k : ℕ) : digits 10 (List.replicate k '0') = 0 := by
  induction k with
  | zero => rfl
  | succ k ih =>
      rw [List.replicate_succ', digits_concat, ih]
      rfl

/-! ## Digits with a point -/

/-- What begins with a digit has neither space nor sign before it. -/
theorem sign_of_digit (h : c.isDigit = true) :
    sign ((c :: cs).dropWhile isSpace) = (false, c :: cs) := by
  rw [List.dropWhile_cons_of_neg (by simp [isSpace_of_isDigit h])]
  unfold sign
  split
  · next heq => exact absurd (List.cons.inj heq).1 (ne_of_isDigit h rfl)
  · next heq => exact absurd (List.cons.inj heq).1 (ne_of_isDigit h rfl)
  · rfl

/-- Digits end where something else stands. -/
theorem span_digits {whole rest : List Char} (hwhole : ∀ c ∈ whole, c.isDigit = true)
    (hrest : ∀ c ∈ rest.head?, c.isDigit = false) :
    (whole ++ rest).takeWhile Char.isDigit = whole ∧
      (whole ++ rest).dropWhile Char.isDigit = rest := by
  rw [List.takeWhile_append_of_pos hwhole, List.dropWhile_append_of_pos hwhole]
  cases rest with
  | nil => exact ⟨List.append_nil _, rfl⟩
  | cons c rest =>
      have hc : ¬ c.isDigit = true := by simpa using hrest c rfl
      rw [List.takeWhile_cons_of_neg hc, List.dropWhile_cons_of_neg hc, List.append_nil]
      exact ⟨rfl, rfl⟩

/-- The number that digits, and digits after a point, denote. -/
theorem mantissa_digits {whole frac rest : List Char} (hsome : whole ≠ [])
    (hwhole : ∀ c ∈ whole, c.isDigit = true) (hfrac : ∀ c ∈ frac, c.isDigit = true)
    (hrest : rest = '.' :: frac ∨ rest = [] ∧ frac = []) :
    mantissa 10 Char.isDigit (whole ++ rest) =
      ((digits 10 (whole ++ frac) : ℚ) / 10 ^ frac.length, true, []) := by
  rcases hrest with rfl | ⟨rfl, rfl⟩
  · have hnonempty : (whole ++ frac).isEmpty = false := by simp [hsome]
    have hpoint : ∀ c ∈ ('.' :: frac).head?, c.isDigit = false := by simp
    obtain ⟨htake, hdrop⟩ := span_digits hwhole hpoint
    unfold mantissa
    dsimp only
    rw [htake, hdrop]
    simp only
    rw [List.takeWhile_eq_self_iff.2 hfrac, List.dropWhile_eq_nil_iff.2 hfrac, hnonempty]
    rfl
  · have hend : ∀ c ∈ ([] : List Char).head?, c.isDigit = false := by simp
    obtain ⟨htake, hdrop⟩ := span_digits hwhole hend
    rw [List.length_nil, pow_zero, div_one]
    unfold mantissa
    dsimp only
    rw [htake, hdrop]
    simp [hsome]

/-- **Digits, and digits after a point**, are read. -/
theorem strtod_digits {whole frac : List Char} (hsome : whole ≠ [])
    (hwhole : ∀ c ∈ whole, c.isDigit = true) (hfrac : ∀ c ∈ frac, c.isDigit = true)
    {rest : List Char} (hrest : rest = '.' :: frac ∨ rest = [] ∧ frac = []) :
    strtod (String.ofList (whole ++ rest)) =
      some (.finite ((digits 10 (whole ++ frac) : ℚ) / 10 ^ frac.length)) := by
  have hsign : sign ((String.ofList (whole ++ rest)).toList.dropWhile isSpace) =
      (false, whole ++ rest) := by
    rw [String.toList_ofList]
    cases whole with
    | nil => exact absurd rfl hsome
    | cons c whole => exact sign_of_digit (hwhole c List.mem_cons_self)
  have hchars : ∀ c ∈ whole ++ rest, c.isDigit = true ∨ c = '.' := by
    intro c hc
    rcases List.mem_append.1 hc with hc | hc
    · exact .inl (hwhole c hc)
    · rcases hrest with rfl | ⟨rfl, -⟩
      · rcases List.mem_cons.1 hc with rfl | hc
        · exact .inr rfl
        · exact .inl (hfrac c hc)
      · exact absurd hc List.not_mem_nil
  rw [strtod_eq hsign hchars (mantissa_digits hsome hwhole hfrac hrest), if_neg (by decide)]

/-- **A digit string with a point in it and some digits cut off** is the
number without these. -/
theorem strtod_point {w places j : ℕ} {rest : List Char} (hcs : ∀ c ∈ cs, c.isDigit = true)
    (hw : 0 < w) (hlen : cs.length = w + places)
    (hrest : rest = '.' :: (cs.drop w).take j ∨ rest = [] ∧ min places j = 0) :
    strtod (String.ofList (cs.take w ++ rest)) =
      some (.finite
        ((digits 10 cs / 10 ^ (places - min places j) : ℕ) / 10 ^ min places j)) := by
  set p := min places j with hp
  have hcut : (cs.drop w).take j = (cs.drop w).take p := by
    rw [List.take_eq_take_iff, List.length_drop]
    omega
  have hfrac : ((cs.drop w).take p).length = p := by
    rw [List.length_take, List.length_drop]
    omega
  have hsome : cs.take w ≠ [] := by
    rw [← List.length_pos_iff, List.length_take]
    omega
  have hvalue : digits 10 (cs.take w ++ (cs.drop w).take p) =
      digits 10 cs / 10 ^ (places - p) := by
    rw [← List.take_add, digits_take hcs, hlen, Nat.add_sub_add_left]
  have hend : rest = '.' :: (cs.drop w).take p ∨ rest = [] ∧ (cs.drop w).take p = [] := by
    rcases hrest with hpoint | ⟨hnil, hzero⟩
    · exact .inl (hcut ▸ hpoint)
    · exact .inr ⟨hnil, by rw [hzero, List.take_zero]⟩
  rw [strtod_digits hsome (fun c hc => hcs c (List.mem_of_mem_take hc))
    (fun c hc => hcs c (List.mem_of_mem_drop (List.mem_of_mem_take hc))) hend, hvalue, hfrac]

end Cxx

namespace Numeral

/-! ## The text of a number -/

/-- How many digits stand before the point of a number. -/
def wholeDigits (q : ℚ) : ℕ := (Nat.toDigits 10 ⌊q⌋.toNat).length

/-- The places a text of `k` characters has room for. -/
def room (places k : ℕ) (q : ℚ) : ℕ := min places (k - wholeDigits q - 1)

theorem wholeDigits_pos (q : ℚ) : 0 < wholeDigits q := List.length_pos_iff.2 Nat.toDigits_ne_nil

/-- A number has few digits before the point where it is small. -/
theorem wholeDigits_le_iff {q : ℚ} {k : ℕ} (hk : 0 < k) : wholeDigits q ≤ k ↔ q < 10 ^ k := by
  have hfloor : ⌊q⌋ < ((10 ^ k : ℕ) : ℤ) ↔ q < 10 ^ k := by
    rw [Int.floor_lt]
    push_cast
    exact Iff.rfl
  rw [wholeDigits, Nat.length_toDigits_le_iff (by decide) hk, ← hfloor,
    Int.toNat_lt' (by positivity)]

variable {places k : ℕ} {n : Numeral}

/-- The digits a number is printed with: one before the point at least. -/
def padded (places m : ℕ) : List Char :=
  List.replicate (places + 1 - (Nat.toDigits 10 m).length) '0' ++ Nat.toDigits 10 m

theorem length_padded (places m : ℕ) :
    (padded places m).length = max (places + 1) (Nat.toDigits 10 m).length := by
  rw [padded, List.length_append, List.length_replicate]
  omega

theorem isDigit_of_mem_padded {c : Char} {m : ℕ} (h : c ∈ padded places m) : c.isDigit = true := by
  rcases List.mem_append.1 h with hzero | hdigit
  · rw [List.eq_of_mem_replicate hzero]
    rfl
  · exact Cxx.isDigit_of_mem hdigit

theorem digits_padded (places m : ℕ) : Cxx.digits 10 (padded places m) = m := by
  rw [padded, Cxx.digits_append, Cxx.digits_replicate_zero, Cxx.digits_toDigits, zero_mul, zero_add]

theorem floor_natCast_div (m places : ℕ) : ⌊(m : ℚ) / 10 ^ places⌋.toNat = m / 10 ^ places := by
  have h : ⌊(m : ℚ) / ((10 ^ places : ℕ) : ℚ)⌋ = ((m / 10 ^ places : ℕ) : ℤ) :=
    Rat.floor_natCast_div_natCast m (10 ^ places)
  rw [Nat.cast_pow, Nat.cast_ofNat] at h
  rw [h, Int.toNat_natCast]

/-- As many of them stand before the point as the number has. -/
theorem length_padded_sub (places m : ℕ) :
    (padded places m).length - places = wholeDigits ((m : ℚ) / 10 ^ places) := by
  have hiff : ∀ k, 0 < k →
      ((padded places m).length - places ≤ k ↔ wholeDigits ((m : ℚ) / 10 ^ places) ≤ k) := by
    intro k hk
    have hlong := Nat.length_toDigits_le_iff (b := 10) (n := m) (k := places + k) (by decide)
      (by omega)
    rw [wholeDigits, floor_natCast_div, Nat.length_toDigits_le_iff (by decide) hk,
      Nat.div_lt_iff_lt_mul (by positivity), ← pow_add, add_comm k, ← hlong, length_padded]
    omega
  -- each is at most the other, for neither is zero
  have hpos := wholeDigits_pos ((m : ℚ) / 10 ^ places)
  have hlen : 0 < (padded places m).length - places := by
    rw [length_padded]
    omega
  exact le_antisymm ((hiff _ hpos).2 le_rfl) ((hiff _ hlen).1 le_rfl)

/-- **The text of a number that is not negative**: digits, and where there
are places a point and as many digits. -/
theorem toList_text (places m : ℕ) :
    (text ⟨m, places⟩).toList = (padded places m).take (wholeDigits (m / 10 ^ places)) ++
      if places = 0 then [] else '.' :: (padded places m).drop (wholeDigits (m / 10 ^ places)) := by
  rw [← length_padded_sub]
  unfold text
  dsimp only
  rw [if_neg (by omega), Int.natAbs_natCast]
  split_ifs <;> simp [padded]

/-- **What a cut text is read as**: as many places as there is room for
where the digits before the point fit, else only the first of these. -/
theorem strtod_take (places m : ℕ) (hk : 0 < k) :
    Cxx.strtod (String.ofList ((text ⟨m, places⟩).toList.take k)) =
      some (.finite (
        if wholeDigits ((m : ℚ) / 10 ^ places) ≤ k then
          (m / 10 ^ (places - room places k ((m : ℚ) / 10 ^ places)) : ℕ) /
            10 ^ room places k ((m : ℚ) / 10 ^ places)
        else (m / 10 ^ (places + wholeDigits ((m : ℚ) / 10 ^ places) - k) : ℕ))) := by
  have hpos := wholeDigits_pos ((m : ℚ) / 10 ^ places)
  have hlen := length_padded_sub places m
  have hlong := length_padded places m
  rw [toList_text, room]
  set w := wholeDigits ((m : ℚ) / 10 ^ places)
  have hall : (padded places m).length = w + places := by omega
  have hwhole : ((padded places m).take w).length = w := by
    rw [List.length_take]
    omega
  have hdigit : ∀ c ∈ padded places m, c.isDigit = true := fun c => isDigit_of_mem_padded
  have hvalue := digits_padded places m
  by_cases hfits : w ≤ k
  · have hkeep : ((padded places m).take w).take k = (padded places m).take w :=
      List.take_of_length_le (hwhole.trans_le hfits)
    rw [if_pos hfits, List.take_append, hwhole, hkeep, Cxx.strtod_point hdigit hpos hall, hvalue]
    split_ifs with hzero
    · exact .inr ⟨List.take_nil, by omega⟩
    · -- there may be no room for the point, nor for a place behind it
      cases hroom : k - w with
      | zero => exact .inr ⟨rfl, by omega⟩
      | succ j => exact .inl rfl
  · -- not even the digits before the point fit: what is cut off of them is lost
    have hcut : ((padded places m).take w).take k = (padded places m).take k := by
      rw [List.take_take, Nat.min_eq_left (by omega)]
    have hnil : k - ((padded places m).take w).length = 0 := by omega
    have hall' : (padded places m).length = k + (w + places - k) := by omega
    have hread := Cxx.strtod_point hdigit hk hall' (.inr ⟨rfl, Nat.min_zero _⟩)
    rw [if_neg hfits, List.take_append, hcut, hnil, List.take_zero, hread, hvalue, Nat.min_zero,
      Nat.sub_zero, pow_zero, div_one, add_comm places]

/-! ## Printed and read back -/

theorem room_le (places k : ℕ) (q : ℚ) : room places k q ≤ places := min_le_left ..

/-- More places print what fewer do. -/
theorem Exact.mono {p : ℕ} {q : ℚ} (h : Exact p q) (hle : p ≤ places) : Exact places q := by
  obtain ⟨z, hz⟩ := h
  obtain ⟨d, rfl⟩ := Nat.exists_eq_add_of_le hle
  refine ⟨z * 10 ^ d, ?_⟩
  push_cast
  rw [pow_add, ← mul_assoc, hz]

theorem exact_natCast_div (m p : ℕ) : Exact p ((m : ℚ) / 10 ^ p) :=
  ⟨m, by rw [div_mul_cancel₀ _ (pow_ten_pos p).ne', Int.cast_natCast]⟩

theorem roundHalfEven_nonneg {q : ℚ} (h : 0 ≤ q) : 0 ≤ roundHalfEven q := by
  have hfloor : 0 ≤ ⌊q⌋ := Int.floor_nonneg.2 h
  unfold roundHalfEven
  split_ifs <;> omega

/-- **The places after the last one needed** are zeros. -/
theorem Exact.natCast_div {p m : ℕ} (h : Exact p ((m : ℚ) / 10 ^ places)) (hle : p ≤ places) :
    ((m / 10 ^ (places - p) : ℕ) : ℚ) / 10 ^ p = m / 10 ^ places := by
  obtain ⟨z, hz⟩ := h
  have hsplit : (10 : ℚ) ^ places = 10 ^ (places - p) * 10 ^ p := by
    rw [← pow_add, Nat.sub_add_cancel hle]
  have hm : (m : ℚ) = z * 10 ^ (places - p) := by
    rw [← hz, hsplit]
    field_simp
  have hdvd : 10 ^ (places - p) ∣ m := by
    have hint : (m : ℤ) = z * ((10 ^ (places - p) : ℕ) : ℤ) := by exact_mod_cast hm
    exact Int.natCast_dvd_natCast.1 (Dvd.intro_left z hint.symm)
  obtain ⟨d, rfl⟩ := hdvd
  rw [Nat.mul_div_cancel_left _ (by positivity), hsplit]
  push_cast
  field_simp

/-- **The first digits of a number are not the number**, unless they are
all there are. -/
theorem natCast_div_ne {m c : ℕ} (hc : places < c)
    (hlong : 1 < wholeDigits ((m : ℚ) / 10 ^ places)) :
    ((m / 10 ^ c : ℕ) : ℚ) ≠ m / 10 ^ places := by
  intro heq
  have hm : m = m / 10 ^ c * 10 ^ places := by
    rw [eq_div_iff (pow_ten_pos places).ne'] at heq
    exact_mod_cast heq.symm
  have hless : m / 10 ^ c * 10 ^ c ≤ m := Nat.div_mul_le_self ..
  have hpow : 10 ^ places < 10 ^ c := Nat.pow_lt_pow_right (by decide) hc
  -- only zero stays the same with a digit cut off, and it has but one
  have hzero : m / 10 ^ c = 0 := by
    by_contra hne
    have hmore := Nat.mul_lt_mul_of_pos_left hpow (Nat.pos_of_ne_zero hne)
    omega
  rw [hzero, zero_mul] at hm
  subst hm
  rw [Nat.cast_zero, zero_div] at hlong
  exact absurd hlong (by decide +kernel)

/-- **A number is printed into `k` characters and read back** just where
they hold the digits before its point, and it needs no more places than
are printed and have room. -/
theorem strtod_printf_iff {q : ℚ} (hq : 0 ≤ q) (hk : 0 < k) :
    Cxx.strtod (String.ofList ((printf places q).text.toList.take k)) = some (.finite q) ↔
      q < 10 ^ k ∧ Exact (room places k q) q := by
  obtain ⟨m, hm⟩ := Int.eq_ofNat_of_zero_le
    (roundHalfEven_nonneg (mul_nonneg hq (pow_ten_pos places).le))
  have hprinted : Exact places q → (m : ℚ) / 10 ^ places = q := by
    intro h
    have hvalue := value_printf h
    rw [printf, hm] at hvalue
    exact hvalue
  rw [printf, hm, strtod_take places m hk, Option.some_inj, Cxx.Double.finite.injEq,
    ← wholeDigits_le_iff hk]
  constructor
  · intro heq
    by_cases hfits : wholeDigits ((m : ℚ) / 10 ^ places) ≤ k
    · rw [if_pos hfits] at heq
      have hexact : Exact (room places k ((m : ℚ) / 10 ^ places)) q := heq ▸ exact_natCast_div ..
      have hsame := hprinted (hexact.mono (room_le ..))
      rw [hsame] at hexact hfits
      exact ⟨hfits, hexact⟩
    · -- the first digits of a number are less than the number
      rw [if_neg hfits] at heq
      have hexact : Exact 0 q := by
        rw [← heq]
        exact ⟨_, by rw [pow_zero, mul_one]; exact (Int.cast_natCast _).symm⟩
      have hsame := hprinted (hexact.mono places.zero_le)
      exact absurd (heq.trans hsame.symm) (natCast_div_ne (by omega) (by omega))
  · rintro ⟨hfits, hexact⟩
    have hsame := hprinted (hexact.mono (room_le ..))
    rw [← hsame] at hfits hexact ⊢
    rw [if_pos hfits]
    exact hexact.natCast_div (room_le ..)

end Numeral

end WebhookTrader
