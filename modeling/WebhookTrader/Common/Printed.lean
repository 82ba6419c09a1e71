import Mathlib.Algebra.Order.Field.Basic
import Mathlib.Algebra.Order.Field.Rat
import Mathlib.Data.List.TakeWhile
import Mathlib.Tactic.Linarith
import Mathlib.Tactic.NormNum
import WebhookTrader.Common.Cxx

/-!
# Integers printed and read back

What `std::to_string` writes of an integer, `std::stoi` and `std::stod`
read as that integer.
-/

namespace WebhookTrader

namespace Cxx

variable {z : ℤ} {n : ℕ} {c : Char} {cs : List Char}

/-- The digits of a number, and a minus before those of a negative one. -/
theorem toList_toString (z : ℤ) : (toString z).toList =
    if z < 0 then '-' :: Nat.toDigits 10 z.natAbs else Nat.toDigits 10 z.natAbs := by
  cases z with
  | ofNat n =>
      have hnot : ¬ Int.ofNat n < 0 := not_lt.2 (Int.natCast_nonneg n)
      rw [if_neg hnot]
      exact Nat.toList_repr
  | negSucc n =>
      rw [if_pos (by omega)]
      show ("-" ++ (n + 1).repr).toList = _
      rw [String.toList_append, Nat.toList_repr]
      rfl

theorem isDigit_of_mem (h : c ∈ Nat.toDigits 10 n) : c.isDigit = true :=
  Nat.isDigit_of_mem_toDigits (by decide) (by decide) h

/-- A digit is none of the other characters a number can begin with. -/
theorem ne_of_isDigit (h : c.isDigit = true) {c' : Char} (h' : c'.isDigit = false) : c ≠ c' := by
  rintro rfl
  exact Bool.false_ne_true (h'.symm.trans h)

theorem isSpace_of_isDigit (h : c.isDigit = true) : isSpace c = false := by
  have hne : ∀ c', c'.isDigit = false → c ≠ c' := fun c' => ne_of_isDigit h
  simp [isSpace, hne ' ' rfl, hne '\t' rfl, hne '\n' rfl, hne '\r' rfl, hne '\x0b' rfl,
    hne '\x0c' rfl]

/-- Digits have no sign before them. -/
theorem sign_digits (h : ∀ c ∈ cs, c.isDigit = true) : sign cs = (false, cs) := by
  cases cs with
  | nil => rfl
  | cons c cs =>
      have hc := h c List.mem_cons_self
      unfold sign
      split
      · next heq => exact absurd (List.cons.inj heq).1 (ne_of_isDigit hc rfl)
      · next heq => exact absurd (List.cons.inj heq).1 (ne_of_isDigit hc rfl)
      · rfl

/-- **What is read before the digits** of a printed number. -/
theorem sign_toString (z : ℤ) : sign ((toString z).toList.dropWhile isSpace) =
    (decide (z < 0), Nat.toDigits 10 z.natAbs) := by
  rw [toList_toString]
  split_ifs with hneg
  · rw [decide_eq_true hneg]
    rfl
  · have hall : ∀ c ∈ Nat.toDigits 10 z.natAbs, c.isDigit = true := fun c => isDigit_of_mem
    have hkeep : (Nat.toDigits 10 z.natAbs).dropWhile isSpace = Nat.toDigits 10 z.natAbs := by
      cases hdigits : Nat.toDigits 10 z.natAbs with
      | nil => rfl
      | cons c cs =>
          have hc := hall c (hdigits ▸ List.mem_cons_self)
          rw [List.dropWhile_cons_of_neg (by simp [isSpace_of_isDigit hc])]
    rw [hkeep, sign_digits hall, decide_eq_false hneg]

theorem digits_toDigits (n : ℕ) : digits 10 (Nat.toDigits 10 n) = n := by
  have hfold : ∀ (cs : List Char) (k : ℕ), (∀ c ∈ cs, c.isDigit = true) →
      cs.foldl (fun n c => n * 10 + digit c) k = Nat.ofDigitChars 10 cs k := by
    intro cs
    induction cs with
    | nil => exact fun _ _ => rfl
    | cons c cs ih =>
        intro k hall
        have hc : digit c = c.toNat - '0'.toNat := if_pos (hall c List.mem_cons_self)
        rw [List.foldl_cons, ih _ fun c' hc' => hall c' (List.mem_cons_of_mem c hc'),
          Nat.ofDigitChars_cons, hc, Nat.mul_comm]
  rw [digits, hfold _ _ fun c => isDigit_of_mem]
  exact Nat.ofDigitChars_ten_toDigits

theorem takeWhile_toDigits (n : ℕ) :
    (Nat.toDigits 10 n).takeWhile Char.isDigit = Nat.toDigits 10 n :=
  List.takeWhile_eq_self_iff.2 fun _ => isDigit_of_mem

theorem dropWhile_toDigits (n : ℕ) : (Nat.toDigits 10 n).dropWhile Char.isDigit = [] :=
  List.dropWhile_eq_nil_iff.2 fun _ => isDigit_of_mem

/-- An integer is its digits with its sign. -/
theorem signed_natAbs (z : ℤ) : (if z < 0 then -(z.natAbs : ℤ) else z.natAbs) = z := by
  split_ifs <;> omega

/-- **A printed integer is read back** by `stoi`. -/
theorem stoi_toString (h : -(2 ^ 31) ≤ z ∧ z < 2 ^ 31) : stoi (toString z) = .ok z := by
  have hread : strtol (toString z) = some z := by
    unfold strtol
    rw [sign_toString]
    dsimp only
    rw [takeWhile_toDigits, digits_toDigits, if_neg Nat.toDigits_ne_nil]
    simp only [decide_eq_true_eq]
    rw [signed_natAbs]
  rw [stoi, hread]
  exact if_pos h

/-- A text of digits and points begins with none of the marks of other
numbers. -/
theorem not_prefix_lower (h : ∀ c ∈ cs, c.isDigit = true ∨ c = '.') {mark : List Char}
    (hmark : ∃ c ∈ mark, c.isDigit = false ∧ c ≠ '.') : ¬ mark <+: cs.map Char.toLower := by
  have hlower : cs.map Char.toLower = cs := by
    refine (List.map_congr_left fun c hc => ?_).trans (List.map_id cs)
    rcases h c hc with hdigit | rfl
    · -- no digit is an upper-case letter
      unfold Char.toLower
      refine dif_neg fun hupper => ?_
      simp only [Char.isDigit, Bool.and_eq_true, decide_eq_true_eq] at hdigit
      exact absurd (UInt32.le_trans hupper.1 hdigit.2) (by decide)
    · rfl
  rw [hlower]
  intro hstarts
  obtain ⟨c, hc, hnot, hpoint⟩ := hmark
  rcases h c (hstarts.subset hc) with hdigit | hdot
  · exact Bool.false_ne_true (hnot.symm.trans hdigit)
  · exact hpoint hdot

/-- **A number in base ten is read** as its sign and its digits say. -/
theorem strtod_eq {s : String} {neg : Bool} {q : ℚ}
    (hsign : sign (s.toList.dropWhile isSpace) = (neg, cs))
    (hplain : ∀ c ∈ cs, c.isDigit = true ∨ c = '.')
    (hmantissa : mantissa 10 Char.isDigit cs = (q, true, [])) :
    strtod s = some (.finite (if neg then -q else q)) := by
  have hword : ¬ ("inf".toList <+: cs.map Char.toLower ∨ "nan".toList <+: cs.map Char.toLower) := by
    rintro (hinf | hnan)
    · exact not_prefix_lower hplain ⟨'i', by decide, rfl, by decide⟩ hinf
    · exact not_prefix_lower hplain ⟨'n', by decide, rfl, by decide⟩ hnan
  have hhex : ¬ ("0x".toList <+: cs.map Char.toLower) :=
    not_prefix_lower hplain ⟨'x', by decide, rfl, by decide⟩
  have hone : (10 : ℚ) ^ exponent ['e', 'E'] [] = 1 := rfl
  unfold strtod
  rw [hsign]
  dsimp only
  rw [if_neg hword, if_neg fun hboth => hhex hboth.1, hmantissa]
  simp only [if_true, hone, mul_one]

/-- **And by `stod`.** -/
theorem stod_toString (h : -(2 ^ 31) ≤ z ∧ z < 2 ^ 31) :
    stod (toString z) = .ok (.finite z) := by
  have hall : ∀ c ∈ Nat.toDigits 10 z.natAbs, c.isDigit = true := fun c => isDigit_of_mem
  have hread : strtod (toString z) = some (.finite z) := by
    have hmantissa : mantissa 10 Char.isDigit (Nat.toDigits 10 z.natAbs) =
        ((z.natAbs : ℚ), true, []) := by
      unfold mantissa
      dsimp only
      rw [dropWhile_toDigits, takeWhile_toDigits, digits_toDigits]
      simp [Nat.toDigits_ne_nil]
    have hvalue : (if decide (z < 0) then -(z.natAbs : ℚ) else (z.natAbs : ℚ)) = z := by
      have hsigned := signed_natAbs z
      simp only [decide_eq_true_eq]
      rw [← Int.cast_natCast]
      split_ifs at hsigned ⊢
      · rw [← Int.cast_neg, hsigned]
      · rw [hsigned]
    rw [strtod_eq (sign_toString z) (fun c hc => .inl (hall c hc)) hmantissa, hvalue]
  -- an `int` is far from both ends of what a double holds
  have hsmall : |(z : ℚ)| < 2 ^ 1024 - 2 ^ 970 := by
    have habs : |(z : ℚ)| ≤ 2 ^ 31 := abs_le.2 ⟨by exact_mod_cast h.1, by exact_mod_cast h.2.le⟩
    have hpow : (2 : ℚ) ^ 31 ≤ 2 ^ 970 := pow_le_pow_right₀ (by norm_num) (by norm_num)
    have hdouble : (2 : ℚ) ^ (970 + 1) < 2 ^ 1024 := pow_lt_pow_right₀ (by norm_num) (by norm_num)
    rw [pow_succ, mul_two] at hdouble
    exact (habs.trans hpow).trans_lt (lt_sub_iff_add_lt.2 hdouble)
  have hlarge : z ≠ 0 → ¬ |(z : ℚ)| < 1 / 2 ^ 1022 := by
    intro hz hless
    have hone : (1 : ℚ) ≤ |(z : ℚ)| := by exact_mod_cast Int.one_le_abs hz
    have hleast : (1 : ℚ) / 2 ^ 1022 ≤ 1 :=
      div_le_self zero_le_one (one_le_pow₀ (by norm_num))
    exact absurd (hless.trans_le hleast) (not_lt.2 hone)
  rw [stod, hread]
  dsimp only
  rw [if_neg]
  rintro (hbig | ⟨hz, hless⟩)
  · exact absurd hsmall (not_lt.2 hbig)
  · exact hlarge (by exact_mod_cast hz) hless

end Cxx

end WebhookTrader
