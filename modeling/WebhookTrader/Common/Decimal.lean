import Mathlib.Algebra.Order.Floor.Ring
import Mathlib.Data.Rat.Floor
import Mathlib.Tactic.Linarith
import Mathlib.Tactic.Ring
import Mathlib.Tactic.FieldSimp

/-!
# Steps, rounding and fixed-point numerals

Exact rationals stand for the program's doubles. This file has the three
ways a quantity loses precision on its way out of the program: the floor
to a multiple of a step, the rounding of a printed number to a fixed
number of places, and the rounding of a statistic to the nearest
integer. A printed number is a `Numeral`, an integer and a number of
places, so that what the text denotes is a field access away.
-/

namespace WebhookTrader

/-! ## Floor to a step -/

/-- The largest multiple of `step` that is at most `q`, for a positive
step. -/
def floorTo (step q : ℚ) : ℚ := ⌊q / step⌋ * step

section Floor

variable {step q : ℚ}

theorem floorTo_le (hs : 0 < step) : floorTo step q ≤ q := by
  have h : (⌊q / step⌋ : ℚ) ≤ q / step := Int.floor_le _
  calc floorTo step q ≤ q / step * step := mul_le_mul_of_nonneg_right h hs.le
    _ = q := div_mul_cancel₀ q hs.ne'

end Floor

/-! ## Rounding to an integer -/

/-- Round to the nearest integer, ties to even: the mode `printf` prints
in. -/
def roundHalfEven (x : ℚ) : ℤ :=
  if x - ⌊x⌋ < 1 / 2 then ⌊x⌋
  else if 1 / 2 < x - ⌊x⌋ then ⌊x⌋ + 1
  else if ⌊x⌋ % 2 = 0 then ⌊x⌋ else ⌊x⌋ + 1

/-- Round to the nearest integer, ties away from zero: `std::round`. -/
def roundHalfAway (x : ℚ) : ℤ := if 0 ≤ x then ⌊x + 1 / 2⌋ else ⌈x - 1 / 2⌉

@[simp] theorem roundHalfEven_intCast (n : ℤ) : roundHalfEven (n : ℚ) = n := by
  simp [roundHalfEven]

/-- Rounding moves a number by half at most. -/
theorem abs_roundHalfAway_sub_le (x : ℚ) : |(roundHalfAway x : ℚ) - x| ≤ 1 / 2 := by
  unfold roundHalfAway
  rw [abs_le]
  split_ifs
  · have hle := Int.floor_le (x + 1 / 2)
    have hlt := Int.lt_floor_add_one (x + 1 / 2)
    constructor <;> linarith
  · have hle := Int.le_ceil (x - 1 / 2)
    have hlt := Int.ceil_lt_add_one (x - 1 / 2)
    constructor <;> linarith

/-- **Between two integers** rounding stays between them. -/
theorem roundHalfAway_mem {x : ℚ} {a b : ℤ} (ha : (a : ℚ) ≤ x) (hb : x ≤ b) :
    a ≤ roundHalfAway x ∧ roundHalfAway x ≤ b := by
  obtain ⟨hlow, hhigh⟩ := abs_le.1 (abs_roundHalfAway_sub_le x)
  constructor
  · have h : (a : ℚ) < roundHalfAway x + 1 := by linarith
    exact Int.lt_add_one_iff.1 (by exact_mod_cast h)
  · have h : (roundHalfAway x : ℚ) < b + 1 := by linarith
    exact Int.lt_add_one_iff.1 (by exact_mod_cast h)

/-! ## Fixed-point numerals -/

/-- **A printed number**: `mantissa` in units of the last of `places`
decimal places. -/
structure Numeral where
  /-- The digits, read as an integer. -/
  mantissa : ℤ
  /-- How many of them stand after the point. -/
  places : ℕ
  deriving DecidableEq, Repr

namespace Numeral

/-- The number a numeral denotes. -/
def value (n : Numeral) : ℚ := n.mantissa / 10 ^ n.places

/-- `snprintf("%.*f", places, q)`. -/
def printf (places : ℕ) (q : ℚ) : Numeral := ⟨roundHalfEven (q * 10 ^ places), places⟩

/-- The text of a numeral. -/
def text (n : Numeral) : String :=
  let digits := (Nat.toDigits 10 n.mantissa.natAbs)
  let padded := List.replicate (n.places + 1 - digits.length) '0' ++ digits
  let whole := padded.take (padded.length - n.places)
  let frac := padded.drop (padded.length - n.places)
  (if n.mantissa < 0 then "-" else "") ++ String.ofList whole ++
    (if n.places = 0 then "" else "." ++ String.ofList frac)

/-- The numbers a given number of places can print exactly. -/
def Exact (places : ℕ) (q : ℚ) : Prop := ∃ n : ℤ, q * 10 ^ places = n

theorem pow_ten_pos (places : ℕ) : (0 : ℚ) < 10 ^ places := by positivity

/-- **A number that fits is printed as it is.** -/
theorem value_printf {places : ℕ} {q : ℚ} (h : Exact places q) : (printf places q).value = q := by
  obtain ⟨n, hn⟩ := h
  rw [value, printf, hn, roundHalfEven_intCast, ← hn]
  exact mul_div_cancel_right₀ q (pow_ten_pos places).ne'

/-- A step that fits gives floors that fit. -/
theorem Exact.floorTo {places : ℕ} {step : ℚ} (h : Exact places step) (q : ℚ) :
    Exact places (floorTo step q) := by
  obtain ⟨n, hn⟩ := h
  exact ⟨⌊q / step⌋ * n, by rw [WebhookTrader.floorTo, mul_assoc, hn]; push_cast; ring⟩

theorem Exact.max {places : ℕ} {a b : ℚ} (ha : Exact places a) (hb : Exact places b) :
    Exact places (max a b) := by
  rcases max_choice a b with h | h <;> rw [h] <;> assumption

example : (printf 3 (5 / 4)).text = "1.250" := by decide +kernel

end Numeral

end WebhookTrader
