import Mathlib.Data.Rat.Defs
import Mathlib.Data.List.Basic
import Mathlib.Data.Nat.Digits.Defs

/-!
# The standard library's number readers

`std::stoi`, `std::stoull` and `std::stod`: what they accept, the prefix
they read, and the two exceptions they raise. A double is an exact
rational here, so `stod` answers with the rational the text denotes or
with the fact that it is not a finite number.
-/

namespace WebhookTrader

/-- The exceptions this development distinguishes. The numbered ones are
the JSON library's. -/
inductive Exception
  /-- `std::invalid_argument`. -/
  | invalidArgument
  /-- `std::out_of_range`. -/
  | outOfRange
  /-- The stored value has another type than the one asked for. -/
  | typeError302
  /-- `operator[]` with a key on something that is no object. -/
  | typeError305
  /-- `value()` on something that is no object. -/
  | typeError306
  deriving DecidableEq, Repr

namespace Cxx

/-- `isspace` in the C locale. -/
def isSpace (c : Char) : Bool :=
  c = ' ' || c = '\t' || c = '\n' || c = '\r' || c = '\x0b' || c = '\x0c'

/-- An optional sign, and whether it is a minus. -/
def sign : List Char → Bool × List Char
  | '-' :: cs => (true, cs)
  | '+' :: cs => (false, cs)
  | cs => (false, cs)

/-- The value of a digit in any base up to sixteen. -/
def digit (c : Char) : ℕ :=
  if c.isDigit then c.toNat - '0'.toNat else c.toLower.toNat - 'a'.toNat + 10

/-- The number a list of digits denotes. -/
def digits (base : ℕ) (cs : List Char) : ℕ := cs.foldl (fun n c => n * base + digit c) 0

/-- `strtol` in base ten: white space, a sign, and as many digits as there
are. -/
def strtol (s : String) : Option ℤ :=
  let (neg, cs) := sign (s.toList.dropWhile isSpace)
  let ds := cs.takeWhile Char.isDigit
  if ds = [] then none else some (if neg then -(digits 10 ds : ℤ) else digits 10 ds)

/-- `std::stoi`. -/
def stoi (s : String) : Except Exception ℤ :=
  match strtol s with
  | none => .error .invalidArgument
  | some n => if -(2 ^ 31) ≤ n ∧ n < 2 ^ 31 then .ok n else .error .outOfRange

/-- `std::stoull`: a minus sign negates modulo `2 ^ 64`. -/
def stoull (s : String) : Except Exception ℕ :=
  match strtol s with
  | none => .error .invalidArgument
  | some n => if n.natAbs < 2 ^ 64 then .ok (n % 2 ^ 64).toNat else .error .outOfRange

/-- What `strtod` may read. -/
inductive Double
  | finite (q : ℚ)
  /-- An infinity or a NaN. -/
  | nonfinite
  deriving DecidableEq, Repr

/-- Digits, a point and more digits: the number, whether there was a digit
at all, and the rest. -/
def mantissa (base : ℕ) (isD : Char → Bool) (cs : List Char) : ℚ × Bool × List Char :=
  let whole := cs.takeWhile isD
  let rest := cs.dropWhile isD
  match rest with
  | '.' :: rest' =>
      let frac := rest'.takeWhile isD
      ((digits base (whole ++ frac) : ℚ) / (base : ℚ) ^ frac.length,
        !(whole ++ frac).isEmpty, rest'.dropWhile isD)
  | _ => ((digits base whole : ℚ), !whole.isEmpty, rest)

/-- The exponent after a mark, zero where the text has none. -/
def exponent (marks : List Char) : List Char → ℤ
  | c :: cs =>
      if c ∈ marks then
        let (neg, cs') := sign cs
        let ds := cs'.takeWhile Char.isDigit
        if neg then -(digits 10 ds : ℤ) else digits 10 ds
      else 0
  | [] => 0

/-- A hexadecimal digit. -/
def isHex (c : Char) : Bool := c.isDigit || c.toLower.toNat - 'a'.toNat < 6 && c.isAlpha

/-- `strtod`: an infinity, a NaN, or a number in base sixteen or ten. -/
def strtod (s : String) : Option Double :=
  let (neg, cs) := sign (s.toList.dropWhile isSpace)
  let lower := cs.map Char.toLower
  let signed := fun q : ℚ => some (Double.finite (if neg then -q else q))
  if "inf".toList <+: lower ∨ "nan".toList <+: lower then some .nonfinite
  else
    let hex := mantissa 16 isHex (cs.drop 2)
    if "0x".toList <+: lower ∧ hex.2.1 then
      signed (hex.1 * 2 ^ exponent ['p', 'P'] hex.2.2)
    else
      let dec := mantissa 10 Char.isDigit cs
      if dec.2.1 then signed (dec.1 * 10 ^ exponent ['e', 'E'] dec.2.2) else none

/-- `std::stod`: out of range above the largest double and below the least
normal one. -/
def stod (s : String) : Except Exception Double :=
  match strtod s with
  | none => .error .invalidArgument
  | some .nonfinite => .ok .nonfinite
  | some (.finite q) =>
      if 2 ^ 1024 - 2 ^ 970 ≤ |q| ∨ (q ≠ 0 ∧ |q| < 1 / 2 ^ 1022) then .error .outOfRange
      else .ok (.finite q)

example : strtod " -1.5e2x" = some (.finite (-150)) := by decide +kernel

end Cxx

end WebhookTrader
