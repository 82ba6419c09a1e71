import Mathlib.Data.List.Basic
import Mathlib.Tactic.NormNum

/-!
# Base64

The standard encoding: three bytes are 24 bits, which are four digits of
six bits each, from the highest on. Of a last group of one or two bytes
only the digits with bits of them are written, and padding characters
where the group is to be filled up.
-/

namespace WebhookTrader

namespace Base64

/-- The characters of the digits. -/
def alphabet : List Char :=
  "ABCDEFGHIJKLMNOPQRSTUVWXYZabcdefghijklmnopqrstuvwxyz0123456789+/".toList

/-- The character of a digit. -/
def digitChar (d : ℕ) : UInt8 := UInt8.ofNat (alphabet.getD d 'A').toNat

/-- The character that fills up a group. -/
def pad : UInt8 := UInt8.ofNat '='.toNat

/-- The four digits of 24 bits. -/
def quantum (bits : ℕ) : List ℕ :=
  [bits / 2 ^ 18 % 64, bits / 2 ^ 12 % 64, bits / 2 ^ 6 % 64, bits % 64]

/-- **The digits of a text.** -/
def digits : List UInt8 → List ℕ
  | [] => []
  | [a] => (quantum (a.toNat * 2 ^ 16)).take 2
  | [a, b] => (quantum (a.toNat * 2 ^ 16 + b.toNat * 2 ^ 8)).take 3
  | a :: b :: c :: bs => quantum (a.toNat * 2 ^ 16 + b.toNat * 2 ^ 8 + c.toNat) ++ digits bs

/-- How many characters fill up the last group. -/
def padding (bs : List UInt8) : ℕ := (3 - bs.length % 3) % 3

/-- **The encoding**, with padding or without. -/
def encode (padded : Bool) (bs : List UInt8) : List UInt8 :=
  (digits bs).map digitChar ++ if padded then List.replicate (padding bs) pad else []

/-- The examples of the standard, at every length of the last group. -/
example : (encode true ("foobar".toList.map fun c => UInt8.ofNat c.toNat),
    encode true ("fooba".toList.map fun c => UInt8.ofNat c.toNat),
    encode false ("foob".toList.map fun c => UInt8.ofNat c.toNat)) =
      ("Zm9vYmFy".toList.map fun c => UInt8.ofNat c.toNat,
        "Zm9vYmE=".toList.map fun c => UInt8.ofNat c.toNat,
        "Zm9vYg".toList.map fun c => UInt8.ofNat c.toNat) := by
  decide +kernel

end Base64

end WebhookTrader
