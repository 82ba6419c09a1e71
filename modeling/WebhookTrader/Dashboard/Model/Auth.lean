import WebhookTrader.Common.Base64

/-!
# The dashboard's password

`check_auth` of the dashboard server: the credentials of an authorization
header are decoded and compared with the token. `base64_decode` keeps the
bits it has read in an `int` that it shifts and never clears.
-/

namespace WebhookTrader

namespace Dashboard

/-- `T`: the number of a character, and `-1` for all others. -/
def table (c : UInt8) : ℤ :=
  if c ∈ Base64.alphabet.map (fun a => UInt8.ofNat a.toNat) then
    (Base64.alphabet.map fun a => UInt8.ofNat a.toNat).idxOf c
  else -1

/-- `char((val >> valb) & 0xFF)`. -/
def outByte (val : BitVec 32) (valb : ℕ) : UInt8 :=
  UInt8.ofNat (val.sshiftRight valb &&& 0xFF#32).toNat

/-- **The loop of `base64_decode`**, from the accumulator and the count of
bits on. -/
def decodeFrom : List UInt8 → BitVec 32 → ℤ → List UInt8
  | [], _, _ => []
  | c :: cs, val, valb =>
      if table c = -1 then []
      else
        let val := (val <<< 6) + BitVec.ofInt 32 (table c)
        let valb := valb + 6
        if 0 ≤ valb then outByte val valb.toNat :: decodeFrom cs val (valb - 8)
        else decodeFrom cs val valb

/-- **`base64_decode`.** -/
def base64Decode (text : List UInt8) : List UInt8 := decodeFrom text 0 (-8)

/-- `"Basic "`, of an authorization header. -/
def basic : List UInt8 := "Basic ".toList.map fun c => UInt8.ofNat c.toNat

/-- **`check_auth`**, of the authorization header, where there is one. -/
def checkAuth (authToken : List UInt8) : Option (List UInt8) → Bool
  | none => false
  | some authValue =>
      if authValue.length < 7 ∨ authValue.take 6 ≠ basic then false
      else base64Decode (authValue.drop 6) = authToken

end Dashboard

end WebhookTrader
