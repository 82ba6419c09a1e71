import WebhookTrader.Dashboard.Model.Auth

/-!
# Decoding undoes encoding

However many bits have gone through the accumulator, a byte that is put
out is made of the last bits that have come in: what stands above them is
cut off. So from the start of a group on, the three bytes of the group
come out, and the loop is at the start of the next group.
-/

namespace WebhookTrader

namespace Dashboard

open Base64 (digitChar digits encode pad quantum)

variable {val : BitVec 32} {cs : List UInt8} {valb : ℤ} {d : ℕ}

/-! ## One character -/

/-- A digit's character has its number. -/
theorem table_digitChar (h : d < 64) : table (digitChar d) = d := by
  have hall : ∀ d : Fin 64, table (digitChar d) = d := by decide +kernel
  exact hall ⟨d, h⟩

theorem table_pad : table pad = -1 := by decide +kernel

/-- The accumulator after a digit. -/
def push (val : BitVec 32) (d : ℕ) : BitVec 32 := (val <<< 6) + BitVec.ofNat 32 d

theorem toNat_push (val : BitVec 32) (d : ℕ) :
    (push val d).toNat = (val.toNat * 64 + d) % 2 ^ 32 := by
  rw [push, BitVec.toNat_add, BitVec.toNat_shiftLeft, BitVec.toNat_ofNat, Nat.shiftLeft_eq]
  omega

/-- **A byte that is put out** is eight bits of the accumulator, whatever the
sign of that. -/
theorem toNat_outByte (val : BitVec 32) {k : ℕ} (hk : k ≤ 24) :
    (outByte val k).toNat = val.toNat / 2 ^ k % 2 ^ 8 := by
  have hlow : (val.sshiftRight k).toNat % 2 ^ 8 = val.toNat / 2 ^ k % 2 ^ 8 := by
    refine Nat.eq_of_testBit_eq fun i => ?_
    rw [Nat.testBit_mod_two_pow, Nat.testBit_mod_two_pow, Nat.testBit_div_two_pow]
    by_cases hi : i < 8
    · -- the shifted sign stands above the eight bits
      have hbit : (val.sshiftRight k).getLsbD i = val.getLsbD (k + i) := by
        rw [BitVec.getLsbD_sshiftRight, decide_eq_false (by omega), if_pos (by omega)]
        rfl
      rw [Nat.add_comm i]
      exact congrArg (decide (i < 8) && ·) hbit
    · rw [decide_eq_false hi, Bool.false_and, Bool.false_and]
  have hmask : (0xFF#32).toNat = 2 ^ 8 - 1 := rfl
  rw [outByte, UInt8.toNat_ofNat', BitVec.toNat_and, hmask, Nat.and_two_pow_sub_one_eq_mod,
    Nat.mod_mod, hlow]

/-- The loop reads a digit. -/
theorem decodeFrom_digit (cs : List UInt8) (val : BitVec 32) (valb : ℤ) (hd : d < 64) :
    decodeFrom (digitChar d :: cs) val valb =
      if 0 ≤ valb + 6 then
        outByte (push val d) (valb + 6).toNat :: decodeFrom cs (push val d) (valb + 6 - 8)
      else decodeFrom cs (push val d) (valb + 6) := by
  have hpush : (val <<< 6) + BitVec.ofInt 32 (table (digitChar d)) = push val d := by
    rw [table_digitChar hd, push]
    rfl
  rw [decodeFrom, hpush, table_digitChar hd, if_neg (by omega)]

/-- Padding ends the loop. -/
theorem decodeFrom_pad (cs : List UInt8) (val : BitVec 32) (valb : ℤ) :
    decodeFrom (pad :: cs) val valb = [] := by
  rw [decodeFrom, table_pad, if_pos rfl]

/-! ## One group -/

variable {p q r s : ℕ}

/-- Two digits give a byte, and four bits are left. -/
theorem decodeFrom_two (cs : List UInt8) (val : BitVec 32) (hp : p < 64) (hq : q < 64) :
    decodeFrom (digitChar p :: digitChar q :: cs) val (-8) =
      UInt8.ofNat (p * 4 + q / 16) :: decodeFrom cs (push (push val p) q) (-4) := by
  have hbyte : outByte (push (push val p) q) 4 = UInt8.ofNat (p * 4 + q / 16) := by
    refine UInt8.toNat_inj.1 ?_
    rw [toNat_outByte _ (by decide), toNat_push, toNat_push, UInt8.toNat_ofNat']
    omega
  rw [decodeFrom_digit _ _ _ hp, if_neg (by decide), decodeFrom_digit _ _ _ hq, if_pos (by decide)]
  exact congrArg (· :: _) hbyte

/-- The third digit gives another, and two bits are left, -/
theorem decodeFrom_third (cs : List UInt8) (val : BitVec 32) (hr : r < 64) :
    decodeFrom (digitChar r :: cs) (push val q) (-4) =
      UInt8.ofNat (q % 16 * 16 + r / 4) :: decodeFrom cs (push (push val q) r) (-6) := by
  have hbyte : outByte (push (push val q) r) 2 = UInt8.ofNat (q % 16 * 16 + r / 4) := by
    refine UInt8.toNat_inj.1 ?_
    rw [toNat_outByte _ (by decide), toNat_push, toNat_push, UInt8.toNat_ofNat']
    omega
  rw [decodeFrom_digit _ _ _ hr, if_pos (by decide)]
  exact congrArg (· :: _) hbyte

/-- and the fourth the last, with nothing left. -/
theorem decodeFrom_fourth (cs : List UInt8) (val : BitVec 32) (hs : s < 64) :
    decodeFrom (digitChar s :: cs) (push val r) (-6) =
      UInt8.ofNat (r % 4 * 64 + s) :: decodeFrom cs (push (push val r) s) (-8) := by
  have hbyte : outByte (push (push val r) s) 0 = UInt8.ofNat (r % 4 * 64 + s) := by
    refine UInt8.toNat_inj.1 ?_
    rw [toNat_outByte _ (by decide), toNat_push, toNat_push, UInt8.toNat_ofNat']
    omega
  rw [decodeFrom_digit _ _ _ hs, if_pos (by decide)]
  exact congrArg (· :: _) hbyte

/-! ## A whole text -/

/-- **The digits of a text give the text**, whatever the accumulator began
with, where nothing is read behind them. -/
theorem decodeFrom_digits {rest : List UInt8} (hrest : ∀ val valb, decodeFrom rest val valb = [])
    (bs : List UInt8) (val : BitVec 32) :
    decodeFrom ((digits bs).map digitChar ++ rest) val (-8) = bs := by
  have hbyte : ∀ {b : UInt8} {n : ℕ}, n = b.toNat → UInt8.ofNat n = b := by
    rintro b _ rfl
    exact UInt8.ofNat_toNat
  -- a group leaves the loop where the next one begins, but for the accumulator
  fun_induction digits bs generalizing val with
  | case1 => exact hrest _ _
  | case2 a =>
      have ha := a.toNat_lt
      simp only [quantum, List.take_succ_cons, List.take_zero, List.map_cons, List.map_nil,
        List.cons_append, List.nil_append]
      rw [decodeFrom_two _ _ (by omega) (by omega), hrest, hbyte (b := a) (by omega)]
  | case3 a b =>
      have ha := a.toNat_lt
      have hb := b.toNat_lt
      simp only [quantum, List.take_succ_cons, List.take_zero, List.map_cons, List.map_nil,
        List.cons_append, List.nil_append]
      rw [decodeFrom_two _ _ (by omega) (by omega), decodeFrom_third _ _ (by omega),
        hrest, hbyte (b := a) (by omega), hbyte (b := b) (by omega)]
  | case4 a b c bs ih =>
      have ha := a.toNat_lt
      have hb := b.toNat_lt
      have hc := c.toNat_lt
      simp only [quantum, List.map_cons, List.cons_append, List.nil_append]
      rw [decodeFrom_two _ _ (by omega) (by omega), decodeFrom_third _ _ (by omega),
        decodeFrom_fourth _ _ (by omega), ih, hbyte (b := a) (by omega), hbyte (b := b) (by omega),
        hbyte (b := c) (by omega)]

/-- **Decoding undoes encoding**, with padding and without, at every
length. -/
theorem base64Decode_encode (padded : Bool) (bs : List UInt8) :
    base64Decode (encode padded bs) = bs := by
  refine decodeFrom_digits (fun val valb => ?_) bs 0
  cases padded with
  | false => rfl
  | true =>
      cases hpadding : Base64.padding bs with
      | zero => rfl
      | succ n => exact decodeFrom_pad _ _ _

/-- **The token's encoding is let in**, and that of no other text. -/
theorem checkAuth_encode (padded : Bool) (authToken credentials : List UInt8) :
    checkAuth authToken (some (basic ++ encode padded credentials)) =
      decide (credentials ≠ [] ∧ credentials = authToken) := by
  have htake : (basic ++ encode padded credentials).take 6 = basic := List.take_left' rfl
  have hdrop : (basic ++ encode padded credentials).drop 6 = encode padded credentials :=
    List.drop_left' rfl
  unfold checkAuth
  dsimp only
  rw [htake, hdrop, base64Decode_encode]
  cases credentials with
  | nil => cases padded <;> rfl
  | cons a credentials =>
      have hlong : ¬ ((basic ++ encode padded (a :: credentials)).length < 7 ∨ basic ≠ basic) := by
        have hsome : encode padded (a :: credentials) ≠ [] := fun hnil => by
          have hdecoded := base64Decode_encode padded (a :: credentials)
          rw [hnil] at hdecoded
          cases hdecoded
        have hpos := List.length_pos_iff.2 hsome
        have hbasic : basic.length = 6 := rfl
        rw [List.length_append, hbasic]
        simp only [ne_eq, not_true_eq_false, or_false]
        omega
      rw [if_neg hlong]
      simp

end Dashboard

end WebhookTrader
