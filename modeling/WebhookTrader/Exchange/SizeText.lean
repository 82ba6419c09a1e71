import WebhookTrader.Common.NumeralText
import WebhookTrader.Exchange.OrderSize

/-!
# The text of an order's size

The places a size is printed with are counted from the magnitude of the
contract's step: as many as it takes to bring the step to one. A step of
several digits may have more, and the sizes that need them are rounded
once more, off the step; and the buffer the text is printed into ends
after 31 characters. Where neither happens the text denotes the quantity
meant, whichever request carries it.
-/

namespace WebhookTrader

namespace Contracts

/-! ## The places counted from the step -/

theorem decimalsLoop_le (fuel : ℕ) (s : ℚ) : decimalsLoop fuel s ≤ fuel := by
  induction fuel generalizing s with
  | zero => exact Nat.le_refl 0
  | succ fuel ih =>
      rw [decimalsLoop]
      have hrest := ih (s * 10)
      split_ifs <;> omega

/-- The loop goes on while the step is below one. -/
theorem one_le_of_decimalsLoop_lt {fuel : ℕ} {s : ℚ} (h : decimalsLoop fuel s < fuel) :
    1 ≤ s * 10 ^ decimalsLoop fuel s := by
  induction fuel generalizing s with
  | zero => exact absurd h (Nat.not_lt_zero _)
  | succ fuel ih =>
      rw [decimalsLoop] at h ⊢
      split_ifs at h ⊢ with hless
      · have hrest := ih (s := s * 10) (by omega)
        rw [pow_succ', ← mul_assoc]
        exact hrest
      · rw [pow_zero, mul_one]
        exact not_lt.1 hless

theorem decimals_le (contracts : Contracts) (symbol : String) :
    contracts.decimals symbol ≤ 10 := decimalsLoop_le 10 _

variable {contracts : Contracts} {symbol : String} {qty : ℚ} {body : OrderBody}

/-- **A step of one digit**, or a whole one, is printed with all its places. -/
theorem exact_of_digit {k d : ℕ} (hk : k < 10 ∨ d = 0) (hd : d ≤ 10)
    (hstep : contracts.sizeMultiplier symbol = k / 10 ^ d) :
    Numeral.Exact (contracts.decimals symbol) (contracts.sizeMultiplier symbol) := by
  refine Numeral.Exact.mono (hstep ▸ Numeral.exact_natCast_div k d) (not_lt.1 fun hless => ?_)
  have hone : 1 ≤ contracts.sizeMultiplier symbol * 10 ^ contracts.decimals symbol :=
    one_le_of_decimalsLoop_lt (hless.trans_le hd)
  have hpow : (10 : ℚ) ^ d =
      10 ^ (d - contracts.decimals symbol) * 10 ^ contracts.decimals symbol := by
    rw [← pow_add, Nat.sub_add_cancel hless.le]
  -- with a place too few the step would still be below one
  have hten : (10 : ℚ) ≤ 10 ^ (d - contracts.decimals symbol) :=
    le_self_pow₀ (by norm_num) (by omega)
  have hdigit : (k : ℚ) < 10 := by exact_mod_cast hk.resolve_right (by omega)
  rw [hstep, hpow, div_mul_eq_mul_div, mul_div_mul_right _ _ (by positivity),
    one_le_div (by positivity)] at hone
  linarith

/-! ## What a request says -/

/-- The requests that carry a quantity of a symbol. -/
inductive Sends (contracts : Contracts) (symbol : String) (qty : ℚ) : OrderBody → Prop
  | order (req : OrderRequest) (presetTp presetSl : ℚ) (hsymbol : req.symbol = symbol)
      (hqty : req.quantity = qty) :
      Sends contracts symbol qty (placeFuturesOrder contracts req presetTp presetSl)
  | close (holdSide : String) :
      Sends contracts symbol qty (closePartial contracts symbol qty holdSide)

theorem Sends.size_eq (h : contracts.Sends symbol qty body) :
    body.size = contracts.orderSize symbol qty := by
  cases h with
  | order req _ _ hsymbol hqty => rw [← hsymbol, ← hqty]; rfl
  | close => rfl

/-- The quantity meant: rounded down to the step, and the minimum at
least. -/
def meantQty (contracts : Contracts) (symbol : String) (qty : ℚ) : ℚ :=
  max (floorTo (contracts.sizeMultiplier symbol) qty) (contracts.getMinQty symbol)

/-- **The text denotes the quantity meant**, a multiple of the step. -/
def Means (contracts : Contracts) (symbol : String) (qty : ℚ) (text : String) : Prop :=
  ∃ size, Cxx.strtod text = some (.finite size) ∧ size = contracts.meantQty symbol qty ∧
    ∃ z : ℤ, size = z * contracts.sizeMultiplier symbol

theorem meantQty_nonneg (hstep : 0 < contracts.sizeMultiplier symbol) (hqty : 0 < qty) :
    0 ≤ contracts.meantQty symbol qty := by
  have hfloor : 0 ≤ ⌊qty / contracts.sizeMultiplier symbol⌋ :=
    Int.floor_nonneg.2 (div_pos hqty hstep).le
  exact le_max_of_le_left (mul_nonneg (by exact_mod_cast hfloor) hstep.le)

/-- The quantity meant is a multiple of the step where the minimum is. -/
theorem exists_meantQty_eq
    (hmin : ∃ z : ℤ, contracts.getMinQty symbol = z * contracts.sizeMultiplier symbol) (qty : ℚ) :
    ∃ z : ℤ, contracts.meantQty symbol qty = z * contracts.sizeMultiplier symbol := by
  unfold meantQty
  rcases max_choice (floorTo (contracts.sizeMultiplier symbol) qty)
    (contracts.getMinQty symbol) with h | h
  · exact ⟨_, h⟩
  · obtain ⟨z, hz⟩ := hmin
    exact ⟨z, h.trans hz⟩

/-- The request prints the quantity meant, so its text means it where the
text is read back as it. -/
theorem means_iff_strtod (hstep : 0 < contracts.sizeMultiplier symbol)
    (hmin : ∃ z : ℤ, contracts.getMinQty symbol = z * contracts.sizeMultiplier symbol)
    (hsends : contracts.Sends symbol qty body) :
    contracts.Means symbol qty body.sizeText ↔
      Cxx.strtod (String.ofList ((Numeral.printf (contracts.decimals symbol)
        (contracts.meantQty symbol qty)).text.toList.take 31)) =
          some (.finite (contracts.meantQty symbol qty)) := by
  have hsize : body.size =
      Numeral.printf (contracts.decimals symbol) (contracts.meantQty symbol qty) := by
    rw [hsends.size_eq, orderSize, orderQty_eq hstep]
    rfl
  rw [← hsize]
  constructor
  · rintro ⟨size, htext, rfl, -⟩
    exact htext
  · intro htext
    exact ⟨_, htext, rfl, exists_meantQty_eq hmin qty⟩

/-- **When the text of a size denotes the quantity meant**: the quantity
fits the buffer, and needs no more places than are counted from the step
and have room in the buffer. -/
theorem means_iff (hstep : 0 < contracts.sizeMultiplier symbol)
    (hmin : ∃ z : ℤ, contracts.getMinQty symbol = z * contracts.sizeMultiplier symbol)
    (hqty : 0 < qty) (hsends : contracts.Sends symbol qty body) :
    contracts.Means symbol qty body.sizeText ↔
      contracts.meantQty symbol qty < 10 ^ 31 ∧
        Numeral.Exact (Numeral.room (contracts.decimals symbol) 31 (contracts.meantQty symbol qty))
          (contracts.meantQty symbol qty) := by
  rw [means_iff_strtod hstep hmin hsends]
  exact Numeral.strtod_printf_iff (meantQty_nonneg hstep hqty) (by decide)

/-- **A contract whose step has one digit, or is whole**, is never
misprinted below `10 ^ 20`. -/
theorem means_of_digit {k d : ℕ} (hpos : 0 < k) (hk : k < 10 ∨ d = 0) (hd : d ≤ 10)
    (hstep : contracts.sizeMultiplier symbol = k / 10 ^ d)
    (hmin : ∃ z : ℤ, contracts.getMinQty symbol = z * contracts.sizeMultiplier symbol)
    (hqty : 0 < qty) (hless : contracts.meantQty symbol qty < 10 ^ 20)
    (hsends : contracts.Sends symbol qty body) :
    contracts.Means symbol qty body.sizeText := by
  have hstep' : 0 < contracts.sizeMultiplier symbol := by
    rw [hstep]
    exact div_pos (by exact_mod_cast hpos) (by positivity)
  rw [means_iff_strtod hstep' hmin hsends,
    Numeral.strtod_printf_iff (meantQty_nonneg hstep' hqty) (by decide)]
  refine ⟨hless.trans (pow_lt_pow_right₀ (by norm_num) (by decide)), ?_⟩
  have hwhole := (Numeral.wholeDigits_le_iff (k := 20) (by decide)).2 hless
  have hplaces := decimals_le contracts symbol
  have hroom : Numeral.room (contracts.decimals symbol) 31 (contracts.meantQty symbol qty) =
      contracts.decimals symbol := by
    unfold Numeral.room
    omega
  obtain ⟨z, hz⟩ := exists_meantQty_eq hmin qty
  obtain ⟨n, hn⟩ := exact_of_digit hk hd hstep
  rw [hroom]
  refine ⟨z * n, ?_⟩
  rw [hz, mul_assoc, hn]
  push_cast
  rfl

/-! ## Quarters -/

/-- A contract traded in quarters of a coin. -/
def quarters : Contracts :=
  AList.singleton "BTCUSDT" { sizeMultiplier := 1 / 4, minTradeNum := 1 / 4 }

/-- A half is one of the quarters that one place is enough for. -/
theorem means_iff_half :
    quarters.Means "BTCUSDT" (1 / 2) (closePartial quarters "BTCUSDT" (1 / 2) "long").sizeText :=
  (means_iff (by decide +kernel) ⟨1, by decide +kernel⟩ (by norm_num) (.close "long")).2
    ⟨by decide +kernel, 5, by decide +kernel⟩

/-- **A quarter is printed as a fifth**: the step takes one place to reach
one, and has two. -/
theorem quarter_misprinted :
    ¬ ∀ (contracts : Contracts) (symbol : String) (qty : ℚ) (body : OrderBody),
      0 < contracts.sizeMultiplier symbol →
      Numeral.Exact 10 (contracts.sizeMultiplier symbol) →
      (∃ z : ℤ, contracts.getMinQty symbol = z * contracts.sizeMultiplier symbol) →
      0 < qty → contracts.Sends symbol qty body → contracts.Means symbol qty body.sizeText := by
  intro h
  have hmeans := h quarters "BTCUSDT" (3 / 10) _ (by decide +kernel)
    ⟨2500000000, by decide +kernel⟩ ⟨1, by decide +kernel⟩ (by norm_num) (.close "long")
  obtain ⟨size, htext, hsize, -⟩ := hmeans
  have hfifth : Cxx.strtod (closePartial quarters "BTCUSDT" (3 / 10) "long").sizeText =
      some (.finite (1 / 5)) := by
    decide +kernel
  have hquarter : quarters.meantQty "BTCUSDT" (3 / 10) = 1 / 4 := by decide +kernel
  rw [hfifth, Option.some_inj, Cxx.Double.finite.injEq] at htext
  rw [hquarter, ← htext] at hsize
  exact absurd hsize (by norm_num)

end Contracts

end WebhookTrader
