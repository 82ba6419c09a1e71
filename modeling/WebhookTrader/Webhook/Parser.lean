import WebhookTrader.Webhook.Model.Parser

/-!
# When `from_json` raises

Each reader asks for a fixed list of fields, each with the type its
default names, and nothing between the JSON library and the caller
catches what the library raises. So a reader returns exactly on an
object whose listed fields are absent or of the type asked for, and
`from_json` returns exactly where the text that decides parses to such an
object or no text parses. The string form of a generic signal's price,
which `parse_generic` goes on to convert, is among what raises.
-/

namespace WebhookTrader

namespace Json

/-! ## Fields and their types -/

/-- A field is absent, or its value passes the test beside its name. -/
def fits (j : Json) (field : String × (Json → Bool)) : Bool :=
  match j.find? field.1 with
  | none => true
  | some v => field.2 v

/-- **An object whose listed fields have the listed types.** -/
def wellTyped (fields : List (String × (Json → Bool))) (j : Json) : Bool :=
  j.isObject && fields.all j.fits

theorem fits_iff {j : Json} {key : String} {ok : Json → Bool} :
    j.fits (key, ok) = true ↔ ∀ v, j.find? key = some v → ok v = true := by
  cases h : j.find? key <;> simp [fits, h]

section Value

variable {j : Json} {key : String}

theorem value_getString {dflt : String} :
    (∃ a, j.value getString key dflt = .ok a) ↔
      j.isObject = true ∧ j.fits (key, isString) = true := by
  rw [fits_iff]
  exact reads_value.trans (by simp only [reads_getString])

theorem value_getDouble {dflt : ℚ} :
    (∃ a, j.value getDouble key dflt = .ok a) ↔
      j.isObject = true ∧ j.fits (key, isNumber) = true := by
  rw [fits_iff]
  exact reads_value.trans (by simp only [reads_getDouble])

theorem value_getInt64 {dflt : ℤ} :
    (∃ a, j.value getInt64 key dflt = .ok a) ↔
      j.isObject = true ∧ j.fits (key, isNumber) = true := by
  rw [fits_iff]
  exact reads_value.trans (by simp only [reads_getInt64])

end Value

end Json

namespace WebhookSignal

open Json

/-! ## The fields of the two formats -/

/-- What `current_rating` may be: a string is converted under a catch, and
an `int` is read from a number or a boolean. -/
def isRating (v : Json) : Bool := v.isString || v.isNumber || v.isBoolean

/-- The fields of the indicator's format. The prices of the exits are not
among them: `parse_price_field` takes a value of any type. -/
def sfxFields : List (String × (Json → Bool)) :=
  [("algorithm", isString), ("ticker", isString), ("ticker_full", isString),
    ("unix_time", isNumber), ("timestamp", isString), ("currency", isString),
    ("timeframe", isString), ("type", isString), ("alert", isString),
    ("signal_direction", isString), ("current_rating", isRating), ("close", isNumber),
    ("secret", isString), ("token", isString), ("alert_name", isString), ("strategy", isString)]

/-- The fields of the generic format. -/
def genericFields : List (String × (Json → Bool)) :=
  [("action", isString), ("symbol", isString), ("trade_side", isString), ("price", isNumber),
    ("qty", isNumber), ("tp1", isNumber), ("tp", isNumber), ("sl", isNumber),
    ("secret", isString), ("token", isString), ("alert_name", isString), ("strategy", isString)]

/-- The fields of the format a value is read in. -/
def fieldsOf (j : Json) : List (String × (Json → Bool)) :=
  if isSfx j then sfxFields else genericFields

/-! ## The readers -/

theorem reads_parseRating {j : Json} :
    (∃ a, parseRating j = .ok a) ↔ j.fits ("current_rating", isRating) = true := by
  unfold parseRating fits
  cases h : j.find? "current_rating" with
  | none => simp
  | some v =>
      cases v with
      | str s =>
          cases hs : Cxx.stoi s <;> simp [isRating, isString, hs]
      | _ =>
          simp [isRating, isString, isNumber, isBoolean, getInt, getInt64, Functor.map, Except.map]

/-- **The indicator's reader returns exactly on well-typed objects.** -/
theorem reads_parseSfx {j : Json} {sig : WebhookSignal} :
    Reads (parseSfx j sig) ↔ j.wellTyped sfxFields = true := by
  simp only [parseSfx, reads_bind, reads_pure, and_true, exists_and_right, value_getString,
    value_getDouble, value_getInt64, reads_parseRating, wellTyped, sfxFields, List.all_cons,
    List.all_nil, Bool.and_eq_true]
  tauto

/-- The generic reader likewise; the conversion of a price given as a
string is reached only where the price is no string. -/
theorem reads_parseGeneric {j : Json} {sig : WebhookSignal} :
    Reads (parseGeneric j sig) ↔ j.wellTyped genericFields = true := by
  simp only [parseGeneric, reads_bind, reads_pure, and_true, exists_and_right, value_getString,
    value_getDouble, wellTyped, genericFields, List.all_cons, List.all_nil, Bool.and_eq_true]
  tauto

/-! ## The parser -/

/-- **`from_json` returns exactly where the value it reads is well typed.**
For every JSON parser and every body: no text parses, or the first one
that does is an object whose fields have the types asked for. -/
theorem reads_fromJson (parse : Text → Option Json) (now : ℕ) (body : Text) :
    Reads (fromJson parse now body) ↔
      ∀ j, body.attempts.findSome? parse = some j → j.wellTyped (fieldsOf j) = true := by
  unfold fromJson fieldsOf
  cases body.attempts.findSome? parse with
  | none => simp
  | some j =>
      simp only [Option.some.injEq, forall_eq']
      split
      · exact reads_parseSfx
      · exact reads_parseGeneric

/-- A generic signal whose price is given as a string. -/
def stringPrice : Text :=
  ("\x7b\x22action\x22:\x22buy\x22,\x22symbol\x22:\x22BTCUSDT\x22," ++
    "\x22price\x22:\x22100.5\x22\x7d").toList.map Text.byte

/-- It raises, in spite of the conversion `parse_generic` has for it. -/
theorem fromJson_stringPrice_raises :
    ¬ Reads (fromJson
      (fun t => if t = stringPrice then
        some (.obj [("action", .str "buy"), ("symbol", .str "BTCUSDT"), ("price", .str "100.5")])
        else none) 0 stringPrice) := by
  have h : stringPrice.attempts.findSome? (fun t => if t = stringPrice then
      some (Json.obj [("action", .str "buy"), ("symbol", .str "BTCUSDT"), ("price", .str "100.5")])
      else none) =
      some (.obj
        [("action", .str "buy"), ("symbol", .str "BTCUSDT"), ("price", .str "100.5")]) := by
    simp [Text.attempts]
  unfold fromJson
  rw [h]
  rintro ⟨a, ha⟩
  cases ha

end WebhookSignal

end WebhookTrader
