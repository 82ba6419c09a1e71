import WebhookTrader.Common.Json
import WebhookTrader.Engine.Model.Book

/-!
# Reading the exchange's snapshot

The first half of `sync_positions_with_exchange`: what is read out of the
response, whatever it is. A number that does not convert is zero, a
missing field is its default, and only what the accessors raise stops the
sync before it touches the book.
-/

namespace WebhookTrader

namespace Snapshot

/-! ## Fields -/

/-- What an infinity or a NaN is taken for, which compares and copies as it
does: above every double, below every one, or not above zero. -/
def nonfinite (s : String) : ℚ :=
  let (neg, cs) := Cxx.sign (s.toList.dropWhile Cxx.isSpace)
  if "inf".toList <+: cs.map Char.toLower then if neg then -(2 ^ 1024) else 2 ^ 1024 else 0

/-- `parse_double`. -/
def parseDouble (j : Json) (key : String) : ℚ :=
  match j.find? key with
  | some (.str s) =>
      match Cxx.stod s with
      | .ok (.finite q) => q
      | .ok .nonfinite => nonfinite s
      | .error _ => 0
  | some (.int n) => n
  | some (.float q) => q
  | _ => 0

/-- `parse_int`. -/
def parseInt (j : Json) (key : String) (dflt : ℤ) : ℤ :=
  match j.find? key with
  | some (.str s) =>
      match Cxx.stoi s with
      | .ok n => n
      | .error _ => dflt
  | some (.int n) => (n.bmod (2 ^ 64)).bmod (2 ^ 32)
  | some (.float q) => (Json.truncate q).bmod (2 ^ 32)
  | _ => dflt

open Json in
/-- An element of `data`. -/
def parseRow (pos : Json) : Except Exception ExchangePosition := do
  let symbol ← pos.value getString "symbol" ""
  let holdSide ← pos.value getString "holdSide" ""
  return { symbol, holdSide
           total := parseDouble pos "total"
           avgPrice := parseDouble pos "averageOpenPrice"
           leverage := parseInt pos "leverage" 10 }

/-! ## Responses -/

open Json in
/-- **The rows of a response**: none at all where the code is not a success,
and an empty list where there is no array of data. -/
def parse (resp : Json) : Except Exception (Option (List ExchangePosition)) := do
  let code ← resp.value getString "code" "99999"
  if code = "00000" then
    match resp.find? "data" with
    | some (.arr rows) => some <$> rows.mapM parseRow
    | _ => return some []
  else return none

end Snapshot

/-- **`sync_positions_with_exchange`**, on whatever `get_positions`
returns. -/
def Book.syncWith (now : Clock) (resp : Json) (book : Book) : Book :=
  match Snapshot.parse resp with
  | .ok (some rows) => book.reconcile now (ExchangeMap.ofRows rows)
  | _ => book

end WebhookTrader
