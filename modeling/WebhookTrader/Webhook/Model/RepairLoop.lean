import WebhookTrader.Webhook.Model.Parser

/-!
# The third attempt, read by read

The repair loop of `from_json` once more, with every index it reads by
`[]` written out where the source reads it, and with a number of turns of
the outer loop that it may not exceed. It has no result where a read is
out of range, or where the turns are used up and the loop would go on.
-/

namespace WebhookTrader

namespace Text

/-- `fixed[i]`, where `i` is in range. -/
def readAt (t : Text) (i : ℕ) : Option UInt8 := t[i]?

/-- Over the blanks from `i` on. -/
def readBlanks (t : Text) (i : ℕ) : Option ℕ :=
  if _h : i < t.length then do
    if (← t.readAt i) = byte ' ' then readBlanks t (i + 1) else return i
  else return i
termination_by t.length - i

/-- Whether there is a character at `i`, and it is this one. -/
def readIs (t : Text) (i : ℕ) (c : Char) : Option Bool :=
  if i < t.length then do return (← t.readAt i) = byte c else return false

/-- Whether the next key follows the comma at `s`. -/
def readKey (t : Text) (s : ℕ) : Option Bool :=
  if s + 1 < t.length then do
    let next ← t.readBlanks (s + 1)
    if ← t.readIs next '"' then
      match findFrom t '"' (next + 1) with
      | none => return false
      | some closing => t.readIs (← t.readBlanks (closing + 1)) ':'
    else return false
  else return false

/-- The scan of the inside of a string value. -/
def readValue (t : Text) (s : ℕ) : Option (Text × ℕ) :=
  if _h : s < t.length then do
    let b ← t.readAt s
    if b = byte '\\' ∧ s + 1 < t.length then readValue t (s + 2)
    else if b = byte '"' then return (t, s)
    else if ← if b = byte ',' then t.readKey s else some false then
      return (t.insertIdx s (byte '"'), s)
    else readValue t (s + 1)
  else return (t, s)
termination_by t.length - s

/-- **The outer loop**, for some turns at most. -/
def repairLoop (turns : ℕ) (t : Text) (searchFrom : ℕ) : Option Text :=
  if searchFrom < t.length then
    match turns with
    | 0 => none
    | turns + 1 =>
        match findFrom t ':' searchFrom with
        | none => return t
        | some colon => do
            let start ← t.readBlanks (colon + 1)
            if ← t.readIs start '"' then
              let (t, s) ← t.readValue (start + 1)
              repairLoop turns t (s + 1)
            else repairLoop turns t (colon + 1)
  else return t

/-- **A text with quotes put in**, each directly before a comma of it. -/
inductive QuotesBeforeCommas : Text → Text → Prop
  | nil : QuotesBeforeCommas [] []
  | keep (b : UInt8) {t u : Text} (h : QuotesBeforeCommas t u) :
      QuotesBeforeCommas (b :: t) (b :: u)
  | quote {t u : Text} (h : QuotesBeforeCommas t u) :
      QuotesBeforeCommas (byte ',' :: t) (byte '"' :: byte ',' :: u)

end Text

end WebhookTrader
