import WebhookTrader.Webhook.Model.Signal

/-!
# The three parse attempts

`WebhookSignal::from_json` parses the body as it stands, then with every
run of quotes collapsed to one, then with a missing closing quote put
back wherever a string value runs into what looks like the next key. The
first attempt that parses decides, and its reader may still raise. Texts
are lists of bytes; the JSON library's parser is a parameter, which
answers with nothing where the library answers with a discarded value.
-/

namespace WebhookTrader

/-- A text as the server receives it. -/
abbrev Text := List UInt8

namespace Text

/-- The byte of an ASCII character. -/
def byte (c : Char) : UInt8 := UInt8.ofNat c.toNat

/-! ## The second attempt -/

/-- Keep one quote of every run of quotes. -/
def collapseQuotes : Text → Text
  | c :: d :: cs =>
      if c = byte '"' ∧ d = byte '"' then collapseQuotes (d :: cs)
      else c :: collapseQuotes (d :: cs)
  | cs => cs

/-! ## The third attempt -/

/-- `find` from a position on. -/
def findFrom (t : Text) (c : Char) (i : ℕ) : Option ℕ :=
  if i < t.length ∧ byte c ∈ t.drop i then some (i + (t.drop i).idxOf (byte c)) else none

/-- The first position from `i` on that holds no blank. -/
def skipBlanks (t : Text) (i : ℕ) : ℕ := i + ((t.drop i).takeWhile (· = byte ' ')).length

/-- What follows the comma at `s` is a key: blanks, a quote, the next
quote, blanks and a colon. -/
def keyFollows (t : Text) (s : ℕ) : Bool :=
  let next := skipBlanks t (s + 1)
  t[next]? = some (byte '"') &&
    match findFrom t '"' (next + 1) with
    | none => false
    | some closing => t[skipBlanks t (closing + 1)]? = some (byte ':')

/-- Scan the inside of a string value from `s`: the text, with a quote put
in where one is missing, and the position the scan stops at. -/
def closeValue (t : Text) (s : ℕ) : Text × ℕ :=
  if h : s < t.length then
    if t[s] = byte '\\' ∧ s + 1 < t.length then closeValue t (s + 2)
    else if t[s] = byte '"' then (t, s)
    else if t[s] = byte ',' ∧ keyFollows t s then (t.insertIdx s (byte '"'), s)
    else closeValue t (s + 1)
  else (t, s)
termination_by t.length - s

theorem le_closeValue (t : Text) (s : ℕ) : s ≤ (closeValue t s).2 := by
  fun_induction closeValue t s <;> omega

theorem length_closeValue_le (t : Text) (s : ℕ) : (closeValue t s).1.length ≤ t.length + 1 := by
  fun_induction closeValue t s with
  | case1 _ _ _ ih => exact ih
  | case2 => exact Nat.le_succ _
  | case3 => exact List.length_insertIdx_le_succ
  | case4 _ _ _ _ _ ih => exact ih
  | case5 => exact Nat.le_succ _

theorem le_findFrom {t : Text} {c : Char} {i k : ℕ} (h : findFrom t c i = some k) : i ≤ k := by
  rw [findFrom] at h
  split at h
  · obtain rfl := Option.some.inj h
    exact Nat.le_add_right _ _
  · cases h

/-- The outer loop: from colon to colon, and over the string value where
one follows the colon. -/
def repairFrom (t : Text) (searchFrom : ℕ) : Text :=
  if _h : searchFrom < t.length then
    match _hc : findFrom t ':' searchFrom with
    | none => t
    | some colon =>
        let start := skipBlanks t (colon + 1)
        if t[start]? = some (byte '"') then
          repairFrom (closeValue t (start + 1)).1 ((closeValue t (start + 1)).2 + 1)
        else repairFrom t (colon + 1)
  else t
termination_by t.length - searchFrom
decreasing_by
  · have hle := length_closeValue_le t (skipBlanks t (colon + 1) + 1)
    have hs := le_closeValue t (skipBlanks t (colon + 1) + 1)
    have hcolon := le_findFrom _hc
    have hstart : colon + 1 ≤ skipBlanks t (colon + 1) := Nat.le_add_right _ _
    omega
  · have hcolon := le_findFrom _hc
    omega

/-- The text of the third attempt. -/
def closeQuotes (t : Text) : Text := repairFrom t 0

/-- The texts the three attempts parse. -/
def attempts (body : Text) : List Text :=
  [body, collapseQuotes body, closeQuotes (collapseQuotes body)]

end Text

namespace WebhookSignal

/-- Which of the two readers a parsed body goes to. -/
def isSfx (j : Json) : Bool := j.contains "algorithm" || j.contains "alert"

/-- **`from_json`.** The first attempt that parses is read; none leaves no
signal. -/
def fromJson (parse : Text → Option Json) (now : ℕ) (body : Text) :
    Except Exception (Option WebhookSignal) :=
  match body.attempts.findSome? parse with
  | some j =>
      if isSfx j then parseSfx j { receivedAt := now } else parseGeneric j { receivedAt := now }
  | none => .ok none

end WebhookSignal

end WebhookTrader
