import WebhookTrader.Webhook.RepairScan

/-!
# Missing quotes put back

A flat object with the closing quote gone from some of its string values:
the repair puts every one of them back but the last value's, which no key
follows. The scan of a value stops at the comma before the next key, and
stops at no comma before that, for what follows those is a character of
the value, another comma, or the value's own closing quote, and then the
next quote opens a key and no colon can follow it.
-/

namespace WebhookTrader

namespace Text

/-! ## Flat objects -/

/-- The value of a member: a number, or the inside of a string. -/
inductive FlatValue
  | number (text : Text)
  | string (content : Text)
  deriving DecidableEq, Repr

/-- **A member of a flat object**, with the blanks before it and before its
value, and whether a string's closing quote is there. -/
structure Member where
  sep : ℕ := 0
  key : Text
  gap : ℕ := 0
  value : FlatValue
  closed : Bool := true
  deriving DecidableEq, Repr

/-- The characters of numbers. -/
def isNumeric (b : UInt8) : Bool := b ∈ "0123456789+-.eE".toList.map byte

namespace Member

def valueText (m : Member) : Text :=
  match m.value with
  | .number text => text
  | .string content => byte '"' :: (content ++ if m.closed then [byte '"'] else [])

/-- What stands before the colon of a member. -/
def keyText (m : Member) : Text := blanks m.sep ++ byte '"' :: (m.key ++ [byte '"'])

def text (m : Member) : Text :=
  m.keyText ++ byte ':' :: (blanks m.gap ++ m.valueText)

/-- The member with its closing quote. -/
def close (m : Member) : Member := { m with closed := true }

/-- **A member of the texts in question**: its key has no quote and no
colon, its value is a number or a string without quote and backslash. -/
structure Flat (m : Member) : Prop where
  key : ∀ b ∈ m.key, b ≠ byte '"' ∧ b ≠ byte ':'
  value : match m.value with
    | .number text => ∀ b ∈ text, isNumeric b = true
    | .string content => ∀ b ∈ content, b ≠ byte '"' ∧ b ≠ byte '\\'

end Member

/-- What follows a value: the next members, each after a comma, and the
closing brace. -/
def rest : List Member → Text
  | [] => [byte '}']
  | m :: ms => byte ',' :: (m.text ++ rest ms)

/-- **The text of a flat object.** -/
def object : List Member → Text
  | [] => [byte '{', byte '}']
  | m :: ms => byte '{' :: (m.text ++ rest ms)

/-- Every member but the last one closed. -/
def mend : List Member → List Member
  | [] => []
  | m :: ms => (if ms.isEmpty then m else m.close) :: mend ms

theorem mend_eq_map {ms : List Member} (h : ∀ m ∈ ms.getLast?, m.closed = true) :
    mend ms = ms.map Member.close := by
  induction ms with
  | nil => rfl
  | cons m ms ih =>
      rw [mend, List.map_cons]
      cases ms with
      | nil =>
          have hclosed : m.closed = true := h m rfl
          have hsame : m.close = m := by rw [Member.close, ← hclosed]
          rw [List.isEmpty_nil, if_pos rfl, hsame]
          rfl
      | cons m' ms =>
          rw [ih fun m hm => h m (by rwa [List.getLast?_cons_cons])]
          rfl

variable {m : Member} {ms : List Member} {lead zs xs t : Text} {g : ℕ}

/-- A member with a text behind it, piece by piece. -/
theorem text_append (m : Member) (t : Text) : m.text ++ t = blanks m.sep ++ byte '"' ::
    (m.key ++ byte '"' :: byte ':' :: (blanks m.gap ++ (m.valueText ++ t))) := by
  simp [Member.text, Member.keyText]

/-- A string value with a text behind it. -/
theorem valueText_string {sep gap : ℕ} {key : Text} (xs t : Text) (closed : Bool) :
    (⟨sep, key, gap, .string xs, closed⟩ : Member).valueText ++ t =
      byte '"' :: (xs ++ if closed then byte '"' :: t else t) := by
  cases closed <;> simp [Member.valueText]

/-! ## The look ahead in a flat object -/

/-- A text is blanks and then something else. -/
theorem exists_blanks (t : Text) : ∃ g u, t = blanks g ++ u ∧ u.head? ≠ some (byte ' ') := by
  induction t with
  | nil => exact ⟨0, [], rfl, by simp⟩
  | cons b t ih =>
      by_cases hb : b = byte ' '
      · obtain ⟨g, u, rfl, hu⟩ := ih
        exact ⟨g + 1, u, by rw [hb]; rfl, hu⟩
      · exact ⟨0, b :: t, rfl, by simpa using hb⟩

/-- The character before the rest of an object is no blank, no quote and no
colon. -/
theorem head?_rest (ms : List Member) {b : UInt8} (hcomma : b ≠ byte ',') (hbrace : b ≠ byte '}') :
    (rest ms).head? ≠ some b := by
  cases ms with
  | nil => exact fun h => hbrace (Option.some.inj h).symm
  | cons m ms => exact fun h => hcomma (Option.some.inj h).symm

/-- **A comma inside a value is the one before a key** only where what
follows the value begins one. -/
theorem keyFollows_eq_false (hzs : byte '"' ∉ zs) (hblank : t.head? ≠ some (byte ' '))
    (h : keyAt t 0 = false) : keyFollows (byte ',' :: (zs ++ t)) 0 = false := by
  obtain ⟨g, u, rfl, hu⟩ := exists_blanks zs
  rw [List.append_assoc]
  cases u with
  | nil => rw [List.nil_append, keyFollows_cons _ hblank, h]
  | cons b u =>
      have hhead : (b :: u ++ t).head? ≠ some (byte ' ') := hu
      rw [keyFollows_cons _ hhead]
      refine keyAt_eq_false fun hquote => hzs (List.mem_append_right _ ?_)
      rw [← Option.some.inj hquote]
      exact List.mem_cons_self

/-- No colon stands at the beginning of a key. -/
theorem ne_colon_of_key {key : Text} (hkey : ∀ b ∈ key, b ≠ byte '"' ∧ b ≠ byte ':') (t : Text) :
    (key ++ byte '"' :: t)[skipBlanks (key ++ byte '"' :: t) 0]? ≠ some (byte ':') := by
  obtain ⟨g, u, rfl, hu⟩ := exists_blanks key
  rw [List.append_assoc]
  cases u with
  | nil =>
      rw [List.nil_append, getElem?_skipBlanks (by simp; decide)]
      exact fun h => absurd (Option.some.inj h) (by decide)
  | cons b u =>
      have hhead : (b :: u ++ byte '"' :: t).head? ≠ some (byte ' ') := hu
      rw [getElem?_skipBlanks hhead]
      intro h
      exact (hkey b (by simp)).2 (Option.some.inj h)

/-- **The closing quote of a value opens no key**: the next quote opens the
key of the next member, and no colon follows that. -/
theorem keyAt_closing (hflat : ∀ m ∈ ms, m.Flat) : keyAt (byte '"' :: rest ms) 0 = false := by
  cases ms with
  | nil => exact keyAt_quote_of_notMem (by decide)
  | cons m ms =>
      have hmem : byte '"' ∉ byte ',' :: blanks m.sep := by
        rw [List.mem_cons, not_or]
        exact ⟨by decide, fun h => absurd (List.eq_of_mem_replicate h) (by decide)⟩
      rw [rest, text_append, ← List.cons_append, keyAt_quote hmem]
      exact decide_eq_false (ne_colon_of_key (hflat m List.mem_cons_self).key _)

/-- The comma before a member is the one before a key. -/
theorem keyFollows_rest (hflat : m.Flat) : keyFollows (rest (m :: ms)) 0 = true := by
  rw [rest, text_append, keyFollows_cons _ (by simp; decide),
    keyAt_quote fun h => (hflat.key _ h).1 rfl]
  have hcolon := getElem?_skipBlanks (g := 0)
    (t := byte ':' :: (blanks m.gap ++ (m.valueText ++ rest ms))) (by simp; decide)
  exact decide_eq_true hcolon

/-! ## One value -/

/-- The scan of a value that has its closing quote. -/
theorem closeValue_closed (hflat : ∀ m ∈ ms, m.Flat)
    (hxs : ∀ b ∈ xs, b ≠ byte '"' ∧ b ≠ byte '\\') :
    closeValue (xs ++ byte '"' :: rest ms) 0 = (xs ++ byte '"' :: rest ms, xs.length) := by
  rw [closeValue_content hxs, closeValue_quote, Nat.add_zero]
  exact fun zs hzs => keyFollows_eq_false hzs (by simp; decide) (keyAt_closing hflat)

/-- **A missing closing quote is put in** before the comma of the next
member. -/
theorem closeValue_open (hflat : m.Flat) (hxs : ∀ b ∈ xs, b ≠ byte '"' ∧ b ≠ byte '\\') :
    closeValue (xs ++ rest (m :: ms)) 0 = (xs ++ byte '"' :: rest (m :: ms), xs.length) := by
  rw [closeValue_content hxs, rest, closeValue_comma (keyFollows_rest hflat), Nat.add_zero]
  exact fun zs hzs => keyFollows_eq_false hzs (head?_rest _ (by decide) (by decide))
    (keyAt_eq_false (head?_rest _ (by decide) (by decide)))

/-- The last value is not closed. -/
theorem closeValue_last (hxs : ∀ b ∈ xs, b ≠ byte '"' ∧ b ≠ byte '\\') :
    closeValue (xs ++ rest []) 0 = (xs ++ rest [], xs.length + 1) := by
  have hbrace : closeValue (rest []) 0 = (rest [], 1) := by
    rw [rest, closeValue_cons (by decide) (by decide) fun h => absurd h (by decide), closeValue]
    rfl
  rw [closeValue_content hxs, hbrace]
  exact fun zs hzs => keyFollows_eq_false hzs (head?_rest _ (by decide) (by decide))
    (keyAt_eq_false (head?_rest _ (by decide) (by decide)))

/-! ## The whole object -/

/-- **Past a number** the repair goes on. -/
theorem repairFrom_number (hlead : byte ':' ∉ lead) (hxs : ∀ b ∈ xs, isNumeric b = true)
    (ih : ∀ lead, byte ':' ∉ lead → repairFrom (lead ++ rest ms) 0 = lead ++ t) :
    repairFrom (lead ++ byte ':' :: (blanks g ++ (xs ++ rest ms))) 0 =
      lead ++ byte ':' :: (blanks g ++ (xs ++ t)) := by
  have hhead : ∀ b, isNumeric b = false → b ≠ byte ',' → b ≠ byte '}' →
      (xs ++ rest ms).head? ≠ some b := by
    intro b hb hcomma hbrace
    cases xs with
    | nil => exact head?_rest ms hcomma hbrace
    | cons x xs =>
        intro h
        obtain rfl := Option.some.inj h
        exact Bool.false_ne_true (hb.symm.trans (hxs _ List.mem_cons_self))
  -- the next colon is behind the number
  have hcolon : byte ':' ∉ blanks g ++ xs := by
    rw [List.mem_append, not_or]
    exact ⟨fun h => absurd (List.eq_of_mem_replicate h) (by decide),
      fun h => absurd (hxs _ h) (by decide)⟩
  rw [repairFrom_colon_bare hlead (hhead _ (by decide) (by decide) (by decide))
    (hhead _ (by decide) (by decide) (by decide)), ← List.append_assoc (blanks g), ih _ hcolon,
    List.append_assoc, List.append_assoc, List.singleton_append]

/-- **Past a string** the repair goes on behind the quote the scan has
stopped at. -/
theorem repairFrom_value {u : Text} (hlead : byte ':' ∉ lead)
    (hscan : closeValue t 0 = (xs ++ byte '"' :: rest ms, xs.length))
    (ih : ∀ lead, byte ':' ∉ lead → repairFrom (lead ++ rest ms) 0 = lead ++ u) :
    repairFrom (lead ++ byte ':' :: (blanks g ++ byte '"' :: t)) 0 =
      lead ++ byte ':' :: (blanks g ++ byte '"' :: (xs ++ byte '"' :: u)) := by
  have hgo := repairFrom_append (xs ++ [byte '"']) (rest ms) 0
  have hrest := ih [] (by simp)
  rw [List.nil_append, List.nil_append] at hrest
  rw [hrest, List.length_append, List.length_singleton, List.append_assoc,
    List.singleton_append, Nat.add_zero] at hgo
  rw [repairFrom_colon_quote hlead, hscan, hgo]
  simp

/-- **One member**: the repair closes its value, unless it is the last. -/
theorem repairFrom_member (hflat : ∀ x ∈ m :: ms, x.Flat) (hlead : byte ':' ∉ lead)
    (ih : ∀ lead, byte ':' ∉ lead → repairFrom (lead ++ rest ms) 0 = lead ++ rest (mend ms)) :
    repairFrom (lead ++ byte ':' :: (blanks m.gap ++ (m.valueText ++ rest ms))) 0 =
      lead ++ byte ':' :: (blanks m.gap ++
        ((if ms.isEmpty then m else m.close).valueText ++ rest (mend ms))) := by
  obtain ⟨hm, hms⟩ := List.forall_mem_cons.1 hflat
  obtain ⟨sep, key, gap, value, closed⟩ := m
  cases value with
  | number xs =>
      -- to close a number writes nothing
      have hsame : ∀ b : Bool, (if b then (⟨sep, key, gap, .number xs, closed⟩ : Member)
          else (⟨sep, key, gap, .number xs, closed⟩ : Member).close).valueText = xs := by
        rintro (_ | _) <;> rfl
      rw [hsame]
      exact repairFrom_number hlead hm.value ih
  | string xs =>
      -- the text of a string that has its closing quote
      have hclosed : repairFrom (lead ++ byte ':' :: (blanks gap ++
          byte '"' :: (xs ++ byte '"' :: rest ms))) 0 =
          lead ++ byte ':' :: (blanks gap ++ byte '"' :: (xs ++ byte '"' :: rest (mend ms))) :=
        repairFrom_value hlead (closeValue_closed hms hm.value) ih
      dsimp only
      rw [valueText_string]
      cases closed with
      | true =>
          have hsame : ∀ b : Bool, (if b then (⟨sep, key, gap, .string xs, true⟩ : Member)
              else (⟨sep, key, gap, .string xs, true⟩ : Member).close) =
                ⟨sep, key, gap, .string xs, true⟩ := by
            rintro (_ | _) <;> rfl
          rw [hsame, valueText_string]
          exact hclosed
      | false =>
          cases ms with
          | nil =>
              rw [List.isEmpty_nil, if_pos rfl, valueText_string]
              -- the scan of the last value has run to the end of the text
              have hend := repairFrom_of_le (t := xs ++ rest []) (i := xs.length + 1 + 1)
                (by rw [List.length_append]; exact Nat.le_succ _)
              show repairFrom (lead ++ byte ':' :: (blanks gap ++ byte '"' :: (xs ++ rest []))) 0 =
                lead ++ byte ':' :: (blanks gap ++ byte '"' :: (xs ++ rest []))
              rw [repairFrom_colon_quote hlead, closeValue_last hm.value, hend]
              simp
          | cons m' ms =>
              have hclose : (⟨sep, key, gap, .string xs, false⟩ : Member).close =
                  ⟨sep, key, gap, .string xs, true⟩ := rfl
              rw [List.isEmpty_cons]
              simp only [Bool.false_eq_true, if_false]
              rw [hclose, valueText_string]
              exact repairFrom_value hlead
                (closeValue_open (hms m' List.mem_cons_self) hm.value) ih

theorem colon_notMem_keyText (hflat : m.Flat) : byte ':' ∉ m.keyText := by
  have hblank : byte ':' ∉ blanks m.sep := fun h =>
    absurd (List.eq_of_mem_replicate h) (by decide)
  have hkey : byte ':' ∉ m.key := fun h => (hflat.key _ h).2 rfl
  have hquote : byte ':' ≠ byte '"' := by decide
  simp [Member.keyText, hblank, hkey, hquote]

/-- Past the first member of a list, whatever stands before it. -/
theorem repairFrom_text (hflat : ∀ x ∈ m :: ms, x.Flat) (hlead : byte ':' ∉ lead)
    (ih : ∀ lead, byte ':' ∉ lead → repairFrom (lead ++ rest ms) 0 = lead ++ rest (mend ms)) :
    repairFrom (lead ++ (m.text ++ rest ms)) 0 =
      lead ++ ((if ms.isEmpty then m else m.close).text ++ rest (mend ms)) := by
  have hcolon : byte ':' ∉ lead ++ m.keyText := by
    rw [List.mem_append, not_or]
    exact ⟨hlead, colon_notMem_keyText (hflat m List.mem_cons_self)⟩
  have hmember := repairFrom_member hflat hcolon ih
  have htext : (if ms.isEmpty then m else m.close).text =
      m.keyText ++ byte ':' :: (blanks m.gap ++
        (if ms.isEmpty then m else m.close).valueText) := by
    split_ifs <;> rfl
  rw [htext, Member.text]
  simpa using hmember

/-- **All the members**, after a text without a colon. -/
theorem repairFrom_rest (hflat : ∀ m ∈ ms, m.Flat) :
    ∀ lead, byte ':' ∉ lead → repairFrom (lead ++ rest ms) 0 = lead ++ rest (mend ms) := by
  induction ms with
  | nil =>
      intro lead hlead
      refine repairFrom_none (findFrom_eq_none ?_)
      rw [List.mem_append, not_or]
      exact ⟨hlead, by decide⟩
  | cons m ms ih =>
      intro lead hlead
      -- the comma joins what has been passed
      have hcomma : byte ':' ∉ lead ++ [byte ','] := by
        rw [List.mem_append, not_or]
        exact ⟨hlead, by decide⟩
      have hfirst := repairFrom_text hflat hcomma (ih (List.forall_mem_cons.1 hflat).2)
      rw [List.append_assoc, List.append_assoc] at hfirst
      exact hfirst

/-- **The repair closes every value but the last.** -/
theorem closeQuotes_object_eq (hflat : ∀ m ∈ ms, m.Flat) :
    closeQuotes (object ms) = object (mend ms) := by
  cases ms with
  | nil => exact repairFrom_none (by decide)
  | cons m ms =>
      have hbrace : byte ':' ∉ [byte '{'] := by decide
      exact repairFrom_text hflat hbrace (repairFrom_rest (List.forall_mem_cons.1 hflat).2)

/-- **Every missing closing quote is put back**, and nothing else is put
in. -/
theorem closeQuotes_object (ms : List Member) (hflat : ∀ m ∈ ms, m.Flat)
    (hlast : ∀ m ∈ ms.getLast?, m.closed = true) :
    closeQuotes (object ms) = object (ms.map Member.close) := by
  rw [closeQuotes_object_eq hflat, mend_eq_map hlast]

/-- Two values in a row without their closing quotes, the first with a colon
and a comma in it and the second ending in a comma. -/
def twoOpen : List Member :=
  [{ key := "token".toList.map byte, value := .string ("a:b, c".toList.map byte), closed := false },
    { key := "alert".toList.map byte, gap := 1, value := .string ("BUY,".toList.map byte),
      closed := false },
    { sep := 1, key := "close".toList.map byte, value := .number ("100".toList.map byte) }]

theorem twoOpen_flat : ∀ m ∈ twoOpen, m.Flat := by
  simp only [twoOpen, List.forall_mem_cons]
  refine ⟨⟨by decide +kernel, by decide +kernel⟩, ⟨by decide +kernel, by decide +kernel⟩,
    ⟨by decide +kernel, by decide +kernel⟩, fun m hm => absurd hm List.not_mem_nil⟩

theorem closeQuotes_object_twoOpen :
    closeQuotes (object twoOpen) = object (twoOpen.map Member.close) :=
  closeQuotes_object twoOpen twoOpen_flat (by decide +kernel)

end Text

end WebhookTrader
