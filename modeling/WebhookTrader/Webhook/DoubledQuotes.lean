import WebhookTrader.Webhook.MissingQuotes

/-!
# Doubled quotes

The second attempt keeps one quote of every run, which undoes a doubling
of all the quotes where no two of them stood together. Of a flat object it
takes the closing quotes of the empty strings. What a parser sees of a
text here is where its strings begin and end: in a doubled text every
string is empty, and behind an open value the next key stands outside of
all strings.
-/

namespace WebhookTrader

namespace Text

variable {t xs b : Text} {c : UInt8} {m : Member} {ms : List Member}

/-! ## Doubling and collapsing -/

/-- Every quote written twice. -/
def doubleQuotes : Text → Text
  | [] => []
  | c :: t => if c = byte '"' then c :: c :: doubleQuotes t else c :: doubleQuotes t

/-- Two quotes stand together. -/
def Adjacent (t : Text) : Prop := [byte '"', byte '"'] <:+: t

theorem doubleQuotes_quote (t : Text) :
    doubleQuotes (byte '"' :: t) = byte '"' :: byte '"' :: doubleQuotes t := if_pos rfl

theorem doubleQuotes_cons (h : c ≠ byte '"') : doubleQuotes (c :: t) = c :: doubleQuotes t :=
  if_neg h

theorem collapseQuotes_quotes (t : Text) :
    collapseQuotes (byte '"' :: byte '"' :: t) = collapseQuotes (byte '"' :: t) := by
  rw [collapseQuotes, if_pos ⟨rfl, rfl⟩]

/-- Anything but a quote with one after it is kept. -/
theorem collapseQuotes_cons (h : c = byte '"' → t.head? ≠ some (byte '"')) :
    collapseQuotes (c :: t) = c :: collapseQuotes t := by
  cases t with
  | nil => rfl
  | cons d t =>
      rw [collapseQuotes, if_neg]
      rintro ⟨rfl, rfl⟩
      exact h rfl rfl

theorem collapseQuotes_append (h : byte '"' ∉ xs) :
    collapseQuotes (xs ++ t) = xs ++ collapseQuotes t := by
  induction xs with
  | nil => rfl
  | cons c xs ih =>
      rw [List.mem_cons, not_or] at h
      rw [List.cons_append, collapseQuotes_cons fun hc => absurd hc.symm h.1, ih h.2,
        List.cons_append]

/-- After any character a doubled text collapses as the text does. -/
theorem collapseQuotes_cons_double (c : UInt8) (t : Text) :
    collapseQuotes (c :: doubleQuotes t) = collapseQuotes (c :: t) := by
  induction t generalizing c with
  | nil => rfl
  | cons d t ih =>
      by_cases hd : d = byte '"'
      · subst hd
        rw [doubleQuotes_quote]
        by_cases hc : c = byte '"'
        · subst hc
          rw [collapseQuotes_quotes, collapseQuotes_quotes, collapseQuotes_quotes, ih]
        · rw [collapseQuotes_cons fun h => absurd h hc, collapseQuotes_quotes, ih,
            collapseQuotes_cons fun h => absurd h hc]
      · have hhead : ∀ t : Text, (d :: t).head? ≠ some (byte '"') :=
          fun _ h => hd (Option.some.inj h)
        rw [doubleQuotes_cons hd, collapseQuotes_cons fun _ => hhead _, ih,
          collapseQuotes_cons fun _ => hhead _]

/-- **A doubled text collapses to what the text collapses to.** -/
theorem collapseQuotes_doubleQuotes (t : Text) :
    collapseQuotes (doubleQuotes t) = collapseQuotes t := by
  cases t with
  | nil => rfl
  | cons c t =>
      by_cases hc : c = byte '"'
      · subst hc
        rw [doubleQuotes_quote, collapseQuotes_quotes, collapseQuotes_cons_double]
      · rw [doubleQuotes_cons hc, collapseQuotes_cons_double]

theorem length_collapseQuotes_le (t : Text) : (collapseQuotes t).length ≤ t.length := by
  fun_induction collapseQuotes t with
  | case1 c d cs h ih => exact ih.trans (Nat.le_succ _)
  | case2 c d cs h ih => exact Nat.succ_le_succ ih
  | case3 cs h => exact Nat.le_refl _

/-- **Collapsing changes a text** where two quotes stand together, and
there only. -/
theorem collapseQuotes_eq_self_iff : collapseQuotes t = t ↔ ¬ Adjacent t := by
  unfold Adjacent
  fun_induction collapseQuotes t with
  | case1 c d cs h ih =>
      obtain ⟨rfl, rfl⟩ := h
      -- a quote has gone, so the text is shorter
      refine iff_of_false (fun heq => ?_) (not_not.2 ⟨[], cs, rfl⟩)
      have hlen := length_collapseQuotes_le (byte '"' :: cs)
      rw [heq] at hlen
      exact absurd hlen (Nat.not_succ_le_self _)
  | case2 c d cs h ih =>
      have hfirst : ¬ [byte '"', byte '"'] <+: c :: d :: cs := by
        intro hstarts
        obtain ⟨hc, hrest⟩ := List.cons_prefix_cons.1 hstarts
        exact h ⟨hc.symm, (List.cons_prefix_cons.1 hrest).1.symm⟩
      rw [List.cons.injEq, and_iff_right rfl, ih, @List.infix_cons_iff _ _ _ (d :: cs), not_or]
      exact ⟨fun hrest => ⟨hfirst, hrest⟩, And.right⟩
  | case3 cs h =>
      refine iff_of_true rfl fun hwithin => ?_
      have hlen := hwithin.length_le
      cases cs with
      | nil => exact absurd hlen (by decide)
      | cons c cs =>
          cases cs with
          | nil => exact absurd hlen (Nat.not_succ_le_self 1)
          | cons d cs => exact h c d cs rfl

/-! ## What the parser sees of a text -/

/-- A letter. -/
def isLetter (b : UInt8) : Bool := (65 ≤ b && b ≤ 90) || (97 ≤ b && b ≤ 122)

/-- Where a reader of a text stands. -/
inductive Place
  | outside
  | inside
  /-- Inside a string, behind a backslash. -/
  | escaped

/-- **The strings of a text are in order**: every one ends, none is
followed by a letter, and no backslash stands outside of them. -/
def wellQuoted : Place → Text → Bool
  | .outside, [] => true
  | .inside, [] => false
  | .escaped, [] => false
  | .outside, c :: t =>
      if c = byte '"' then wellQuoted .inside t else c ≠ byte '\\' && wellQuoted .outside t
  | .inside, c :: t =>
      if c = byte '\\' then wellQuoted .escaped t
      else if c = byte '"' then !(t.head?.any isLetter) && wellQuoted .outside t
      else wellQuoted .inside t
  | .escaped, _ :: t => wellQuoted .inside t

theorem wellQuoted_plain (h : c ≠ byte '"' ∧ c ≠ byte '\\') (t : Text) :
    wellQuoted .outside (c :: t) = wellQuoted .outside t := by
  rw [wellQuoted, if_neg h.1, decide_eq_true h.2, Bool.true_and]

/-- Text outside of strings. -/
theorem wellQuoted_outside (h : ∀ c ∈ xs, c ≠ byte '"' ∧ c ≠ byte '\\') :
    wellQuoted .outside (xs ++ t) = wellQuoted .outside t := by
  induction xs with
  | nil => rfl
  | cons c xs ih =>
      obtain ⟨hc, hxs⟩ := List.forall_mem_cons.1 h
      rw [List.cons_append, wellQuoted_plain hc, ih hxs]

/-- Text inside a string. -/
theorem wellQuoted_inside (h : ∀ c ∈ xs, c ≠ byte '"' ∧ c ≠ byte '\\') :
    wellQuoted .inside (xs ++ t) = wellQuoted .inside t := by
  induction xs with
  | nil => rfl
  | cons c xs ih =>
      obtain ⟨hc, hxs⟩ := List.forall_mem_cons.1 h
      rw [List.cons_append, wellQuoted, if_neg hc.2, if_neg hc.1, ih hxs]

theorem wellQuoted_opening (t : Text) :
    wellQuoted .outside (byte '"' :: t) = wellQuoted .inside t := by
  rw [wellQuoted, if_pos rfl]

theorem wellQuoted_closing (t : Text) : wellQuoted .inside (byte '"' :: t) =
    (!(t.head?.any isLetter) && wellQuoted .outside t) := by
  rw [wellQuoted, if_neg (by decide), if_pos rfl]

theorem head?_doubleQuotes (t : Text) : (doubleQuotes t).head? = t.head? := by
  cases t with
  | nil => rfl
  | cons c t =>
      unfold doubleQuotes
      split_ifs <;> rfl

theorem mem_doubleQuotes : c ∈ doubleQuotes t ↔ c ∈ t := by
  induction t with
  | nil => exact Iff.rfl
  | cons d t ih =>
      unfold doubleQuotes
      split_ifs <;> simp [ih]

/-- Doubling puts no character behind a quote but another quote. -/
theorem infix_of_infix_doubleQuotes (hc : c ≠ byte '"') (h : [byte '"', c] <:+: doubleQuotes t) :
    [byte '"', c] <:+: t := by
  have hstarts : ∀ t : Text, [byte '"', c] <+: byte '"' :: doubleQuotes t →
      [byte '"', c] <+: byte '"' :: t := by
    intro t h
    obtain ⟨u, hu⟩ := (List.cons_prefix_cons.1 h).2
    have hhead := head?_doubleQuotes t
    rw [← hu] at hhead
    cases t with
    | nil => cases hhead
    | cons d t =>
        obtain rfl := Option.some.inj hhead
        exact ⟨t, rfl⟩
  induction t with
  | nil => exact h
  | cons d t ih =>
      by_cases hd : d = byte '"'
      · subst hd
        rw [doubleQuotes_quote] at h
        rcases List.infix_cons_iff.1 h with hfirst | hrest
        · exact absurd (List.cons_prefix_cons.1 (List.cons_prefix_cons.1 hfirst).2).1 hc
        -- what follows the second of the two followed the one
        rcases List.infix_cons_iff.1 hrest with hsecond | hrest
        · exact (hstarts t hsecond).isInfix
        · exact List.infix_cons (ih hrest)
      · rw [doubleQuotes_cons hd] at h
        rcases List.infix_cons_iff.1 h with hfirst | hrest
        · exact absurd (List.cons_prefix_cons.1 hfirst).1.symm hd
        · exact List.infix_cons (ih hrest)

/-- **In a doubled text every string is empty**: where its strings are in
order, no quote of the text was followed by a letter, and there was no
backslash. -/
theorem of_wellQuoted_doubleQuotes (h : wellQuoted .outside (doubleQuotes t) = true) :
    byte '\\' ∉ t ∧ ∀ c, isLetter c = true → ¬ [byte '"', c] <:+: t := by
  induction t with
  | nil => exact ⟨List.not_mem_nil, fun c _ hwithin => absurd hwithin.length_le (by simp)⟩
  | cons d t ih =>
      by_cases hd : d = byte '"'
      · subst hd
        rw [doubleQuotes_quote, wellQuoted_opening, wellQuoted_closing, Bool.and_eq_true,
          head?_doubleQuotes] at h
        obtain ⟨hback, hletter⟩ := ih h.2
        refine ⟨List.not_mem_cons_of_ne_of_not_mem (by decide) hback, fun c hc hwithin => ?_⟩
        rcases List.infix_cons_iff.1 hwithin with hstarts | hrest
        · obtain ⟨u, rfl⟩ := (List.cons_prefix_cons.1 hstarts).2
          simp [hc] at h
        · exact hletter c hc hrest
      · rw [doubleQuotes_cons hd, wellQuoted, if_neg hd, Bool.and_eq_true, decide_eq_true_eq] at h
        obtain ⟨hback, hletter⟩ := ih h.2
        refine ⟨List.not_mem_cons_of_ne_of_not_mem (Ne.symm h.1) hback, fun c hc hwithin => ?_⟩
        rcases List.infix_cons_iff.1 hwithin with hstarts | hrest
        · exact hd (List.cons_prefix_cons.1 hstarts).1.symm
        · exact hletter c hc hrest

/-! ## Flat objects -/

namespace Member

/-- **A name**: the key begins with a letter, and has no backslash. -/
structure Named (m : Member) : Prop where
  letter : m.key.head?.any isLetter = true
  backslash : ∀ c ∈ m.key, c ≠ byte '\\'

/-- A string value without its closing quote. -/
def isOpen (m : Member) : Bool :=
  match m.value with
  | .number _ => false
  | .string _ => !m.closed

/-- The member with the closing quote of an empty string gone. -/
def thin (m : Member) : Member := if m.value = .string [] then { m with closed := false } else m

variable {m : Member}

theorem thin_of_empty (h : m.value = .string []) : m.thin = { m with closed := false } := if_pos h

theorem thin_of_ne (h : m.value ≠ .string []) : m.thin = m := if_neg h

theorem Flat.thin (h : m.Flat) : m.thin.Flat := by
  unfold Member.thin
  split_ifs
  · exact ⟨h.key, h.value⟩
  · exact h

theorem Named.key_ne_nil (h : m.Named) : m.key ≠ [] := by
  intro hkey
  have hletter := h.letter
  simp [hkey] at hletter

theorem Named.thin (h : m.Named) : m.thin.Named := by
  unfold Member.thin
  split_ifs
  · exact ⟨h.letter, h.backslash⟩
  · exact h

theorem isOpen_thin (h : m.value = .string []) : m.thin.isOpen = true := by
  rw [thin_of_empty h]
  unfold isOpen
  rw [h]
  rfl

theorem close_eq_self (h : m.closed = true) : m.close = m := by rw [close, ← h]

/-- Closing a thinned member closes the member. -/
theorem close_thin (m : Member) : m.thin.close = m.close := by
  unfold thin
  split_ifs <;> rfl

theorem isOpen_thin_of_isOpen (h : m.isOpen = true) : m.thin.isOpen = true := by
  unfold thin
  split_ifs with hvalue
  · unfold isOpen
    rw [hvalue]
    rfl
  · exact h

end Member

/-- A value that is not open has its closing quote already. -/
theorem text_close (h : m.isOpen = false) : m.close.text = m.text := by
  obtain ⟨sep, key, gap, value, closed⟩ := m
  cases value with
  | number text => rfl
  | string content =>
      have hclosed : closed = true := by simpa [Member.isOpen] using h
      rw [hclosed]
      rfl

theorem object_map_close (h : ∀ m ∈ ms, m.isOpen = false) :
    object (ms.map Member.close) = object ms := by
  have hrest : ∀ ms : List Member, (∀ m ∈ ms, m.isOpen = false) →
      rest (ms.map Member.close) = rest ms := by
    intro ms h
    induction ms with
    | nil => rfl
    | cons m ms ih =>
        obtain ⟨hm, hms⟩ := List.forall_mem_cons.1 h
        rw [List.map_cons, rest, text_close hm, ih hms, rest]
  cases ms with
  | nil => rfl
  | cons m ms =>
      obtain ⟨hm, hms⟩ := List.forall_mem_cons.1 h
      rw [List.map_cons, object, text_close hm, hrest ms hms, object]

/-- Mending changes neither keys nor values. -/
theorem exists_of_mem_mend (h : m ∈ mend ms) : m ∈ ms ∨ ∃ m' ∈ ms, m = m'.close := by
  induction ms with
  | nil => exact absurd h List.not_mem_nil
  | cons m' ms ih =>
      rw [mend, List.mem_cons] at h
      rcases h with rfl | h
      · split_ifs
        · exact .inl List.mem_cons_self
        · exact .inr ⟨m', List.mem_cons_self, rfl⟩
      · rcases ih h with hmem | ⟨m'', hmem, rfl⟩
        · exact .inl (List.mem_cons_of_mem _ hmem)
        · exact .inr ⟨m'', List.mem_cons_of_mem _ hmem, rfl⟩

/-- The last member is left as it is. -/
theorem getLast?_mend (ms : List Member) : (mend ms).getLast? = ms.getLast? := by
  induction ms with
  | nil => rfl
  | cons m ms ih =>
      cases ms with
      | nil => rfl
      | cons m' ms =>
          rw [List.getLast?_cons_cons, ← ih]
          exact List.getLast?_cons_cons

theorem blanks_plain {g : ℕ} : ∀ c ∈ blanks g, c ≠ byte '"' ∧ c ≠ byte '\\' := by
  intro c hc
  rw [List.eq_of_mem_replicate hc]
  decide

theorem isNumeric_plain (h : isNumeric c = true) : c ≠ byte '"' ∧ c ≠ byte '\\' :=
  ⟨fun hc => absurd (hc ▸ h) (by decide), fun hc => absurd (hc ▸ h) (by decide)⟩

/-- The strings of a member are in order, where its value is closed. -/
theorem wellQuoted_text {u : Text} (hflat : m.Flat) (hnamed : m.Named)
    (hu : u.head?.any isLetter = false) :
    wellQuoted .outside (m.text ++ u) =
      wellQuoted (if m.isOpen then .inside else .outside) u := by
  have hkey : ∀ c ∈ m.key, c ≠ byte '"' ∧ c ≠ byte '\\' := fun c hc =>
    ⟨(hflat.key c hc).1, hnamed.backslash c hc⟩
  -- up to the value the text is a name, a colon and blanks
  rw [text_append, wellQuoted_outside blanks_plain, wellQuoted_opening, wellQuoted_inside hkey,
    wellQuoted_closing, wellQuoted_plain (by decide), wellQuoted_outside blanks_plain]
  obtain ⟨sep, key, gap, value, closed⟩ := m
  cases value with
  | number text =>
      have htext : ∀ c ∈ text, c ≠ byte '"' ∧ c ≠ byte '\\' := fun c hc =>
        isNumeric_plain (hflat.value c hc)
      exact wellQuoted_outside htext
  | string content =>
      rw [valueText_string, wellQuoted_opening, wellQuoted_inside hflat.value]
      cases closed with
      | false => rfl
      | true =>
          rw [if_pos rfl, wellQuoted_closing, hu]
          rfl

theorem head?_rest_isLetter (ms : List Member) : (rest ms).head?.any isLetter = false := by
  cases ms <;> rfl

/-- **An open value swallows the next key's quote**: a letter follows, or
the string does not end. -/
theorem wellQuoted_inside_rest (hflat : ∀ m ∈ ms, m.Flat) (hnamed : ∀ m ∈ ms, m.Named) :
    wellQuoted .inside (rest ms) = false := by
  cases ms with
  | nil => rfl
  | cons m ms =>
      have hplain : ∀ c ∈ byte ',' :: blanks m.sep, c ≠ byte '"' ∧ c ≠ byte '\\' :=
        List.forall_mem_cons.2 ⟨by decide, blanks_plain⟩
      have hletter := (hnamed m List.mem_cons_self).letter
      rw [rest, text_append, ← List.cons_append, wellQuoted_inside hplain, wellQuoted_closing]
      cases hkey : m.key with
      | nil => simp [hkey] at hletter
      | cons c key =>
          rw [hkey] at hletter
          rw [List.cons_append, List.head?_cons]
          rw [List.head?_cons] at hletter
          rw [hletter]
          rfl

/-- **A text whose strings are in order has no open value.** -/
theorem isOpen_eq_false_of_rest (hflat : ∀ m ∈ ms, m.Flat) (hnamed : ∀ m ∈ ms, m.Named)
    (h : wellQuoted .outside (rest ms) = true) : ∀ m ∈ ms, m.isOpen = false := by
  induction ms with
  | nil => exact fun m hm => absurd hm List.not_mem_nil
  | cons m ms ih =>
      obtain ⟨hm, hms⟩ := List.forall_mem_cons.1 hflat
      obtain ⟨hname, hnames⟩ := List.forall_mem_cons.1 hnamed
      have hcomma : wellQuoted .outside (rest (m :: ms)) =
          wellQuoted .outside (m.text ++ rest ms) := wellQuoted_plain (by decide) _
      rw [hcomma, wellQuoted_text hm hname (head?_rest_isLetter ms)] at h
      cases hopen : m.isOpen with
      | true =>
          rw [hopen, if_pos rfl, wellQuoted_inside_rest hms hnames] at h
          exact absurd h Bool.false_ne_true
      | false =>
          rw [hopen, if_neg Bool.false_ne_true] at h
          exact List.forall_mem_cons.2 ⟨hopen, ih hms hnames h⟩

theorem isOpen_eq_false_of_object (hflat : ∀ m ∈ ms, m.Flat) (hnamed : ∀ m ∈ ms, m.Named)
    (h : wellQuoted .outside (object ms) = true) : ∀ m ∈ ms, m.isOpen = false := by
  cases ms with
  | nil => exact fun m hm => absurd hm List.not_mem_nil
  | cons m ms => exact isOpen_eq_false_of_rest hflat hnamed h

theorem quote_notMem (h : ∀ c ∈ xs, c ≠ byte '"' ∧ c ≠ byte '\\') : byte '"' ∉ xs := fun hmem =>
  (h _ hmem).1 rfl

theorem head?_append_ne (h : byte '"' ∉ xs) (hne : xs ≠ []) :
    (xs ++ t).head? ≠ some (byte '"') := by
  cases xs with
  | nil => exact absurd rfl hne
  | cons c xs => exact fun hc => h (Option.some.inj hc ▸ List.mem_cons_self)

/-- Collapsing a value takes the closing quote of an empty string. -/
theorem collapseQuotes_valueText {u : Text} (hflat : m.Flat) (hu : u.head? ≠ some (byte '"')) :
    collapseQuotes (m.valueText ++ u) = m.thin.valueText ++ collapseQuotes u := by
  obtain ⟨sep, key, gap, value, closed⟩ := m
  cases value with
  | number text =>
      have htext : byte '"' ∉ text := fun h => (isNumeric_plain (hflat.value _ h)).1 rfl
      exact collapseQuotes_append htext
  | string content =>
      have hquote : collapseQuotes (byte '"' :: u) = byte '"' :: collapseQuotes u :=
        collapseQuotes_cons fun _ => hu
      cases content with
      | nil =>
          have hthin : (⟨sep, key, gap, .string [], closed⟩ : Member).thin =
              ⟨sep, key, gap, .string [], false⟩ := rfl
          -- the two quotes of an empty string stand together, and one of them goes
          rw [hthin, valueText_string, valueText_string]
          cases closed with
          | false => exact hquote
          | true => exact (collapseQuotes_quotes u).trans hquote
      | cons c content =>
          have hthin : (⟨sep, key, gap, .string (c :: content), closed⟩ : Member).thin =
              ⟨sep, key, gap, .string (c :: content), closed⟩ :=
            if_neg fun h => List.cons_ne_nil c content (FlatValue.string.inj h)
          -- the content keeps the quotes apart
          have hmem : byte '"' ∉ c :: content := quote_notMem hflat.value
          rw [hthin, valueText_string, valueText_string,
            collapseQuotes_cons fun _ => head?_append_ne hmem (List.cons_ne_nil c content),
            collapseQuotes_append hmem]
          cases closed with
          | false => rfl
          | true => rw [if_pos rfl, if_pos rfl, hquote]

/-- **Collapsing a member** does nothing else. -/
theorem collapseQuotes_text {u : Text} (hflat : m.Flat) (hkey : m.key ≠ [])
    (hu : u.head? ≠ some (byte '"')) :
    collapseQuotes (m.text ++ u) = m.thin.text ++ collapseQuotes u := by
  have hmem : byte '"' ∉ m.key := fun h => (hflat.key _ h).1 rfl
  have hcolon : ∀ t : Text, (byte ':' :: t).head? ≠ some (byte '"') := fun t h =>
    absurd (Option.some.inj h) (by decide)
  have hthin : m.thin.sep = m.sep ∧ m.thin.key = m.key ∧ m.thin.gap = m.gap := by
    unfold Member.thin
    split_ifs <;> exact ⟨rfl, rfl, rfl⟩
  rw [text_append, text_append, hthin.1, hthin.2.1, hthin.2.2,
    collapseQuotes_append (quote_notMem blanks_plain),
    collapseQuotes_cons fun _ => head?_append_ne hmem hkey, collapseQuotes_append hmem,
    collapseQuotes_cons fun _ => hcolon _, collapseQuotes_cons fun h => absurd h (by decide),
    collapseQuotes_append (quote_notMem blanks_plain), collapseQuotes_valueText hflat hu]

theorem collapseQuotes_rest (hflat : ∀ m ∈ ms, m.Flat) (hkey : ∀ m ∈ ms, m.key ≠ []) :
    collapseQuotes (rest ms) = rest (ms.map Member.thin) := by
  induction ms with
  | nil => rfl
  | cons m ms ih =>
      obtain ⟨hm, hms⟩ := List.forall_mem_cons.1 hflat
      obtain ⟨hne, hnes⟩ := List.forall_mem_cons.1 hkey
      rw [rest, collapseQuotes_cons fun h => absurd h (by decide),
        collapseQuotes_text hm hne (head?_rest ms (by decide) (by decide)), ih hms hnes]
      rfl

/-- **Collapsing a flat object** takes the closing quotes of its empty
strings. -/
theorem collapseQuotes_object (hflat : ∀ m ∈ ms, m.Flat) (hkey : ∀ m ∈ ms, m.key ≠ []) :
    collapseQuotes (object ms) = object (ms.map Member.thin) := by
  cases ms with
  | nil => rfl
  | cons m ms =>
      obtain ⟨hm, hms⟩ := List.forall_mem_cons.1 hflat
      obtain ⟨hne, hnes⟩ := List.forall_mem_cons.1 hkey
      rw [object, collapseQuotes_cons fun h => absurd h (by decide),
        collapseQuotes_text hm hne (head?_rest ms (by decide) (by decide)),
        collapseQuotes_rest hms hnes]
      rfl

end Text

end WebhookTrader
