import WebhookTrader.Webhook.DoubledQuotes

/-!
# Doubled bodies read as the bodies

A doubled body is read as the body where no two of its quotes stood
together. An empty string loses a quote in the second attempt: the rest of
the text is inside out, no parser takes it, and it is the third attempt
that may put the quote back, as it does in a flat object for every value
but the last. Of the parser no more is assumed than the grammar says.
-/

namespace WebhookTrader

namespace WebhookSignal

open Text

variable {j : Json} {now now' : ℕ}

/-! ## What is read, whenever it arrives -/

/-- The signal without its arrival time. -/
def undated (sig : WebhookSignal) : WebhookSignal := { sig with receivedAt := 0 }

/-- **The same is returned or raised**, up to the arrival time. -/
def Same (x y : Except Exception (Option WebhookSignal)) : Prop :=
  x.map (Option.map undated) = y.map (Option.map undated)

/-- What `from_json` does with the value it has parsed. -/
def readJson (j : Json) (now : ℕ) : Except Exception (Option WebhookSignal) :=
  if isSfx j then parseSfx j { receivedAt := now } else parseGeneric j { receivedAt := now }

theorem same_bind {α : Type} (x : Except Exception α)
    {f g : α → Except Exception (Option WebhookSignal)} (h : ∀ a, Same (f a) (g a)) :
    Same (x >>= f) (x >>= g) := by
  cases x with
  | error e => rfl
  | ok a => exact h a

theorem same_some {sig sig' : WebhookSignal} (h : sig.undated = sig'.undated) :
    Same (.ok (some sig)) (.ok (some sig')) := by
  show Except.ok (some sig.undated) = Except.ok (some sig'.undated)
  rw [h]

theorem undated_classify (sig : WebhookSignal) (n : ℕ) :
    (classify { sig with receivedAt := n }).undated = (classify sig).undated := by
  simp only [classify]
  split_ifs <;> rfl

theorem same_parseSfx (j : Json) (sig : WebhookSignal) (n : ℕ) :
    Same (parseSfx j { sig with receivedAt := n }) (parseSfx j sig) := by
  unfold parseSfx
  refine same_bind _ fun algorithm => ?_
  refine same_bind _ fun ticker => ?_
  refine same_bind _ fun tickerFull => ?_
  refine same_bind _ fun unixTime => ?_
  refine same_bind _ fun timestamp => ?_
  refine same_bind _ fun currency => ?_
  refine same_bind _ fun timeframe => ?_
  refine same_bind _ fun type => ?_
  refine same_bind _ fun alert => ?_
  refine same_bind _ fun signalDirection => ?_
  refine same_bind _ fun currentRating => ?_
  refine same_bind _ fun price => ?_
  refine same_bind _ fun secret => ?_
  refine same_bind _ fun token => ?_
  refine same_bind _ fun alertName => ?_
  refine same_bind _ fun strategyName => ?_
  refine same_some (Eq.trans ?_ (undated_classify _ n))
  simp only [detectExchangeMarket]
  split_ifs <;> rfl

theorem same_parseGeneric (j : Json) (sig : WebhookSignal) (n : ℕ) :
    Same (parseGeneric j { sig with receivedAt := n }) (parseGeneric j sig) := by
  unfold parseGeneric
  refine same_bind _ fun action => ?_
  refine same_bind _ fun symbol => ?_
  refine same_bind _ fun tradeSide => ?_
  refine same_bind _ fun price => ?_
  refine same_bind _ fun size => ?_
  refine same_bind _ fun tp1 => ?_
  refine same_bind _ fun tp => ?_
  refine same_bind _ fun sl => ?_
  refine same_bind _ fun secret => ?_
  refine same_bind _ fun token => ?_
  refine same_bind _ fun alertName => ?_
  refine same_bind _ fun strategyName => ?_
  exact same_some rfl

theorem same_readJson (j : Json) (now now' : ℕ) : Same (readJson j now) (readJson j now') := by
  unfold readJson
  split_ifs
  · exact (same_parseSfx j {} now).trans (same_parseSfx j {} now').symm
  · exact (same_parseGeneric j {} now).trans (same_parseGeneric j {} now').symm

/-- A reader returns a signal, or raises. -/
theorem readJson_ne_none (j : Json) (now : ℕ) : readJson j now ≠ .ok none := by
  intro h
  have hsome : ∀ r, readJson j now = .ok r → r ≠ none := by
    unfold readJson
    split_ifs
    · unfold parseSfx
      iterate 16 refine Json.forall_ok_bind fun _ => ?_
      rintro r ⟨⟩
      exact Option.some_ne_none _
    · unfold parseGeneric
      iterate 12 refine Json.forall_ok_bind fun _ => ?_
      rintro r ⟨⟩
      exact Option.some_ne_none _
  exact hsome none h rfl

/-! ## The parser -/

/-- The bytes that may stand before a value: white space, and those of a
byte order mark. -/
def isLead (b : UInt8) : Bool :=
  b = 32 || b = 9 || b = 10 || b = 13 || b = 239 || b = 187 || b = 191

/-- **What the JSON library's parser accepts**: the strings of a text are
in order; it is an object where it begins with a brace; and a key of it
that begins with a letter is a string that begins with a letter or an
escape. -/
structure StrictParser (parse : Text → Option Json) : Prop where
  wellQuoted : ∀ t j, parse t = some j → wellQuoted .outside t = true
  object : ∀ t j, parse t = some j →
    (j.isObject = true ↔ (t.dropWhile isLead).head? = some (byte '{'))
  key : ∀ t j key, parse t = some j → j.contains key = true →
    key.toList.head?.any Char.isAlpha = true →
      byte '\\' ∈ t ∨ ∃ c, isLetter c = true ∧ [byte '"', c] <:+: t

/-- **An object without named fields** is read as the empty one. -/
theorem readJson_of_nameless (hobj : j.isObject = true)
    (h : ∀ key : String, key.toList.head?.any Char.isAlpha = true → j.contains key = false) :
    readJson j now = readJson (.obj []) now := by
  have hfind : ∀ key : String, key.toList.head?.any Char.isAlpha = true → j.find? key = none :=
    fun key hkey => Option.not_isSome_iff_eq_none.1 (by rw [← Json.contains, h key hkey]; decide)
  have hvalue : ∀ {α : Type} (get : Json → Except Exception α) (key : String) (dflt : α),
      key.toList.head?.any Char.isAlpha = true → j.value get key dflt = .ok dflt := by
    intro α get key dflt hkey
    have hnone := hfind key hkey
    cases j with
    | obj fields =>
        unfold Json.find? at hnone
        simp only [Json.value, hnone]
    | _ => exact absurd hobj (by simp [Json.isObject])
  -- every field is read by its default, from the one as from the other
  have hstep : ∀ {α : Type} {get : Json → Except Exception α} {key : String} {dflt : α}
      {f g : α → Except Exception (Option WebhookSignal)},
      key.toList.head?.any Char.isAlpha = true → (∀ a, f a = g a) →
        j.value get key dflt >>= f = (Json.obj []).value get key dflt >>= g := by
    intro α get key dflt f g hkey hfg
    rw [hvalue get key dflt hkey]
    exact hfg dflt
  -- so it is no signal of an algorithm
  have hnot : isSfx j = false := by
    rw [isSfx, h "algorithm" (by decide +kernel), h "alert" (by decide +kernel)]
    rfl
  unfold readJson
  rw [hnot, if_neg Bool.false_ne_true]
  unfold parseGeneric
  rw [hfind "price" (by decide +kernel)]
  iterate 12 refine hstep (by decide +kernel) fun _ => ?_
  rfl

variable {parse : Text → Option Json} {body : Text}

/-! ## The three attempts -/

theorem fromJson_of_first (h : parse body = some j) : fromJson parse now body = readJson j now := by
  unfold fromJson attempts readJson
  rw [List.findSome?_cons, h]

theorem fromJson_of_second (hfirst : parse body = none)
    (h : parse (collapseQuotes body) = some j) : fromJson parse now body = readJson j now := by
  unfold fromJson attempts readJson
  rw [List.findSome?_cons, hfirst, List.findSome?_cons, h]

theorem fromJson_of_third (hfirst : parse body = none)
    (hsecond : parse (collapseQuotes body) = none)
    (h : parse (closeQuotes (collapseQuotes body)) = some j) :
    fromJson parse now body = readJson j now := by
  unfold fromJson attempts readJson
  rw [List.findSome?_cons, hfirst, List.findSome?_cons, hsecond, List.findSome?_cons, h]

theorem fromJson_of_none (hfirst : parse body = none)
    (hsecond : parse (collapseQuotes body) = none)
    (h : parse (closeQuotes (collapseQuotes body)) = none) :
    fromJson parse now body = .ok none := by
  unfold fromJson attempts
  rw [List.findSome?_cons, hfirst, List.findSome?_cons, hsecond, List.findSome?_cons, h]
  rfl

/-! ## Doubled bodies -/

/-- Doubling changes no byte that may stand before a value. -/
theorem dropWhile_doubleQuotes (t : Text) :
    (doubleQuotes t).dropWhile isLead = doubleQuotes (t.dropWhile isLead) := by
  induction t with
  | nil => rfl
  | cons c t ih =>
      cases hc : isLead c with
      | true =>
          have hquote : c ≠ byte '"' := fun h => absurd (h ▸ hc) (by decide)
          rw [doubleQuotes_cons hquote, List.dropWhile_cons_of_pos hc,
            List.dropWhile_cons_of_pos hc, ih]
      | false =>
          have hkeep : ∀ t, (c :: t).dropWhile isLead = c :: t := fun t =>
            List.dropWhile_cons_of_neg (by rw [hc]; decide)
          rw [hkeep]
          unfold doubleQuotes
          split_ifs <;> exact hkeep _

/-- **A doubled text that parses** has no named fields, and neither has
the text. -/
theorem same_of_parse_doubleQuotes (hparse : StrictParser parse) {j' : Json}
    (hb : parse body = some j) (hobj : j.isObject = true)
    (hdouble : parse (doubleQuotes body) = some j') (now now' : ℕ) :
    Same (readJson j' now') (readJson j now) := by
  obtain ⟨hback, hletter⟩ := of_wellQuoted_doubleQuotes (hparse.wellQuoted _ _ hdouble)
  have hobj' : j'.isObject = true := by
    rw [hparse.object _ _ hdouble, dropWhile_doubleQuotes, head?_doubleQuotes,
      ← hparse.object _ _ hb]
    exact hobj
  -- a named field would need a quote with a letter behind it
  have hnameless : ∀ key : String, key.toList.head?.any Char.isAlpha = true →
      j.contains key = false := by
    intro key hkey
    by_contra hcontains
    rcases hparse.key _ _ key hb (by simpa using hcontains) hkey with hmem | ⟨c, hc, hwithin⟩
    · exact hback hmem
    · exact hletter c hc hwithin
  have hnameless' : ∀ key : String, key.toList.head?.any Char.isAlpha = true →
      j'.contains key = false := by
    intro key hkey
    by_contra hcontains
    rcases hparse.key _ _ key hdouble (by simpa using hcontains) hkey with hmem | ⟨c, hc, hwithin⟩
    · exact hback (mem_doubleQuotes.1 hmem)
    · have hquote : c ≠ byte '"' := fun h => absurd (h ▸ hc) (by decide)
      exact hletter c hc (infix_of_infix_doubleQuotes hquote hwithin)
  rw [readJson_of_nameless hobj hnameless, readJson_of_nameless hobj' hnameless']
  exact same_readJson ..

/-- **The collapse takes nothing**, or what it takes is put back: the
parser refuses the collapsed text, and the repair of it gives the text
again. -/
def Unharmed (parse : Text → Option Json) (body : Text) : Prop :=
  ¬ Adjacent body ∨
    parse (collapseQuotes body) = none ∧ closeQuotes (collapseQuotes body) = body

theorem same_of_unharmed (hparse : StrictParser parse) (hb : parse body = some j)
    (hobj : j.isObject = true) (h : Unharmed parse body) (now now' : ℕ) :
    Same (fromJson parse now' (doubleQuotes body)) (fromJson parse now body) := by
  rw [fromJson_of_first hb]
  cases hdouble : parse (doubleQuotes body) with
  | some j' =>
      rw [fromJson_of_first hdouble]
      exact same_of_parse_doubleQuotes hparse hb hobj hdouble now now'
  | none =>
      have hcollapse := collapseQuotes_doubleQuotes body
      rcases h with hapart | ⟨hrefused, hrepaired⟩
      · rw [collapseQuotes_eq_self_iff.2 hapart] at hcollapse
        rw [fromJson_of_second hdouble (by rw [hcollapse, hb])]
        exact same_readJson ..
      · rw [fromJson_of_third hdouble (by rw [hcollapse, hrefused])
          (by rw [hcollapse, hrepaired, hb])]
        exact same_readJson ..

/-! ## Flat bodies -/

/-- **A plain flat object**: named members, every string closed. -/
def Plain (ms : List Member) : Prop := ∀ m ∈ ms, m.Flat ∧ m.Named ∧ m.closed = true

variable {m : Member} {ms : List Member}

/-- A doubled body with a name does not parse. -/
theorem parse_doubleQuotes_object (hparse : StrictParser parse) (h : Plain (m :: ms)) :
    parse (doubleQuotes (object (m :: ms))) = none := by
  rw [Option.eq_none_iff_forall_not_mem]
  intro j' hj'
  obtain ⟨-, hletter⟩ := of_wellQuoted_doubleQuotes (hparse.wellQuoted _ _ hj')
  have hname := (h m List.mem_cons_self).2.1.letter
  cases hkey : m.key with
  | nil => simp [hkey] at hname
  | cons c key =>
      rw [hkey] at hname
      refine hletter c hname ⟨byte '{' :: blanks m.sep, key ++ byte '"' :: byte ':' ::
        (blanks m.gap ++ (m.valueText ++ rest ms)), ?_⟩
      rw [object, text_append, hkey]
      simp

/-- An open value is refused. -/
theorem parse_object_of_open (hparse : StrictParser parse) (hflat : ∀ m ∈ ms, m.Flat)
    (hnamed : ∀ m ∈ ms, m.Named) (hopen : ∃ m ∈ ms, m.isOpen = true) :
    parse (object ms) = none := by
  rw [Option.eq_none_iff_forall_not_mem]
  intro j' hj'
  obtain ⟨m, hm, hopen⟩ := hopen
  have hclosed := isOpen_eq_false_of_object hflat hnamed (hparse.wellQuoted _ _ hj') m hm
  exact Bool.false_ne_true (hclosed.symm.trans hopen)

theorem forall_mem_thin {P : Member → Prop} (hP : ∀ m, P m → P m.thin) (h : ∀ m ∈ ms, P m) :
    ∀ m ∈ ms.map Member.thin, P m := by
  intro m hm
  obtain ⟨m', hm', rfl⟩ := List.mem_map.1 hm
  exact hP m' (h m' hm')

theorem closed_getLast?_thin
    (h : ∀ m ∈ ms.getLast?, m.closed = true ∧ m.value ≠ .string []) :
    ∀ m ∈ (ms.map Member.thin).getLast?, m.closed = true := by
  rw [List.getLast?_map]
  intro m hm
  obtain ⟨m', hm', rfl⟩ := Option.mem_map.1 hm
  rw [Member.thin_of_ne (h m' hm').2]
  exact (h m' hm').1

theorem map_close_thin (ms : List Member) :
    (ms.map Member.thin).map Member.close = ms.map Member.close := by
  rw [List.map_map]
  exact List.map_congr_left fun m _ => m.close_thin

/-- **A flat body with closing quotes missing**, or with empty values in it
that lose them, is read as the body that has them, where the last value is
not empty and has its own. -/
theorem fromJson_object (hparse : StrictParser parse) (hflat : ∀ m ∈ ms, m.Flat)
    (hnamed : ∀ m ∈ ms, m.Named)
    (hlast : ∀ m ∈ ms.getLast?, m.closed = true ∧ m.value ≠ .string [])
    (hj : parse (object (ms.map Member.close)) = some j) :
    fromJson parse now (object ms) = readJson j now := by
  by_cases hopen : ∃ m ∈ ms, m.isOpen = true
  · have hflat' : ∀ m ∈ ms.map Member.thin, m.Flat := forall_mem_thin (fun _ => .thin) hflat
    have hnamed' : ∀ m ∈ ms.map Member.thin, m.Named := forall_mem_thin (fun _ => .thin) hnamed
    have hcollapse := collapseQuotes_object hflat fun m hm => (hnamed m hm).key_ne_nil
    refine fromJson_of_third (parse_object_of_open hparse hflat hnamed hopen) ?_ ?_
    · obtain ⟨m, hm, hopen⟩ := hopen
      rw [hcollapse]
      exact parse_object_of_open hparse hflat' hnamed'
        ⟨m.thin, List.mem_map_of_mem hm, Member.isOpen_thin_of_isOpen hopen⟩
    · rw [hcollapse, closeQuotes_object_eq hflat', mend_eq_map (closed_getLast?_thin hlast),
        map_close_thin, hj]
  · have hclosed : ∀ m ∈ ms, m.isOpen = false := fun m hm =>
      Bool.eq_false_iff.2 fun h => hopen ⟨m, hm, h⟩
    rw [object_map_close hclosed] at hj
    exact fromJson_of_first hj

/-- **A last value that is not empty**: the collapse takes nothing, or the
third attempt puts it back. -/
theorem unharmed_object (hparse : StrictParser parse) (h : Plain ms)
    (hlast : ∀ m ∈ ms.getLast?, m.value ≠ .string []) : Unharmed parse (object ms) := by
  have hflat : ∀ m ∈ ms, m.Flat := fun m hm => (h m hm).1
  have hnamed : ∀ m ∈ ms, m.Named := fun m hm => (h m hm).2.1
  have hcollapse := collapseQuotes_object hflat fun m hm => (hnamed m hm).key_ne_nil
  by_cases hempty : ∃ m ∈ ms, m.value = .string []
  · obtain ⟨m, hm, hvalue⟩ := hempty
    have hthin := closed_getLast?_thin fun m hm =>
      ⟨(h m (List.mem_of_getLast? hm)).2.2, hlast m hm⟩
    have hsame : ms.map Member.close = ms :=
      (List.map_congr_left fun m hm => Member.close_eq_self (h m hm).2.2).trans (List.map_id ms)
    have hflat' : ∀ m ∈ ms.map Member.thin, m.Flat := forall_mem_thin (fun _ => .thin) hflat
    have hnamed' : ∀ m ∈ ms.map Member.thin, m.Named := forall_mem_thin (fun _ => .thin) hnamed
    refine .inr ⟨?_, ?_⟩
    · rw [hcollapse]
      exact parse_object_of_open hparse hflat' hnamed'
        ⟨m.thin, List.mem_map_of_mem hm, Member.isOpen_thin hvalue⟩
    · rw [hcollapse, closeQuotes_object_eq hflat', mend_eq_map hthin, map_close_thin, hsame]
  · have hsame : ms.map Member.thin = ms :=
      (List.map_congr_left fun m hm => Member.thin_of_ne fun hvalue =>
        hempty ⟨m, hm, hvalue⟩).trans (List.map_id ms)
    rw [hsame] at hcollapse
    exact .inl (collapseQuotes_eq_self_iff.1 hcollapse)

/-- **A last value that is empty** is lost, and the body with it. -/
theorem fromJson_of_last_empty (hparse : StrictParser parse) (h : Plain ms)
    (hlast : ∃ m ∈ ms.getLast?, m.value = .string []) :
    fromJson parse now (doubleQuotes (object ms)) = .ok none := by
  have hflat : ∀ m ∈ ms, m.Flat := fun m hm => (h m hm).1
  have hnamed : ∀ m ∈ ms, m.Named := fun m hm => (h m hm).2.1
  have hcollapse := collapseQuotes_object hflat fun m hm => (hnamed m hm).key_ne_nil
  obtain ⟨m, hm, hvalue⟩ := hlast
  have hflat' : ∀ m ∈ ms.map Member.thin, m.Flat := forall_mem_thin (fun _ => .thin) hflat
  have hnamed' : ∀ m ∈ ms.map Member.thin, m.Named := forall_mem_thin (fun _ => .thin) hnamed
  have hopen := Member.isOpen_thin hvalue
  have hmem : m.thin ∈ (ms.map Member.thin).getLast? := by
    rw [List.getLast?_map]
    exact Option.mem_map_of_mem _ hm
  -- the third attempt leaves the last value open, as the second has made it
  refine fromJson_of_none ?_ ?_ ?_
  · cases ms with
    | nil => cases hm
    | cons m' ms => exact parse_doubleQuotes_object hparse h
  · rw [collapseQuotes_doubleQuotes, hcollapse]
    exact parse_object_of_open hparse hflat' hnamed' ⟨m.thin, List.mem_of_getLast? hmem, hopen⟩
  · rw [collapseQuotes_doubleQuotes, hcollapse, closeQuotes_object_eq hflat']
    refine parse_object_of_open hparse ?_ ?_ ⟨m.thin, ?_, hopen⟩
    · intro m hm
      rcases exists_of_mem_mend hm with hmem | ⟨m', hmem, rfl⟩
      · exact hflat' m hmem
      · exact ⟨(hflat' m' hmem).key, (hflat' m' hmem).value⟩
    · intro m hm
      rcases exists_of_mem_mend hm with hmem | ⟨m', hmem, rfl⟩
      · exact hnamed' m hmem
      · exact ⟨(hnamed' m' hmem).letter, (hnamed' m' hmem).backslash⟩
    · exact List.mem_of_getLast? (by rw [getLast?_mend]; exact hmem)

/-- **When a doubled body is read as the body.** It is where no two quotes
of the body stand together, and where the third attempt puts back what the
second has taken; of a plain flat object, just where the last value is not
the empty string. -/
theorem undoubled (hparse : StrictParser parse) (hb : parse body = some j)
    (hobj : j.isObject = true) (now now' : ℕ) :
    (Unharmed parse body →
      Same (fromJson parse now' (doubleQuotes body)) (fromJson parse now body)) ∧
    ∀ ms, body = object ms → Plain ms →
      (Same (fromJson parse now' (doubleQuotes body)) (fromJson parse now body) ↔
        ∀ m ∈ ms.getLast?, m.value ≠ .string []) := by
  have hunharmed := fun h => same_of_unharmed hparse hb hobj h now now'
  refine ⟨hunharmed, ?_⟩
  rintro ms rfl hplain
  refine ⟨fun hsame m hm hvalue => ?_, fun hlast => hunharmed (unharmed_object hparse hplain hlast)⟩
  rw [fromJson_of_last_empty hparse hplain ⟨m, hm, hvalue⟩, fromJson_of_first hb, Same] at hsame
  -- nothing is returned of the one, and of the other a signal, or it raises
  have hnone := readJson_ne_none j now
  cases hread : readJson j now with
  | error e => rw [hread] at hsame; cases hsame
  | ok r =>
      cases r with
      | none => exact hnone hread
      | some sig => rw [hread] at hsame; cases hsame

/-! ## Empty tokens -/

/-- A parser that knows one text. -/
def onlyParses (text : Text) (j : Json) : Text → Option Json := fun t =>
  if t = text then some j else none

theorem strictParser_onlyParses {text : Text} (hquoted : wellQuoted .outside text = true)
    (hobj : j.isObject = true) (hhead : (text.dropWhile isLead).head? = some (byte '{'))
    (hletter : ∃ c, isLetter c = true ∧ [byte '"', c] <:+: text) :
    StrictParser (onlyParses text j) := by
  have honly : ∀ t j', onlyParses text j t = some j' → t = text ∧ j = j' := by
    intro t j' h
    unfold onlyParses at h
    split_ifs at h with ht
    exact ⟨ht, Option.some.inj h⟩
  constructor
  · intro t j' h
    rw [(honly t j' h).1]
    exact hquoted
  · intro t j' h
    rw [(honly t j' h).1, ← (honly t j' h).2]
    exact iff_of_true hobj hhead
  · intro t j' key h _ _
    rw [(honly t j' h).1]
    exact .inr hletter

/-- An entry with an empty token. -/
def emptyToken : Member := { key := "token".toList.map byte, value := .string [] }

def buyAlert : Member :=
  { key := "alert".toList.map byte, value := .string ("BUY".toList.map byte) }

/-- The token comes first. -/
def tokenFirst : Text := object [emptyToken, buyAlert]

/-- The token comes last. -/
def tokenLast : Text := object [buyAlert, emptyToken]

def tokenJson : Json := .obj [("token", .str ""), ("alert", .str "BUY")]

theorem emptyToken_plain : emptyToken.Flat ∧ emptyToken.Named ∧ emptyToken.closed = true := by
  have hvalue : ∀ b ∈ ([] : Text), b ≠ byte '"' ∧ b ≠ byte '\\' := fun b hb =>
    absurd hb List.not_mem_nil
  exact ⟨⟨by decide +kernel, hvalue⟩, ⟨by decide +kernel, by decide +kernel⟩, rfl⟩

theorem buyAlert_plain : buyAlert.Flat ∧ buyAlert.Named ∧ buyAlert.closed = true := by
  have hvalue : ∀ b ∈ "BUY".toList.map byte, b ≠ byte '"' ∧ b ≠ byte '\\' := by decide +kernel
  exact ⟨⟨by decide +kernel, hvalue⟩, ⟨by decide +kernel, by decide +kernel⟩, rfl⟩

theorem tokenFirst_strict : StrictParser (onlyParses tokenFirst tokenJson) :=
  strictParser_onlyParses (by decide +kernel) rfl (by decide +kernel)
    ⟨byte 't', by decide +kernel, by decide +kernel⟩

theorem tokenLast_strict : StrictParser (onlyParses tokenLast tokenJson) :=
  strictParser_onlyParses (by decide +kernel) rfl (by decide +kernel)
    ⟨byte 'a', by decide +kernel, by decide +kernel⟩

theorem undoubled_tokenFirst :
    Same (fromJson (onlyParses tokenFirst tokenJson) 1 (doubleQuotes tokenFirst))
      (fromJson (onlyParses tokenFirst tokenJson) 0 tokenFirst) := by
  have h := (undoubled tokenFirst_strict (if_pos rfl) rfl 0 1).2 [emptyToken, buyAlert] rfl
    (List.forall_mem_cons.2 ⟨emptyToken_plain, List.forall_mem_singleton.2 buyAlert_plain⟩)
  exact h.2 (by decide +kernel)

/-- **An empty token at the end of a doubled body** loses the body. -/
theorem tokenLast_lost :
    ¬ ∀ (parse : Text → Option Json) (body : Text) (j : Json) (now now' : ℕ),
      StrictParser parse → parse body = some j → j.isObject = true →
        Same (fromJson parse now' (doubleQuotes body)) (fromJson parse now body) := by
  intro h
  have hsame := h (onlyParses tokenLast tokenJson) tokenLast tokenJson 0 0 tokenLast_strict
    (if_pos rfl) rfl
  have hlost : fromJson (onlyParses tokenLast tokenJson) 0 (doubleQuotes tokenLast) = .ok none :=
    fromJson_of_last_empty tokenLast_strict
      (List.forall_mem_cons.2 ⟨buyAlert_plain, List.forall_mem_singleton.2 emptyToken_plain⟩)
      ⟨emptyToken, rfl, rfl⟩
  rw [hlost, fromJson_of_first (if_pos rfl), Same] at hsame
  cases hsame

end WebhookSignal

end WebhookTrader
