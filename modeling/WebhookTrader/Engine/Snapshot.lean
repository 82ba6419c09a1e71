import WebhookTrader.Engine.Books
import Mathlib.Algebra.Order.BigOperators.Group.List

/-!
# Which responses leave the book alone

A sync gives up where the code is not a success and where an accessor
raises. Everything else it takes for the whole of what the exchange
holds: a response without data, a row without a side or with a total that
does not convert is a position that is gone, and a real entry of it is
removed.
-/

namespace WebhookTrader

namespace Snapshot

variable {resp pos : Json} {rows : List ExchangePosition}

/-! ## Well-formed responses -/

/-- The exponent of a decimal number, to the end of the text. -/
def isExponent : List Char → Bool
  | [] => true
  | c :: cs =>
      let ds := (Cxx.sign cs).2
      (c = 'e' || c = 'E') && !ds.isEmpty && ds.all Char.isDigit

/-- A text that is a decimal number from end to end. -/
def isNumericText (s : String) : Bool :=
  let number := Cxx.mantissa 10 Char.isDigit (Cxx.sign s.toList).2
  number.2.1 && isExponent number.2.2

/-- A number or a numeric string. -/
def isNumeric : Json → Bool
  | .str s => isNumericText s
  | j => j.isNumber

/-- **A well-formed row**: a symbol, a side and three numbers. -/
structure WellFormedRow (pos : Json) : Prop where
  symbol : ∃ s, pos.find? "symbol" = some (.str s)
  holdSide : ∃ s, pos.find? "holdSide" = some (.str s)
  numbers : ∀ key ∈ ["total", "averageOpenPrice", "leverage"],
    ∃ v, pos.find? key = some v ∧ isNumeric v = true

/-- **A well-formed success**: the code of a success and an array of
well-formed rows. -/
def WellFormed (resp : Json) : Prop :=
  resp.find? "code" = some (.str "00000") ∧
    ∃ data, resp.find? "data" = some (.arr data) ∧ ∀ pos ∈ data, WellFormedRow pos

/-! ## Refused responses -/

/-- A row whose symbol and side the accessors can read: both are strings
where they are there at all. -/
structure ReadableRow (pos : Json) : Prop where
  object : pos.isObject = true
  symbol : ∀ v, pos.find? "symbol" = some v → v.isString = true
  holdSide : ∀ v, pos.find? "holdSide" = some v → v.isString = true

/-- **A response the sync gives up on**: its code is not that of a success,
or a row of its data cannot be read. -/
def Refused (resp : Json) : Prop :=
  resp.find? "code" ≠ some (.str "00000") ∨
    ∃ data, resp.find? "data" = some (.arr data) ∧ ∃ pos ∈ data, ¬ ReadableRow pos

theorem reads_parseRow : Json.Reads (parseRow pos) ↔ ReadableRow pos := by
  have hsymbol := @Json.reads_value _ Json.getString pos "symbol" ""
  have hside := @Json.reads_value _ Json.getString pos "holdSide" ""
  simp only [Json.reads_getString] at hsymbol hside
  rw [parseRow, Json.reads_bind]
  constructor
  · rintro ⟨symbol, hs, hrest⟩
    obtain ⟨side, hh, -⟩ := Json.reads_bind.1 hrest
    obtain ⟨hobject, hstring⟩ := hsymbol.1 ⟨symbol, hs⟩
    exact ⟨hobject, hstring, (hside.1 ⟨side, hh⟩).2⟩
  · intro h
    obtain ⟨symbol, hs⟩ := hsymbol.2 ⟨h.object, h.symbol⟩
    obtain ⟨side, hh⟩ := hside.2 ⟨h.object, h.holdSide⟩
    exact ⟨symbol, hs, Json.reads_bind.2 ⟨side, hh, Json.reads_pure _⟩⟩

/-- The code of a success, as it is read. -/
theorem value_code : resp.value Json.getString "code" "99999" = .ok "00000" ↔
    resp.find? "code" = some (.str "00000") := by
  cases resp with
  | obj fields =>
      cases hcode : fields.lookup "code" with
      | none => simp [Json.value, Json.find?, hcode]
      | some v => cases v <;> simp [Json.value, Json.find?, hcode, Json.getString]
  | _ => simp [Json.value, Json.find?]

/-- Rows are read of a success only. -/
theorem code_of_parse (h : parse resp = .ok (some rows)) :
    resp.find? "code" = some (.str "00000") := by
  rw [← value_code]
  unfold parse at h
  cases hcode : resp.value Json.getString "code" "99999" with
  | error e =>
      rw [hcode] at h
      cases h
  | ok code =>
      rw [hcode] at h
      by_cases hsuccess : code = "00000"
      · rw [hsuccess]
      · have hnone : parse resp = .ok none := by
          unfold parse
          rw [hcode]
          exact if_neg hsuccess
        have hsome : parse resp = .ok (some rows) := by
          unfold parse
          rw [hcode]
          exact h
        rw [hnone] at hsome
        cases hsome

/-- Of a success, the array of data is read row by row. -/
theorem parse_of_code (h : resp.find? "code" = some (.str "00000")) :
    parse resp =
      match resp.find? "data" with
      | some (.arr data) => some <$> data.mapM parseRow
      | _ => .ok (some []) := by
  unfold parse
  rw [value_code.2 h]
  rfl

/-- **What is not refused is read**, as some rows. -/
theorem exists_rows_iff : (∃ rows, parse resp = .ok (some rows)) ↔ ¬ Refused resp := by
  rw [Refused, not_or, not_not]
  constructor
  · rintro ⟨rows, hrows⟩
    have hcode := code_of_parse hrows
    refine ⟨hcode, ?_⟩
    rintro ⟨data, hdata, pos, hpos, hunreadable⟩
    rw [parse_of_code hcode, hdata] at hrows
    refine hunreadable (reads_parseRow.1 (Json.reads_mapM.1 ?_ pos hpos))
    cases hread : data.mapM parseRow with
    | error e =>
        simp only [hread] at hrows
        cases hrows
    | ok rows' => exact Json.reads_ok rows'
  · rintro ⟨hcode, hdata⟩
    rw [parse_of_code hcode]
    split
    · rename_i data harr
      have hall : ∀ pos ∈ data, ReadableRow pos := by
        intro pos hpos
        by_contra hunreadable
        exact hdata ⟨data, harr, pos, hpos, hunreadable⟩
      obtain ⟨rows, hrows⟩ :=
        Json.reads_mapM.2 fun pos hpos => reads_parseRow.2 (hall pos hpos)
      exact ⟨rows, by rw [hrows]; rfl⟩
    · exact ⟨[], rfl⟩

end Snapshot

/-! ## When no book is harmed -/

namespace Book

variable {resp : Json} {rows : List ExchangePosition} {now : Clock} {book : Book}
  {key : PositionKey} {p : ManagedPosition}

/-- A refused response leaves every book alone. -/
theorem syncWith_of_refused (h : Snapshot.Refused resp) : book.syncWith now resp = book := by
  rw [syncWith]
  split
  · rename_i rows hrows
    exact (Snapshot.exists_rows_iff.1 ⟨rows, hrows⟩ h).elim
  · rfl

/-- **A real position that is not among the rows is gone**, whatever the
response they were read from. -/
theorem syncWith_removes (hbook : book.Filed) (hrows : Snapshot.parse resp = .ok (some rows))
    (hreal : p.isReal = true) (hnone : ∀ row ∈ rows, (row.symbol, row.holdSide) ≠ p.tag) :
    (book.syncWith now resp).lookup key ≠ some p := by
  intro hleft
  rw [syncWith, hrows] at hleft
  have hfree : (ExchangeMap.ofRows rows).holds p.tag = false := by
    by_contra hheld
    rw [Bool.not_eq_false] at hheld
    obtain ⟨row, hrow, htag, -⟩ := ExchangeMap.holds_ofRows hheld
    exact hnone row hrow htag
  exact stays_of_mem_reconcile hbook (ExchangeMap.keyed_ofRows rows)
    (AList.mem_lookup_iff.1 hleft) hfree (.inl hreal)

/-- A symbol that no row has. -/
def freshSymbol (rows : List ExchangePosition) : String :=
  String.ofList (List.replicate ((rows.map fun row => row.symbol.length).sum + 1) 'X')

theorem symbol_ne_freshSymbol {row : ExchangePosition} (hrow : row ∈ rows) :
    row.symbol ≠ freshSymbol rows := by
  intro heq
  have hle : row.symbol.length ≤ (rows.map fun row => row.symbol.length).sum :=
    List.single_le_sum (fun _ _ => Nat.zero_le _) _ (List.mem_map_of_mem hrow)
  have hlength := congrArg String.length heq
  simp only [freshSymbol, String.length_ofList, List.length_replicate] at hlength
  omega

/-- **Whatever rows are read**, a book the engine produces is harmed: one with
a position of another symbol. -/
theorem exists_harmed (now : Clock) (hrows : Snapshot.parse resp = .ok (some rows)) :
    ∃ book, Produced book ∧ book.syncWith now resp ≠ book := by
  refine ⟨importedBook (freshSymbol rows), produced_importedBook _, fun hsame => ?_⟩
  have hempty : Filed ∅ := Produced.empty.filed
  have hsided : (ExchangeMap.ofRows [holdingRow (freshSymbol rows) "long"]).Sided :=
    ExchangeMap.sided_ofRows fun row hrow => by
      obtain rfl := List.mem_singleton.1 hrow
      exact .inl rfl
  have hagrees := inSync_reconcile {} hempty (ExchangeMap.keyed_ofRows _) hsided
  have hname : freshSymbol rows ≠ "" := by
    intro heq
    have hlength := congrArg String.length heq
    simp [freshSymbol] at hlength
  have hrow : holdingRow (freshSymbol rows) "long" ∈ [holdingRow (freshSymbol rows) "long"] :=
    List.mem_cons_self
  have hheld : (ExchangeMap.ofRows [holdingRow (freshSymbol rows) "long"]).holds
      (freshSymbol rows, "long") = true :=
    ExchangeMap.holds_of_mem hrow hname (by rw [holdingRow]; norm_num)
  obtain ⟨e, he, htag⟩ := hagrees.held _ hheld
  have hreal := hagrees.real e he (htag ▸ hheld)
  have hthere : (importedBook (freshSymbol rows)).lookup e.1 = some e.2 := by
    rw [importedBook, syncWith, parse_holdingResponse]
    exact AList.mem_lookup_iff.2 he
  -- the imported entry is real, and no row of the response is of its symbol
  refine syncWith_removes (produced_importedBook _).filed hrows hreal ?_ (hsame ▸ hthere)
  intro row hrow heq
  exact symbol_ne_freshSymbol hrow (congrArg Prod.fst (heq.trans htag))

/-- **When a bad response harms no book.** For every JSON value: just where
it is well formed after all, or the sync gives up on it. -/
theorem unharmed_iff (resp : Json) :
    (¬ Snapshot.WellFormed resp → ∀ now book, Book.syncWith now resp book = book) ↔
      Snapshot.WellFormed resp ∨ Snapshot.Refused resp := by
  constructor
  · intro hall
    by_contra hcon
    rw [not_or] at hcon
    obtain ⟨rows, hrows⟩ := Snapshot.exists_rows_iff.2 hcon.2
    obtain ⟨book, -, hharmed⟩ := exists_harmed {} hrows
    exact hharmed (hall hcon.1 {} book)
  · rintro (hwell | hrefused) hbad now book
    · exact (hbad hwell).elim
    · exact syncWith_of_refused hrefused

/-- **A success without data empties the book.** The response has the code of
a success and nothing else, and an imported bitcoin position is gone. -/
theorem missing_data_removes :
    ¬ (¬ Snapshot.WellFormed (.obj [("code", .str "00000")]) →
        ∀ now book, Book.syncWith now (.obj [("code", .str "00000")]) book = book) := by
  intro hall
  have hbad : ¬ Snapshot.WellFormed (.obj [("code", .str "00000")]) := by
    rintro ⟨-, data, hdata, -⟩
    cases hdata
  have hsame := congrArg (fun b : Book => b.entries.length) (hall hbad {} (importedBook "BTCUSDT"))
  exact absurd hsame (by decide +kernel)

end Book

end WebhookTrader
