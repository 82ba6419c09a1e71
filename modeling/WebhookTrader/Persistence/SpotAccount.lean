import WebhookTrader.Engine.SpotCash
import WebhookTrader.Persistence.Model.SpotAccount
import WebhookTrader.Persistence.StateFile

/-!
# What the spot account holds

Every position of the account is a long one in a won pair, none is under
another one's key or beside another one of its symbol and exchange, and
none has cost more than one buy. So the file has each of them, and a
restart finds each of them: what it drops for the currency is nothing.
-/

namespace WebhookTrader

/-! ## Keys and their texts -/

namespace PositionKey

/-- What stands behind the last underscore. -/
def tail (cs : List Char) : List Char := cs.reverse.takeWhile (· ≠ '_')

theorem tail_append {ds : List Char} (xs : List Char) (h : '_' ∉ ds) :
    tail (xs ++ '_' :: ds) = ds.reverse := by
  have hall : ∀ c ∈ ds.reverse, (fun c : Char => decide (c ≠ '_')) c = true := by
    intro c hc
    refine decide_eq_true fun heq => h ?_
    rw [← heq]
    exact List.mem_reverse.1 hc
  rw [tail, List.reverse_append, List.reverse_cons, List.append_assoc,
    List.takeWhile_append_of_pos hall]
  simp

theorem tail_entry (symbol timeframe : String) (oid : ℕ) :
    tail (entry symbol timeframe oid).text.toList = (Nat.toDigits 10 oid).reverse := by
  have htext : (entry symbol timeframe oid).text.toList =
      (symbol ++ "_" ++ timeframe).toList ++ '_' :: Nat.toDigits 10 oid := by
    rw [text, String.toList_append, String.toList_append, List.append_assoc]
    congr 1
    show "_".toList ++ oid.repr.toList = _
    rw [Nat.toList_repr]
    rfl
  rw [htext, tail_append _ Nat.underscore_not_in_toDigits]

theorem tail_ext (symbol side : String) : tail (ext symbol side).text.toList = ['t', 'x', 'e'] := by
  have htext : (ext symbol side).text.toList =
      (symbol ++ "_" ++ side).toList ++ '_' :: "ext".toList := by
    rw [text, String.toList_append]
    rfl
  rw [htext, tail_append _ (by decide)]
  rfl

/-- **A text tells the order number**: a key with the text of an entry's is
an entry's of the same number. -/
theorem entry_of_text {key : PositionKey} {symbol timeframe : String} {oid : ℕ}
    (h : key.text = (entry symbol timeframe oid).text) :
    ∃ symbol' timeframe', key = entry symbol' timeframe' oid := by
  have htail : tail key.text.toList = (Nat.toDigits 10 oid).reverse := by rw [h, tail_entry]
  cases key with
  | entry symbol' timeframe' oid' =>
      rw [tail_entry] at htail
      have hdigits : Nat.toDigits 10 oid' = Nat.toDigits 10 oid := List.reverse_injective htail
      have hoid : oid' = oid := by
        rw [← Nat.ofDigitChars_ten_toDigits (n := oid'), hdigits, Nat.ofDigitChars_ten_toDigits]
      exact ⟨symbol', timeframe', hoid ▸ rfl⟩
  | ext symbol' side =>
      rw [tail_ext] at htail
      have hmem : 'e' ∈ Nat.toDigits 10 oid := by
        rw [← List.mem_reverse, ← htail]
        decide
      exact absurd (Nat.isDigit_of_mem_toDigits (by decide) (by decide) hmem) (by decide)

end PositionKey

/-! ## What the account holds -/

/-- **A position of the spot account.** -/
structure ManagedPosition.IsSpot (p : ManagedPosition) : Prop where
  quote : spotQuoteCurrency p.symbol = "KRW"
  side : p.side = "long"
  marketType : p.marketType = "spot"
  leverage : p.leverage = 1
  isReal : p.isReal = false
  cost : p.entryPrice * p.quantity ≤ SpotAccount.tradeKrw

namespace ManagedPosition.IsSpot

variable {p : ManagedPosition}

theorem restored_eq (h : p.IsSpot) : p.restored = { p with openedAt := 0 } := by
  rw [ManagedPosition.restored, h.leverage]
  congr 1

theorem restored (h : p.IsSpot) : p.restored.IsSpot := by
  rw [h.restored_eq]
  exact ⟨h.quote, h.side, h.marketType, h.leverage, h.isReal, h.cost⟩

/-- A second restart loses nothing more. -/
theorem restored_restored (h : p.IsSpot) : p.restored.restored = p.restored := by
  rw [h.restored.restored_eq, h.restored_eq]

end ManagedPosition.IsSpot

/-- **The spot account's book**: its positions are the account's own, each
under a text and each for a symbol on an exchange of its own. -/
structure SpotBook (book : Book) : Prop where
  spot : ∀ e ∈ book.entries, e.2.IsSpot
  texts : (book.keys.map PositionKey.text).Nodup
  unique : book.UniqueBy fun p => (p.symbol, p.exchange)

namespace SpotBook

variable {book : Book} {key : PositionKey} {pos : ManagedPosition}

theorem empty : SpotBook ∅ := ⟨fun _ he => absurd he List.not_mem_nil, List.nodup_nil, by simp⟩

theorem insert (h : SpotBook book) (hpos : pos.IsSpot)
    (htext : key.text ∉ book.keys.map PositionKey.text)
    (hapart : ∀ e ∈ book.entries, (e.2.symbol, e.2.exchange) ≠ (pos.symbol, pos.exchange)) :
    SpotBook (book.insert key pos) := by
  refine ⟨fun e he => ?_, ?_, h.unique.insert fun e he _ => hapart e he⟩
  · rcases Table.mem_insert.1 he with rfl | ⟨-, hold⟩
    · exact hpos
    · exact h.spot e hold
  · rw [AList.keys_insert, List.map_cons, List.nodup_cons]
    have hsub : ((book.keys.erase key).map PositionKey.text).Sublist
        (book.keys.map PositionKey.text) := (List.erase_sublist).map _
    exact ⟨fun hmem => htext (hsub.subset hmem), h.texts.sublist hsub⟩

theorem erase (h : SpotBook book) : SpotBook (book.erase key) := by
  refine ⟨fun e he => h.spot e (Table.mem_erase.1 he).2, ?_, h.unique.erase⟩
  rw [AList.keys_erase]
  exact h.texts.sublist ((List.erase_sublist).map _)

/-- A sale of less than a position has. -/
theorem reduce (h : SpotBook book) {closeQty : ℚ} (hqty : 0 ≤ closeQty)
    (hprice : ∀ e ∈ book.entries, 0 ≤ e.2.entryPrice) :
    SpotBook (book.modify key fun p => { p with quantity := p.quantity - closeQty }) := by
  refine ⟨fun e he => ?_, ?_, h.unique.mapValues fun e _ => ?_⟩
  · obtain ⟨e₀, hmem, rfl⟩ := Table.mem_modify.1 he
    have hspot := h.spot e₀ hmem
    dsimp only
    split_ifs
    · refine ⟨hspot.quote, hspot.side, hspot.marketType, hspot.leverage, hspot.isReal, ?_⟩
      have hsold : 0 ≤ e₀.2.entryPrice * closeQty := mul_nonneg (hprice e₀ hmem) hqty
      have hcost := hspot.cost
      show e₀.2.entryPrice * (e₀.2.quantity - closeQty) ≤ _
      rw [mul_sub]
      linarith
    · exact hspot
  · rw [Table.modify, Table.keys_mapValues]
    exact h.texts
  · split_ifs <;> rfl

end SpotBook

/-! ## A section of a spot handler -/

namespace SpotAccount

variable {acc acc' : SpotAccount} {sig : WebhookSignal} {pos : ManagedPosition} {nextOid : ℕ}

/-- The position a buy opens. -/
def bought (sig : WebhookSignal) (system : ℕ) : ManagedPosition where
  symbol := sig.symbol
  timeframe := timeframe sig
  side := "long"
  entryPrice := sig.price
  quantity := buyQty sig
  leverage := 1
  slPrice := if sig.hasSl then sig.sl else 0
  tp1Price := if sig.hasTp1 then sig.tp1 else 0
  tier := "C"
  strategy := sig.strategyName
  openedAt := system
  exchange := sig.exchange
  marketType := "spot"

/-- A buy costs what it is meant to cost. -/
theorem cost_bought (hqty : 0 < buyQty sig) (system : ℕ) :
    (bought sig system).entryPrice * (bought sig system).quantity = tradeKrw := by
  have hprice : 0 < sig.price := price_pos_of_buyQty hqty
  show sig.price * buyQty sig = tradeKrw
  rw [buyQty, if_pos hprice]
  exact mul_div_cancel₀ _ hprice.ne'

theorem isSpot_bought (hquote : spotQuoteCurrency sig.symbol = "KRW") (hqty : 0 < buyQty sig)
    (system : ℕ) : (bought sig system).IsSpot :=
  ⟨hquote, rfl, rfl, rfl, rfl, (cost_bought hqty system).le⟩

/-- A sale keeps the book in order. -/
theorem Sells.spotBook (h : Sells sig acc pos acc') (hbook : SpotBook acc.positions)
    (hsound : acc.Sound nextOid) : SpotBook acc'.positions := by
  cases h with
  | sale hlookup hprice hqty hsold =>
      rcases hsold with ⟨rfl, -⟩ | ⟨-, rfl⟩
      · exact hbook.erase
      · exact hbook.reduce hqty.le fun e he => (hsound.positive e he).1.le

/-- **What an account has become**, with the trade that was recorded: cash
and positions at cost have changed by what the sale brought beyond the
cost, before its fee. -/
structure Booked (acc acc' : SpotAccount) (tr : Option TradeRecord) : Prop where
  trades : acc'.trades = acc.trades ++ tr.toList
  cash : acc'.balance + acc'.cost =
    acc.balance + acc.cost + (tr.toList.map fun t => t.pnl + t.fee).sum

theorem Booked.refl : Booked acc acc none := ⟨(List.append_nil _).symm, (add_zero _).symm⟩

theorem Sells.booked (h : Sells sig acc pos acc') : ∃ tr, Booked acc acc' tr := by
  have htrades : ∃ tr, acc'.trades = acc.trades ++ [tr] := by
    cases h
    exact ⟨_, rfl⟩
  obtain ⟨tr, htr⟩ := htrades
  refine ⟨some tr, htr, ?_⟩
  have hpnl : acc'.pnl = acc.pnl + tr.pnl := by simp [pnl, htr]
  have hfees : acc'.fees = acc.fees + tr.fee := by simp [SpotAccount.fees, htr]
  rw [h.cash, hpnl, hfees]
  simp only [Option.toList_some, List.map_cons, List.map_nil, List.sum_cons, List.sum_nil]
  ring

end SpotAccount

namespace SpotJob

open SpotAccount

variable {j j' : SpotJob} {d d' : Desk}

/-- A handler that has the lock was not refused. -/
def Admitted (j : SpotJob) : Prop := j.pc.taken = true → j.refused = false

theorem admitted_of_step (hadmitted : j.Admitted) (h : j.step d = some (j', d')) :
    j'.Admitted := by
  cases move_of_step h with
  | quiet hsig htaken =>
      intro hpc
      have hsame : j'.refused = j.refused := by rw [refused, refused, enters, enters, hsig]
      rw [hsame]
      exact (htaken hpc).elim id hadmitted
  | account => exact fun hpc => absurd hpc Bool.false_ne_true

/-- An entry that was not refused is for a won pair. -/
theorem quote_of_admitted (hadmitted : j.Admitted) (hpc : j.pc = .book)
    (henters : j.enters = true) : spotQuoteCurrency j.sig.symbol = "KRW" := by
  have hrefused : j.refused = false := hadmitted (by rw [hpc]; rfl)
  rw [refused, henters, Bool.true_and, Bool.or_eq_false_iff] at hrefused
  simpa using hrefused.2

/-- **The account after the section under its mutex**, and whether it is
saved there. -/
inductive Section (j : SpotJob) (system : ℕ) (acc : SpotAccount) : SpotAccount → Prop
  | returns (hsaves : j.saves acc = false) : Section j system acc acc
  | buys (hsaves : j.saves acc = true) (henters : j.enters = true)
      (hfree : ∀ e ∈ acc.positions.entries, ¬ (e.2.symbol = j.sig.symbol ∧
        e.2.exchange = j.sig.exchange ∧ e.2.side = "long")) :
      Section j system acc
        { acc with
          positions := acc.positions.insert (.entry j.sig.symbol (timeframe j.sig) j.oid)
            (bought j.sig system)
          balance := acc.balance - tradeKrw }
  | sells (hsaves : j.saves acc = true) {pos : ManagedPosition} {acc' : SpotAccount}
      (hsells : Sells j.sig acc pos acc') : Section j system acc acc'

theorem section_handleEntry (henters : j.enters = true) {acc : SpotAccount} {system : ℕ}
    (hsaves : j.saves acc = !acc.positions.entries.any fun e =>
      e.2.symbol = j.sig.symbol && e.2.exchange = j.sig.exchange && e.2.side = "long") :
    Section j system acc (acc.handleEntry j.sig j.oid system) := by
  unfold handleEntry
  by_cases hheld : acc.positions.entries.any fun e =>
      e.2.symbol = j.sig.symbol && e.2.exchange = j.sig.exchange && e.2.side = "long"
  · rw [if_pos hheld]
    exact .returns (by rw [hsaves, hheld]; rfl)
  · rw [if_neg hheld]
    have hfree : ∀ e ∈ acc.positions.entries, ¬ (e.2.symbol = j.sig.symbol ∧
        e.2.exchange = j.sig.exchange ∧ e.2.side = "long") :=
      fun e he hsame => hheld (List.any_eq_true.2 ⟨e, he, by simp [hsame]⟩)
    exact .buys (by rw [hsaves, Bool.eq_false_iff.2 hheld]; rfl) henters hfree

theorem section_exit {acc : SpotAccount} {system nextOid : ℕ} (hsound : acc.Sound nextOid)
    {handle : SpotAccount → SpotAccount}
    (hhandle : j.sig.sigType = .tp ∧ handle = SpotAccount.handleTp j.sig ∨
      j.sig.sigType = .sl ∧ handle = SpotAccount.handleSl j.sig) :
    Section j system acc (handle acc) := by
  have hsaves : j.saves acc = (acc.sold j.sig).isSome := by
    rcases hhandle with ⟨htype, -⟩ | ⟨htype, -⟩ <;>
      simp only [saves, sold, htype, Option.isSome_map]
  rcases exit_cases hsound hhandle with ⟨hnone, heq⟩ | ⟨pos, hsome, hsells⟩
  · rw [heq]
    exact .returns (by rw [hsaves, hnone]; rfl)
  · exact .sells (by rw [hsaves, hsome]; rfl) hsells

/-- **What a section does.** -/
theorem section_account (j : SpotJob) (hsound : d.spot.Sound d.engine.nextOid) :
    Section j d.engine.clock.system d.spot (j.account d) := by
  unfold account
  cases htype : j.sig.sigType with
  | entry | reEntry =>
      exact section_handleEntry (by simp [enters, htype]) (by simp only [saves, htype])
  | tp => exact section_exit hsound (.inl ⟨htype, rfl⟩)
  | sl => exact section_exit hsound (.inr ⟨htype, rfl⟩)
  | unknown => exact .returns (by simp only [saves, htype])

/-- Where it is not saved, the account is what it was. -/
theorem Section.eq_of_returns {system : ℕ} {acc acc' : SpotAccount} (h : Section j system acc acc')
    (hreturns : j.saves acc = false) : acc' = acc := by
  cases h with
  | returns => rfl
  | buys hsaves | sells hsaves =>
      rw [hreturns] at hsaves
      cases hsaves

/-- An entry in its section has a quantity, and a number that is free. -/
theorem ready_of_enters (hpc : j.pc = .book) (henters : j.enters = true) (hpriced : j.Priced)
    (hfree : ∀ oid ∈ j.drawn, d.Free oid) : 0 < buyQty j.sig ∧ d.Free j.oid := by
  have hdrawn : j.oid ∈ j.drawn := by
    rw [drawn, if_pos ⟨hpc, henters⟩]
    rfl
  exact ⟨hpriced henters (.inr hpc), hfree j.oid hdrawn⟩

/-- **A section keeps the book in order.** -/
theorem Section.spotBook {acc : SpotAccount} (h : Section j d.engine.clock.system d.spot acc)
    (hpc : j.pc = .book) (hadmitted : j.Admitted) (hpriced : j.Priced)
    (hsound : d.spot.Sound d.engine.nextOid) (hfree : ∀ oid ∈ j.drawn, d.Free oid)
    (hbook : SpotBook d.spot.positions) :
    acc.Sound d.engine.nextOid ∧ SpotBook acc.positions := by
  cases h with
  | returns => exact ⟨hsound, hbook⟩
  | sells _ hsells => exact ⟨hsells.sound hsound, hsells.spotBook hbook hsound⟩
  | buys _ henters hapart =>
      obtain ⟨hqty, hoid⟩ := ready_of_enters hpc henters hpriced hfree
      have hspot := isSpot_bought (quote_of_admitted hadmitted hpc henters) hqty
        d.engine.clock.system
      refine ⟨⟨fun e he => ?_, fun e he => ?_⟩, hbook.insert hspot ?_ ?_⟩
      · rcases Table.mem_insert.1 he with rfl | ⟨-, hold⟩
        · exact ⟨_, _, j.oid, rfl, hoid.1⟩
        · exact hsound.number e hold
      · rcases Table.mem_insert.1 he with rfl | ⟨-, hold⟩
        · exact ⟨price_pos_of_buyQty hqty, hqty⟩
        · exact hsound.positive e hold
      · -- a key with this text would end in the number that was drawn
        intro hmem
        obtain ⟨key, hkey, htext⟩ := List.mem_map.1 hmem
        obtain ⟨e, he, rfl⟩ := List.mem_map.1 hkey
        obtain ⟨symbol, timeframe, heq⟩ := PositionKey.entry_of_text htext
        exact hoid.2 e he symbol timeframe heq
      · intro e he heq
        obtain ⟨hsymbol, hexchange⟩ := Prod.mk.inj heq
        exact hapart e he ⟨hsymbol, hexchange, (hbook.spot e he).side⟩

/-- **What a section books.** -/
theorem Section.booked {acc : SpotAccount} {system : ℕ} (h : Section j system d.spot acc)
    (hpc : j.pc = .book) (hpriced : j.Priced) (hfree : ∀ oid ∈ j.drawn, d.Free oid) :
    ∃ tr, Booked d.spot acc tr := by
  cases h with
  | returns => exact ⟨none, .refl⟩
  | sells _ hsells => exact hsells.booked
  | buys _ henters =>
      obtain ⟨hqty, hoid⟩ := ready_of_enters hpc henters hpriced hfree
      refine ⟨none, (List.append_nil _).symm, ?_⟩
      simp only [cost, Table.sum_insert (hoid.lookup _ _), cost_bought hqty]
      rw [Option.toList_none, List.map_nil, List.sum_nil]
      ring

end SpotJob

/-! ## The file -/

namespace SpotAccount

/-- **What a file has room for**: positions under their keys' texts without
their times, and the last trades without what was realized. -/
@[ext]
structure View where
  balance : ℚ
  peakBalance : ℚ
  trades : List TradeRecord
  positions : Multiset (String × ManagedPosition)

def view (acc : SpotAccount) : View where
  balance := acc.balance
  peakBalance := acc.peakBalance
  trades := (SavedState.lastTrades acc.trades).map TradeRecord.restored
  positions := .ofList (acc.positions.entries.map fun e => (e.1.text, e.2.restored))

variable {acc : SpotAccount} {loaded : SavedState} {read : String → PositionKey} {nextOid : ℕ}

/-- The trades that are loaded are no more than would be saved. -/
theorem lastTrades_map_restored (trades : List TradeRecord) :
    SavedState.lastTrades ((SavedState.lastTrades trades).map TradeRecord.restored) =
      (SavedState.lastTrades trades).map TradeRecord.restored := by
  have hshort : ((SavedState.lastTrades trades).map TradeRecord.restored).length ≤ 2000 := by
    rw [List.length_map, SavedState.lastTrades, List.length_drop]
    omega
  rw [SavedState.lastTrades, Nat.sub_eq_zero_of_le hshort, List.drop_zero]

/-- **What is loaded of an account** are its positions, under their texts. -/
theorem entries_loaded (hbook : SpotBook acc.positions) (h : acc.saved.RestoredAs loaded) :
    (loaded.positions.entries.map fun e => (e.1, e.2)).Perm
      (acc.positions.entries.map fun e => (e.1.text, e.2.restored)) := by
  have hlookup : loaded.positions.entries.Perm
      (acc.saved.positions.mapValues fun _ p => p.restored).entries :=
    Table.perm_of_lookup fun text => by rw [h.positions, Table.lookup_mapValues]
  have hsaved : acc.saved.positions.entries.Perm
      (acc.positions.entries.map fun e => ⟨e.1.text, e.2⟩) := Table.rekey_perm hbook.texts
  rw [Table.entries_mapValues] at hlookup
  have hall := (hlookup.trans (hsaved.map _)).map fun e => (e.1, e.2)
  rwa [List.map_map, List.map_map] at hall

/-- Under the keys that were read, they have their texts. -/
theorem entries_rekey (hread : ∀ text ∈ loaded.positions.keys, (read text).text = text) :
    ((loaded.positions.rekey read).entries.map fun e => (e.1.text, e.2)).Perm
      (loaded.positions.entries.map fun e => (e.1, e.2)) := by
  have hnodup : (loaded.positions.keys.map read).Nodup := by
    refine loaded.positions.keys_nodup.map_on fun text htext text' htext' heq => ?_
    rw [← hread text htext, heq, hread text' htext']
  have hperm := (Table.rekey_perm hnodup).map fun e => (e.1.text, e.2)
  rw [List.map_map] at hperm
  refine hperm.trans (List.Perm.of_eq (List.map_congr_left fun e he => ?_))
  exact congrArg (·, e.2) (hread e.1 (List.mem_map_of_mem he))

/-- **No position is dropped for its currency**, and each is there under its
text. -/
theorem entries_ofLoaded (hbook : SpotBook acc.positions) (h : acc.saved.RestoredAs loaded)
    (hread : ∀ text ∈ loaded.positions.keys, (read text).text = text) :
    ((ofLoaded read loaded).positions.entries.map fun e => (e.1.text, e.2)).Perm
      (acc.positions.entries.map fun e => (e.1.text, e.2.restored)) := by
  have hperm := (entries_rekey hread).trans (entries_loaded hbook h)
  have hwon : ∀ e ∈ (loaded.positions.rekey read).entries,
      decide (spotQuoteCurrency e.2.symbol = "KRW") = true := by
    intro e he
    obtain ⟨e₀, hmem, heq⟩ := List.mem_map.1 (hperm.subset (List.mem_map_of_mem he))
    obtain ⟨-, hpos⟩ := Prod.mk.inj heq
    rw [← hpos]
    exact decide_eq_true (hbook.spot e₀ hmem).restored.quote
  rwa [ofLoaded, Table.keep_eq_self hwon]

theorem view_ofLoaded (hbook : SpotBook acc.positions) (h : acc.saved.RestoredAs loaded)
    (hread : ∀ text ∈ loaded.positions.keys, (read text).text = text) :
    (ofLoaded read loaded).view = acc.view := by
  have hpositions : Multiset.ofList ((ofLoaded read loaded).positions.entries.map fun e =>
      (e.1.text, e.2.restored)) =
        .ofList (acc.positions.entries.map fun e => (e.1.text, e.2.restored)) := by
    have hperm := (entries_ofLoaded hbook h hread).map fun e => (e.1, e.2.restored)
    rw [List.map_map, List.map_map] at hperm
    refine Quot.sound (hperm.trans (List.Perm.of_eq (List.map_congr_left fun e he => ?_)))
    exact congrArg (e.1.text, ·) (hbook.spot e he).restored_restored
  have htrades : (ofLoaded read loaded).view.trades = acc.view.trades := by
    have hloaded : (ofLoaded read loaded).trades =
        (SavedState.lastTrades acc.trades).map TradeRecord.restored := h.trades
    simp only [view, hloaded, lastTrades_map_restored, List.map_map]
    rfl
  exact View.ext h.balance h.peakBalance htrades hpositions

/-- **An account after a restart is in order.** -/
theorem spotBook_ofLoaded (hbook : SpotBook acc.positions) (hsound : acc.Sound nextOid)
    (h : acc.saved.RestoredAs loaded)
    (hread : ∀ text ∈ loaded.positions.keys, (read text).text = text) :
    (ofLoaded read loaded).Sound nextOid ∧ SpotBook (ofLoaded read loaded).positions := by
  have hperm := entries_ofLoaded hbook h hread
  have hfrom : ∀ e ∈ (ofLoaded read loaded).positions.entries, ∃ e₀ ∈ acc.positions.entries,
      e.1.text = e₀.1.text ∧ e.2 = e₀.2.restored := by
    intro e he
    obtain ⟨e₀, hmem, heq⟩ := List.mem_map.1 (hperm.subset (List.mem_map_of_mem he))
    obtain ⟨htext, hpos⟩ := Prod.mk.inj heq
    exact ⟨e₀, hmem, htext.symm, hpos.symm⟩
  refine ⟨⟨fun e he => ?_, fun e he => ?_⟩, fun e he => ?_, ?_, ?_⟩
  · obtain ⟨e₀, hmem, htext, -⟩ := hfrom e he
    obtain ⟨symbol, timeframe, oid, hkey, hlt⟩ := hsound.number e₀ hmem
    rw [hkey] at htext
    obtain ⟨symbol', timeframe', heq⟩ := PositionKey.entry_of_text htext
    exact ⟨symbol', timeframe', oid, heq, hlt⟩
  · obtain ⟨e₀, hmem, -, hpos⟩ := hfrom e he
    rw [hpos]
    exact hsound.positive e₀ hmem
  · obtain ⟨e₀, hmem, -, hpos⟩ := hfrom e he
    rw [hpos]
    exact (hbook.spot e₀ hmem).restored
  · have htexts := (hperm.map Prod.fst).nodup_iff
    rw [List.map_map, List.map_map] at htexts
    have hbefore := hbook.texts
    rw [AList.keys, List.keys, List.map_map] at hbefore ⊢
    exact htexts.2 hbefore
  · have htags := (hperm.map fun e => (e.2.symbol, e.2.exchange)).nodup_iff
    rw [List.map_map, List.map_map] at htags
    exact htags.2 hbook.unique

end SpotAccount

end WebhookTrader
