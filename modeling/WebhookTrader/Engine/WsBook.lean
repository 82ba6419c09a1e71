import WebhookTrader.Engine.Model.WebSocket

/-!
# What the WebSocket does to the book

Whatever the connection delivers, only a positions row without a holding
takes something off the book: the position with the row's symbol and
side, once, with the trade the first such row makes of it. Rows that come
again, and what the other channels say, leave the book and the list of
trades alone.
-/

namespace WebhookTrader

variable {s : Shared} {upd : WsUpdate} {updates : List WsUpdate} {tag : String × String}

/-! ## Rows that close -/

/-- The row that closes a position with a symbol and side, where the update
is one. -/
def WsUpdate.closing (tag : String × String) : WsUpdate → Option WsPositionRow
  | .position row => if (row.symbol, row.holdSide) = tag ∧ row.size ≤ 0 then some row else none
  | _ => none

/-- **The first row that closes** a position with a symbol and side. -/
def firstClose (updates : List WsUpdate) (tag : String × String) : Option WsPositionRow :=
  updates.findSome? (WsUpdate.closing tag)

/-- The trade a row makes of a position. -/
def WsPositionRow.trade (row : WsPositionRow) (p : ManagedPosition) : TradeRecord :=
  TradeRecord.ofWsClose p (if 0 < row.avgPrice then row.avgPrice else p.entryPrice) row.realizedPnl

/-- **The positions that are closed**, each with its trade. -/
def closedTrades (updates : List WsUpdate) (book : Book) : List TradeRecord :=
  book.entries.filterMap fun e => (firstClose updates e.2.tag).map fun row => row.trade e.2

/-- An update that closes nothing changes nothing about the closes. -/
theorem firstClose_cons_other (h : upd.closing tag = none) :
    firstClose (upd :: updates) tag = firstClose updates tag := by
  rw [firstClose, List.findSome?_cons, h]
  rfl

/-- A row that closes comes before every later one. -/
theorem firstClose_cons_row {row : WsPositionRow} (hsize : row.size ≤ 0) :
    firstClose (.position row :: updates) tag =
      if (row.symbol, row.holdSide) = tag then some row else firstClose updates tag := by
  rw [firstClose, List.findSome?_cons, WsUpdate.closing]
  by_cases htag : (row.symbol, row.holdSide) = tag
  · rw [if_pos ⟨htag, hsize⟩, if_pos htag]
  · rw [if_neg fun h => htag h.1, if_neg htag]
    rfl

theorem exists_row_of_closing (h : ¬ ∀ tag, upd.closing tag = none) :
    ∃ row, upd = .position row ∧ row.size ≤ 0 := by
  obtain ⟨tag, hclosing⟩ := not_forall.1 h
  cases upd with
  | account upd => exact absurd rfl hclosing
  | position row => exact ⟨row, rfl, not_lt.1 fun hsize => hclosing (if_neg fun h => by
      exact absurd h.2 (not_le.2 hsize))⟩
  | order upd => exact absurd rfl hclosing

/-! ## One update -/

/-- The position an update closes is one of the book with the row's symbol
and side, and goes with its trade. -/
theorem Shared.onWs_closing {row : WsPositionRow} (hsize : row.size ≤ 0) :
    (s.positions.findBySymbolSide row.symbol row.holdSide = none ∧
        s.onWs (.position row) = s) ∨
      ∃ key p, s.positions.lookup key = some p ∧ p.tag = (row.symbol, row.holdSide) ∧
        (s.onWs (.position row)).positions = s.positions.erase key ∧
        (s.onWs (.position row)).recorded =
          (s.clock.system, (row.trade p).pnl) :: s.recorded ∧
        (s.onWs (.position row)).clock = s.clock := by
  have hnot : ¬ 0 < row.size := not_lt.2 hsize
  unfold Shared.onWs Shared.onWsPosition
  simp only [hnot, if_false]
  split
  · rename_i hfind
    exact .inl ⟨hfind, rfl⟩
  · rename_i key p hfind
    obtain ⟨htag, hlookup⟩ := Table.findValue_eq_some hfind
    refine .inr ⟨key, p, hlookup, ?_, rfl, rfl, rfl⟩
    simpa [Book.sameTag, ManagedPosition.tag] using htag

/-- Any other update leaves the book and the trades. -/
theorem Shared.onWs_other (h : ∀ tag, upd.closing tag = none) :
    (s.onWs upd).positions = s.positions ∧ (s.onWs upd).recorded = s.recorded ∧
      (s.onWs upd).clock = s.clock := by
  cases upd with
  | account upd =>
      unfold Shared.onWs Shared.onWsAccount
      dsimp only
      split_ifs <;> exact ⟨rfl, rfl, rfl⟩
  | position row =>
      have hsize : 0 < row.size := by
        have hrow := h (row.symbol, row.holdSide)
        simpa [WsUpdate.closing] using hrow
      have hsame : s.onWs (.position row) = s := if_pos hsize
      rw [hsame]
      exact ⟨rfl, rfl, rfl⟩
  | order upd => exact ⟨rfl, rfl, rfl⟩

/-! ## A run -/

/-- The closes of a list of updates that says the same about a book. -/
theorem closedTrades_congr {updates' : List WsUpdate} {book : Book}
    (h : ∀ e ∈ book.entries, firstClose updates e.2.tag = firstClose updates' e.2.tag) :
    closedTrades updates book = closedTrades updates' book :=
  List.filterMap_congr fun e he => by rw [h e he]

/-- **A row that closes a position** adds its trade to those of the
others. -/
theorem closedTrades_cons_row {row : WsPositionRow} {book : Book} {key : PositionKey}
    {p : ManagedPosition} (hsize : row.size ≤ 0) (hunique : book.UniqueBy ManagedPosition.tag)
    (hlookup : book.lookup key = some p) (htag : p.tag = (row.symbol, row.holdSide)) :
    (closedTrades (.position row :: updates) book).Perm
      (row.trade p :: closedTrades updates (book.erase key)) := by
  have hfirst : firstClose (.position row :: updates) p.tag = some row := by
    rw [firstClose_cons_row hsize, if_pos htag.symm]
  have hothers : closedTrades updates (book.erase key) =
      closedTrades (.position row :: updates) (book.erase key) := by
    refine closedTrades_congr fun e he => ?_
    rw [hunique.erase_eq_keep hlookup] at he
    have hne : e.2.tag ≠ p.tag := by simpa using (List.mem_filter.1 he).2
    rw [firstClose_cons_row hsize, if_neg fun heq => hne (heq.symm.trans htag.symm)]
  rw [hothers]
  refine ((Table.entries_perm hlookup).filterMap _).trans (List.Perm.of_eq ?_)
  rw [List.filterMap_cons, hfirst]
  rfl

/-- **What a list of updates does**, by induction on it: each first closing
row takes its position, and the others find nothing. -/
theorem Shared.onWsUpdates_closes (hunique : s.positions.UniqueBy ManagedPosition.tag) :
    (s.onWsUpdates updates).positions =
        s.positions.keep (fun p => (firstClose updates p.tag).isNone) ∧
      (s.onWsUpdates updates).recorded.Perm
        ((closedTrades updates s.positions).map (fun t => (s.clock.system, t.pnl)) ++
          s.recorded) := by
  induction updates generalizing s with
  | nil =>
      refine ⟨(Table.keep_eq_self fun e _ => rfl).symm, List.Perm.of_eq ?_⟩
      have hnone : closedTrades [] s.positions = [] := by simp [closedTrades, firstClose]
      rw [hnone]
      rfl
  | cons upd updates ih =>
      by_cases hclosing : ∀ tag, upd.closing tag = none
      · obtain ⟨hpositions, hrecorded, hclock⟩ := Shared.onWs_other (s := s) hclosing
        have hrest := ih (s := s.onWs upd) (hpositions ▸ hunique)
        rw [hpositions, hrecorded, hclock] at hrest
        have hsame : firstClose (upd :: updates) = firstClose updates :=
          funext fun tag => firstClose_cons_other (hclosing tag)
        rw [hsame, closedTrades_congr fun e _ => congrFun hsame e.2.tag]
        exact hrest
      · obtain ⟨row, rfl, hsize⟩ := exists_row_of_closing hclosing
        rcases Shared.onWs_closing (s := s) hsize with
          ⟨hfind, hsame⟩ | ⟨key, p, hlookup, htag, hpositions, hrecorded, hclock⟩
        · -- the position has gone before, or was never there
          have hother : ∀ e ∈ s.positions.entries,
              firstClose (.position row :: updates) e.2.tag = firstClose updates e.2.tag := by
            intro e he
            have hne := Table.findValue_eq_none hfind e he
            rw [firstClose_cons_row hsize, if_neg fun htag => hne ?_]
            simp only [ManagedPosition.tag, Prod.mk.injEq] at htag
            simp [Book.sameTag, htag.1, htag.2]
          have hkeep : s.positions.keep
                (fun p => (firstClose (.position row :: updates) p.tag).isNone) =
              s.positions.keep fun p => (firstClose updates p.tag).isNone :=
            Table.keep_congr fun e he => by rw [hother e he]
          rw [Shared.onWsUpdates, List.foldl_cons, hsame, closedTrades_congr hother, hkeep]
          exact ih hunique
        · have hrest := ih (s := s.onWs (.position row)) (hpositions ▸ hunique.erase)
          rw [hpositions, hrecorded, hclock] at hrest
          refine ⟨hrest.1.trans ?_, hrest.2.trans ?_⟩
          · rw [hunique.erase_eq_keep hlookup, Table.keep_keep]
            refine Table.keep_congr fun e he => ?_
            rw [firstClose_cons_row hsize, htag]
            by_cases heq : (row.symbol, row.holdSide) = e.2.tag
            · simp [heq]
            · simp [heq, Ne.symm heq]
          · have hperm : (closedTrades (.position row :: updates) s.positions).Perm
                (row.trade p :: closedTrades updates (s.positions.erase key)) :=
              closedTrades_cons_row hsize hunique hlookup htag
            have hpnl := hperm.map fun t => (s.clock.system, t.pnl)
            exact List.perm_middle.trans (hpnl.symm.append_right _)

namespace WsClose

def position : ManagedPosition where
  symbol := "BTCUSDT"
  side := "long"
  entryPrice := 100
  quantity := 1

def held : Shared where
  modes := Modes.start false
  positions := (∅ : Book).insert (.ext "BTCUSDT" "long") position

def parse (msg : String) : Option Json :=
  if msg = "login" then some (.obj [("event", .str "login"), ("code", .int 0)])
  else if msg = "subscribed" then some (.obj [("event", .str "subscribe")])
  else some (.obj [("arg", .obj [("channel", .str "positions")]),
    ("data", .arr [.obj [("instId", .str "BTCUSDT"), ("holdSide", .str "long")]])])

def attempt : BitgetWs.WsAttempt where
  login := some "login"
  subscribed := some "subscribed"
  turns := [{ now := 0, read := .frame "positions" }]

end WsClose

end WebhookTrader
