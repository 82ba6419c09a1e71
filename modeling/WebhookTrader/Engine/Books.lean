import WebhookTrader.Engine.Steps
import WebhookTrader.Engine.Sync
import WebhookTrader.Persistence.StateFile

/-!
# The books the engine produces

What a step of the engine may do to the book, key by key: take entries
away or reduce their quantity, register one, or sync. From this, what
every book is like that a run, or a run after a restart, has produced.
-/

namespace WebhookTrader

namespace Book

variable {book book' book'' : Book} {key : PositionKey} {p : ManagedPosition}

/-- **Entries have gone, or have less quantity**; nothing else about them
has changed. -/
def Part (book' book : Book) : Prop :=
  ∀ key p', book'.lookup key = some p' →
    ∃ p, book.lookup key = some p ∧ p' = { p with quantity := p'.quantity }

theorem Part.refl : Part book book := fun _ p hp => ⟨p, hp, rfl⟩

theorem part_erase : Part (book.erase key) book := by
  intro k p hp
  exact ⟨p, Table.of_lookup_erase hp, rfl⟩

theorem part_reduceQuantity {amount : ℚ} : Part (book.reduceQuantity key amount) book := by
  unfold reduceQuantity
  split
  · exact .refl
  · split_ifs
    · exact part_erase
    · intro k p hp
      by_cases hk : k = key
      · subst hk
        rw [Table.lookup_modify, Option.map_eq_some_iff] at hp
        obtain ⟨q, hq, rfl⟩ := hp
        exact ⟨q, hq, rfl⟩
      · rw [Table.lookup_modify_ne hk] at hp
        exact ⟨p, hp, rfl⟩

theorem Part.filed (h : Part book' book) (hbook : book.Filed) : book'.Filed :=
  hbook.of_forall fun e he => by
    obtain ⟨p, hp, heq⟩ := h e.1 e.2 (AList.mem_lookup_iff.2 he)
    refine ⟨⟨e.1, p⟩, AList.mem_lookup_iff.1 hp, rfl, ?_⟩
    rw [heq]
    rfl

/-- A registration keeps a book filed. -/
theorem Filed.insert_entry (h : book.Filed) (hkey : key.isExt = false) (hside : IsSide p.side) :
    Filed (AList.insert key p book) where
  side e he := by
    rcases Table.mem_insert.1 he with rfl | ⟨-, hold⟩
    · exact hside
    · exact h.side e hold
  ext e he hext := by
    rcases Table.mem_insert.1 he with rfl | ⟨-, hold⟩
    · rw [hkey] at hext
      cases hext
    · exact h.ext e hold hext

end Book

theorem CloseJob.settle_part {c : Closing} {j : CloseJob} {s : Shared} :
    Book.Part (j.settle c s).positions s.positions := by
  unfold CloseJob.settle
  split
  · exact .refl
  · dsimp only
    split
    · exact Book.part_reduceQuantity
    · exact Book.part_erase

theorem CloseJob.part_of_step {cfg : EngineConfig} {c : Closing} {j j' : CloseJob} {s s' : Shared}
    (h : j.step cfg c s = some (j', s')) : Book.Part s'.positions s.positions := by
  cases move_of_step h with
  | settle => exact settle_part
  | _ => exact .refl

theorem CloseAllJob.settle_part {tag : String × String} {s : Shared} :
    Book.Part (CloseAllJob.settle tag s).positions s.positions := by
  unfold CloseAllJob.settle
  split
  · exact .refl
  · exact Book.part_erase

theorem Shared.onWsPosition_part {upd : WsPositionUpdate} {s : Shared} :
    Book.Part (s.onWsPosition upd).positions s.positions := by
  unfold Shared.onWsPosition
  split
  · exact .refl
  · split
    · exact .refl
    · exact Book.part_erase

theorem EntryJob.isSide_side (j : EntryJob) : IsSide j.side := by
  unfold EntryJob.side
  split_ifs
  · exact .inl rfl
  · exact .inr rfl

/-! ## Steps -/

/-- **Only two events touch the book.** -/
theorem Event.book_of_apply {cfg : EngineConfig} {e : Event} {s s' : Shared}
    (h : e.apply cfg s = some s') :
    Book.Part s'.positions s.positions ∨ ∃ quote, e = .sync quote ∧ s' = s.sync quote := by
  cases e <;> simp only [apply, Option.ite_none_right_eq_some, Option.some.injEq] at h
  case wsPosition upd =>
    subst h
    exact .inl Shared.onWsPosition_part
  case wsAccount upd =>
    subst h
    rcases Shared.onWsAccount_eq s upd with heq | ⟨_, _, heq⟩ <;> rw [heq] <;> exact .inl .refl
  case fetchBalance upd =>
    subst h
    rcases Shared.fetchRealBalance_eq s upd with heq | ⟨_, _, heq⟩ <;> rw [heq] <;>
      exact .inl .refl
  case sync quote =>
    subst h
    exact .inr ⟨quote, rfl, rfl⟩
  case switch =>
    obtain ⟨_, -, rfl⟩ := Option.map_eq_some_iff.1 h
    exact .inl .refl
  case tick =>
    subst h
    exact .inl .refl
  all_goals
    obtain ⟨-, rfl⟩ := h
    exact .inl .refl

namespace Engine

variable {cfg : EngineConfig} {s t : Engine} {l : EngineLabel}

/-- **What a step does to the book.** -/
inductive BookStep (s t : Engine) : EngineLabel → Prop
  | part (l : EngineLabel) (h : Book.Part t.shared.positions s.shared.positions) : BookStep s t l
  | register (i : ℕ) {j : EntryJob} (isReal : Bool) (hjob : s.jobs[i]? = some (Job.entry j))
      (hpc : j.pc = if isReal then .registerReal else .registerPaper)
      (h : t.shared = j.register isReal s.shared) : BookStep s t (.work i)
  | sync (quote : String × HoldSide → ℚ × ℤ) (h : t.shared = s.shared.sync quote) :
      BookStep s t (.event (.sync quote))

theorem bookStep_of_next (h : (engineSystem cfg).next s l = some t) : BookStep s t l := by
  cases move_of_next h with
  | start => exact .part _ .refl
  | work i hjob hstep =>
      cases Job.move_of_step hstep with
      | entry hmove =>
          cases hmove with
          | register isReal hpc => exact .register i isReal hjob hpc rfl
          | _ => exact .part _ .refl
      | tp hmove | sl hmove =>
          cases hmove with
          | settle => exact .part _ CloseJob.settle_part
          | _ => exact .part _ .refl
      | closeAll hmove =>
          cases hmove with
          | settle => exact .part _ CloseAllJob.settle_part
          | quiet => exact .part _ .refl
  | event e happly =>
      rcases Event.book_of_apply happly with hpart | ⟨quote, rfl, heq⟩
      · exact .part _ hpart
      · exact .sync quote heq

/-! ## The exchange's own answer -/

/-- A row, as the exchange answers with it. -/
def rowJson (row : ExchangePosition) : Json :=
  .obj [("symbol", .str row.symbol), ("holdSide", .str row.holdSide), ("total", .float row.total),
    ("averageOpenPrice", .float row.avgPrice), ("leverage", .int row.leverage)]

/-- A successful answer with some rows. -/
def respond (rows : List ExchangePosition) : Json :=
  .obj [("code", .str "00000"), ("data", .arr (rows.map rowJson))]

/-- A leverage that is an `int` is read back. -/
theorem parseRow_rowJson {row : ExchangePosition} (hlow : -(2 ^ 31) ≤ row.leverage)
    (hhigh : row.leverage < 2 ^ 31) : Snapshot.parseRow (rowJson row) = .ok row := by
  have hleverage : (row.leverage.bmod (2 ^ 64)).bmod (2 ^ 32) = row.leverage := by
    rw [Int.bmod_eq_of_le (n := row.leverage) (by norm_num; omega) (by norm_num; omega),
      Int.bmod_eq_of_le (by norm_num; omega) (by norm_num; omega)]
  have hread : Snapshot.parseRow (rowJson row) =
      .ok { row with leverage := (row.leverage.bmod (2 ^ 64)).bmod (2 ^ 32) } := rfl
  rw [hread, hleverage]

/-- **The exchange's answer is read back.** -/
theorem parse_respond {rows : List ExchangePosition}
    (h : ∀ row ∈ rows, -(2 ^ 31) ≤ row.leverage ∧ row.leverage < 2 ^ 31) :
    Snapshot.parse (respond rows) = .ok (some rows) := by
  have hrows : (rows.map rowJson).mapM Snapshot.parseRow = .ok rows := by
    induction rows with
    | nil => rfl
    | cons row rows ih =>
        obtain ⟨hlow, hhigh⟩ := h row List.mem_cons_self
        rw [List.map_cons, List.mapM_cons, parseRow_rowJson hlow hhigh,
          ih fun row hrow => h row (List.mem_cons_of_mem _ hrow)]
        rfl
  have hparse : Snapshot.parse (respond rows) =
      some <$> (rows.map rowJson).mapM Snapshot.parseRow := rfl
  rw [hparse, hrows]
  rfl

/-- **The engine's sync is the sync on the exchange's own answer.** -/
theorem sync_eq_syncWith {s : Shared} {quote : String × HoldSide → ℚ × ℤ}
    (h : ∀ tag, -(2 ^ 31) ≤ (quote tag).2 ∧ (quote tag).2 < 2 ^ 31) :
    (s.sync quote).positions =
      s.positions.syncWith s.clock (respond (s.venue.snapshot quote)) := by
  have hparse : Snapshot.parse (respond (s.venue.snapshot quote)) =
      .ok (some (s.venue.snapshot quote)) :=
    parse_respond fun row hrow => by
      obtain ⟨e, -, rfl⟩ := List.mem_map.1 hrow
      exact h e.1
  rw [Book.syncWith, hparse]
  rfl

/-- The exchange's own snapshot is on long and short sides. -/
theorem isSide_snapshot {quote : String × HoldSide → ℚ × ℤ} {v : Venue} :
    ∀ row ∈ v.snapshot quote, IsSide row.holdSide := by
  intro row hrow
  obtain ⟨e, -, rfl⟩ := List.mem_map.1 hrow
  cases e.1.2
  · exact .inl rfl
  · exact .inr rfl

/-- **Every step keeps the book filed.** -/
theorem filed_next (hs : s.shared.positions.Filed) (h : (engineSystem cfg).next s l = some t) :
    t.shared.positions.Filed := by
  cases bookStep_of_next h with
  | part _ hpart => exact hpart.filed hs
  | register i isReal hjob hpc heq =>
      rw [heq]
      exact hs.insert_entry rfl (EntryJob.isSide_side _)
  | sync quote heq =>
      rw [heq]
      exact Book.filed_reconcile hs (ExchangeMap.keyed_ofRows _)
        (ExchangeMap.sided_ofRows isSide_snapshot)

end Engine

/-! ## Runs and restarts -/

/-- **The books the engine produces**: from an empty one by any run, and
from any of them by a sync on a response with long and short sides, and by
saving it and starting again. -/
inductive Produced : Book → Prop
  | empty : Produced ∅
  | run {cfg : EngineConfig} {s t : Engine} (hinit : (engineSystem cfg).init s)
      (hbook : Produced s.shared.positions)
      (hrun : (engineSystem cfg).Run System.anyStep s t) : Produced t.shared.positions
  | sync {book : Book} (hbook : Produced book) (now : Clock) (resp : Json)
      (hresp : ∀ rows, Snapshot.parse resp = .ok (some rows) → ∀ row ∈ rows, IsSide row.holdSide) :
      Produced (book.syncWith now resp)
  | restart {book : Book} (hbook : Produced book) :
      Produced (book.mapValues fun _ p => p.restored)

theorem Produced.filed {book : Book} (h : Produced book) : book.Filed := by
  induction h with
  | empty => exact ⟨by rintro e ⟨⟩, by rintro e ⟨⟩⟩
  | run _ _ hrun ih =>
      exact hrun.invariant (I := fun s => s.shared.positions.Filed)
        (fun _ _ _ hs _ hnext => Engine.filed_next hs hnext) ih
  | sync _ now resp hresp ih =>
      rw [Book.syncWith]
      split
      · rename_i rows hrows
        exact Book.filed_reconcile ih (ExchangeMap.keyed_ofRows _)
          (ExchangeMap.sided_ofRows (hresp rows hrows))
      · exact ih
  | restart _ ih =>
      refine ih.of_forall fun e he => ?_
      obtain ⟨e₀, hmem, rfl⟩ := Table.mem_mapValues.1 he
      exact ⟨e₀, hmem, rfl, rfl⟩

/-! ## The sync's contract -/

/-- **What a sync on a snapshot is for**: what the exchange holds has a real
entry, a real entry has a counterpart, and a young paper entry without one
stays as it is. -/
structure SyncContract (now : Clock) (rows : List ExchangePosition) (book book' : Book) :
    Prop where
  held : ∀ row ∈ rows, 0 < row.total → ∃ e ∈ book'.entries,
    e.2.tag = (row.symbol, row.holdSide) ∧ e.2.isReal = true
  real : ∀ e ∈ book'.entries, e.2.isReal = true →
    ∃ row ∈ rows, 0 < row.total ∧ (row.symbol, row.holdSide) = e.2.tag
  paper : ∀ key p, book.lookup key = some p → p.isReal = false →
    now.system - p.openedAt < Book.paperLifetime →
    (∀ row ∈ rows, 0 < row.total → (row.symbol, row.holdSide) ≠ p.tag) →
    book'.lookup key = some p

/-- **A sync reaches agreement and is idempotent.** For every response that
is read as rows with a symbol, each on a long or a short side, and every
book the engine produces. -/
theorem syncWith_agrees {book : Book} (hbook : Produced book) {resp : Json}
    {rows : List ExchangePosition} (hresp : Snapshot.parse resp = .ok (some rows))
    (hrows : ∀ row ∈ rows, row.symbol ≠ "" ∧ IsSide row.holdSide) (now : Clock) :
    SyncContract now rows book (book.syncWith now resp) ∧
      (book.syncWith now resp).syncWith now resp = book.syncWith now resp := by
  have hkeyed := ExchangeMap.keyed_ofRows rows
  have hsided := ExchangeMap.sided_ofRows fun row hrow => (hrows row hrow).2
  have hsync : ∀ b : Book, b.syncWith now resp = b.reconcile now (ExchangeMap.ofRows rows) := by
    intro b
    rw [Book.syncWith, hresp]
  have hagrees := Book.inSync_reconcile now hbook.filed hkeyed hsided
  rw [hsync, hsync]
  refine ⟨⟨fun row hrow htotal => ?_, fun e he hreal => ?_, fun key p hp hpaper hyoung hnone => ?_⟩,
    Book.reconcile_of_inSync hagrees⟩
  · have hheld := ExchangeMap.holds_of_mem hrow (hrows row hrow).1 htotal
    obtain ⟨e, he, htag⟩ := hagrees.held _ hheld
    exact ⟨e, he, htag, hagrees.real e he (htag ▸ hheld)⟩
  · -- a real entry that is not held would have gone
    have hheld : (ExchangeMap.ofRows rows).holds e.2.tag = true := by
      by_contra hfree
      rw [Bool.not_eq_true] at hfree
      exact hagrees.left e he hfree (.inl hreal)
    obtain ⟨row, hrow, htag, -, htotal⟩ := ExchangeMap.holds_ofRows hheld
    exact ⟨row, hrow, htotal, htag⟩
  · have hfree : (ExchangeMap.ofRows rows).holds p.tag = false := by
      by_contra hheld
      rw [Bool.not_eq_false] at hheld
      obtain ⟨row, hrow, htag, -, htotal⟩ := ExchangeMap.holds_ofRows hheld
      exact hnone row hrow htotal htag
    refine Book.lookup_reconcile hbook.filed hkeyed hsided hp hfree ?_
    rintro (hreal | hold)
    · rw [hpaper] at hreal
      cases hreal
    · omega

/-! ### A position that is turned round -/

section Example

/-- The exchange holds half a coin on one side. -/
def holdingRow (symbol side : String) : ExchangePosition where
  symbol
  holdSide := side
  total := 1 / 2
  avgPrice := 100

/-- Its answer. -/
def holdingResponse (symbol side : String) : Json := Engine.respond [holdingRow symbol side]

theorem parse_holdingResponse (symbol side : String) :
    Snapshot.parse (holdingResponse symbol side) = .ok (some [holdingRow symbol side]) :=
  Engine.parse_respond fun row hrow => by
    obtain rfl := List.mem_singleton.1 hrow
    have hleverage : (holdingRow symbol side).leverage = 10 := rfl
    omega

/-- The book a sync on it makes of an empty one. -/
def importedBook (symbol : String) : Book := Book.syncWith {} (holdingResponse symbol "long") ∅

theorem produced_importedBook (symbol : String) : Produced (importedBook symbol) := by
  refine .sync .empty {} _ fun rows hrows row hrow => ?_
  rw [parse_holdingResponse] at hrows
  cases hrows
  obtain rfl := List.mem_singleton.1 hrow
  exact .inl rfl

/-- The long position is imported, and a sync finds it turned round. -/
theorem syncWith_agrees_turned :
    SyncContract {} [holdingRow "BTCUSDT" "short"] (importedBook "BTCUSDT")
        (Book.syncWith {} (holdingResponse "BTCUSDT" "short") (importedBook "BTCUSDT")) ∧
      Book.syncWith {} (holdingResponse "BTCUSDT" "short")
          (Book.syncWith {} (holdingResponse "BTCUSDT" "short") (importedBook "BTCUSDT")) =
        Book.syncWith {} (holdingResponse "BTCUSDT" "short") (importedBook "BTCUSDT") := by
  refine syncWith_agrees (produced_importedBook _) (parse_holdingResponse _ _)
    (fun row hrow => ?_) {}
  obtain rfl := List.mem_singleton.1 hrow
  exact ⟨by decide, .inr rfl⟩

end Example

end WebhookTrader
