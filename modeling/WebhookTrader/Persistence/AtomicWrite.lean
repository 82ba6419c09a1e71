import WebhookTrader.Persistence.Model.AtomicWrite
import WebhookTrader.Persistence.StateFile

/-!
# When a save is crash-atomic

The backup is there for the case in which `state.json` cannot be read,
and in just that case a save begins by copying the unreadable file over
it. A crash before the rename then leaves nothing to start from. In every
other case no crash and no failing operation loses the state.
-/

namespace WebhookTrader

namespace StateTexts

variable {parse : Text → Option Json} {text : Text} {files : StateTexts} {s : SavedState}
  {savedAt : String} {t : Replace.State UInt8}

/-- **A text prints a document**: it parses to it, and nothing shorter that
it begins with parses at all. -/
structure Prints (parse : Text → Option Json) (text : Text) (j : Json) : Prop where
  parses : parse text = some j
  short : ∀ n < text.length, parse (text.take n) = none

/-- **A save is crash-atomic**: whatever fails and wherever it stops,
`load_state` returns the state it would have returned before, or the one
that was being saved. -/
def CrashAtomic (parse : Text → Option Json) (text : Text) (s : SavedState) (files : StateTexts) :
    Prop :=
  ∀ t, (atomicWrite parse text files).Run System.anyStep { files } t →
    ∃ loaded, loadState parse t.files = some loaded ∧
      (loadState parse files = some loaded ∨ s.RestoredAs loaded)

/-- What `try_load_file` makes of a text. -/
def tryLoadText (parse : Text → Option Json) (text : Text) : LoadedState :=
  (file parse (some text)).tryLoad

theorem tryLoad_file (x : Option Text) :
    (file parse x).tryLoad = x.bind (tryLoadText parse) := by
  cases x with
  | none => rfl
  | some text => rfl

/-- `load_state` is the reader of a file with a backup. -/
theorem loadState_eq (files : StateTexts) :
    loadState parse files = files.recover (tryLoadText parse) := by
  rw [loadState, disk, StateDisk.load, tryLoad_file, tryLoad_file]
  rfl

/-- The whole text passes the check. -/
theorem verify_of_prints (h : Prints parse text (s.toJson savedAt)) : verify parse text = true := by
  rw [verify, h.parses]
  rfl

/-- Nothing but the whole text passes the check. -/
theorem take_of_verify (h : Prints parse text (s.toJson savedAt)) {n : ℕ}
    (hn : verify parse (text.take n) = true) : text.take n = text := by
  by_contra hne
  have hlt : n < text.length := by
    by_contra hge
    exact hne (List.take_of_length_le (by omega))
  rw [verify, h.short n hlt] at hn
  cases hn

/-- The whole text reads as what was saved. -/
theorem tryLoadText_of_prints (h : Prints parse text (s.toJson savedAt)) :
    ∃ loaded, tryLoadText parse text = some loaded ∧ s.RestoredAs loaded := by
  obtain ⟨loaded, hload, hrestored⟩ := SavedState.load_save {} savedAt s
  refine ⟨loaded, ?_, hrestored⟩
  have hfile : file parse (some text) = .document (s.toJson savedAt) := by
    rw [file, h.parses]
  have hnone : StateFile.missing.tryLoad = none := rfl
  rw [tryLoadText, hfile]
  simpa [StateDisk.load, StateDisk.save, hnone] using hload

/-- **A save that is through** leaves the files a completed save leaves. -/
theorem disk_of_smooth (h : Prints parse text (s.toJson savedAt))
    (ht : (atomicWrite parse text files).Run Replace.smooth { files } t) (hdone : t.pc = .done) :
    disk parse t.files = (disk parse files).save savedAt s := by
  rw [Replace.files_of_smooth ht hdone, disk, StateDisk.save]
  have hmain : file parse (some text) = .document (s.toJson savedAt) := by
    rw [file, h.parses]
  rw [hmain]
  cases hold : files.main with
  | none => simp [disk, file, hold]
  | some old =>
      cases hparse : parse old with
      | none => simp [disk, file, hold, hparse]
      | some j => simp [disk, file, hold, hparse]

/-- **When a save is crash-atomic.** For every disk that loads, every state
and every printer and parser of documents: just where `state.json` does not
exist or can itself be loaded. -/
theorem crashAtomic_iff {was : SavedState} (hwas : loadState parse files = some was)
    (hprints : Prints parse text (s.toJson savedAt)) :
    CrashAtomic parse text s files ↔
      files.main = none ∨ (file parse files.main).tryLoad.isSome = true := by
  rw [tryLoad_file]
  constructor
  · intro hall
    refine Replace.readable_of_recovers (verify_of_prints hprints) fun t ht => ?_
    obtain ⟨loaded, hload, -⟩ := hall t ht
    rw [← loadState_eq, hload]
    rfl
  · intro hmain t ht
    obtain ⟨new, hnew, hrestored⟩ := tryLoadText_of_prints hprints
    have hload : ∀ n, verify parse (text.take n) = true →
        tryLoadText parse (text.take n) = some new := by
      intro n hn
      rw [take_of_verify hprints hn]
      exact hnew
    rcases Replace.recover_of_readable hmain hload ht with hsame | hnew'
    · rw [← loadState_eq, ← loadState_eq] at hsame
      exact ⟨was, hsame.trans hwas, .inl hwas⟩
    · exact ⟨new, (loadState_eq _).trans hnew', .inr hrestored⟩

/-! ### A damaged file and its backup -/

section Example

/-- A parser that reads one text as a document and discards every other. -/
def readsOnly (text : Text) (j : Json) (t : Text) : Option Json := if t = text then some j else none

theorem prints_readsOnly (text : Text) (j : Json) : Prints (readsOnly text j) text j := by
  refine ⟨if_pos rfl, fun n hn => if_neg fun heq => ?_⟩
  have hlength := congrArg List.length heq
  rw [List.length_take] at hlength
  omega

/-- What is saved of an engine that has done nothing yet. -/
def untouched : SavedState where
  balance := 100
  peakBalance := 100
  positions := ∅
  trades := []
  ordersExecuted := 0

/-- The text of its document. -/
@[irreducible] def untouchedText : Text :=
  ("\x7b\n  \x22balance\x22: 100.0,\n  \x22orders_executed\x22: 0,\n" ++
    "  \x22peak_balance\x22: 100.0,\n  \x22positions\x22: \x7b\x7d,\n" ++
    "  \x22saved_at\x22: \x22\x22,\n  \x22trades\x22: []\n\x7d").toList.map Text.byte

/-- A parser that knows this text. -/
def parseUntouched : Text → Option Json := readsOnly untouchedText (untouched.toJson "")

theorem prints_untouched : Prints parseUntouched untouchedText (untouched.toJson "") :=
  prints_readsOnly _ _

/-- A file cut off after its first character. -/
def cutOff : Text := [Text.byte '\x7b']

theorem tryLoad_cutOff : tryLoadText parseUntouched cutOff = none := by
  have hnone : parseUntouched cutOff = none := if_neg (by decide +kernel)
  rw [tryLoadText, file, hnone]
  rfl

/-- A save over a good file is crash-atomic. -/
theorem crashAtomic_untouched :
    CrashAtomic parseUntouched untouchedText untouched { main := some untouchedText } := by
  obtain ⟨was, hwas, -⟩ := tryLoadText_of_prints prints_untouched
  have hload : loadState parseUntouched { main := some untouchedText } = some was :=
    (loadState_eq _).trans (Files.recover_of_main hwas)
  refine (crashAtomic_iff hload prints_untouched).2 (.inr ?_)
  rw [tryLoad_file, Option.bind_some, hwas]
  rfl

/-- `state.json` is cut off, and its backup is good. -/
def damaged : StateTexts where
  main := some cutOff
  backup := some untouchedText

/-- **A damaged file destroys its backup.** The state is loaded from the
backup, and a crash of the next save between its copy and its rename leaves
nothing to load. -/
theorem backup_overwritten :
    (loadState parseUntouched damaged).isSome = true ∧
      ¬ CrashAtomic parseUntouched untouchedText untouched damaged := by
  constructor
  · obtain ⟨was, hwas, -⟩ := tryLoadText_of_prints prints_untouched
    have hmain : damaged.main.bind (tryLoadText parseUntouched) = none := tryLoad_cutOff
    rw [loadState_eq, Files.recover_of_backup hmain, damaged, Option.bind_some, hwas]
    rfl
  · intro hall
    have hcopied : (Replace.system (verify parseUntouched) untouchedText damaged).Run _ _ _ :=
      Replace.run_copying (verify_of_prints prints_untouched) rfl (Nat.le_refl cutOff.length)
    obtain ⟨loaded, hload, -⟩ := hall _ hcopied
    have hmain : damaged.main.bind (tryLoadText parseUntouched) = none := tryLoad_cutOff
    have hgone := @Files.recover_of_backup _ _ _ { damaged with
      tmp := some untouchedText, backup := some (cutOff.take cutOff.length) } hmain
    rw [loadState_eq, hgone, List.take_length, Option.bind_some, tryLoad_cutOff] at hload
    cases hload

end Example

end StateTexts

end WebhookTrader
