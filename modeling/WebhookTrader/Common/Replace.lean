import WebhookTrader.Common.Run
import Mathlib.Data.List.TakeDrop

/-!
# Replacing a file through a temporary one

A file is replaced in four steps: the new text goes to a temporary file,
what has been written is checked, the old file is copied to a backup, and
the temporary file is renamed over the old one. Only the rename is
atomic; a write or a copy may stop after any prefix, and a crash may come
between any two characters. A reader takes the file, else its backup.
-/

namespace WebhookTrader

universe u v

/-- **A file, its temporary file and its backup**, each where it exists. -/
structure Files (α : Type u) where
  main : Option (List α) := none
  tmp : Option (List α) := none
  backup : Option (List α) := none
  deriving DecidableEq

/-- What a reader finds: the file, else the backup. -/
def Files.recover {α : Type u} {β : Type v} (load : List α → Option β) (files : Files α) :
    Option β :=
  files.main.bind load <|> files.backup.bind load

namespace Files

variable {α : Type u} {β : Type v} {load : List α → Option β} {files : Files α} {b : β}

theorem recover_of_main (h : files.main.bind load = some b) : files.recover load = some b := by
  rw [recover, h]
  rfl

theorem recover_of_backup (h : files.main.bind load = none) :
    files.recover load = files.backup.bind load := by
  rw [recover, h]
  rfl

end Files

namespace Replace

/-- **Where a replacement is.** -/
inductive Pc
  | opening
  /-- So much of the new text is in the temporary file. -/
  | writing (n : ℕ)
  | checking
  | backing
  /-- So much of the old file is in the backup. -/
  | copying (n : ℕ)
  | swapping
  | done
  | failed
  deriving DecidableEq

/-- How an operation of the file system turns out. -/
inductive Outcome
  | works
  | fails
  deriving DecidableEq

/-- **A replacement under way.** A crash leaves the files as they are. -/
structure State (α : Type u) where
  pc : Pc := .opening
  files : Files α

variable {α : Type u} {β : Type v}

/-- One step: a character, or an operation on a whole file. A write that
fails leaves a short file that is checked all the same, and a copy that
fails is given up. -/
def next (check : List α → Bool) (text : List α) (s : State α) : Outcome → Option (State α)
  | .works =>
      match s.pc with
      | .opening => some ⟨.writing 0, { s.files with tmp := some [] }⟩
      | .writing n =>
          if n < text.length then
            some ⟨.writing (n + 1), { s.files with tmp := some (text.take (n + 1)) }⟩
          else some { s with pc := .checking }
      | .checking => some { s with pc := if s.files.tmp.any check then .backing else .failed }
      | .backing =>
          match s.files.main with
          | none => some { s with pc := .swapping }
          | some _ => some ⟨.copying 0, { s.files with backup := some [] }⟩
      | .copying n =>
          match s.files.main with
          | none => none
          | some old =>
              if n < old.length then
                some ⟨.copying (n + 1), { s.files with backup := some (old.take (n + 1)) }⟩
              else some { s with pc := .swapping }
      | .swapping => some ⟨.done, { s.files with main := s.files.tmp, tmp := none }⟩
      | .done => none
      | .failed => none
  | .fails =>
      match s.pc with
      | .opening => some { s with pc := .failed }
      | .writing _ => some { s with pc := .checking }
      | .checking => some { s with pc := .failed }
      | .backing => some { s with pc := .swapping }
      | .copying _ => some { s with pc := .swapping }
      | .swapping => some { s with pc := .failed }
      | .done => none
      | .failed => none

/-- **A replacement as a system**, from some files. -/
def system (check : List α → Bool) (text : List α) (files : Files α) : System (State α) Outcome where
  init s := s = { files }
  next := next check text

variable {check : List α → Bool} {text old : List α} {files : Files α} {s t : State α}

/-! ## What a replacement leaves at any moment -/

/-- A prefix of the new text that passed the check. -/
def Passed (check : List α → Bool) (text : List α) (x : Option (List α)) : Prop :=
  ∃ n, x = some (text.take n) ∧ check (text.take n) = true

/-- The backup is the old backup or a prefix of the old file. -/
def BackupOf (files : Files α) (x : Option (List α)) : Prop :=
  x = files.backup ∨ ∃ old n, files.main = some old ∧ x = some (old.take n)

/-- **What holds at each place.** The file is the old one until the rename,
and what is renamed has passed the check. -/
def Inv (check : List α → Bool) (text : List α) (files : Files α) (s : State α) : Prop :=
  BackupOf files s.files.backup ∧
    match s.pc with
    | .opening | .failed => s.files.main = files.main
    | .writing n => s.files.main = files.main ∧ s.files.tmp = some (text.take n)
    | .checking => s.files.main = files.main ∧ ∃ n, s.files.tmp = some (text.take n)
    | .backing | .copying _ | .swapping =>
        s.files.main = files.main ∧ Passed check text s.files.tmp
    | .done => Passed check text s.files.main

/-- Every step keeps it. -/
theorem inv_next {o : Outcome} (hs : Inv check text files s)
    (h : next check text s o = some t) : Inv check text files t := by
  obtain ⟨pc, now⟩ := s
  obtain ⟨hbackup, hpc⟩ := hs
  cases pc with
  | opening =>
      cases o with
      | works =>
          obtain rfl := Option.some.inj h
          exact ⟨hbackup, hpc, rfl⟩
      | fails =>
          obtain rfl := Option.some.inj h
          exact ⟨hbackup, hpc⟩
  | writing n =>
      cases o with
      | works =>
          simp only [next] at h
          split at h
          · obtain rfl := Option.some.inj h
            exact ⟨hbackup, hpc.1, rfl⟩
          · obtain rfl := Option.some.inj h
            exact ⟨hbackup, hpc.1, n, hpc.2⟩
      | fails =>
          obtain rfl := Option.some.inj h
          exact ⟨hbackup, hpc.1, n, hpc.2⟩
  | checking =>
      obtain ⟨hmain, n, htmp⟩ := hpc
      cases o with
      | works =>
          dsimp only at htmp hmain
          simp only [next, htmp, Option.any_some] at h
          obtain rfl := Option.some.inj h
          -- what does not pass goes no further
          by_cases hcheck : check (text.take n) = true
          · rw [if_pos hcheck]
            exact ⟨hbackup, hmain, n, htmp, hcheck⟩
          · rw [if_neg hcheck]
            exact ⟨hbackup, hmain⟩
      | fails =>
          obtain rfl := Option.some.inj h
          exact ⟨hbackup, hmain⟩
  | backing =>
      cases o with
      | works =>
          simp only [next] at h
          split at h
          · obtain rfl := Option.some.inj h
            exact ⟨hbackup, hpc⟩
          · rename_i old hold
            obtain rfl := Option.some.inj h
            exact ⟨.inr ⟨old, 0, hpc.1 ▸ hold, rfl⟩, hpc⟩
      | fails =>
          obtain rfl := Option.some.inj h
          exact ⟨hbackup, hpc⟩
  | copying n =>
      cases o with
      | works =>
          simp only [next] at h
          split at h
          · cases h
          · rename_i old hold
            split at h
            · -- the backup is a longer prefix of the file that is still in place
              obtain rfl := Option.some.inj h
              exact ⟨.inr ⟨old, n + 1, hpc.1 ▸ hold, rfl⟩, hpc⟩
            · obtain rfl := Option.some.inj h
              exact ⟨hbackup, hpc⟩
      | fails =>
          obtain rfl := Option.some.inj h
          exact ⟨hbackup, hpc⟩
  | swapping =>
      cases o with
      | works =>
          obtain rfl := Option.some.inj h
          exact ⟨hbackup, hpc.2⟩
      | fails =>
          obtain rfl := Option.some.inj h
          exact ⟨hbackup, hpc.1⟩
  | done => cases o <;> cases h
  | failed => cases o <;> cases h

theorem inv_run (h : (system check text files).Run System.anyStep { files } t) :
    Inv check text files t :=
  h.invariant (fun _ _ _ hs _ hnext => inv_next hs hnext) ⟨.inl rfl, rfl⟩

/-- **Two kinds of files at a crash**: the old file with its backup or a
prefix of itself for a backup, or a new file that passed the check. -/
theorem files_of_run (h : (system check text files).Run System.anyStep { files } t) :
    t.files.main = files.main ∧ BackupOf files t.files.backup ∨
      Passed check text t.files.main := by
  obtain ⟨hbackup, hpc⟩ := inv_run h
  obtain ⟨pc, now⟩ := t
  cases pc with
  | opening => exact .inl ⟨hpc, hbackup⟩
  | writing => exact .inl ⟨hpc.1, hbackup⟩
  | checking => exact .inl ⟨hpc.1, hbackup⟩
  | backing => exact .inl ⟨hpc.1, hbackup⟩
  | copying => exact .inl ⟨hpc.1, hbackup⟩
  | swapping => exact .inl ⟨hpc.1, hbackup⟩
  | done => exact .inr hpc
  | failed => exact .inl ⟨hpc, hbackup⟩

/-! ## Runs that come to a place -/

/-- A step of a run that is known to be taken. -/
theorem run_tail {o : Outcome} (h : (system check text files).Run System.anyStep { files } s)
    (hnext : next check text s o = some t) :
    (system check text files).Run System.anyStep { files } t :=
  h.tail trivial hnext

/-- So much of the new text can be written. -/
theorem run_writing {n : ℕ} (hn : n ≤ text.length) :
    (system check text files).Run System.anyStep { files }
      ⟨.writing n, { files with tmp := some (text.take n) }⟩ := by
  induction n with
  | zero => exact run_tail .refl (o := .works) rfl
  | succ n ih =>
      refine run_tail (ih (Nat.le_of_succ_le hn)) (o := .works) ?_
      simp only [next]
      rw [if_pos (Nat.lt_of_succ_le hn)]

/-- A text that passes the check comes to be backed up. -/
theorem run_backing (hcheck : check text = true) :
    (system check text files).Run System.anyStep { files }
      ⟨.backing, { files with tmp := some text }⟩ := by
  have hwritten : (system check text files).Run System.anyStep _ _ :=
    run_writing (Nat.le_refl text.length)
  rw [List.take_length] at hwritten
  have hchecking : next check text ⟨.writing text.length, { files with tmp := some text }⟩ .works =
      some ⟨.checking, { files with tmp := some text }⟩ := by
    simp only [next]
    rw [if_neg (Nat.lt_irrefl _)]
  refine run_tail (run_tail hwritten hchecking) (o := .works) ?_
  simp [next, hcheck]

/-- **The old file can have been copied over its backup** with nothing
renamed yet, whatever the old file holds. -/
theorem run_copying (hcheck : check text = true) (hmain : files.main = some old) {n : ℕ}
    (hn : n ≤ old.length) :
    (system check text files).Run System.anyStep { files }
      ⟨.copying n, { files with tmp := some text, backup := some (old.take n) }⟩ := by
  induction n with
  | zero =>
      refine run_tail (run_backing hcheck) (o := .works) ?_
      simp [next, hmain]
  | succ n ih =>
      refine run_tail (ih (Nat.le_of_succ_le hn)) (o := .works) ?_
      simp only [next, hmain]
      rw [if_pos (Nat.lt_of_succ_le hn)]

/-! ## What a reader finds after a crash -/

/-- **An old file that cannot be read** costs the reader its backup. Where
there is something to be found after every crash, there was no old file or
the old file could be read. -/
theorem readable_of_recovers {load : List α → Option β} (hcheck : check text = true)
    (hall : ∀ t, (system check text files).Run System.anyStep { files } t →
      (t.files.recover load).isSome = true) :
    files.main = none ∨ (files.main.bind load).isSome = true := by
  by_contra hcon
  rw [not_or, Option.not_isSome_iff_eq_none] at hcon
  obtain ⟨old, hmain⟩ := Option.ne_none_iff_exists'.1 hcon.1
  have hold : load old = none := by simpa [hmain] using hcon.2
  have hcopied := hall _ (run_copying hcheck hmain (Nat.le_refl _))
  simp [Files.recover, hmain, hold] at hcopied

/-- **Every crash is recovered from** where there is no old file or the old
file can be read, and the check lets no prefix of the new text through that
reads as something else: a reader finds what it found before, or the new
text. -/
theorem recover_of_readable {load : List α → Option β} {new : β}
    (hmain : files.main = none ∨ (files.main.bind load).isSome = true)
    (hload : ∀ n, check (text.take n) = true → load (text.take n) = some new)
    (ht : (system check text files).Run System.anyStep { files } t) :
    t.files.recover load = files.recover load ∨ t.files.recover load = some new := by
  rcases files_of_run ht with ⟨hsame, hbackup⟩ | ⟨n, hnew, hpassed⟩
  · refine .inl ?_
    rcases hmain with hnone | hreads
    · -- without an old file there is nothing the backup is overwritten with
      rcases hbackup with hbackup | ⟨old, n, hold, -⟩
      · rw [Files.recover, Files.recover, hsame, hbackup]
      · rw [hnone] at hold
        cases hold
    · obtain ⟨b, hb⟩ := Option.isSome_iff_exists.1 hreads
      have hnow : t.files.main.bind load = some b := hsame ▸ hb
      rw [Files.recover_of_main hb, Files.recover_of_main hnow]
  · refine .inr (Files.recover_of_main ?_)
    rw [hnew, Option.bind_some, hload n hpassed]

/-! ## A replacement in which everything works -/

/-- Nothing fails. -/
def smooth : State α → Outcome → Prop := fun _ o => o = .works

/-- What holds at each place where nothing fails. -/
def SmoothInv (text : List α) (files : Files α) (s : State α) : Prop :=
  match s.pc with
  | .opening => s.files = files
  | .writing n => n ≤ text.length ∧ s.files = { files with tmp := some (text.take n) }
  | .checking | .backing => s.files = { files with tmp := some text }
  | .copying n => ∃ old, files.main = some old ∧ n ≤ old.length ∧
      s.files = { files with tmp := some text, backup := some (old.take n) }
  | .swapping => s.files = { files with tmp := some text, backup := files.main <|> files.backup }
  | .done => s.files = { main := some text, backup := files.main <|> files.backup }
  | .failed => True

theorem smoothInv_next (hs : SmoothInv text files s) (h : next check text s .works = some t) :
    SmoothInv text files t := by
  obtain ⟨pc, now⟩ := s
  cases pc with
  | opening =>
      obtain rfl : now = files := hs
      obtain rfl := Option.some.inj h
      exact ⟨Nat.zero_le _, rfl⟩
  | writing n =>
      obtain ⟨hn, rfl⟩ := hs
      simp only [next] at h
      split at h
      · rename_i hlt
        obtain rfl := Option.some.inj h
        exact ⟨hlt, rfl⟩
      · -- the last character has been written
        rename_i hge
        obtain rfl := Option.some.inj h
        have hall : text.take n = text := List.take_of_length_le (by omega)
        show ({ files with tmp := some (text.take n) } : Files α) = _
        rw [hall]
  | checking =>
      obtain rfl : now = _ := hs
      obtain rfl := Option.some.inj h
      by_cases hcheck : check text = true
      · simp [SmoothInv, hcheck]
      · simp [SmoothInv, hcheck]
  | backing =>
      obtain rfl : now = _ := hs
      cases hmain : files.main with
      | none =>
          simp only [next, hmain] at h
          obtain rfl := Option.some.inj h
          simp [SmoothInv, hmain]
      | some old =>
          simp only [next, hmain] at h
          obtain rfl := Option.some.inj h
          exact ⟨old, hmain, Nat.zero_le _, by simp [hmain]⟩
  | copying n =>
      obtain ⟨old, hmain, hn, rfl⟩ := hs
      simp only [next, hmain] at h
      split at h
      · rename_i hlt
        obtain rfl := Option.some.inj h
        exact ⟨old, hmain, hlt, by simp [hmain]⟩
      · obtain rfl := Option.some.inj h
        have hall : old.take n = old := List.take_of_length_le (by omega)
        simp [SmoothInv, hmain, hall]
  | swapping =>
      obtain rfl : now = _ := hs
      obtain rfl := Option.some.inj h
      rfl
  | done => cases h
  | failed => cases h

/-- **A replacement that is through** has put the new text in place and the
old file in its backup. -/
theorem files_of_smooth (h : (system check text files).Run smooth { files } t)
    (hdone : t.pc = .done) :
    t.files = { main := some text, backup := files.main <|> files.backup } := by
  have hinv : SmoothInv text files t :=
    h.invariant (fun s o u hs hworks hnext => smoothInv_next hs (hworks ▸ hnext)) rfl
  rwa [SmoothInv, hdone] at hinv

end Replace

end WebhookTrader
