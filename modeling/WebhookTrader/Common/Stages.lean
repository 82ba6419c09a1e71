import Mathlib.Data.List.Basic

/-!
# Reading in stages

A reader that fills in a state one value after the other, and keeps what
it has filled in when a value raises. Its stages are the assignments and
the loops of its body.
-/

namespace WebhookTrader

/-- **A stage**: it changes the state, and then raises or does not. -/
abbrev Stage (ε σ : Type) := σ → σ × Except ε Unit

namespace Stage

variable {ε σ α β γ : Type}

/-- The stages one after the other, up to the first that raises. -/
def run : List (Stage ε σ) → σ → σ
  | [], s => s
  | f :: fs, s =>
      match f s with
      | (s', .ok ()) => run fs s'
      | (s', .error _) => s'

/-- Nothing is read. -/
def skip : Stage ε σ := fun s => (s, .ok ())

/-- An assignment of what is read. -/
def assign (read : Except ε α) (set : α → σ → σ) : Stage ε σ := fun s =>
  match read with
  | .ok a => (set a s, .ok ())
  | .error e => (s, .error e)

/-- A loop over elements. -/
def loop (read : β → Except ε α) (push : α → σ → σ) : List β → Stage ε σ
  | [], s => (s, .ok ())
  | b :: bs, s =>
      match read b with
      | .ok a => loop read push bs (push a s)
      | .error e => (s, .error e)

/-! ## Stages that do not raise -/

variable {f : Stage ε σ} {fs : List (Stage ε σ)} {s s' : σ} {read : Except ε α}
  {set : α → σ → σ} {a : α}

theorem run_cons (h : f s = (s', .ok ())) : run (f :: fs) s = run fs s' := by
  rw [run, h]

theorem assign_ok (h : read = .ok a) : assign read set s = (set a s, .ok ()) := by
  subst h
  rfl

/-- **A loop over what was written** puts in what each element reads as. -/
theorem loop_map {read : β → Except ε α} {push : α → σ → σ} {write : γ → β} {back : γ → α}
    {cs : List γ} (h : ∀ c ∈ cs, read (write c) = .ok (back c)) :
    loop read push (cs.map write) s = (cs.foldl (fun s c => push (back c) s) s, .ok ()) := by
  induction cs generalizing s with
  | nil => rfl
  | cons c cs ih =>
      rw [List.map_cons, loop, h c List.mem_cons_self]
      exact ih fun c' hc' => h c' (List.mem_cons_of_mem _ hc')

end Stage

end WebhookTrader
