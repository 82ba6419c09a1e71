import Mathlib.Data.List.Infix
import WebhookTrader.Common.Streak
import WebhookTrader.Engine.Model.WebSocket

/-!
# How the WebSocket client comes back

A client that is not stopped tries again for ever. How long it waits
depends only on how many attempts it has been without a connection: the
waits double up to a minute, and start anew with a connection that got as
far as its loop.
-/

namespace WebhookTrader

namespace BitgetWs

variable {parse : String → Option Json} {attempts : List WsAttempt} {a : WsAttempt} {c : Client}

/-- **For how many attempts the client has been without a connection**,
with the one that lost it. -/
def lostFor (parse : String → Option Json) (attempts : List WsAttempt) : ℕ :=
  min (streak (fun a => !established parse a) attempts + 1) attempts.length

/-- The wait after that many attempts. -/
def waitAfter (lost : ℕ) : ℕ := min 60 (2 ^ (lost - 1))

/-- **An attempt that fails** for a reason of its own: nobody stops the
client. -/
def Lost (parse : String → Option Json) (a : WsAttempt) : Prop :=
  (connectAndRun parse a).2 = true ∧ a.stopped = false ∧ a.stopsIn = none

theorem lostFor_concat : lostFor parse (attempts ++ [a]) =
    if established parse a then 1 else lostFor parse attempts + 1 := by
  unfold lostFor
  rw [streak_concat, List.length_append, List.length_singleton]
  cases established parse a
  · exact (Nat.add_min_add_right _ _ 1)
  · simp

/-- The cap is on the doubled wait, which is the same as on the power. -/
theorem waitAfter_succ (lost : ℕ) : min (waitAfter (lost + 1) * 2) 60 = waitAfter (lost + 2) := by
  simp only [waitAfter, Nat.add_sub_cancel, show lost + 2 - 1 = lost + 1 from rfl, pow_succ]
  omega

/-- **The client after attempts that have all failed.** -/
structure Retrying (parse : String → Option Json) (attempts : List WsAttempt) (c : Client) :
    Prop where
  running : c.running = true
  count : c.reconnectCount = lostFor parse attempts
  backoff : c.backoffSec = waitAfter (lostFor parse attempts + 1)
  announced : c.announced = attempts.inits.tail.map (lostFor parse)
  waits : c.waits = attempts.inits.tail.map fun past => waitAfter (lostFor parse past)

theorem retrying_nil : Retrying parse [] {} := ⟨rfl, rfl, rfl, rfl, rfl⟩

/-- The beginnings of a list with one more element. -/
theorem tail_inits_concat {α : Type} (xs : List α) (x : α) :
    (xs ++ [x]).inits.tail = xs.inits.tail ++ [xs ++ [x]] := by
  cases xs with
  | nil => rfl
  | cons y xs => simp [List.inits_append]

theorem attempt_of_lost (hrunning : c.running = true) (h : Lost parse a) :
    attempt parse c a = onThrow (established parse a) a
      { c with updates := c.updates ++ (connectAndRun parse a).1 } := by
  obtain ⟨hthrows, hstopped, -⟩ := h
  simp [attempt, hrunning, hthrows, hstopped]

/-- **One more attempt that fails.** -/
theorem Retrying.concat (h : Retrying parse attempts c) (hlost : Lost parse a) :
    Retrying parse (attempts ++ [a]) (attempt parse c a) := by
  rw [attempt_of_lost h.running hlost]
  obtain ⟨-, -, hstops⟩ := hlost
  cases hest : established parse a with
  | false =>
      have hconcat : lostFor parse (attempts ++ [a]) = lostFor parse attempts + 1 := by
        rw [lostFor_concat, hest, if_neg Bool.false_ne_true]
      constructor
      case running => simp [onThrow, hstops]
      case count => simp [onThrow, hconcat, h.count]
      case backoff => simpa [onThrow, hconcat, h.backoff] using waitAfter_succ _
      case announced =>
        rw [tail_inits_concat, List.map_append, ← h.announced]
        simp [onThrow, hconcat, h.count]
      case waits =>
        rw [tail_inits_concat, List.map_append, ← h.waits]
        simp [onThrow, hconcat, h.backoff, hstops]
  | true =>
      have hconcat : lostFor parse (attempts ++ [a]) = 1 := by
        rw [lostFor_concat, hest, if_pos rfl]
      constructor
      case running => simp [onThrow, hstops]
      case count => simp [onThrow, hconcat]
      case backoff => simp [onThrow, hconcat, waitAfter]
      case announced =>
        rw [tail_inits_concat, List.map_append, ← h.announced]
        simp [onThrow, hconcat]
      case waits =>
        rw [tail_inits_concat, List.map_append, ← h.waits]
        simp [onThrow, hconcat, hstops, waitAfter]

theorem retrying_runLoop (h : ∀ a ∈ attempts, Lost parse a) :
    Retrying parse attempts (runLoop parse attempts) := by
  induction attempts using List.reverseRecOn with
  | nil => exact retrying_nil
  | append_singleton attempts a ih =>
      rw [runLoop, List.foldl_append]
      exact (ih fun b hb => h b (by simp [hb])).concat (h a (by simp))

/-- **The client does not give up**, and waits 1, 2, 4, 8, 16, 32 and then
60 seconds, from the start and from each connection it loses: the number
it announces and the wait depend only on the attempts since then. -/
theorem reconnects_forever (h : ∀ a ∈ attempts, Lost parse a) :
    (runLoop parse attempts).running = true ∧
      (runLoop parse attempts).announced = attempts.inits.tail.map (lostFor parse) ∧
      (runLoop parse attempts).waits =
        attempts.inits.tail.map fun past => min 60 (2 ^ (lostFor parse past - 1)) := by
  have hretry := retrying_runLoop h
  exact ⟨hretry.running, hretry.announced, hretry.waits⟩

/-- An address that does not answer. -/
def unreachable : WsAttempt := { connects := false }

theorem unreachable_reconnects : (runLoop (fun _ => none) (List.replicate 8 unreachable)).waits =
    [1, 2, 4, 8, 16, 32, 60, 60] := by
  rw [(reconnects_forever fun a ha => by
    rw [List.eq_of_mem_replicate ha]
    exact ⟨rfl, rfl, rfl⟩).2.2]
  decide

end BitgetWs

end WebhookTrader
