import Mathlib.Data.List.Chain
import WebhookTrader.Engine.Model.WebSocket

/-!
# The heartbeat of a WebSocket connection

The receiving loop looks at its clock only between two reads, so what the
heartbeat is worth depends on how far apart the heads of the loop are. Up
to fifteen seconds, a peer that has gone silent is found out within a
bounded time, and beyond that it may never be: the ping that is due
starts the wait for the pong anew. A connection is given up only over a
ping that has stood unanswered for ten seconds.
-/

namespace WebhookTrader

namespace BitgetWs

variable {parse : String → Option Json} {gap opened head : ℕ} {r : Receiving} {t : WsTurn}
  {ts : List WsTurn}

/-! ## Elapsed seconds -/

theorem pinging_iff : pinging r t = true ↔ r.lastPing + pingInterval * second ≤ t.now := by
  have hpos : 0 < second := by decide
  rw [pinging, decide_eq_true_iff, Nat.le_div_iff_mul_le hpos, pingInterval]
  omega

theorem overdue_iff :
    overdue r t = true ↔ r.pongPending = true ∧ r.lastPing + pongTimeout * second ≤ t.now := by
  have hpos : 0 < second := by decide
  rw [overdue, Bool.and_eq_true, decide_eq_true_iff, Nat.le_div_iff_mul_le hpos, pongTimeout]
  exact and_congr_right fun _ => by omega

/-! ## What a turn does -/

@[simp] theorem onRead_lastPing (read : WsRead) :
    (onRead parse read r).lastPing = r.lastPing := by
  unfold onRead onFrame
  repeat' split
  all_goals rfl

@[simp] theorem onRead_pings (read : WsRead) : (onRead parse read r).pings = r.pings := by
  unfold onRead onFrame
  repeat' split
  all_goals rfl

/-- **Only a pong ends the wait for one.** -/
@[simp] theorem onRead_pongPending (read : WsRead) : (onRead parse read r).pongPending =
    (r.pongPending && decide (read ≠ .frame "pong")) := by
  unfold onRead onFrame
  split
  · simp
  · simp
  · rename_i msg
    by_cases hpong : msg = "pong"
    · simp [hpong]
    · rw [if_neg hpong]
      split <;> simp [hpong]

theorem turn_of_fault (h : r.fault ≠ none) : turn parse r t = r :=
  if_pos (Option.isSome_iff_ne_none.2 h)

/-- **A turn that goes on to read** has no pong overdue. -/
theorem turn_of_up (hup : (turn parse r t).fault = none) :
    r.fault = none ∧ overdue (ping t r) t = false ∧
      turn parse r t = onRead parse t.read (ping t r) := by
  by_cases hr : r.fault = none
  · refine ⟨hr, ?_⟩
    unfold turn at hup ⊢
    rw [hr] at hup ⊢
    simp only [Option.isSome_none, Bool.false_eq_true, if_false] at hup ⊢
    by_cases hfails : (pinging r t && t.pingFails) = true
    · simp [hfails] at hup
    · by_cases hover : overdue (ping t r) t = true
      · simp [hfails, hover] at hup
      · exact ⟨Bool.eq_false_iff.2 hover, by rw [if_neg hfails, if_neg hover]⟩
  · rw [turn_of_fault hr] at hup
    exact absurd hup hr

@[simp] theorem receive_nil : receive parse opened [] = { lastPing := opened } := rfl

theorem receive_concat :
    receive parse opened (ts ++ [t]) = turn parse (receive parse opened ts) t := by
  rw [receive, List.foldl_append]
  rfl

/-! ## The clock of the loop -/

/-- The heads of the loop follow one another, at most `gap` apart. -/
def Paced (gap opened : ℕ) (ts : List WsTurn) : Prop :=
  (opened :: ts.map (·.now)).IsChain fun before now => before ≤ now ∧ now ≤ before + gap

/-- The last head of the loop, or else the opening. -/
def lastHead (opened : ℕ) (ts : List WsTurn) : ℕ := (ts.map (·.now)).getLast?.getD opened

/-- The head of the last turn that has read a pong, or else the opening. -/
def lastPong (opened : ℕ) (ts : List WsTurn) : ℕ :=
  ts.foldl (fun heard t => if t.read = .frame "pong" then t.now else heard) opened

@[simp] theorem lastHead_concat : lastHead opened (ts ++ [t]) = t.now := by
  simp [lastHead]

theorem lastPong_concat : lastPong opened (ts ++ [t]) =
    if t.read = .frame "pong" then t.now else lastPong opened ts := by
  rw [lastPong, List.foldl_append]
  rfl

theorem paced_concat : Paced gap opened (ts ++ [t]) ↔
    Paced gap opened ts ∧ lastHead opened ts ≤ t.now ∧ t.now ≤ lastHead opened ts + gap := by
  unfold Paced lastHead
  rw [List.map_append, ← List.cons_append, List.isChain_append, List.getLast?_cons]
  simp

/-! ## What holds between two turns -/

/-- **A connection that is up**, after the turns `ts`: where the wait for a
pong stands, and what has been read of pongs. -/
structure Beating (gap opened : ℕ) (ts : List WsTurn) (r : Receiving) : Prop where
  head_le : ∀ t ∈ ts, t.now ≤ lastHead opened ts
  ping_le : r.lastPing ≤ lastHead opened ts
  /-- No ping is due. -/
  recent : lastHead opened ts < r.lastPing + pingInterval * second
  /-- No pong is overdue. -/
  waiting : r.pongPending = true → lastHead opened ts < r.lastPing + pongTimeout * second
  unanswered : r.pongPending = true → r.lastPing ∈ r.pings ∧
    ∀ t ∈ ts, r.lastPing ≤ t.now → t.read ≠ .frame "pong"
  answered : r.pongPending = false → r.lastPing ≤ lastPong opened ts
  /-- A ping that is waited for was the first since the peer was heard. -/
  soon : gap ≤ 15 * second → r.pongPending = true →
    r.lastPing < lastPong opened ts + pingInterval * second + gap

theorem beating_nil : Beating gap opened [] { lastPing := opened } where
  head_le := nofun
  ping_le := Nat.le_refl _
  recent := Nat.lt_add_of_pos_right (by decide)
  waiting := nofun
  unanswered := nofun
  answered _ := Nat.le_refl _
  soon _ := nofun

/-- The heads stay behind the one of a new turn. -/
theorem Beating.concat_head_le (h : Beating gap opened ts r) (hle : lastHead opened ts ≤ t.now) :
    ∀ u ∈ ts ++ [t], u.now ≤ t.now := by
  intro u hu
  rcases List.mem_append.1 hu with hold | hnew
  · exact (h.head_le u hold).trans hle
  · rw [List.mem_singleton.1 hnew]

/-- **A turn that pings**: whatever it reads, the wait starts with it. -/
theorem Beating.concat_ping (h : Beating gap opened ts r) (hle : lastHead opened ts ≤ t.now)
    (hgap : t.now ≤ lastHead opened ts + gap) (hping : pinging r t = true) :
    Beating gap opened (ts ++ [t]) (onRead parse t.read (ping t r)) := by
  have hdue := pinging_iff.1 hping
  have hlate : lastHead opened ts < t.now := lt_of_lt_of_le h.recent hdue
  have hwait : 0 < pongTimeout * second := by decide
  have hinterval : 0 < pingInterval * second := by decide
  rw [ping, if_pos hping]
  constructor
  case head_le => simpa using h.concat_head_le hle
  case ping_le => simp
  case recent => simpa using hinterval
  case waiting => simp [hwait]
  case unanswered =>
    simp only [onRead_pongPending, onRead_lastPing, onRead_pings, Bool.true_and, decide_eq_true_iff]
    refine fun hread => ⟨by simp, fun u hu hlast => ?_⟩
    rcases List.mem_append.1 hu with hold | hnew
    · exact absurd (h.head_le u hold) (Nat.not_le_of_lt (hlate.trans_le hlast))
    · rwa [List.mem_singleton.1 hnew]
  case answered =>
    simp only [onRead_pongPending, onRead_lastPing, Bool.true_and, decide_eq_false_iff_not, not_not]
    intro hread
    rw [lastPong_concat, if_pos hread]
  case soon =>
    simp only [onRead_pongPending, onRead_lastPing, Bool.true_and, decide_eq_true_iff]
    intro hshort hread
    -- no ping was waited for, or its pong would have been overdue first
    have hidle : r.pongPending = false := by
      by_contra hpending
      have hearly := h.waiting (Bool.not_eq_false _ ▸ hpending)
      simp only [pingInterval, pongTimeout] at hdue hearly
      omega
    have hheard := h.answered hidle
    have hrecent := h.recent
    rw [lastPong_concat, if_neg hread]
    omega

/-- **A turn that does not ping**, and finds no pong overdue. -/
theorem Beating.concat_read (h : Beating gap opened ts r) (hle : lastHead opened ts ≤ t.now)
    (hping : pinging r t = false) (hover : overdue r t = false) :
    Beating gap opened (ts ++ [t]) (onRead parse t.read r) := by
  have hearly : t.now < r.lastPing + pingInterval * second :=
    Nat.lt_of_not_le fun hdue => Bool.false_ne_true (hping.symm.trans (pinging_iff.2 hdue))
  have hping_le := h.ping_le.trans hle
  constructor
  case head_le => simpa using h.concat_head_le hle
  case ping_le => simpa using hping_le
  case recent => simpa using hearly
  case waiting =>
    simp only [onRead_pongPending, onRead_lastPing, Bool.and_eq_true, lastHead_concat]
    rintro ⟨hpending, -⟩
    exact Nat.lt_of_not_le fun hdue =>
      Bool.false_ne_true (hover.symm.trans (overdue_iff.2 ⟨hpending, hdue⟩))
  case unanswered =>
    simp only [onRead_pongPending, onRead_lastPing, onRead_pings, Bool.and_eq_true,
      decide_eq_true_iff]
    rintro ⟨hpending, hread⟩
    refine ⟨(h.unanswered hpending).1, fun u hu hlast => ?_⟩
    rcases List.mem_append.1 hu with hold | hnew
    · exact (h.unanswered hpending).2 u hold hlast
    · rwa [List.mem_singleton.1 hnew]
  case answered =>
    simp only [onRead_pongPending, onRead_lastPing, Bool.and_eq_false_iff, decide_eq_false_iff_not,
      not_not, lastPong_concat]
    intro hread
    split_ifs with hpong
    · exact hping_le
    · exact h.answered (hread.resolve_right hpong)
  case soon =>
    simp only [onRead_pongPending, onRead_lastPing, Bool.and_eq_true, decide_eq_true_iff]
    rintro hshort ⟨hpending, hread⟩
    rw [lastPong_concat, if_neg hread]
    exact h.soon hshort hpending

/-- **One more turn** of a connection that stays up. -/
theorem Beating.concat (h : Beating gap opened ts r) (hle : lastHead opened ts ≤ t.now)
    (hgap : t.now ≤ lastHead opened ts + gap) (hup : (turn parse r t).fault = none) :
    Beating gap opened (ts ++ [t]) (turn parse r t) := by
  obtain ⟨-, hover, hturn⟩ := turn_of_up hup
  rw [hturn]
  by_cases hping : pinging r t = true
  · exact h.concat_ping hle hgap hping
  · have hsame : ping t r = r := if_neg hping
    rw [hsame] at hover ⊢
    exact h.concat_read hle (Bool.eq_false_iff.2 hping) hover

/-- **A connection that is up is beating.** -/
theorem beating_receive (hpaced : Paced gap opened ts)
    (hup : (receive parse opened ts).fault = none) :
    Beating gap opened ts (receive parse opened ts) := by
  induction ts using List.reverseRecOn with
  | nil => exact beating_nil
  | append_singleton ts t ih =>
      obtain ⟨hbefore, hle, hgap⟩ := paced_concat.1 hpaced
      rw [receive_concat] at hup ⊢
      exact (ih hbefore (turn_of_up hup).1).concat hle hgap hup

/-! ## A silent peer -/

/-- **Up to fifteen seconds between two heads**, a connection that is still
up has heard its peer since a bounded time ago. -/
theorem Beating.heard (h : Beating gap opened ts r)
    (hgap : t.now ≤ lastHead opened ts + gap) (hshort : gap ≤ 15 * second)
    (hover : overdue (ping t r) t = false) :
    t.now < lastPong opened ts + (pingInterval + pongTimeout) * second + gap := by
  by_cases hping : pinging r t = true
  · -- the ping before this one has been answered
    have hdue := pinging_iff.1 hping
    have hidle : r.pongPending = false := by
      by_contra hpending
      have hearly := h.waiting (Bool.not_eq_false _ ▸ hpending)
      simp only [pingInterval, pongTimeout] at hdue hearly
      omega
    have hheard := h.answered hidle
    have hrecent := h.recent
    simp only [pingInterval, pongTimeout] at hrecent ⊢
    omega
  · have hearly : ¬ r.lastPing + pingInterval * second ≤ t.now := fun hdue =>
      hping (pinging_iff.2 hdue)
    rw [ping, if_neg hping] at hover
    by_cases hpending : r.pongPending = true
    · have hwait : ¬ r.lastPing + pongTimeout * second ≤ t.now := fun hdue =>
        Bool.false_ne_true (hover.symm.trans (overdue_iff.2 ⟨hpending, hdue⟩))
      have hsoon := h.soon hshort hpending
      simp only [pingInterval, pongTimeout] at hwait hsoon ⊢
      omega
    · have hheard := h.answered (Bool.eq_false_iff.2 hpending)
      simp only [pingInterval, pongTimeout] at hearly ⊢
      omega

/-- A turn between two pings that reads nothing. -/
theorem turn_quiet (hr : r.fault = none) (hread : t.read = .timeout)
    (hearly : t.now < r.lastPing + pongTimeout * second) : turn parse r t = r := by
  have hping : ¬ pinging r t = true := by
    rw [pinging_iff]
    simp only [pingInterval, pongTimeout] at hearly ⊢
    omega
  have hover : ¬ overdue r t = true := fun h => absurd (overdue_iff.1 h).2 (Nat.not_le_of_lt hearly)
  unfold turn
  simp [hr, ping, hping, hover, hread, onRead]

/-- A turn that pings and reads nothing: the wait for a pong starts anew. -/
theorem turn_ping (hr : r.fault = none) (hread : t.read = .timeout) (hwrite : t.pingFails = false)
    (hdue : r.lastPing + pingInterval * second ≤ t.now) :
    turn parse r t = ping t r := by
  have hping : pinging r t = true := pinging_iff.2 hdue
  have hwait : 0 < pongTimeout * second := by decide
  have hover : ¬ overdue (ping t r) t = true := by
    rw [overdue_iff, ping, if_pos hping]
    exact fun h => absurd h.2 (by dsimp only; omega)
  unfold turn
  rw [if_neg (by simp [hr]), if_neg (by simp [hwrite]), if_neg hover, hread]
  rfl

/-- A peer that says nothing, where the loop comes round just before the
pong would be overdue and when the next ping is due. -/
def silence (opened : ℕ) : ℕ → List WsTurn
  | 0 => []
  | n + 1 => silence opened n ++
      [{ now := opened + n * (pingInterval * second) + (pongTimeout * second - 1)
         read := .timeout }] ++
      [{ now := opened + (n + 1) * (pingInterval * second), read := .timeout }]

theorem lastHead_silence (opened n : ℕ) :
    lastHead opened (silence opened n) = opened + n * (pingInterval * second) := by
  cases n with
  | zero => simp [silence, lastHead]
  | succ n => rw [silence, lastHead_concat]

theorem paced_silence (hlong : 15 * second < gap) (n : ℕ) :
    Paced gap opened (silence opened n) := by
  induction n with
  | zero => exact List.isChain_singleton _
  | succ n ih =>
      rw [silence, paced_concat, paced_concat, lastHead_concat, lastHead_silence]
      simp only [pingInterval, pongTimeout, second] at hlong ⊢
      refine ⟨⟨ih, ?_, ?_⟩, ?_, ?_⟩ <;> omega

theorem read_silence (n : ℕ) : ∀ t ∈ silence opened n, t.read = .timeout := by
  induction n with
  | zero => exact nofun
  | succ n ih =>
      intro t ht
      simp only [silence, List.mem_append, List.mem_singleton] at ht
      rcases ht with (hold | rfl) | rfl
      · exact ih t hold
      · rfl
      · rfl

/-- **The silence is never noticed.** -/
theorem receive_silence (opened n : ℕ) :
    (receive parse opened (silence opened n)).fault = none ∧
      (receive parse opened (silence opened n)).lastPing =
        opened + n * (pingInterval * second) := by
  induction n with
  | zero => simp [silence]
  | succ n ih =>
      obtain ⟨hup, hlast⟩ := ih
      have hquiet : receive parse opened (silence opened n ++ [{
          now := opened + n * (pingInterval * second) + (pongTimeout * second - 1)
          read := .timeout }]) = receive parse opened (silence opened n) := by
        rw [receive_concat]
        refine turn_quiet hup rfl ?_
        rw [hlast]
        simp only [pongTimeout, second]
        omega
      have hdue : (receive parse opened (silence opened n)).lastPing + pingInterval * second ≤
          opened + (n + 1) * (pingInterval * second) := by
        rw [hlast, Nat.succ_mul]
        omega
      rw [silence, receive_concat, hquiet, turn_ping hup rfl rfl hdue, ping,
        if_pos (pinging_iff.2 hdue)]
      exact ⟨hup, rfl⟩

/-- **A silent peer is found out** within 35 seconds and the time between
two heads of the loop, where that is at most fifteen seconds. Where it may
be longer, a connection to one may stay up for any time. -/
theorem silence_found_out (parse : String → Option Json) (gap : ℕ) :
    (gap ≤ 15 * second → ∀ opened ts t, Paced gap opened (ts ++ [t]) →
      (receive parse opened (ts ++ [t])).fault = none →
        t.now < lastPong opened ts + (pingInterval + pongTimeout) * second + gap) ∧
    (15 * second < gap → ∀ opened time, ∃ ts, Paced gap opened ts ∧
      (receive parse opened ts).fault = none ∧ (∀ t ∈ ts, t.read = .timeout) ∧
        opened + time ≤ lastHead opened ts) := by
  constructor
  · intro hshort opened ts t hpaced hup
    obtain ⟨hbefore, hle, hgap⟩ := paced_concat.1 hpaced
    rw [receive_concat] at hup
    obtain ⟨hupBefore, hover, -⟩ := turn_of_up hup
    exact (beating_receive hbefore hupBefore).heard hgap hshort hover
  · intro hlong opened time
    refine ⟨silence opened time, paced_silence hlong time, (receive_silence opened time).1,
      read_silence time, ?_⟩
    rw [lastHead_silence]
    exact Nat.add_le_add_left (Nat.le_mul_of_pos_right time (by decide)) opened

/-! ## What is given up -/

/-- The pings are at least their interval apart, from the opening on. -/
structure Spaced (opened : ℕ) (r : Receiving) : Prop where
  apart : (opened :: r.pings).Pairwise fun before now => before + pingInterval * second ≤ now
  last : ∀ p ∈ opened :: r.pings, p = r.lastPing ∨ p + pingInterval * second ≤ r.lastPing

theorem Spaced.ping (h : Spaced opened r) : Spaced opened (ping t r) := by
  unfold BitgetWs.ping
  split_ifs with hping
  · have hdue := pinging_iff.1 hping
    have hbefore : ∀ p ∈ opened :: r.pings, p + pingInterval * second ≤ t.now := by
      intro p hp
      rcases h.last p hp with rfl | hearlier <;> omega
    constructor
    · rw [← List.cons_append, List.pairwise_append]
      exact ⟨h.apart, List.pairwise_singleton _ _, fun p hp q hq =>
        List.mem_singleton.1 hq ▸ hbefore p hp⟩
    · intro p hp
      rw [← List.cons_append, List.mem_append, List.mem_singleton] at hp
      exact hp.symm.imp_right (hbefore p)
  · exact h

theorem Spaced.turn (h : Spaced opened r) : Spaced opened (turn parse r t) := by
  have hping : Spaced opened (BitgetWs.ping t r) := h.ping
  unfold BitgetWs.turn
  split_ifs
  · exact h
  · exact ⟨h.apart, h.last⟩
  · exact ⟨hping.apart, hping.last⟩
  · exact ⟨by simpa using hping.apart, by simpa using hping.last⟩

theorem spaced_receive : Spaced opened (receive parse opened ts) := by
  refine List.foldlRecOn ts _ (motive := Spaced opened) ?_ fun r h t _ => h.turn
  exact ⟨List.pairwise_singleton _ _, fun p hp => .inl (List.mem_singleton.1 hp)⟩

theorem onRead_fault (hr : r.fault = none) (read : WsRead) :
    (onRead parse read r).fault ≠ some .pongTimeout := by
  unfold onRead onFrame
  repeat' split
  all_goals simp [hr]

/-- **A turn gives up over a pong** exactly when no ping is due and the last
one's pong is overdue. -/
theorem turn_pongTimeout_iff (hr : r.fault = none) :
    (turn parse r t).fault = some .pongTimeout ↔
      pinging r t = false ∧ overdue r t = true := by
  have hpinged : (ping t r).fault = none := by
    unfold ping
    split_ifs <;> exact hr
  unfold turn
  rw [if_neg (by simp [hr])]
  by_cases hping : pinging r t = true
  · -- the wait starts with the ping
    have hover : overdue (ping t r) t = false := by
      rw [Bool.eq_false_iff, Ne, overdue_iff, ping, if_pos hping]
      simp [second, pongTimeout]
    refine iff_of_false ?_ fun h => Bool.false_ne_true (h.1.symm.trans hping)
    simp only [hover, Bool.false_eq_true, if_false]
    split_ifs
    · simp
    · exact onRead_fault hpinged t.read
  · have hsame : ping t r = r := if_neg hping
    rw [if_neg (by simp [hping]), hsame]
    split_ifs with hover
    · simp [hping, hover]
    · exact iff_of_false (onRead_fault hr t.read) fun h => hover h.2

theorem lastPong_mem (opened : ℕ) (ts : List WsTurn) : lastPong opened ts = opened ∨
    ∃ t ∈ ts, t.read = .frame "pong" ∧ t.now = lastPong opened ts := by
  induction ts using List.reverseRecOn with
  | nil => exact .inl rfl
  | append_singleton ts t ih =>
      rw [lastPong_concat]
      split_ifs with hread
      · exact .inr ⟨t, by simp, hread, rfl⟩
      · exact ih.imp_right fun ⟨u, hu, hpong⟩ => ⟨u, List.mem_append_left _ hu, hpong⟩

/-- **No false alarm, and none left out**: a connection that is up is given
up over a pong at the head of a turn exactly when a ping of it is between
ten and 25 seconds old, and no turn since has read a pong. -/
theorem pong_timeout_iff (hpaced : Paced gap opened (ts ++ [t]))
    (hup : (receive parse opened ts).fault = none) :
    (receive parse opened (ts ++ [t])).fault = some .pongTimeout ↔
      ∃ p ∈ (receive parse opened ts).pings, p + pongTimeout * second ≤ t.now ∧
        t.now < p + pingInterval * second ∧ ∀ u ∈ ts, p ≤ u.now → u.read ≠ .frame "pong" := by
  obtain ⟨hbefore, hle, -⟩ := paced_concat.1 hpaced
  have hbeat := beating_receive hbefore hup
  have hspaced : Spaced opened (receive parse opened ts) := spaced_receive
  rw [receive_concat, turn_pongTimeout_iff hup, overdue_iff]
  constructor
  · rintro ⟨hping, hpending, hover⟩
    obtain ⟨hmem, hunanswered⟩ := hbeat.unanswered hpending
    refine ⟨_, hmem, hover, Nat.lt_of_not_le fun hdue => ?_, hunanswered⟩
    exact Bool.false_ne_true (hping.symm.trans (pinging_iff.2 hdue))
  · rintro ⟨p, hp, hover, hearly, hunanswered⟩
    obtain rfl : p = (receive parse opened ts).lastPing := by
      refine (hspaced.last p (List.mem_cons_of_mem _ hp)).resolve_right fun hearlier => ?_
      have hping_le := hbeat.ping_le
      omega
    refine ⟨Bool.eq_false_iff.2 fun hdue => ?_, ?_, hover⟩
    · exact Nat.not_le_of_lt hearly (pinging_iff.1 hdue)
    · by_contra hpending
      have hanswered := hbeat.answered (Bool.not_eq_true _ ▸ hpending)
      rcases lastPong_mem opened ts with hopened | ⟨u, hu, hread, hnow⟩
      · -- a ping comes after the opening
        have hapart := List.rel_of_pairwise_cons hspaced.apart hp
        have hpos : 0 < pingInterval * second := by decide
        omega
      · exact hunanswered u hu (hanswered.trans_eq hnow.symm) hread

/-- A loop that pings at its second head, and hears nothing. -/
def unanswered : List WsTurn :=
  [{ now := 15 * second, read := .timeout }, { now := 25 * second, read := .timeout }]

theorem unanswered_ping_timeout : (receive (fun _ => none) 0
    (unanswered ++ [{ now := 35 * second, read := .timeout }])).fault = some .pongTimeout :=
  have hpaced :
      Paced (15 * second) 0 (unanswered ++ [{ now := 35 * second, read := .timeout }]) := by
    simp [Paced, unanswered, second]
  (pong_timeout_iff hpaced (by decide)).2
    ⟨25 * second, by decide, by decide, by decide, by decide⟩

end BitgetWs

end WebhookTrader
