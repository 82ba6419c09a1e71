import Mathlib.Data.Finset.Card
import WebhookTrader.Common.Window
import WebhookTrader.Webhook.Model.RateLimiter

/-!
# A sliding window for each address

What the limiter has kept of an address agrees, from the last minute on,
with the calls it allowed. So an answer is that of an exact sliding window
over the calls of the address alone. What is kept is never empty once the
address has called, and the clean-up, which goes by emptiness, takes
nothing out: an address is forgotten never.
-/

namespace WebhookTrader

namespace WebhookRateLimiter

open Window (InOrder AgreeFrom since admits admitted admitted_concat admitted_sublist
  countP_admitted_le)

variable {l : WebhookRateLimiter} {limit count : ℕ} {calls past : List CheckCall} {c : CheckCall}
  {ip : String} {now : ℤ}

/-- The times of an address's calls. -/
def timesOf (ip : String) (calls : List CheckCall) : List ℤ :=
  (calls.filter fun c => c.ip = ip).map CheckCall.time

theorem timesOf_concat : timesOf ip (calls ++ [c]) =
    if c.ip = ip then timesOf ip calls ++ [c.time] else timesOf ip calls := by
  unfold timesOf
  rw [List.filter_append, List.map_append]
  by_cases h : c.ip = ip
  · rw [if_pos h, List.filter_cons_of_pos (by simpa using h)]
    rfl
  · rw [if_neg h, List.filter_cons_of_neg (by simpa using h), List.filter_nil, List.map_nil,
      List.append_nil]

theorem mem_timesOf {t : ℤ} : t ∈ timesOf ip calls ↔ ∃ c ∈ calls, c.ip = ip ∧ c.time = t := by
  simp [timesOf, and_assoc]

theorem countP_timesOf (p : ℤ → Bool) :
    calls.countP (fun c => c.ip = ip && p c.time) = (timesOf ip calls).countP p := by
  rw [timesOf, List.countP_map, List.countP_filter]
  refine List.countP_congr fun c _ => ?_
  simp only [Function.comp_apply, Bool.and_eq_true, decide_eq_true_eq]
  exact And.comm

/-! ## One call -/

/-- No address is kept without times, once calls can be allowed at all. -/
def Filled (l : WebhookRateLimiter) : Prop :=
  0 < l.maxPerMinute → ∀ e ∈ l.requests.entries, e.2 ≠ []

/-- What is kept of an address after cutting it to the minute. -/
def pruned (ip : String) (now : ℤ) (l : WebhookRateLimiter) : List ℤ :=
  (l.timestamps ip).dropWhile fun t => t < cutoff now

/-- What is kept of it after the call. -/
def kept (ip : String) (now : ℤ) (l : WebhookRateLimiter) : List ℤ :=
  if l.maxPerMinute ≤ (l.pruned ip now).length then l.pruned ip now else l.pruned ip now ++ [now]

theorem filled_insert (ip : String) (now : ℤ) (h : l.Filled) : { l with
    requests := l.requests.insert ip (l.kept ip now) }.Filled := by
  intro hpos e he
  rcases Table.mem_insert.1 he with rfl | ⟨-, hold⟩
  · show l.kept ip now ≠ []
    unfold kept
    split_ifs with hfull
    · exact List.ne_nil_of_length_pos (lt_of_lt_of_le hpos hfull)
    · exact List.append_ne_nil_of_right_ne_nil _ (List.cons_ne_nil _ _)
  · exact h hpos e hold

/-- **A call**: what is kept of its address changes, and nothing else. The
clean-up finds nothing to take out. -/
theorem check_requests (ip : String) (now : ℤ) (h : l.Filled) :
    (l.check ip now).2.requests = l.requests.insert ip (l.kept ip now) ∧
      (l.check ip now).2.maxPerMinute = l.maxPerMinute ∧
      (l.check ip now).1 = decide ((l.pruned ip now).length < l.maxPerMinute) := by
  have hfilled := filled_insert ip now h
  by_cases hfull : l.maxPerMinute ≤ (l.pruned ip now).length
  · have hcheck : l.check ip now =
        (false, { l with requests := l.requests.insert ip (l.pruned ip now) }) := if_pos hfull
    have hkept : l.kept ip now = l.pruned ip now := if_pos hfull
    rw [hcheck, hkept]
    exact ⟨rfl, rfl, (decide_eq_false (not_lt.2 hfull)).symm⟩
  · have hkept : l.kept ip now = l.pruned ip now ++ [now] := if_neg hfull
    have hpos : 0 < l.maxPerMinute := (Nat.zero_le _).trans_lt (not_le.1 hfull)
    let pushed : WebhookRateLimiter := { l with
      requests := l.requests.insert ip (l.kept ip now)
      checkCount := (l.checkCount + 1) % 2 ^ 64 }
    have hcheck : l.check ip now =
        (true, if pushed.checkCount % 100 = 0 then pushed.cleanup else pushed) := by
      have hbranch : l.check ip now = (true, _) := if_neg hfull
      rw [hbranch]
      simp only [pushed, hkept]
      rfl
    -- none of the times kept is empty, so that all of them stay
    have hclean : pushed.cleanup = pushed := by
      have hsame : pushed.requests.keep (fun timestamps => !timestamps.isEmpty) =
          pushed.requests :=
        Table.keep_eq_self fun e he => by
          have hne := hfilled hpos e he
          simpa using hne
      unfold cleanup
      rw [hsame]
    rw [hcheck, hclean, ite_self]
    exact ⟨rfl, rfl, (decide_eq_true (not_le.1 hfull)).symm⟩

/-! ## A sequence of calls -/

theorem after_concat :
    after (past ++ [c]) l = ((after past l).check c.ip c.time).2 := List.foldl_concat ..

theorem allowed_concat :
    allowed l (past ++ [c]) = allowed l past ++ if (after past l).allows c then [c] else [] := by
  induction past generalizing l with
  | nil => rfl
  | cons d past ih =>
      have hrest := ih (l := (l.check d.ip d.time).2)
      have hcons : ∀ calls, allowed l (d :: calls) =
          if l.allows d then d :: allowed (l.check d.ip d.time).2 calls
          else allowed (l.check d.ip d.time).2 calls := fun _ => rfl
      rw [List.cons_append, hcons, hcons, hrest]
      by_cases hd : l.allows d = true
      · rw [if_pos hd, if_pos hd]
        rfl
      · rw [if_neg hd, if_neg hd]
        rfl

/-- **What the limiter knows of the calls.** -/
structure Tracks (limit : ℕ) (calls : List CheckCall) (l : WebhookRateLimiter) : Prop where
  limit_eq : l.maxPerMinute = limit
  filled : l.Filled
  /-- Every address that has called is kept. -/
  keys : ∀ ip, ip ∈ l.requests ↔ ∃ c ∈ calls, c.ip = ip
  inOrder : ∀ ip, InOrder id (l.timestamps ip)
  past : ∀ ip, ∀ t ∈ l.timestamps ip, ∃ c ∈ calls, c.time = t
  /-- From the last minute on, what is kept is what a window admits. -/
  agree : ∀ ip now, (∀ c ∈ calls, c.time ≤ now) →
    AgreeFrom id (cutoff now) (l.timestamps ip) (admitted cutoff limit (timesOf ip calls))

theorem tracks_fresh : Tracks limit [] (fresh limit count) where
  limit_eq := rfl
  filled _ e he := absurd he List.not_mem_nil
  keys ip := by
    constructor
    · exact fun h => absurd h (AList.notMem_empty ip)
    · rintro ⟨c, hc, -⟩
      exact absurd hc List.not_mem_nil
  inOrder _ := .nil
  past ip t ht := absurd ht List.not_mem_nil
  agree _ _ _ := Window.agreeFrom_nil

/-- **The answer to a call** is that of the window over the calls of its
address. -/
theorem Tracks.allows_eq (h : Tracks limit past l) (horder : ∀ d ∈ past, d.time ≤ c.time) :
    l.allows c = admits cutoff limit (admitted cutoff limit (timesOf c.ip past)) c.time := by
  have hpruned : l.pruned c.ip c.time =
      since id (cutoff c.time) (admitted cutoff limit (timesOf c.ip past)) :=
    (h.agree c.ip c.time horder).eq_since (h.inOrder c.ip)
  rw [allows, (check_requests _ _ h.filled).2.2, hpruned, h.limit_eq]
  rfl

theorem timestamps_check (h : l.Filled) (ip' : String) :
    (l.check ip now).2.timestamps ip' = if ip' = ip then l.kept ip now else l.timestamps ip' := by
  unfold timestamps
  rw [(check_requests _ _ h).1]
  split_ifs with hsame
  · rw [hsame, AList.lookup_insert]
    rfl
  · rw [AList.lookup_insert_ne hsame]

theorem cutoff_mono {a b : ℤ} (h : a ≤ b) : cutoff a ≤ cutoff b := Int.sub_le_sub_right h _

/-- What is kept of the address that calls is in order, -/
theorem Tracks.inOrder_kept (h : Tracks limit past l) (horder : ∀ d ∈ past, d.time ≤ c.time) :
    InOrder id (l.kept c.ip c.time) := by
  have hpruned : InOrder id (l.pruned c.ip c.time) := (h.inOrder c.ip).prune
  unfold kept
  split_ifs
  · exact hpruned
  · refine hpruned.push fun t ht => ?_
    obtain ⟨d, hd, rfl⟩ := h.past c.ip t ((List.dropWhile_sublist _).mem ht)
    exact horder d hd

/-- has been called at, -/
theorem Tracks.mem_kept (h : Tracks limit past l) {t : ℤ} (ht : t ∈ l.kept c.ip c.time) :
    ∃ d ∈ past ++ [c], d.time = t := by
  have hold : ∀ {t}, t ∈ l.pruned c.ip c.time → ∃ d ∈ past ++ [c], d.time = t := by
    intro t ht
    obtain ⟨d, hd, ht⟩ := h.past c.ip t ((List.dropWhile_sublist _).mem ht)
    exact ⟨d, List.mem_append_left _ hd, ht⟩
  unfold kept at ht
  split_ifs at ht
  · exact hold ht
  · rcases List.mem_append.1 ht with hpast | hnew
    · exact hold hpast
    · exact ⟨c, List.mem_append_right _ (List.mem_singleton_self c),
        (List.mem_singleton.1 hnew).symm⟩

/-- and is what the window admits. -/
theorem Tracks.agree_kept (h : Tracks limit past l) (horder : ∀ d ∈ past, d.time ≤ c.time)
    (hnow : c.time ≤ now) : AgreeFrom id (cutoff now) (l.kept c.ip c.time)
      (admitted cutoff limit (timesOf c.ip past ++ [c.time])) := by
  -- what was cut off before the call is before every later minute as well
  have hadmit := h.allows_eq horder
  rw [allows, (check_requests _ _ h.filled).2.2, h.limit_eq] at hadmit
  have hagree : AgreeFrom id (cutoff now) (l.pruned c.ip c.time)
      (admitted cutoff limit (timesOf c.ip past)) :=
    ((h.agree c.ip c.time horder).prune (h.inOrder c.ip)).mono (cutoff_mono hnow)
  rw [admitted_concat, ← hadmit, kept, h.limit_eq]
  by_cases hfull : limit ≤ (l.pruned c.ip c.time).length
  · rw [if_pos hfull, if_neg (by simpa using hfull)]
    exact hagree
  · rw [if_neg hfull, if_pos (by simpa using hfull)]
    exact hagree.push

/-- **A call is tracked.** -/
theorem Tracks.check (h : Tracks limit past l) (horder : ∀ d ∈ past, d.time ≤ c.time) :
    Tracks limit (past ++ [c]) (l.check c.ip c.time).2 := by
  obtain ⟨hrequests, hlimit, -⟩ := check_requests c.ip c.time h.filled
  constructor
  case limit_eq => exact hlimit.trans h.limit_eq
  case filled =>
    have hfilled := filled_insert c.ip c.time h.filled
    unfold Filled
    rw [hlimit, hrequests]
    exact hfilled
  case keys =>
    intro ip
    rw [hrequests, AList.mem_insert, h.keys]
    simp only [List.mem_append, List.mem_singleton]
    constructor
    · rintro (rfl | ⟨d, hd, rfl⟩)
      · exact ⟨c, .inr rfl, rfl⟩
      · exact ⟨d, .inl hd, rfl⟩
    · rintro ⟨d, hd | rfl, rfl⟩
      · exact .inr ⟨d, hd, rfl⟩
      · exact .inl rfl
  case inOrder =>
    intro ip
    rw [timestamps_check h.filled]
    split_ifs
    · exact h.inOrder_kept horder
    · exact h.inOrder ip
  case past =>
    intro ip t ht
    rw [timestamps_check h.filled] at ht
    split_ifs at ht
    · exact h.mem_kept ht
    · obtain ⟨d, hd, ht⟩ := h.past ip t ht
      exact ⟨d, List.mem_append_left _ hd, ht⟩
  case agree =>
    intro ip now hnow
    rw [timestamps_check h.filled, timesOf_concat]
    by_cases hip : ip = c.ip
    · subst hip
      rw [if_pos rfl, if_pos rfl]
      exact h.agree_kept horder (hnow c (List.mem_append_right _ (List.mem_singleton_self c)))
    · rw [if_neg hip, if_neg (Ne.symm hip)]
      exact h.agree ip now fun d hd => hnow d (List.mem_append_left _ hd)

/-- **Every sequence of calls is tracked**, where time does not go back. -/
theorem tracks_after (limit count : ℕ) (horder : InOrder CheckCall.time calls) :
    Tracks limit calls (after calls (fresh limit count)) := by
  induction calls using List.reverseRecOn with
  | nil => exact tracks_fresh
  | append_singleton past c ih =>
      obtain ⟨hpast, -, hlast⟩ := List.pairwise_append.1 horder
      rw [after_concat]
      exact (ih hpast).check fun d hd => hlast d hd c (List.mem_singleton_self c)

/-- **The calls of an address that are allowed** are those that a window over
them admits. -/
theorem timesOf_allowed (horder : InOrder CheckCall.time calls) (ip : String) :
    timesOf ip (allowed (fresh limit count) calls) = admitted cutoff limit (timesOf ip calls) := by
  induction calls using List.reverseRecOn with
  | nil => rfl
  | append_singleton past c ih =>
      obtain ⟨hpast, -, hlast⟩ := List.pairwise_append.1 horder
      have hallows := (tracks_after limit count hpast).allows_eq (c := c)
        fun d hd => hlast d hd c (List.mem_singleton_self c)
      rw [allowed_concat, hallows, timesOf_concat]
      by_cases hip : c.ip = ip
      · subst hip
        rw [if_pos rfl, admitted_concat, ← ih hpast]
        split_ifs
        · rw [timesOf_concat, if_pos rfl]
        · rw [List.append_nil]
      · rw [if_neg hip, ← ih hpast]
        split_ifs
        · rw [timesOf_concat, if_neg hip]
        · rw [List.append_nil]

theorem countP_allowed (horder : InOrder CheckCall.time calls) (ip : String) (p : ℤ → Bool) :
    (allowed (fresh limit count) calls).countP (fun c => c.ip = ip && p c.time) =
      (admitted cutoff limit (timesOf ip calls)).countP p := by
  rw [countP_timesOf, timesOf_allowed horder]

/-- A window admits at most the limit in a minute. -/
theorem admitted_minute_le (limit : ℕ) (times : List ℤ) (a : ℤ) :
    (admitted cutoff limit times).countP (fun t => decide (a ≤ t ∧ t ≤ a + 60 * oneSecond)) ≤
      limit := by
  refine le_trans (le_of_eq (List.countP_congr fun t _ => ?_))
    (countP_admitted_le cutoff limit times a)
  simp only [cutoff, decide_eq_true_eq, sub_le_iff_le_add]

/-- The beginning of a sequence in order, up to a call. -/
theorem inOrder_upTo {rest : List CheckCall} (horder : InOrder CheckCall.time calls)
    (hcalls : calls = past ++ c :: rest) : InOrder CheckCall.time (past ++ [c]) := by
  rw [hcalls, List.append_cons] at horder
  exact (List.pairwise_append.1 horder).1

theorem le_of_inOrder (horder : InOrder CheckCall.time (past ++ [c])) :
    InOrder CheckCall.time past ∧ ∀ d ∈ past, d.time ≤ c.time := by
  obtain ⟨hpast, -, hlast⟩ := List.pairwise_append.1 horder
  exact ⟨hpast, fun d hd => hlast d hd c (List.mem_singleton_self c)⟩

/-- **A call is refused** just where the limit was allowed in the minute before
it. -/
theorem refused_iff (horder : InOrder CheckCall.time (past ++ [c])) :
    (after past (fresh limit count)).allows c = false ↔
      (allowed (fresh limit count) past).countP (fun d => d.ip = c.ip &&
        decide (c.time - 60 * oneSecond ≤ d.time ∧ d.time ≤ c.time)) = limit := by
  obtain ⟨hpast, hbefore⟩ := le_of_inOrder horder
  have hallows := (tracks_after limit count hpast).allows_eq hbefore
  have hle := admitted_minute_le limit (timesOf c.ip past) (c.time - 60 * oneSecond)
  rw [sub_add_cancel] at hle
  -- none is later than the call
  have hsince : (since id (cutoff c.time) (admitted cutoff limit (timesOf c.ip past))).length =
      (admitted cutoff limit (timesOf c.ip past)).countP
        (fun t => decide (c.time - 60 * oneSecond ≤ t ∧ t ≤ c.time)) := by
    rw [since, ← List.countP_eq_length_filter]
    refine List.countP_congr fun t ht => ?_
    have hmem : t ∈ timesOf c.ip past := (admitted_sublist ..).mem ht
    obtain ⟨d, hd, -, rfl⟩ := mem_timesOf.1 hmem
    have hd := hbefore d hd
    simp [cutoff, hd]
  rw [countP_allowed hpast c.ip
    fun t => decide (c.time - 60 * oneSecond ≤ t ∧ t ≤ c.time), hallows, admits, hsince,
    decide_eq_false_iff_not]
  omega

/-- **The limiter is an exact sliding window for each address**: a minute,
its ends included, has at most the limit of allowed calls of an address; a
call is refused just where as many were allowed in the minute before it;
and the answer is that of any other limiter with the same limit that has
had the same calls of the address, whatever its other calls and clean-ups. -/
theorem slides_exactly (limit count : ℕ) (horder : InOrder CheckCall.time calls) :
    (∀ (ip : String) (a : ℤ), (allowed (fresh limit count) calls).countP
        (fun c => c.ip = ip && decide (a ≤ c.time ∧ c.time ≤ a + 60 * oneSecond)) ≤ limit) ∧
      (∀ past c rest, calls = past ++ c :: rest →
        ((after past (fresh limit count)).allows c = false ↔
          (allowed (fresh limit count) past).countP (fun d => d.ip = c.ip &&
            decide (c.time - 60 * oneSecond ≤ d.time ∧ d.time ≤ c.time)) = limit)) ∧
      ∀ past c rest, calls = past ++ c :: rest → ∀ count' past',
        InOrder CheckCall.time (past' ++ [c]) → timesOf c.ip past' = timesOf c.ip past →
          (after past' (fresh limit count')).allows c =
            (after past (fresh limit count)).allows c := by
  refine ⟨fun ip a => ?_, fun past c rest hcalls => refused_iff (inOrder_upTo horder hcalls),
    fun past c rest hcalls count' past' horder' heq => ?_⟩
  · rw [countP_allowed horder ip fun t => decide (a ≤ t ∧ t ≤ a + 60 * oneSecond)]
    exact admitted_minute_le limit _ a
  · obtain ⟨hpast, hbefore⟩ := le_of_inOrder (inOrder_upTo horder hcalls)
    obtain ⟨hpast', hbefore'⟩ := le_of_inOrder horder'
    rw [(tracks_after limit count hpast).allows_eq hbefore,
      (tracks_after limit count' hpast').allows_eq hbefore', heq]

theorem slides_exactly_two :
    (allowed (fresh 2 0) [⟨0, "a"⟩, ⟨7, "b"⟩, ⟨60 * 10 ^ 9, "a"⟩, ⟨60 * 10 ^ 9, "a"⟩]).countP
      (fun c : CheckCall => c.ip = "a" && decide (0 ≤ c.time ∧ c.time ≤ 0 + 60 * oneSecond)) ≤ 2 :=
  (slides_exactly 2 0 (by unfold InOrder; decide)).1 "a" 0

/-! ## What the clean-up leaves -/

/-- The addresses that are kept are those that have called. -/
theorem requests_eq_ips (horder : InOrder CheckCall.time calls) :
    (after calls (fresh limit count)).requests.size =
      (calls.map CheckCall.ip).toFinset.card := by
  have hkeys := (tracks_after limit count horder).keys
  have hsize : (after calls (fresh limit count)).requests.size =
      (after calls (fresh limit count)).requests.keys.length := (List.length_map _).symm
  have hnodup := (after calls (fresh limit count)).requests.keys_nodup
  rw [hsize, ← List.toFinset_card_of_nodup hnodup]
  congr 1
  ext ip
  simp only [List.mem_toFinset, List.mem_map]
  exact hkeys ip

/-- Whether an address has been allowed a call in the minute up to a time. -/
def ActiveAt (now : ℤ) (log : List CheckCall) (ip : String) : Prop :=
  ∃ t ∈ timesOf ip log, cutoff now ≤ t

/-- The addresses that have. -/
def active (now : ℤ) (log : List CheckCall) : Finset String :=
  ((log.filter fun d => cutoff now ≤ d.time).map CheckCall.ip).toFinset

theorem mem_active {log : List CheckCall} : ip ∈ active now log ↔ ActiveAt now log ip := by
  simp only [active, ActiveAt, mem_timesOf, List.mem_toFinset, List.mem_map, List.mem_filter,
    decide_eq_true_eq]
  constructor
  · rintro ⟨d, ⟨hd, htime⟩, rfl⟩
    exact ⟨d.time, ⟨d, hd, rfl, rfl⟩, htime⟩
  · rintro ⟨_, ⟨d, hd, rfl, rfl⟩, htime⟩
    exact ⟨d, ⟨hd, htime⟩, rfl⟩

/-- **Stale addresses are forgotten**: right after each clean-up every address
that is kept has been allowed a call in the last minute, and after further
calls there are at most these and the addresses seen since. -/
def Forgets (l : WebhookRateLimiter) (calls : List CheckCall) : Prop :=
  ∀ past c recent, calls = past ++ c :: recent → (after past l).cleansUp c = true →
    (∀ ip ∈ (after (past ++ [c]) l).requests, ActiveAt c.time (allowed l (past ++ [c])) ip) ∧
      (after calls l).requests.size ≤
        (active c.time (allowed l (past ++ [c]))).card + (recent.map CheckCall.ip).toFinset.card

/-- **No address stays away**: at each clean-up, a window over the calls of each
address that has called admits one in the last minute. -/
def NoneStaysAway (limit : ℕ) (l : WebhookRateLimiter) (calls : List CheckCall) : Prop :=
  ∀ past c recent, calls = past ++ c :: recent → (after past l).cleansUp c = true →
    ∀ d ∈ past ++ [c], ∃ t ∈ admitted cutoff limit (timesOf d.ip (past ++ [c])), cutoff c.time ≤ t

/-- **When stale addresses are forgotten**: just where there are none, for the
clean-up takes nothing out. -/
theorem forgets_iff (limit count : ℕ) (horder : InOrder CheckCall.time calls) :
    Forgets (fresh limit count) calls ↔ NoneStaysAway limit (fresh limit count) calls := by
  have hupTo : ∀ {past c recent}, calls = past ++ c :: recent → ∀ d ∈ past ++ [c],
      (ActiveAt c.time (allowed (fresh limit count) (past ++ [c])) d.ip ↔
        ∃ t ∈ admitted cutoff limit (timesOf d.ip (past ++ [c])), cutoff c.time ≤ t) := by
    intro past c recent hcalls d _
    rw [ActiveAt, timesOf_allowed (inOrder_upTo horder hcalls)]
  have hkeys : ∀ {past c recent}, calls = past ++ c :: recent → ∀ ip,
      ip ∈ (after (past ++ [c]) (fresh limit count)).requests ↔ ∃ d ∈ past ++ [c], d.ip = ip :=
    fun hcalls => (tracks_after _ _ (inOrder_upTo horder hcalls)).keys
  constructor
  · intro hforgets past c recent hcalls hclean d hd
    have hkept := (hkeys hcalls d.ip).2 ⟨d, hd, rfl⟩
    exact (hupTo hcalls d hd).1 ((hforgets past c recent hcalls hclean).1 d.ip hkept)
  · intro hnone past c recent hcalls hclean
    have hactive : ∀ d ∈ past ++ [c],
        ActiveAt c.time (allowed (fresh limit count) (past ++ [c])) d.ip := fun d hd =>
      (hupTo hcalls d hd).2 (hnone past c recent hcalls hclean d hd)
    refine ⟨fun ip hip => ?_, ?_⟩
    · obtain ⟨d, hd, rfl⟩ := (hkeys hcalls ip).1 hip
      exact hactive d hd
    · -- the addresses from before the clean-up are active at it
      rw [requests_eq_ips horder]
      refine (Finset.card_le_card fun ip hip => ?_).trans (Finset.card_union_le _ _)
      rw [List.mem_toFinset, List.mem_map] at hip
      obtain ⟨d, hd, rfl⟩ := hip
      rw [hcalls, List.append_cons] at hd
      rcases List.mem_append.1 hd with hbefore | hrecent
      · exact Finset.mem_union_left _ (mem_active.2 (hactive d hbefore))
      · exact Finset.mem_union_right _
          (List.mem_toFinset.2 (List.mem_map_of_mem hrecent))

theorem forgets_iff_alone :
    Forgets (fresh 600 0) (List.replicate 100 ⟨0, "a"⟩) ↔
      NoneStaysAway 600 (fresh 600 0) (List.replicate 100 ⟨0, "a"⟩) :=
  forgets_iff 600 0 (by unfold InOrder; decide)

/-- **An address that never comes back** is kept: a call, and ninety-nine of
another address more than a minute later, the last of which cleans up. -/
theorem stale_address_kept :
    ∃ past c, InOrder CheckCall.time (past ++ [c]) ∧
      (after past (fresh 600 0)).cleansUp c = true ∧
      "a" ∈ (after (past ++ [c]) (fresh 600 0)).requests ∧
      timesOf "a" (allowed (fresh 600 0) (past ++ [c])) = [0] ∧ 0 < cutoff c.time ∧
      active c.time (allowed (fresh 600 0) (past ++ [c])) = {"b"} ∧
      (after (past ++ [c]) (fresh 600 0)).requests.size = 2 := by
  refine ⟨⟨0, "a"⟩ :: List.replicate 98 ⟨61 * 10 ^ 9, "b"⟩, ⟨61 * 10 ^ 9, "b"⟩, ?_⟩
  unfold InOrder
  decide +kernel

end WebhookRateLimiter

end WebhookTrader
