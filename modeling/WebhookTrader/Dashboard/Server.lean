import WebhookTrader.Dashboard.Model.Server

/-!
# What the dashboard lets through

An address gets its limit in each window of its own, so in a minute less
than twice the limit. No callback is called for a request without the
password, none that changes anything for one that is not a `POST`, and no
file outside the static directory is served on a disk without links.
-/

namespace WebhookTrader

namespace Dashboard

variable {authToken : List UInt8} {l : RateLimiter} {conns : List Connection} {c : Connection}
  {ip : String} {now : ℕ} {req : Request}

/-! ## The rate of an address -/

/-- A minute of the steady clock. -/
def minute : ℕ := 60 * 10 ^ 9

/-- The limiter after some connections. -/
def limiterAfter (conns : List Connection) (l : RateLimiter) : RateLimiter :=
  conns.foldl (fun l c => (l.allow c.remoteIp c.time).2) l

theorem handleConnection_limiter :
    (handleConnection authToken l c).2 = (l.allow c.remoteIp c.time).2 := by
  unfold handleConnection
  dsimp only
  split_ifs <;> rfl

theorem serve_concat : serve authToken l (conns ++ [c]) = serve authToken l conns ++
    [(c, (handleConnection authToken (limiterAfter conns l) c).1)] := by
  induction conns generalizing l with
  | nil => rfl
  | cons d conns ih =>
      rw [List.cons_append, serve, serve, ih, handleConnection_limiter]
      rfl

/-- The counter of an address. -/
def RateLimiter.counter (l : RateLimiter) (ip : String) : FixedWindow :=
  (l.clients.lookup ip).getD {}

/-- The limits the server starts with. -/
def RateLimiter.Limits (l : RateLimiter) : Prop := l.maxRequests = 300 ∧ l.windowSeconds = 60

/-- **A call of `allow`** is a hit on the address's counter. -/
theorem allow_eq_hit (h : l.Limits) : l.allow ip now =
    (((l.counter ip).hit 300 minute now).1,
      { l with clients := l.clients.insert ip ((l.counter ip).hit 300 minute now).2 }) := by
  obtain ⟨hmax, hwindow⟩ := h
  have hover : l.windowSeconds ≤ (now - (l.counter ip).start) / 10 ^ 9 ↔
      minute ≤ now - (l.counter ip).start := by
    rw [hwindow, minute, Nat.le_div_iff_mul_le (by decide)]
  rw [RateLimiter.counter] at hover ⊢
  unfold RateLimiter.allow FixedWindow.hit
  simp only [hover, hmax]
  split_ifs <;> rfl

theorem limits_allow (h : l.Limits) : (l.allow ip now).2.Limits := by
  rw [allow_eq_hit h]
  exact h

theorem counter_allow (h : l.Limits) (ip' : String) : (l.allow ip now).2.counter ip' =
    if ip' = ip then ((l.counter ip).hit 300 minute now).2 else l.counter ip' := by
  rw [allow_eq_hit h, RateLimiter.counter]
  split_ifs with hip
  · rw [hip, AList.lookup_insert]
    rfl
  · rw [AList.lookup_insert_ne hip]
    rfl

/-- The times of an address's connections. -/
def timesOf (ip : String) (conns : List Connection) : List ℕ :=
  (conns.filter fun c => c.remoteIp = ip).map Connection.time

/-- The connection got past the limiter. -/
def passes (r : Connection × Option Reply) : Bool := r.2 ≠ some .tooManyRequests

/-- The times at which the limiter let an address through. -/
def passed (ip : String) (served : List (Connection × Option Reply)) : List ℕ :=
  (served.filter fun r => r.1.remoteIp = ip && passes r).map (·.1.time)

theorem timesOf_concat : timesOf ip (conns ++ [c]) =
    timesOf ip conns ++ if c.remoteIp = ip then [c.time] else [] := by
  unfold timesOf
  rw [List.filter_append, List.map_append, List.filter_singleton]
  by_cases hip : c.remoteIp = ip <;> simp [hip]

theorem passed_concat {served : List (Connection × Option Reply)} {r : Connection × Option Reply} :
    passed ip (served ++ [r]) =
      passed ip served ++ if r.1.remoteIp = ip ∧ passes r = true then [r.1.time] else [] := by
  unfold passed
  rw [List.filter_append, List.map_append]
  by_cases hr : r.1.remoteIp = ip ∧ passes r = true
  · rw [if_pos hr, List.filter_cons_of_pos (by simpa using hr)]
    rfl
  · rw [if_neg hr, List.filter_cons_of_neg (by simpa using hr)]
    rfl

theorem passes_handleConnection :
    passes (c, (handleConnection authToken l c).1) = (l.allow c.remoteIp c.time).1 := by
  unfold handleConnection passes
  dsimp only
  split_ifs with hallowed
  · cases hreq : c.request with
    | none => simp [hallowed]
    | some req =>
        unfold respond
        rw [Option.map_some]
        split_ifs <;> simp [hallowed]
  · simp [hallowed]

/-- **Each address has its own windows**, whatever the others do. -/
theorem run_timesOf (authToken : List UInt8) (conns : List Connection) :
    (limiterAfter conns {}).Limits ∧ ∀ ip,
      (limiterAfter conns {}).counter ip = (FixedWindow.run 300 minute (timesOf ip conns)).1 ∧
        passed ip (serve authToken {} conns) =
          FixedWindow.allowed 300 minute (timesOf ip conns) := by
  induction conns using List.reverseRecOn with
  | nil => exact ⟨⟨rfl, rfl⟩, fun ip => ⟨rfl, rfl⟩⟩
  | append_singleton conns c ih =>
      obtain ⟨hlimits, hip⟩ := ih
      have hafter : limiterAfter (conns ++ [c]) {} =
          ((limiterAfter conns {}).allow c.remoteIp c.time).2 := List.foldl_concat ..
      refine ⟨hafter ▸ limits_allow hlimits, fun ip => ?_⟩
      obtain ⟨hcounter, hpassed⟩ := hip ip
      rw [hafter, counter_allow hlimits, serve_concat, passed_concat, timesOf_concat,
        passes_handleConnection, allow_eq_hit hlimits, hpassed]
      by_cases hsame : c.remoteIp = ip
      · rw [if_pos hsame.symm, if_pos hsame, hsame, FixedWindow.allowed, FixedWindow.allowed,
          FixedWindow.run_concat, hcounter]
        refine ⟨rfl, ?_⟩
        split_ifs with h h' h'
        · rfl
        · exact absurd h.2 h'
        · exact absurd ⟨rfl, h'⟩ h
        · rw [List.append_nil]
      · rw [if_neg (Ne.symm hsame), if_neg hsame, if_neg fun h => hsame h.1, List.append_nil,
          List.append_nil]
        exact ⟨hcounter, rfl⟩

/-- The connections of an address that got past the limiter in a stretch of
time. -/
def passesIn (ip : String) (a : ℕ) (r : Connection × Option Reply) : Bool :=
  r.1.remoteIp = ip && passes r && decide (a ≤ r.1.time ∧ r.1.time < a + minute)

theorem countP_passesIn (served : List (Connection × Option Reply)) (a : ℕ) :
    served.countP (passesIn ip a) =
      (passed ip served).countP fun t => a ≤ t ∧ t < a + minute := by
  rw [passed, List.countP_map, List.countP_filter]
  exact List.countP_congr fun r _ => by simp [passesIn, and_comm]

/-- The connections that attain the bound. -/
def burst (ip : String) : List Connection :=
  (FixedWindow.burst 300 minute).map fun time => { time, remoteIp := ip, request := none }

/-- **In a minute, less than twice the limit**: on a machine that has been up
for a minute, connections in the order of time, of any address at most 599
get past the limiter in any minute; and all 599 may. -/
theorem dashboard_rate (authToken : List UInt8) :
    (∀ conns : List Connection, (∀ c ∈ conns, minute ≤ c.time) →
        conns.Pairwise (fun c d => c.time ≤ d.time) → ∀ ip a,
          (serve authToken {} conns).countP (passesIn ip a) ≤ 599) ∧
      ∀ ip, ∃ conns : List Connection, (∀ c ∈ conns, minute ≤ c.time) ∧
        conns.Pairwise (fun c d => c.time ≤ d.time) ∧
          ∃ a, (serve authToken {} conns).countP (passesIn ip a) = 599 := by
  have hminute : 1 < minute := by decide
  constructor
  · intro conns hup hsorted ip a
    rw [countP_passesIn, ((run_timesOf authToken conns).2 ip).2]
    refine FixedWindow.countP_allowed_le (by decide) (by decide) (fun t ht => ?_) ?_ a
    · obtain ⟨c, hc, rfl⟩ := List.mem_map.1 ht
      exact hup c (List.mem_filter.1 hc).1
    · exact List.pairwise_map.2 (hsorted.filter _)
  · intro ip
    obtain ⟨hsorted, hup⟩ := FixedWindow.pairwise_burst 300 (Nat.zero_lt_of_lt hminute)
    have htimes : timesOf ip (burst ip) = FixedWindow.burst 300 minute := by
      simp [timesOf, burst, List.filter_map, Function.comp_def]
    refine ⟨burst ip, fun c hc => ?_, List.pairwise_map.2 hsorted, 2 * minute - 1, ?_⟩
    · obtain ⟨t, ht, rfl⟩ := List.mem_map.1 hc
      exact hup t ht
    · rw [countP_passesIn, ((run_timesOf authToken (burst ip)).2 ip).2, htimes]
      exact FixedWindow.countP_burst (by decide) hminute

/-! ## The password -/

/-- What is served without a password calls nothing. -/
theorem calls_of_public (h : req.target ∈ publicTargets) : (routeRequest req).calls = [] := by
  obtain ⟨method, target, authorization, body⟩ := req
  simp only [publicTargets, List.mem_cons, List.not_mem_nil, or_false] at h
  rcases h with rfl | rfl | rfl | rfl | rfl | rfl | rfl | rfl <;>
    simp [routeRequest, readers, List.lookup_cons, Answer.calls]

/-- None of the readers changes anything. -/
theorem not_changes_readers : ∀ e ∈ readers, e.2.changes = false := by decide

/-- What the metrics call changes nothing. -/
theorem eq_callback_of_changes {answer : Answer} {cb : Callback} (h : cb ∈ answer.calls)
    (hchanges : cb.changes = true) : answer = .callback cb := by
  cases answer with
  | callback c => rw [List.mem_singleton.1 h]
  | metrics =>
      simp only [Answer.calls, List.mem_cons, List.not_mem_nil, or_false] at h
      rcases h with rfl | rfl | rfl <;> cases hchanges
  | _ => cases h

/-- **What changes something is a `POST`.** -/
theorem post_of_changes {cb : Callback} (h : cb ∈ (routeRequest req).calls)
    (hchanges : cb.changes = true) : req.method = .post := by
  have hroute := eq_callback_of_changes h hchanges
  unfold routeRequest at hroute
  split at hroute
  · rename_i c hlookup
    obtain rfl := Answer.callback.inj hroute
    obtain ⟨before, after, hsplit, -⟩ := List.lookup_eq_some_iff.1 hlookup
    have hmem : (req.target, c) ∈ readers := by simp [hsplit]
    exact absurd (not_changes_readers _ hmem) (by simp [hchanges])
  · split_ifs at hroute with hclose himport
    · exact hclose.2
    · exact himport.2
    · unfold staticFile at hroute
      split_ifs at hroute

/-- **A callback is called for a request with the password only**, and one
that changes something for a `POST` only, among any connections. -/
theorem dashboard_authorised (authToken : List UInt8) (l : RateLimiter) (conns : List Connection) :
    ∀ r ∈ serve authToken l conns, ∀ answer, r.2 = some (.answered answer) →
      ∀ cb ∈ answer.calls, ∃ req, r.1.request = some req ∧
        checkAuth authToken req.authorization = true ∧
          (cb.changes = true → req.method = .post) := by
  induction conns generalizing l with
  | nil => exact fun r hr => absurd hr List.not_mem_nil
  | cons c conns ih =>
      intro r hr answer hanswer cb hcb
      rcases List.mem_cons.1 hr with rfl | hrest
      · unfold handleConnection at hanswer
        dsimp only at hanswer ⊢
        split_ifs at hanswer
        · obtain ⟨req, hreq, hrespond⟩ := Option.map_eq_some_iff.1 hanswer
          refine ⟨req, hreq, ?_⟩
          unfold respond at hrespond
          split_ifs at hrespond with hlet
          obtain rfl := Reply.answered.inj hrespond
          refine ⟨?_, post_of_changes hcb⟩
          -- a public target calls nothing
          rcases (Bool.or_eq_true _ _).mp hlet with hpublic | hauth
          · rw [calls_of_public (List.contains_iff_mem.1 hpublic)] at hcb
            exact absurd hcb List.not_mem_nil
          · exact hauth
        · cases hanswer
      · exact ih _ r hrest answer hanswer cb hcb

/-- A close of everything, with the password. -/
def closing : Connection where
  time := 60 * 10 ^ 9
  remoteIp := "10.0.0.1"
  request := some
    { method := .post
      target := "/api/close-all"
      authorization := some ("Basic dTpw".toList.map fun c => UInt8.ofNat c.toNat) }

theorem closing_authorised : ∃ req, closing.request = some req ∧
    checkAuth ("u:p".toList.map fun c => UInt8.ofNat c.toNat) req.authorization = true ∧
      (Callback.closeAllPositions.changes = true → req.method = .post) :=
  dashboard_authorised ("u:p".toList.map fun c => UInt8.ofNat c.toNat) {} [closing] _
    List.mem_cons_self (.callback .closeAllPositions) (by decide) _ (List.mem_singleton_self _)

/-! ## The files -/

theorem components_ne_nil (path : List Char) : components path ≠ [] := by
  cases path with
  | nil => exact List.cons_ne_nil _ _
  | cons c cs =>
      unfold components
      split_ifs
      · exact List.cons_ne_nil _ _
      · split <;> exact List.cons_ne_nil _ _

/-- A slash ends a part. -/
theorem components_append (dir file : List Char) :
    components (dir ++ '/' :: file) = components dir ++ components file := by
  induction dir with
  | nil => simp [components]
  | cons c dir ih =>
      rw [List.cons_append, components, components, ih]
      split_ifs with hslash
      · rfl
      · cases hparts : components dir with
        | nil => exact absurd hparts (components_ne_nil dir)
        | cons x xs => rfl

/-- The first part begins the path, and every part stands in it. -/
theorem parts_within (path : List Char) :
    (∀ part parts, components path = part :: parts → part <+: path) ∧
      ∀ part ∈ components path, part <:+: path := by
  induction path with
  | nil =>
      refine ⟨fun part parts h => ?_, fun part h => ?_⟩
      · rw [← (List.cons.inj h).1]
      · rw [List.mem_singleton.1 h]
  | cons c cs ih =>
      obtain ⟨hfirst, hall⟩ := ih
      have hrest : ∀ part ∈ components cs, part <:+: c :: cs := fun part hpart =>
        (hall part hpart).trans (List.suffix_cons c cs).isInfix
      unfold components
      split_ifs with hslash
      · refine ⟨fun part parts h => ?_, fun part h => ?_⟩
        · rw [← (List.cons.inj h).1]
          exact List.nil_prefix
        · rcases List.mem_cons.1 h with rfl | hmem
          · exact List.nil_infix
          · exact hrest part hmem
      · cases hparts : components cs with
        | nil => exact absurd hparts (components_ne_nil cs)
        | cons x xs =>
            have hprefix : c :: x <+: c :: cs := List.cons_prefix_cons.2 ⟨rfl, hfirst x xs hparts⟩
            refine ⟨fun part parts h => ?_, fun part h => ?_⟩
            · rw [← (List.cons.inj h).1]
              exact hprefix
            · rcases List.mem_cons.1 h with rfl | hmem
              · exact hprefix.isInfix
              · exact hrest part (hparts ▸ List.mem_cons_of_mem x hmem)

/-- A path without two dots leads down. -/
theorem isPrefix_foldl_enter {parts : List (List Char)} (h : ∀ part ∈ parts, part ≠ ['.', '.'])
    (dir : List (List Char)) : dir <+: parts.foldl enter dir := by
  induction parts generalizing dir with
  | nil => exact List.prefix_refl dir
  | cons part parts ih =>
      refine List.IsPrefix.trans ?_ (ih (fun p hp => h p (List.mem_cons_of_mem _ hp)) _)
      unfold enter
      split_ifs with hskip hup
      · exact List.prefix_refl dir
      · exact absurd hup (h part List.mem_cons_self)
      · exact List.prefix_append _ _

theorem file_no_dots {name contentType : String} (h : routeRequest req = .file name contentType) :
    ¬ ['.', '.'] <:+: name.toList := by
  unfold routeRequest at h
  split at h
  · cases h
  · split_ifs at h
    · cases h
      decide
    · cases h
      decide
    · cases h
      decide
    · unfold staticFile at h
      split_ifs at h with hdots
      cases h
      rwa [String.toList_ofList]

/-- **What is served lies below the static directory**, on a disk without
links, whatever the request. -/
theorem dashboard_contained {name contentType : String} (staticDir : List Char)
    (h : routeRequest req = .file name contentType) :
    resolve staticDir <+: resolve (filePath staticDir name) := by
  rw [resolve, resolve, filePath, components_append, List.foldl_append]
  refine isPrefix_foldl_enter (fun part hpart hdots => ?_) _
  exact file_no_dots h (hdots ▸ (parts_within _).2 part hpart)

theorem script_contained :
    resolve "/srv/www".toList <+: resolve (filePath "/srv/www".toList "app.js") :=
  have hroute : routeRequest { target := "/static/app.js" } =
      .file "app.js" "application/javascript" := by decide
  dashboard_contained "/srv/www".toList hroute

end Dashboard

end WebhookTrader
