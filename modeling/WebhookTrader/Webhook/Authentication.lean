import WebhookTrader.Webhook.Model.Server
import Mathlib.Data.List.Sort

/-!
# Real orders and authenticated signals

A real order needs the shadow mode off, and `main` demands a proper token
before it starts with the mode off. The periodic switch turns the mode
off later and looks at no token, and with an empty one `handle_request`
checks none. So the signals queued while real orders are possible are
authenticated in every run exactly where the token is proper or the
switch is not configured.
-/

namespace WebhookTrader

namespace Server

variable {cfg : FrontConfig} {parse : Text → Option Json} {now : ℕ} {withinRate : Bool}
  {queue queue' : List WebhookSignal} {req : Request} {resp : Response} {sig : WebhookSignal}

/-! ## What a request may queue -/

theorem mem_tryPush {α : Type} {capacity : ℕ} {queue : List α} {item x : α}
    (h : x ∈ (tryPush capacity queue item).2) : x ∈ queue ∨ x = item := by
  rw [tryPush] at h
  split at h
  · exact .inl h
  · simpa using h

/-- **A new signal in the queue is the request's**, read from its body, and
carries the configured token wherever one is configured. -/
theorem handleRequest_queue
    (h : handleRequest cfg parse now withinRate queue req = .ok (resp, queue'))
    (hsig : sig ∈ queue') :
    sig ∈ queue ∨ WebhookSignal.fromJson parse now req.body = .ok (some sig) ∧
      (cfg.authToken = "" ∨ sig.token = cfg.authToken) := by
  unfold handleRequest at h
  split_ifs at h
  · cases h; exact .inl hsig
  · cases h; exact .inl hsig
  · cases h; exact .inl hsig
  · cases hread : WebhookSignal.fromJson parse now req.body with
    | error e => simp [hread] at h
    | ok found =>
        cases found with
        | none =>
            simp only [hread, Except.ok.injEq, Prod.mk.injEq] at h
            obtain ⟨-, rfl⟩ := h
            exact .inl hsig
        | some sig' =>
            simp only [hread] at h
            split_ifs at h with htoken hvalid
            · cases h; exact .inl hsig
            · cases h; exact .inl hsig
            · cases h
              rcases mem_tryPush hsig with hsig | rfl
              · exact .inl hsig
              · refine .inr ⟨rfl, ?_⟩
                by_cases hempty : cfg.authToken = ""
                · exact .inl hempty
                · refine .inr (constantTimeEq_iff.1 ?_)
                  simpa [hempty] using htoken

end Server

namespace Front

variable {cfg : FrontConfig} {parse : Text → Option Json}

/-- **A queued signal is authenticated**: a request that was received reads
as it, and its token is a proper one and the configured one. -/
def Authenticated (cfg : FrontConfig) (parse : Text → Option Json) (s : Front)
    (sig : WebhookSignal) : Prop :=
  (∃ req ∈ s.received, ∃ now, WebhookSignal.fromJson parse now req.body = .ok (some sig)) ∧
    sig.token = cfg.authToken ∧ cfg.properToken = true

/-- What the front keeps whatever happens: a queued signal comes from a
request and passed the token check where there is one, and without the
switch the mode is the configured one. -/
structure Inv (cfg : FrontConfig) (parse : Text → Option Json) (s : Front) : Prop where
  received : ∀ sig ∈ s.queue,
    (∃ req ∈ s.received, ∃ now, WebhookSignal.fromJson parse now req.body = .ok (some sig)) ∧
      (cfg.authToken = "" ∨ sig.token = cfg.authToken)
  fixed : cfg.autoLive = false →
    s.periodic = .idle ∧ s.modes.shadowMode = cfg.shadowMode

theorem inv_next {s t : Front} {l : Label} (hs : s.Inv cfg parse)
    (h : Front.next cfg parse s l = some t) : t.Inv cfg parse := by
  cases l with
  | request now withinRate req =>
      simp only [Front.next] at h
      split at h
      · rename_i resp queue hreq
        cases h
        refine ⟨fun sig hsig => ?_, hs.fixed⟩
        rcases Server.handleRequest_queue hreq hsig with hold | ⟨hread, htoken⟩
        · obtain ⟨⟨req', hreq', hnow⟩, htoken⟩ := hs.received sig hold
          exact ⟨⟨req', List.mem_cons_of_mem _ hreq', hnow⟩, htoken⟩
        · exact ⟨⟨req, List.mem_cons_self, now, hread⟩, htoken⟩
      · cases h
        refine ⟨fun sig hsig => ?_, hs.fixed⟩
        obtain ⟨⟨req', hreq', hnow⟩, htoken⟩ := hs.received sig hsig
        exact ⟨⟨req', List.mem_cons_of_mem _ hreq', hnow⟩, htoken⟩
  | pop =>
      simp only [Front.next] at h
      split at h
      · cases h
      · rename_i sig queue hqueue
        cases h
        exact ⟨fun sig' hsig => hs.received sig' (hqueue ▸ List.mem_cons_of_mem _ hsig), hs.fixed⟩
  | check reports =>
      simp only [Front.next] at h
      split at h
      · rename_i hauto
        cases h
        exact ⟨hs.received, fun hoff => by simp [hauto.2] at hoff⟩
      · cases h
  | periodic =>
      simp only [Front.next, Option.map_eq_some_iff] at h
      obtain ⟨⟨periodic, modes⟩, hstep, rfl⟩ := h
      refine ⟨hs.received, fun hoff => ?_⟩
      rw [(hs.fixed hoff).1] at hstep
      cases hstep

theorem inv_reachable {t : Front} (h : (frontSystem cfg parse).Reachable System.anyStep t) :
    t.Inv cfg parse := by
  refine h.invariant ?_ fun s l t hs _ hn => inv_next hs hn
  rintro s ⟨-, rfl⟩
  exact ⟨fun sig hsig => (List.not_mem_nil hsig).elim, fun _ => ⟨rfl, rfl⟩⟩

/-! ## The switch can always be thrown -/

/-- As many proven symbols as the configuration asks for. -/
def provenReports (cfg : ReadinessConfig) : Reports where
  futures := (List.range cfg.minSymbolsForLive.toNat).map fun i =>
    { symbol := "S" ++ toString i
      grade := "A"
      total := max 15 cfg.minTradesProven
      totalPnl := 1 }

theorem level_of_proven {cfg : ReadinessConfig} {e : ReportEntry} (hgrade : e.grade = "A")
    (htotal : 15 ≤ e.total) (hmin : cfg.minTradesProven ≤ e.total) (hpnl : 0 < e.totalPnl) :
    (Readiness.level cfg e).1 = .proven := by
  have hfive : ¬ e.total < 5 := by omega
  have hfifteen : ¬ e.total < 15 := by omega
  simp [Readiness.level, hgrade, hfive, hfifteen, hmin, hpnl]

theorem check_provenReports (cfg : ReadinessConfig) :
    (Readiness.check cfg (provenReports cfg)).1 = true := by
  have hall : ∀ r ∈ Readiness.evaluateAll cfg (provenReports cfg).futures [],
      decide (r.level = ReadinessLevel.proven) = true := by
    intro r hr
    rw [Readiness.evaluateAll, List.mem_mergeSort] at hr
    simp only [List.map_nil, List.append_nil, provenReports, List.map_map, List.mem_map] at hr
    obtain ⟨i, -, rfl⟩ := hr
    exact decide_eq_true
      (level_of_proven rfl (le_max_left _ _) (le_max_right _ _) one_pos)
  have hcount : (Readiness.evaluateAll cfg (provenReports cfg).futures []).countP
      (fun r => decide (r.level = .proven)) = cfg.minSymbolsForLive.toNat := by
    rw [List.countP_eq_length.2 hall]
    simp [Readiness.evaluateAll, provenReports]
  have hle : cfg.minSymbolsForLive ≤ cfg.minSymbolsForLive.toNat := Int.self_le_toNat _
  simp only [Readiness.check, Readiness.refreshEligible, Readiness.getPipelineStatus]
  refine decide_eq_true ?_
  have hspot : (provenReports cfg).spot = [] := rfl
  rw [hspot, hcount]
  push_cast
  omega

/-- **A check on such reports turns the shadow mode off.** -/
theorem exists_activation (parse : Text → Option Json) (hauto : cfg.autoLive = true) {s : Front}
    (hidle : s.periodic = .idle) (hmode : s.modes.shadowMode = true)
    (hactive : s.modes.autoLiveActive = false) :
    ∃ t, (frontSystem cfg parse).Run System.anyStep s t ∧ t.modes.shadowMode = false ∧
      t.queue = s.queue := by
  have hcan := check_provenReports cfg.readiness
  obtain ⟨modes, periodic, queue, received⟩ := s
  obtain rfl : periodic = .idle := hidle
  let keys := (Readiness.check cfg.readiness (provenReports cfg.readiness)).2
  have h1 : (frontSystem cfg parse).next ⟨modes, .idle, queue, received⟩
      (.check (provenReports cfg.readiness)) =
      some ⟨modes, .publish true keys, queue, received⟩ := by
    simp [frontSystem, Front.next, hauto, Periodic.begin, hcan, keys]
  let m := { modes with eligibleKeys := keys }
  have h2 : (frontSystem cfg parse).next ⟨modes, .publish true keys, queue, received⟩ .periodic =
      some ⟨m, .upShadow, queue, received⟩ := rfl
  have h3 : (frontSystem cfg parse).next ⟨m, .upShadow, queue, received⟩ .periodic =
      some ⟨m, .upActive, queue, received⟩ := by
    simp only [frontSystem, Front.next, Periodic.step, Option.map_some, m] at hmode ⊢
    simp [hmode]
  have h4 : (frontSystem cfg parse).next ⟨m, .upActive, queue, received⟩ .periodic =
      some ⟨m, .setActive, queue, received⟩ := by
    simp only [frontSystem, Front.next, Periodic.step, Option.map_some, m] at hactive ⊢
    simp [hactive]
  have h5 : (frontSystem cfg parse).next ⟨m, .setActive, queue, received⟩ .periodic =
      some ⟨{ m with autoLiveActive := true }, .clearShadow, queue, received⟩ := rfl
  have h6 : (frontSystem cfg parse).next
      ⟨{ m with autoLiveActive := true }, .clearShadow, queue, received⟩ .periodic =
      some ⟨{ m with autoLiveActive := true, shadowMode := false }, .clearRisk, queue,
        received⟩ := rfl
  have hup : (frontSystem cfg parse).Run System.anyStep ⟨modes, .idle, queue, received⟩
      ⟨m, .setActive, queue, received⟩ :=
    (((System.Run.refl.tail trivial h1).tail trivial h2).tail trivial h3).tail trivial h4
  exact ⟨_, (hup.tail trivial h5).tail trivial h6, rfl, rfl⟩

/-- A buy signal in the generic format, with a given token. -/
def buySignal (token : String) : Json :=
  .obj [("action", .str "buy"), ("symbol", .str "BTCUSDT"), ("price", .int 1),
    ("token", .str token)]

/-- What `parse_generic` makes of it. -/
def boughtSignal (token : String) : WebhookSignal where
  symbol := "BTCUSDT"
  action := "buy"
  tradeSide := "open"
  sigType := .entry
  price := 1
  token

theorem fromJson_buySignal {token : String} {body : Text}
    (h : parse body = some (buySignal token)) :
    WebhookSignal.fromJson parse 0 body = .ok (some (boughtSignal token)) := by
  have hsome : body.attempts.findSome? parse = some (buySignal token) := by
    simp [Text.attempts, h]
  rw [WebhookSignal.fromJson, hsome]
  rfl

/-- **Without a proper token the switch lets an unauthenticated signal
in**: the program starts in shadow mode, the mode is turned off, and the
next request is queued under the token it is asked for, if any. -/
theorem exists_unauthenticated (hstart : cfg.starts = true) (htoken : cfg.properToken = false)
    (hauto : cfg.autoLive = true) {body : Text}
    (hbody : parse body = some (buySignal cfg.authToken)) :
    ∃ t, (frontSystem cfg parse).Reachable System.anyStep t ∧ t.modes.shadowMode = false ∧
      boughtSignal cfg.authToken ∈ t.queue := by
  have hshadow : cfg.shadowMode = true := by simpa [FrontConfig.starts, htoken] using hstart
  obtain ⟨t, hrun, hmode, hqueue⟩ := exists_activation parse hauto
    (s := { modes := Modes.start cfg.shadowMode }) rfl hshadow rfl
  let req : Request := ⟨.post, "/webhook", body⟩
  have hread : WebhookSignal.fromJson parse 0 req.body = .ok (some (boughtSignal cfg.authToken)) :=
    fromJson_buySignal hbody
  have hvalid : (boughtSignal cfg.authToken).isValid = true := by
    simp [WebhookSignal.isValid, boughtSignal]
  have hsame : Server.constantTimeEq (boughtSignal cfg.authToken).token cfg.authToken = true :=
    Server.constantTimeEq_iff.2 rfl
  have hnext : (frontSystem cfg parse).next t (.request 0 true req) =
      some { t with queue := [boughtSignal cfg.authToken], received := req :: t.received } := by
    simp [frontSystem, Front.next, Server.handleRequest, hread, hvalid, hsame, hqueue, tryPush,
      queueCapacity, req]
  exact ⟨_, ⟨_, ⟨hstart, rfl⟩, hrun.tail trivial hnext⟩, hmode, List.mem_singleton_self _⟩

/-- **When the queue is authenticated whenever real orders are possible.**
For every configuration `main` starts with and every parser that reads
some body as a signal with the configured token: in every run, on any
reports and requests, exactly where the token is proper or the automatic
switch is off. -/
theorem authenticated_iff (hstart : cfg.starts = true) {body : Text}
    (hbody : parse body = some (buySignal cfg.authToken)) :
    (∀ t, (frontSystem cfg parse).Reachable System.anyStep t → t.modes.shadowMode = false →
        ∀ sig ∈ t.queue, t.Authenticated cfg parse sig) ↔
      cfg.properToken = true ∨ cfg.autoLive = false := by
  constructor
  · intro hall
    by_contra hcon
    rw [not_or, Bool.not_eq_true, Bool.not_eq_false] at hcon
    obtain ⟨t, ht, hmode, hmem⟩ := exists_unauthenticated hstart hcon.1 hcon.2 hbody
    have hauth := hall t ht hmode _ hmem
    exact Bool.false_ne_true (hcon.1.symm.trans hauth.2.2)
  · intro hcfg t ht hmode sig hsig
    have hinv := inv_reachable ht
    have hproper : cfg.properToken = true := by
      rcases hcfg with hproper | hoff
      · exact hproper
      · have hshadow : cfg.shadowMode = false := (hinv.fixed hoff).2.symm.trans hmode
        simpa [FrontConfig.starts, hshadow] using hstart
    obtain ⟨hreq, htoken⟩ := hinv.received sig hsig
    have hne : cfg.authToken ≠ "" := by
      rw [FrontConfig.properToken, Bool.and_eq_true, decide_eq_true_eq] at hproper
      exact hproper.1
    exact ⟨hreq, htoken.resolve_left hne, hproper⟩

/-- The text of a buy signal with an empty token. -/
def buyText : Text :=
  ("\x7b\x22action\x22:\x22buy\x22,\x22symbol\x22:\x22BTCUSDT\x22," ++
    "\x22price\x22:1,\x22token\x22:\x22\x22\x7d").toList.map Text.byte

/-- A parser that reads this text and discards every other. -/
def parseBuy (t : Text) : Option Json := if t = buyText then some (buySignal "") else none

theorem parseBuy_buyText : parseBuy buyText = some (buySignal "") := if_pos rfl

theorem authenticated_iff_shipped :
    FrontConfig.starts { authToken := "", shadowMode := true } = true ∧
      ((∀ t, (frontSystem { authToken := "", shadowMode := true } parseBuy).Reachable
          System.anyStep t → t.modes.shadowMode = false →
          ∀ sig ∈ t.queue, t.Authenticated { authToken := "", shadowMode := true } parseBuy sig) ↔
        FrontConfig.properToken { authToken := "", shadowMode := true } = true ∨
          FrontConfig.autoLive { authToken := "", shadowMode := true } = false) :=
  ⟨rfl, authenticated_iff rfl parseBuy_buyText⟩

/-- **Unauthenticated real orders.** Started in shadow mode with an empty
token, the program reaches a state with the mode off and a signal in the
queue that nothing authenticated. -/
theorem unauthenticated_when_switched :
    FrontConfig.starts { authToken := "", shadowMode := true } = true ∧
      ∃ t, (frontSystem { authToken := "", shadowMode := true } parseBuy).Reachable
          System.anyStep t ∧ t.modes.shadowMode = false ∧
        ∃ sig ∈ t.queue,
          ¬ t.Authenticated { authToken := "", shadowMode := true } parseBuy sig := by
  refine ⟨rfl, ?_⟩
  obtain ⟨t, ht, hmode, hmem⟩ := exists_unauthenticated
    (rfl : FrontConfig.starts { authToken := "", shadowMode := true } = true) rfl rfl
    parseBuy_buyText
  refine ⟨t, ht, hmode, _, hmem, fun hauth => ?_⟩
  cases hauth.2.2

end Front

end WebhookTrader
