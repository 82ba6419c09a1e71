import WebhookTrader.Webhook.Authentication
import WebhookTrader.Webhook.RateLimiter
import WebhookTrader.Webhook.Model.Listener

/-!
# What gets into the queue

In every order of connections, requests, time and workers, a queued
signal has come by a connection of its own from an address that may
connect, within the address's rate, as a valid signal with the configured
token. An error of the listener is final: what is answered after it comes
by a connection that was open before.
-/

namespace WebhookTrader

namespace Server

variable {cfg : FrontConfig} {parse : Text → Option Json} {now : ℕ} {withinRate : Bool}
  {queue queue' : List WebhookSignal} {req : Request} {resp : Response}

/-- **What a request does to the queue**: nothing, or it adds its valid and
authenticated signal at the end, where the rate limiter lets it. -/
theorem handleRequest_push
    (h : handleRequest cfg parse now withinRate queue req = .ok (resp, queue')) :
    queue' = queue ∨ ∃ sig, queue' = queue ++ [sig] ∧ isWebhook req = true ∧ withinRate = true ∧
      WebhookSignal.fromJson parse now req.body = .ok (some sig) ∧
        (cfg.authToken = "" ∨ sig.token = cfg.authToken) ∧ sig.isValid = true := by
  unfold handleRequest at h
  split_ifs at h with hhealth hother hrate
  · cases h; exact .inl rfl
  · cases h; exact .inl rfl
  · cases h; exact .inl rfl
  · cases hread : WebhookSignal.fromJson parse now req.body with
    | error e => simp [hread] at h
    | ok found =>
        cases found with
        | none =>
            simp only [hread, Except.ok.injEq, Prod.mk.injEq] at h
            exact .inl h.2.symm
        | some sig =>
            simp only [hread] at h
            split_ifs at h with htoken hvalid
            · cases h; exact .inl rfl
            · cases h; exact .inl rfl
            · simp only [Except.ok.injEq, Prod.mk.injEq] at h
              obtain ⟨-, rfl⟩ := h
              unfold tryPush
              split_ifs with hfull
              · exact .inl rfl
              · refine .inr ⟨sig, rfl, ?_, by simpa using hrate, rfl, ?_, by simpa using hvalid⟩
                · simpa [isWebhook] using hother
                · by_cases hempty : cfg.authToken = ""
                  · exact .inl hempty
                  · refine .inr (constantTimeEq_iff.1 ?_)
                    simpa [hempty] using htoken

end Server

namespace WebhookServer

open WebhookRateLimiter

variable {cfg : WebhookConfig} {parse : Text → Option Json} {s t : WebhookServer} {ip : String}

/-- The signal is the request's, valid and with the configured token. -/
structure Genuine (cfg : WebhookConfig) (parse : Text → Option Json) (a : Admission) : Prop where
  read : WebhookSignal.fromJson parse a.now a.body = .ok (some a.sig)
  token : cfg.front.authToken = "" ∨ a.sig.token = cfg.front.authToken
  valid : a.sig.isValid = true

/-- **What holds of the server between two steps.** -/
structure Admitting (cfg : WebhookConfig) (parse : Text → Option Json) (s : WebhookServer) :
    Prop where
  inOrder : Window.InOrder CheckCall.time s.checks
  past : ∀ c ∈ s.checks, c.time ≤ s.clock
  limiter : s.limiter = after s.checks (fresh 600 0)
  /-- Each admission is a call that was allowed. -/
  allowed : (s.admissions.map Admission.call).Sublist (allowed (fresh 600 0) s.checks)
  genuine : ∀ a ∈ s.admissions, Genuine cfg parse a
  vetted : ∀ remote ∈ s.connections, Server.ipAllowed cfg (Server.normalizeIp remote) = true
  /-- A connection is waiting, or has let in one signal at most. -/
  single : ∀ ip, s.admissions.countP (·.call.ip = ip) + s.sessions.count ip ≤
    s.connections.countP (Server.normalizeIp · = ip)
  queued : s.queue <:+ s.admissions.map Admission.sig

theorem admitting_init (h : (webhookSystem cfg parse).init s) : s.Admitting cfg parse := by
  obtain ⟨clock, rfl⟩ := h
  exact {
    inOrder := List.Pairwise.nil
    past c hc := absurd hc List.not_mem_nil
    limiter := rfl
    allowed := List.nil_sublist _
    genuine a ha := absurd ha List.not_mem_nil
    vetted remote hremote := absurd hremote List.not_mem_nil
    single ip := by simp
    queued := List.suffix_refl _ }

/-! ## The limiter -/

/-- **The limiter's call** keeps its books, and lets one more signal in where
it is allowed. -/
structure Limited (s : WebhookServer) (admissions : List Admission) : Prop where
  inOrder : Window.InOrder CheckCall.time s.checks
  past : ∀ c ∈ s.checks, c.time ≤ s.clock
  limiter : s.limiter = after s.checks (fresh 600 0)
  allowed : (admissions.map Admission.call).Sublist (allowed (fresh 600 0) s.checks)

variable {admissions : List Admission} {req : Request} {a : Admission}

@[simp] theorem checked_sessions : (s.checked ip req).sessions = s.sessions := by
  unfold WebhookServer.checked
  split_ifs <;> rfl

@[simp] theorem checked_connections : (s.checked ip req).connections = s.connections := by
  unfold WebhookServer.checked
  split_ifs <;> rfl

@[simp] theorem checked_queue : (s.checked ip req).queue = s.queue := by
  unfold WebhookServer.checked
  split_ifs <;> rfl

@[simp] theorem checked_admissions : (s.checked ip req).admissions = s.admissions := by
  unfold WebhookServer.checked
  split_ifs <;> rfl

theorem Limited.checked (h : s.Limited admissions) (ip : String) (req : Request) :
    (s.checked ip req).Limited admissions := by
  unfold WebhookServer.checked
  split_ifs with hwebhook
  · constructor
    case inOrder =>
      refine List.pairwise_append.2 ⟨h.inOrder, List.pairwise_singleton _ _, fun c hc d hd => ?_⟩
      rw [List.mem_singleton.1 hd]
      exact h.past c hc
    case past =>
      intro c hc
      rcases List.mem_append.1 hc with hold | hnew
      · exact h.past c hold
      · rw [List.mem_singleton.1 hnew]
    case limiter => rw [after_concat, ← h.limiter]
    case allowed =>
      rw [allowed_concat]
      exact h.allowed.trans (List.sublist_append_left _ _)
  · exact h

/-- A call that is allowed. -/
theorem Limited.admit (h : s.Limited admissions) (hwebhook : Server.isWebhook req = true)
    (hrate : s.withinRate ip req = true) (ha : a.call = ⟨s.clock, ip⟩) :
    (s.checked ip req).Limited (admissions ++ [a]) := by
  obtain ⟨hinOrder, hpast, hlimiter, -⟩ := h.checked ip req
  refine ⟨hinOrder, hpast, hlimiter, ?_⟩
  have hallows : (after s.checks (fresh 600 0)).allows ⟨s.clock, ip⟩ = true := by
    rw [← h.limiter]
    simpa [withinRate, hwebhook] using hrate
  rw [WebhookServer.checked, if_pos hwebhook]
  simp only [allowed_concat, hallows, if_true, List.map_append, List.map_singleton, ha]
  exact h.allowed.append (List.Sublist.refl _)

/-! ## The steps -/

theorem Admitting.limited (h : s.Admitting cfg parse) : s.Limited s.admissions :=
  ⟨h.inOrder, h.past, h.limiter, h.allowed⟩

/-- Fewer sessions, and a later clock. -/
theorem Admitting.of_le (h : s.Admitting cfg parse)
    (hsessions : ∀ ip, t.sessions.count ip ≤ s.sessions.count ip) (hclock : s.clock ≤ t.clock)
    (hqueue : t.queue <:+ s.queue) (hlimiter : t.limiter = s.limiter)
    (hchecks : t.checks = s.checks) (hadmissions : t.admissions = s.admissions)
    (hconnections : t.connections = s.connections) :
    t.Admitting cfg parse where
  inOrder := hchecks ▸ h.inOrder
  past c hc := (h.past c (hchecks ▸ hc)).trans hclock
  limiter := by rw [hlimiter, hchecks, h.limiter]
  allowed := by rw [hadmissions, hchecks]; exact h.allowed
  genuine := hadmissions ▸ h.genuine
  vetted := hconnections ▸ h.vetted
  single ip := by
    rw [hadmissions, hconnections]
    exact (Nat.add_le_add_left (hsessions ip) _).trans (h.single ip)
  queued := by rw [hadmissions]; exact hqueue.trans h.queued

theorem Admitting.onAccept (h : s.Admitting cfg parse) (found : Accepted) :
    (s.onAccept cfg found).Admitting cfg parse := by
  cases found with
  | error => exact h.of_le (fun _ => le_rfl) le_rfl (List.suffix_refl _) rfl rfl rfl rfl
  | gone => exact h.of_le (fun _ => le_rfl) le_rfl (List.suffix_refl _) rfl rfl rfl rfl
  | connection remote =>
      unfold WebhookServer.onAccept
      dsimp only
      split_ifs with hallowed
      · refine { h with vetted := fun r hr => ?_, single := fun ip => ?_ }
        · rcases List.mem_append.1 hr with hold | hnew
          · exact h.vetted r hold
          · rw [List.mem_singleton.1 hnew]
            exact hallowed
        · rw [List.count_append, List.countP_append, List.count_singleton, List.countP_singleton]
          have hsingle := h.single ip
          by_cases hip : Server.normalizeIp remote = ip
          · simp only [hip, beq_self_eq_true, decide_true, if_true]
            omega
          · simp [hip]
            omega
      · exact h

/-- **A session's request**, where the session has been waiting. -/
theorem Admitting.onRequest {now : ℕ}
    (h : Admitting cfg parse { s with sessions := ip :: s.sessions }) :
    (s.onRequest cfg parse ip now req).Admitting cfg parse := by
  have hbefore : s.Admitting cfg parse :=
    h.of_le (fun ip => by simp only [List.count_cons]; omega) le_rfl (List.suffix_refl _) rfl rfl
      rfl rfl
  unfold WebhookServer.onRequest
  dsimp only
  split
  · have hlimited : (s.checked ip req).Limited s.admissions := hbefore.limited.checked ip req
    exact ⟨hlimited.inOrder, hlimited.past, hlimited.limiter, by simpa using hlimited.allowed,
      by simpa using hbefore.genuine, by simpa using hbefore.vetted, by simpa using hbefore.single,
      by simpa using hbefore.queued⟩
  · rename_i resp queue' hreq
    rcases Server.handleRequest_push hreq with
      rfl | ⟨sig, rfl, hwebhook, hrate, hread, htoken, hvalid⟩
    · have hlimited : (s.checked ip req).Limited s.admissions := hbefore.limited.checked ip req
      exact ⟨hlimited.inOrder, hlimited.past, hlimited.limiter, by simpa using hlimited.allowed,
        by simpa using hbefore.genuine, by simpa using hbefore.vetted,
        by simpa using hbefore.single, by simpa using hbefore.queued⟩
    · have hnew : (s.queue ++ [sig]).drop s.queue.length = [sig] := List.drop_left
      rw [hnew, List.map_singleton]
      have hlimited := hbefore.limited.admit (a := ⟨⟨s.clock, ip⟩, req.body, now, sig⟩) hwebhook
        hrate rfl
      refine ⟨hlimited.inOrder, hlimited.past, hlimited.limiter, hlimited.allowed, fun a ha => ?_,
        by simpa using hbefore.vetted, fun ip' => ?_, ?_⟩
      · rcases List.mem_append.1 ha with hold | hlast
        · exact hbefore.genuine a hold
        · rw [List.mem_singleton.1 hlast]
          exact ⟨hread, htoken, hvalid⟩
      · -- the session that has waited is the one that lets the signal in
        have hsingle := h.single ip'
        simp only [List.count_cons] at hsingle
        simp only [checked_sessions, checked_connections, List.countP_append, List.countP_singleton]
        by_cases hip : ip = ip'
        · simp only [hip, beq_self_eq_true, decide_true, if_true] at hsingle ⊢
          omega
        · simp only [hip, beq_iff_eq, decide_false, if_false, Bool.false_eq_true] at hsingle ⊢
          omega
      · obtain ⟨gone, hgone⟩ := hbefore.queued
        exact ⟨gone, by simp [← hgone]⟩

/-- **One step.** -/
theorem Admitting.next {label : Label} (h : s.Admitting cfg parse)
    (hnext : WebhookServer.next cfg parse s label = some t) : t.Admitting cfg parse := by
  -- a session that is gone leaves the others
  have hcount : ∀ (i : ℕ) (ip : String), (s.sessions.eraseIdx i).count ip ≤ s.sessions.count ip :=
    fun i ip => (List.eraseIdx_sublist _ _).count_le ip
  cases label with
  | accept found =>
      simp only [WebhookServer.next] at hnext
      split_ifs at hnext
      cases hnext
      exact h.onAccept found
  | request i now req =>
      simp only [WebhookServer.next] at hnext
      split at hnext
      · cases hnext
      · rename_i ip hip
        split_ifs at hnext with hrunning hlong
        · cases hnext
          exact h.of_le (hcount i) le_rfl (List.suffix_refl _) rfl rfl rfl rfl
        · cases hnext
          refine Admitting.onRequest (h.of_le (fun ip' => ?_) le_rfl (List.suffix_refl _) rfl rfl
            rfl rfl)
          obtain ⟨hi, rfl⟩ := List.getElem?_eq_some_iff.1 hip
          exact ((List.getElem_cons_eraseIdx_perm hi).count_eq ip').le
  | lost i =>
      simp only [WebhookServer.next] at hnext
      split_ifs at hnext
      cases hnext
      exact h.of_le (hcount i) le_rfl (List.suffix_refl _) rfl rfl rfl rfl
  | pop =>
      simp only [WebhookServer.next] at hnext
      split at hnext
      · cases hnext
      · rename_i sig queue hqueue
        cases hnext
        refine h.of_le (fun _ => le_rfl) le_rfl ?_ rfl rfl rfl rfl
        rw [hqueue]
        exact List.suffix_cons _ _
  | tick elapsed =>
      cases hnext
      exact h.of_le (fun _ => le_rfl) (by simp) (List.suffix_refl _) rfl rfl rfl rfl

theorem admitting_of_reachable (h : (webhookSystem cfg parse).Reachable System.anyStep s) :
    s.Admitting cfg parse :=
  h.invariant (fun _ => admitting_init) fun _ _ _ hs _ hnext => hs.next hnext

/-! ## The whole server -/

/-- **Every queued signal has passed all the gates**: the queue is the end of
a list of admissions, each of a valid signal with the configured token; of
any address there are no more of them than connections from it, all of
them allowed, and no more than 600 in any minute. -/
theorem every_gate_passed (h : (webhookSystem cfg parse).Reachable System.anyStep s) :
    s.queue <:+ s.admissions.map Admission.sig ∧
      (∀ a ∈ s.admissions, Genuine cfg parse a) ∧
      (∀ remote ∈ s.connections, Server.ipAllowed cfg (Server.normalizeIp remote) = true) ∧
      ∀ ip, s.admissions.countP (·.call.ip = ip) ≤
          s.connections.countP (Server.normalizeIp · = ip) ∧
        ∀ a : ℤ, s.admissions.countP (fun x => x.call.ip = ip &&
          decide (a ≤ x.call.time ∧ x.call.time ≤ a + 60 * oneSecond)) ≤ 600 := by
  have hadmitting := admitting_of_reachable h
  refine ⟨hadmitting.queued, hadmitting.genuine, hadmitting.vetted, fun ip => ⟨?_, fun a => ?_⟩⟩
  · exact (Nat.le_add_right _ _).trans (hadmitting.single ip)
  · have hcalls := hadmitting.allowed.countP_le (p := fun c => c.ip = ip &&
      decide (a ≤ c.time ∧ c.time ≤ a + 60 * oneSecond))
    rw [List.countP_map] at hcalls
    refine hcalls.trans ?_
    rw [countP_allowed hadmitting.inOrder ip
      fun t => decide (a ≤ t ∧ t ≤ a + 60 * oneSecond)]
    exact admitted_minute_le 600 _ a

/-! A mapped address, its connection and its signal. -/

namespace Mapped

open Front (parseBuy buyText boughtSignal fromJson_buySignal parseBuy_buyText)

def config : WebhookConfig := { allowedIps := ["1.2.3.4"] }

def request : Request := ⟨.post, "/webhook", buyText⟩

def connected : WebhookServer :=
  { sessions := ["1.2.3.4"], connections := ["::ffff:1.2.3.4"] }

def received : WebhookServer :=
  WebhookServer.onRequest config parseBuy { connected with sessions := [] } "1.2.3.4" 0 request

theorem next_accept : (webhookSystem config parseBuy).next {}
    (.accept (.connection "::ffff:1.2.3.4")) = some connected := by
  have hplain : Server.normalizeIp "::ffff:1.2.3.4" = "1.2.3.4" := by decide
  simp [webhookSystem, WebhookServer.next, WebhookServer.onAccept, hplain, Server.ipAllowed, config,
    connected]

theorem next_request : (webhookSystem config parseBuy).next connected (.request 0 0 request) =
    some received := by
  have hshort : ¬ config.maxBodySize < request.body.length := by decide
  simp only [webhookSystem, WebhookServer.next, hshort, if_false]
  rfl

theorem queue_received : received.queue = [boughtSignal ""] := by
  have hread : WebhookSignal.fromJson parseBuy 0 buyText = .ok (some (boughtSignal "")) :=
    fromJson_buySignal parseBuy_buyText
  have hrate :
      WebhookServer.withinRate { connected with sessions := [] } "1.2.3.4" request = true := rfl
  have hhandle : Server.handleRequest config.front parseBuy 0 true [] request =
      .ok (⟨.ok, "\x7b\x22status\x22:\x22accepted\x22\x7d"⟩, [boughtSignal ""]) := by
    simp [Server.handleRequest, hread, WebhookSignal.isValid, boughtSignal, request, config,
      tryPush, queueCapacity]
  have hqueue : ({ connected with sessions := [] } : WebhookServer).queue = [] := rfl
  rw [received, WebhookServer.onRequest, hrate, hqueue, hhandle]

end Mapped

theorem mapped_address_passes : ∃ s : WebhookServer, s.queue = [Front.boughtSignal ""] ∧
    ∀ remote ∈ s.connections, Server.ipAllowed Mapped.config (Server.normalizeIp remote) = true :=
  have hrun : (webhookSystem Mapped.config Front.parseBuy).Run System.anyStep {} Mapped.received :=
    (System.Run.refl.tail trivial Mapped.next_accept).tail trivial Mapped.next_request
  ⟨_, Mapped.queue_received, (every_gate_passed ⟨{}, ⟨0, rfl⟩, hrun⟩).2.2.1⟩

/-! ## An error of the listener -/

/-- A request lets one signal in at most, and changes nothing of the
connections. -/
theorem onRequest_frame (ip : String) (now : ℕ) (req : Request) :
    (s.onRequest cfg parse ip now req).accepting = s.accepting ∧
      (s.onRequest cfg parse ip now req).connections = s.connections ∧
      (s.onRequest cfg parse ip now req).sessions = s.sessions ∧
      (s.onRequest cfg parse ip now req).admissions.length ≤ s.admissions.length + 1 := by
  have haccepting : (s.checked ip req).accepting = s.accepting := by
    unfold WebhookServer.checked
    split_ifs <;> rfl
  unfold WebhookServer.onRequest
  dsimp only
  split
  · exact ⟨haccepting, checked_connections, checked_sessions, by simp⟩
  · rename_i resp queue' hreq
    refine ⟨haccepting, checked_connections, checked_sessions, ?_⟩
    rcases Server.handleRequest_push hreq with rfl | ⟨sig, rfl, -⟩
    · simp
    · simp

/-- **An error is final**: whatever the run, no connection is accepted after
it, and what is let in comes by the sessions that are open. -/
theorem accept_error_final (hfailed : s.accepting = false)
    (hrun : (webhookSystem cfg parse).Run System.anyStep s t) :
    t.connections = s.connections ∧
      t.admissions.length + t.sessions.length ≤ s.admissions.length + s.sessions.length := by
  have hinv : t.accepting = false ∧ t.connections = s.connections ∧
      t.admissions.length + t.sessions.length ≤ s.admissions.length + s.sessions.length := by
    refine hrun.invariant (I := fun u => u.accepting = false ∧ u.connections = s.connections ∧
      u.admissions.length + u.sessions.length ≤ s.admissions.length + s.sessions.length)
      (fun u label v hu _ hnext => ?_) ⟨hfailed, rfl, le_rfl⟩
    obtain ⟨hclosed, hconnections, hle⟩ := hu
    simp only [webhookSystem] at hnext
    cases label with
    | accept found => simp [WebhookServer.next, hclosed] at hnext
    | request i now req =>
        simp only [WebhookServer.next] at hnext
        split at hnext
        · cases hnext
        · rename_i ip hip
          have hshorter := List.length_eraseIdx_add_one (List.getElem?_eq_some_iff.1 hip).1
          split_ifs at hnext with hrunning hlong
          · cases hnext
            exact ⟨hclosed, hconnections, by dsimp only; omega⟩
          · cases hnext
            obtain ⟨haccepting, hsame, hsessions, hone⟩ :=
              @onRequest_frame cfg parse { u with sessions := u.sessions.eraseIdx i } ip now req
            refine ⟨haccepting.trans hclosed, hsame.trans hconnections, ?_⟩
            rw [hsessions]
            dsimp only at hone ⊢
            omega
    | lost i =>
        simp only [WebhookServer.next] at hnext
        split_ifs at hnext
        cases hnext
        have hshorter := (List.eraseIdx_sublist u.sessions i).length_le
        exact ⟨hclosed, hconnections, by dsimp only; omega⟩
    | pop =>
        simp only [WebhookServer.next] at hnext
        split at hnext
        · cases hnext
        · cases hnext
          exact ⟨hclosed, hconnections, hle⟩
    | tick elapsed =>
        cases hnext
        exact ⟨hclosed, hconnections, hle⟩
  exact hinv.2

/-- A listener that has failed, with a session open. -/
theorem one_session_left : ∃ t : WebhookServer, t.sessions = [] ∧ t.connections = ["1.2.3.4"] ∧
    t.admissions.length + t.sessions.length ≤ 1 := by
  have hlost : (webhookSystem {} Front.parseBuy).next
      { accepting := false, sessions := ["1.2.3.4"], connections := ["1.2.3.4"] } (.lost 0) =
        some { accepting := false, connections := ["1.2.3.4"] } := rfl
  have hfinal := accept_error_final rfl (System.Run.refl.tail trivial hlost)
  exact ⟨_, rfl, hfinal⟩

end WebhookServer

end WebhookTrader
