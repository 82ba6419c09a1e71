import WebhookTrader.Webhook.Model.RateLimiter
import WebhookTrader.Webhook.Model.Server

/-!
# The listener and its sessions

`WebhookListener`, which accepts one connection after the other and asks
for the next one at the end of its handler, and `WebhookSession`, which
answers one request and shuts its connection down. An exception that
leaves a handler ends the program.
-/

namespace WebhookTrader

/-- What the server is configured with. -/
structure WebhookConfig where
  front : FrontConfig := {}
  /-- `allowed_ips`, where an empty set allows every address. -/
  allowedIps : List String := []
  maxBodySize : ℕ := 4096
  deriving DecidableEq, Repr

namespace Server

/-- The text a mapped address begins with. -/
def mapped : String := "::ffff:"

/-- **`normalize_ip`**: an IPv4 address that is written as one of IPv6. -/
def normalizeIp (ip : String) : String :=
  if mapped.length < ip.length ∧ ip.toList.take mapped.length = mapped.toList then
    String.ofList (ip.toList.drop mapped.length)
  else ip

/-- The address may connect. -/
def ipAllowed (cfg : WebhookConfig) (ip : String) : Bool :=
  cfg.allowedIps.isEmpty || cfg.allowedIps.contains ip

/-- The request is one the rate limiter is asked about. -/
def isWebhook (req : Request) : Bool := req.method = .post && req.target = "/webhook"

end Server

/-- **What the handler of `async_accept` finds.** -/
inductive Accepted
  /-- A connection, from an address. -/
  | connection (remote : String)
  /-- A connection that has gone again, whose address cannot be asked
  for. -/
  | gone
  | error
  deriving DecidableEq, Repr

/-- **A signal's way in**: the limiter's call, the request's body and the
milliseconds at which it was read. -/
structure Admission where
  call : CheckCall
  body : Text
  now : ℕ
  sig : WebhookSignal
  deriving DecidableEq

/-- **The server**, with what it has let in so far. -/
structure WebhookServer where
  /-- No exception has left a handler. -/
  running : Bool := true
  /-- A connection is being waited for. -/
  accepting : Bool := true
  limiter : WebhookRateLimiter := {}
  queue : List WebhookSignal := []
  /-- The addresses of the sessions that wait for their request. -/
  sessions : List String := []
  totalRequests : ℕ := 0
  /-- The steady clock. -/
  clock : ℤ := 0
  /-- The addresses of all connections that have become sessions. -/
  connections : List String := []
  checks : List CheckCall := []
  admissions : List Admission := []

namespace WebhookServer

inductive Label
  | accept (found : Accepted)
  /-- A session's request has been read. -/
  | request (i : ℕ) (now : ℕ) (req : Request)
  /-- A session ends without one. -/
  | lost (i : ℕ)
  /-- A worker takes the next signal. -/
  | pop
  | tick (elapsed : ℕ)

/-- `do_accept`'s handler: after an error it asks for no other connection. -/
def onAccept (cfg : WebhookConfig) (s : WebhookServer) : Accepted → WebhookServer
  | .error => { s with accepting := false }
  | .gone => { s with running := false }
  | .connection remote =>
      if Server.ipAllowed cfg (Server.normalizeIp remote) then
        { s with
          sessions := s.sessions ++ [Server.normalizeIp remote]
          connections := s.connections ++ [remote] }
      else s

/-- The rate limiter's answer, where it is asked. -/
def withinRate (s : WebhookServer) (ip : String) (req : Request) : Bool :=
  if Server.isWebhook req then s.limiter.allows ⟨s.clock, ip⟩ else true

/-- The limiter's call, where it is asked. -/
def checked (s : WebhookServer) (ip : String) (req : Request) : WebhookServer :=
  if Server.isWebhook req then
    { s with
      limiter := (s.limiter.check ip s.clock).2
      checks := s.checks ++ [⟨s.clock, ip⟩] }
  else s

/-- **`handle_request`** of a session, with what it does to the queue. -/
def onRequest (cfg : WebhookConfig) (parse : Text → Option Json) (s : WebhookServer) (ip : String)
    (now : ℕ) (req : Request) : WebhookServer :=
  let t := { s.checked ip req with totalRequests := s.totalRequests + 1 }
  match Server.handleRequest cfg.front parse now (s.withinRate ip req) s.queue req with
  | .error _ => { t with running := false }
  | .ok (_, queue) =>
      { t with
        queue
        admissions := s.admissions ++
          (queue.drop s.queue.length).map fun sig => ⟨⟨s.clock, ip⟩, req.body, now, sig⟩ }

/-- **The server's step under a label.** -/
def next (cfg : WebhookConfig) (parse : Text → Option Json) (s : WebhookServer) :
    Label → Option WebhookServer
  | .accept found => if s.running && s.accepting then some (s.onAccept cfg found) else none
  | .request i now req =>
      match s.sessions[i]? with
      | none => none
      | some ip =>
          if s.running then
            let s := { s with sessions := s.sessions.eraseIdx i }
            -- a body beyond the limit is a read error
            if cfg.maxBodySize < req.body.length then some s
            else some (s.onRequest cfg parse ip now req)
          else none
  | .lost i =>
      if s.running && i < s.sessions.length then
        some { s with sessions := s.sessions.eraseIdx i }
      else none
  | .pop =>
      match s.queue with
      | [] => none
      | _ :: queue => some { s with queue }
  | .tick elapsed => some { s with clock := s.clock + elapsed }

end WebhookServer

/-- **The webhook server as a system**, from its start on. -/
def webhookSystem (cfg : WebhookConfig) (parse : Text → Option Json) :
    System WebhookServer WebhookServer.Label where
  init s := ∃ clock, s = { clock }
  next := WebhookServer.next cfg parse

end WebhookTrader
