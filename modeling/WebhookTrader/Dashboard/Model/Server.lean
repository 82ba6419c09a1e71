import WebhookTrader.Common.FixedWindow
import WebhookTrader.Common.Table
import WebhookTrader.Dashboard.Model.Auth
import WebhookTrader.Webhook.Model.Server

/-!
# The dashboard server

`DashboardServer`, which answers one connection after the other: the rate
limiter, the check of the password, the routes, and the files. A callback
is known by its name; what it returns is the engine's. The steady clock
counts nanoseconds.
-/

namespace WebhookTrader

namespace Dashboard

/-! ## The rate limiter -/

structure RateLimiter where
  maxRequests : ℕ := 300
  windowSeconds : ℕ := 60
  clients : Table String FixedWindow := ∅

/-- **`allow`**: whether a request of the address is, and the limiter after
it. -/
def RateLimiter.allow (ip : String) (now : ℕ) (l : RateLimiter) : Bool × RateLimiter :=
  let e := (l.clients.lookup ip).getD {}
  if l.windowSeconds ≤ (now - e.start) / 10 ^ 9 then
    (true, { l with clients := l.clients.insert ip ⟨1, now⟩ })
  else
    (e.count + 1 ≤ l.maxRequests,
      { l with clients := l.clients.insert ip { e with count := e.count + 1 } })

/-! ## Requests and routes -/

structure Request where
  method : Verb := .get
  target : String
  authorization : Option (List UInt8) := none
  body : List UInt8 := []
  deriving DecidableEq, Repr

/-- **The callbacks.** -/
inductive Callback
  | getStats | getRiskStatus | getSymbolScores | getPositions | getAlerts | getLearner
  | getLearnerSummary | getTfStats | getStrategyStats | importTrades | closeAllPositions
  | getShadowStats | getShadowPositions | getShadowTrades | getShadowSymbolReport
  | getShadowLiveEquivStats | getShadowLiveEquivTrades
  | getSpotStats | getSpotPositions | getSpotTrades
  | getSpotShadowStats | getSpotShadowPositions | getSpotShadowTrades | getSpotShadowSymbolReport
  | getReadiness
  deriving DecidableEq, Repr

/-- The callbacks that change something. -/
def Callback.changes : Callback → Bool
  | importTrades | closeAllPositions => true
  | _ => false

/-- What a request is answered with. -/
inductive Answer
  /-- What the callback returns. -/
  | callback (c : Callback)
  | health
  /-- The metrics, made of what three callbacks return. -/
  | metrics
  | file (name : String) (contentType : String)
  | forbidden
  | notFound
  deriving DecidableEq, Repr

/-- The callbacks an answer calls. -/
def Answer.calls : Answer → List Callback
  | callback c => [c]
  | metrics => [.getStats, .getRiskStatus, .getPositions]
  | _ => []

/-- The targets that are answered by a callback of their own, whatever the
method. -/
def readers : List (String × Callback) :=
  [("/api/stats", .getStats), ("/api/risk/status", .getRiskStatus),
    ("/api/symbols/scores", .getSymbolScores), ("/api/positions", .getPositions),
    ("/api/alerts", .getAlerts), ("/api/learner", .getLearner), ("/api/tf/stats", .getTfStats),
    ("/api/learner/summary", .getLearnerSummary), ("/api/strategy-stats", .getStrategyStats),
    ("/api/shadow/stats", .getShadowStats), ("/api/shadow/positions", .getShadowPositions),
    ("/api/shadow/trades", .getShadowTrades), ("/api/shadow/symbols", .getShadowSymbolReport),
    ("/api/shadow/live-equiv-stats", .getShadowLiveEquivStats),
    ("/api/shadow/live-equiv-trades", .getShadowLiveEquivTrades),
    ("/api/spot-shadow/stats", .getSpotShadowStats),
    ("/api/spot-shadow/positions", .getSpotShadowPositions),
    ("/api/spot-shadow/trades", .getSpotShadowTrades),
    ("/api/spot-shadow/symbols", .getSpotShadowSymbolReport),
    ("/api/readiness", .getReadiness), ("/api/spot/stats", .getSpotStats),
    ("/api/spot/positions", .getSpotPositions), ("/api/spot/trades", .getSpotTrades)]

/-- The text a static target begins with. -/
def staticRoot : List Char := "/static/".toList

/-- The content type of a static file. -/
def contentType (file : List Char) : String :=
  if ".html".toList <:+ file then "text/html"
  else if ".js".toList <:+ file then "application/javascript"
  else if ".css".toList <:+ file then "text/css"
  else "text/plain"

/-- A static target: its file, unless two dots stand in it. -/
def staticFile (file : List Char) : Answer :=
  if ['.', '.'] <:+: file then .forbidden else .file (String.ofList file) (contentType file)

/-- **`route_request`**, with all callbacks configured. An import whose body
does not parse, and a callback that raises, are answered with an error. -/
def routeRequest (req : Request) : Answer :=
  match readers.lookup req.target with
  | some c => .callback c
  | none =>
      if req.target = "/api/close-all" ∧ req.method = .post then .callback .closeAllPositions
      else if req.target = "/api/import-trades" ∧ req.method = .post then .callback .importTrades
      else if req.target = "/health" then .health
      else if req.target = "/metrics" then .metrics
      else if req.target = "/" ∨ req.target = "/index.html" ∨ req.target = "/dashboard.html" then
        .file "dashboard.html" "text/html"
      else if req.target = "/learning.html" ∨ req.target = "/learning" then
        .file "learning.html" "text/html"
      else if req.target = "/spot.html" ∨ req.target = "/spot" then .file "spot.html" "text/html"
      else if staticRoot <+: req.target.toList then
        staticFile (req.target.toList.drop staticRoot.length)
      else .notFound

/-! ## Connections -/

/-- The targets that are answered without a password. -/
def publicTargets : List String :=
  ["/health", "/", "/index.html", "/dashboard.html", "/learning.html", "/learning", "/spot.html",
    "/spot"]

/-- A connection: when, from where, and the request that is read from it. -/
structure Connection where
  time : ℕ
  remoteIp : String
  /-- Nothing where it cannot be read. -/
  request : Option Request
  deriving DecidableEq, Repr

inductive Reply
  | tooManyRequests
  | unauthorized
  | answered (answer : Answer)
  deriving DecidableEq, Repr

/-- The reply to a request within its address's rate. -/
def respond (authToken : List UInt8) (req : Request) : Reply :=
  if publicTargets.contains req.target || checkAuth authToken req.authorization then
    .answered (routeRequest req)
  else .unauthorized

/-- **`handle_connection`**: the reply, where there is one, and the limiter
after it. -/
def handleConnection (authToken : List UInt8) (l : RateLimiter) (c : Connection) :
    Option Reply × RateLimiter :=
  let r := l.allow c.remoteIp c.time
  if r.1 then (c.request.map (respond authToken), r.2) else (some .tooManyRequests, r.2)

/-- **The server's connections one after the other**, each with its reply. -/
def serve (authToken : List UInt8) :
    RateLimiter → List Connection → List (Connection × Option Reply)
  | _, [] => []
  | l, c :: cs =>
      (c, (handleConnection authToken l c).1) ::
        serve authToken (handleConnection authToken l c).2 cs

/-! ## Files -/

/-- The parts of a path between its slashes. -/
def components : List Char → List (List Char)
  | [] => [[]]
  | c :: cs =>
      if c = '/' then [] :: components cs
      else
        match components cs with
        | [] => [[c]]
        | x :: xs => (c :: x) :: xs

/-- One part of a path, from a directory: two dots lead to the parent. -/
def enter (dir : List (List Char)) (part : List Char) : List (List Char) :=
  if part = [] ∨ part = ['.'] then dir
  else if part = ['.', '.'] then dir.dropLast
  else dir ++ [part]

/-- **Where a path leads** on a disk without links. -/
def resolve (path : List Char) : List (List Char) := (components path).foldl enter []

/-- The path of a file that is served. -/
def filePath (staticDir : List Char) (name : String) : List Char :=
  staticDir ++ '/' :: name.toList

end Dashboard

end WebhookTrader
