import WebhookTrader.Common.Locking

/-!
# The locks of the engine

Every function that takes a lock, by its scopes. A branch that is not
taken is code that is left at once, so conditions do not stand here: what
is listed is everything the functions may take, in the order of their
lines and in the scopes of their guards. A mutex that belongs to one
object is a mutex here; a `BitgetRestClient` is one thread's own, but its
two mutexes are listed with the client, since the sync talks to the
exchange under the mutex of the book.
-/

namespace WebhookTrader

/-- **The mutexes of the program**, and the symbols that
`SymbolLockManager` locks. -/
inductive Mutex
  | symbol (name : String)
  /-- `SymbolLockManager::m_mtx`. -/
  | symbolManager
  /-- `m_pos_mtx`, shared by the engine, the position manager and the
  recorder. -/
  | pos
  | spot
  | eligible
  | fingerprints
  /-- `LiveReadinessEngine::m_conf_mtx`. -/
  | confidence
  | queue
  | portRisk
  | risk
  | scorer
  | learner
  | shadow
  | spotShadow
  | state
  | spotState
  | alerts
  | orderLimiter
  | webhookLimiter
  | dashboardLimiter
  /-- `m_conn_mtx` of a REST client. -/
  | connection (client : ℕ)
  /-- `m_contracts_mtx` of a REST client. -/
  | contracts (client : ℕ)
  deriving DecidableEq, Repr

namespace Locks

open Locking

/-- A scope under one mutex in which no other is taken. -/
def critical (m : Mutex) : Locking Mutex := .under m .done

/-- One after the other. -/
def inOrder : List (Locking Mutex) → Locking Mutex
  | [] => .done
  | p :: ps => .seq p (inOrder ps)

/-! ## The parts -/

/-- `RateLimiter::acquire`: each attempt in a scope of its own, the sleeps
outside. -/
def acquire : Locking Mutex := .loop (critical .orderLimiter)

/-- `wait_lock` and the `SymbolLockGuard` after it. -/
def withSymbol (symbol : String) (body : Locking Mutex) : Locking Mutex :=
  .awaiting .symbolManager (.symbol symbol) body

/-- `wait_pop`, which looks again whenever it is woken. -/
def waitPop : Locking Mutex := .loop (critical .queue)

/-- `place_futures_order` and `close_partial`: the quantity, the smallest
quantity, the decimals, the request. -/
def placeOrder (client : ℕ) : Locking Mutex :=
  inOrder [critical (.contracts client), critical (.contracts client),
    critical (.contracts client), critical (.connection client)]

/-- `fetch_contracts`. -/
def fetchContracts (client : ℕ) : Locking Mutex :=
  inOrder [critical (.connection client), critical (.contracts client)]

/-- `fetch_real_balance`. -/
def fetchRealBalance (client : ℕ) : Locking Mutex :=
  inOrder [critical (.connection client), .under .pos (critical .portRisk)]

/-- `sync_positions_with_exchange`: the request is made under the mutex of
the book. -/
def syncPositions (client : ℕ) : Locking Mutex :=
  .under .pos (inOrder [critical (.connection client), critical .state])

/-- `record_close`, whose caller holds the book: the learner is told. -/
def recordClose : Locking Mutex := critical .learner

/-- `PositionManager::save_state`. -/
def saveState : Locking Mutex := critical .state

/-- `get_best_score`: the score of the context, then the symbol's. -/
def getBestScore : Locking Mutex := inOrder [critical .scorer, critical .scorer]

/-- `ShadowTracker::track`: a close is told the learner. -/
def trackShadow : Locking Mutex := .under .shadow (critical .learner)

/-- `refresh_eligible`: the update, and the counts for the log. -/
def refreshEligible : Locking Mutex := inOrder [critical .confidence, critical .confidence]

/-- `enrich_eligible_with_context`: a scope for every entry that is
ready. -/
def enrichEligible : Locking Mutex := .loop (critical .confidence)

/-! ## The handlers -/

/-- `handle_entry`. -/
def handleEntry (symbol : String) (client : ℕ) : Locking Mutex :=
  withSymbol symbol (inOrder [
    -- the tier, the eligible keys, the smallest tier, the report
    critical .scorer, critical .scorer, critical .eligible, critical .portRisk, critical .shadow,
    -- the learner, and the alert of a skip
    critical .learner, critical .alerts,
    -- the margin in use, the score, the confidence of the context or of the symbol
    critical .pos, getBestScore, critical .confidence, critical .confidence,
    -- the portfolio's check against the book
    .under .pos (critical .portRisk),
    critical .risk, critical .shadow,
    .either (critical .pos)
      (inOrder [.loop (inOrder [acquire, placeOrder client]),
        critical .risk, critical .pos, critical .alerts, .under .pos saveState])])

/-- `handle_tp`: a paper position is closed in the book, a real one on the
exchange first. -/
def handleTp (symbol : String) (client : ℕ) : Locking Mutex :=
  withSymbol symbol (inOrder [critical .pos, critical .pos,
    .either (.under .pos (inOrder [recordClose, critical .alerts, saveState]))
      (inOrder [.loop (inOrder [acquire, placeOrder client]),
        .under .pos (inOrder [recordClose, critical .scorer, critical .alerts, saveState]),
        critical .alerts])])

/-- `handle_sl`. -/
def handleSl (symbol : String) (client : ℕ) : Locking Mutex :=
  withSymbol symbol (inOrder [critical .pos, critical .pos,
    .either (.under .pos (inOrder [recordClose, saveState, critical .alerts]))
      (inOrder [.loop (inOrder [acquire, critical (.connection client)]),
        .under .pos (inOrder [recordClose, critical .scorer, saveState, critical .alerts]),
        critical .alerts])])

/-- `handle_spot_entry`. -/
def handleSpotEntry (symbol : String) : Locking Mutex :=
  withSymbol symbol (inOrder [critical .spotShadow, .under .spot (critical .spotState)])

/-- `handle_spot_tp` and `handle_spot_sl`. -/
def handleSpotClose (symbol : String) : Locking Mutex :=
  withSymbol symbol (.under .spot (critical .spotState))

/-- `process_signal`. -/
def processSignal (symbol : String) (client : ℕ) : Locking Mutex :=
  inOrder [trackShadow, critical .spotShadow, critical .fingerprints,
    .either (.either (handleSpotEntry symbol) (handleSpotClose symbol))
      (.either (handleEntry symbol client)
        (.either (handleTp symbol client) (handleSl symbol client)))]

/-! ## What runs beside the signals -/

/-- `init_leverage`. -/
def initLeverage (client : ℕ) : Locking Mutex :=
  inOrder [fetchRealBalance client, critical .pos, syncPositions client, fetchContracts client,
    critical (.contracts client), .loop (inOrder [acquire, critical (.connection client)]),
    critical (.connection client)]

/-- `periodic_tasks`. -/
def periodicTasks (client : ℕ) : Locking Mutex :=
  inOrder [
    -- the daily reset, the scores, the two state files
    critical .risk, critical .fingerprints, critical .scorer, .under .pos (critical .scorer),
    .under .pos saveState, .under .spot (critical .spotState),
    -- the sync, the balance and the trackers' files
    syncPositions client, fetchRealBalance client, critical .pos, critical .shadow,
    critical .spotShadow,
    -- the reports, the eligible keys and the switch of the mode
    critical .shadow, critical .spotShadow, refreshEligible, critical .shadow, critical .spotShadow,
    enrichEligible, critical .eligible, critical .portRisk, initLeverage client,
    critical .portRisk]

/-- The account callback of the WebSocket. -/
def onWsAccount : Locking Mutex := .under .pos (critical .portRisk)

/-- The position callback of the WebSocket. -/
def onWsPosition : Locking Mutex :=
  .under .pos (inOrder [recordClose, critical .scorer, critical .scorer, critical .alerts,
    saveState])

/-- `close_all_positions`, which saves the state after its scopes. -/
def closeAllPositions (client : ℕ) : Locking Mutex :=
  inOrder [critical .pos,
    .loop (inOrder [acquire, critical (.connection client), .under .pos recordClose]), saveState]

/-- `import_trades`. -/
def importTrades : Locking Mutex :=
  .under .pos (inOrder [.loop (critical .learner), critical .scorer, saveState])

/-- The callback `get_risk_status`. -/
def getRiskStatus : Locking Mutex :=
  inOrder [.under .pos (critical .portRisk), critical .portRisk, critical .scorer,
    critical .portRisk, critical .portRisk, critical .portRisk]

/-- `get_readiness_json` of the engine: reports, confidences, eligible
keys. -/
def getReadinessJson : Locking Mutex :=
  inOrder [critical .shadow, critical .spotShadow, .loop (critical .confidence), critical .shadow,
    critical .spotShadow, critical .eligible, critical .eligible]

/-- `start`, before its threads. -/
def start (client : ℕ) : Locking Mutex :=
  inOrder [critical .state, critical .portRisk, critical .scorer, .loop (critical .learner),
    critical .spotState, critical .portRisk, initLeverage client]

/-- `stop`, around its joins, and the learner's save at the end of
`main`. -/
def stop : Locking Mutex :=
  inOrder [critical .queue, .under .pos saveState, .under .spot (critical .spotState),
    critical .learner]

end Locks

/-! ## Who runs what -/

/-- The callbacks of the dashboard, by what they lock. -/
inductive DashboardCall
  /-- `get_stats`, `get_positions`, `get_tf_stats`, `get_strategy_stats`. -/
  | book
  | riskStatus
  /-- `get_symbol_scores`. -/
  | scores
  /-- `get_alerts`. -/
  | alerts
  /-- `get_learner`, `get_learner_summary`. -/
  | learner
  | importTrades
  | closeAll (client : ℕ)
  /-- The callbacks of the shadow tracker. -/
  | shadow
  /-- The callbacks of the spot shadow tracker. -/
  | spotShadow
  /-- `get_spot_stats`, `get_spot_positions`, `get_spot_trades`. -/
  | spot
  | readiness
  /-- `build_prometheus_metrics`. -/
  | metrics
  deriving DecidableEq, Repr

/-- **What a thread of the program may run** from one idle moment to the
next. -/
inductive EngineTask
  /-- A webhook session: the limiter, then the queue. -/
  | webhook
  /-- A turn of a worker that takes a signal. -/
  | signal (symbol : String) (client : ℕ)
  /-- A turn of the first worker that finds none. -/
  | periodic (client : ℕ)
  | wsAccount
  | wsPosition
  /-- A connection to the dashboard. -/
  | dashboard (call : DashboardCall)
  | start (client : ℕ)
  | stop
  deriving DecidableEq, Repr

open Locks in
/-- The locks of a callback. -/
def DashboardCall.locking : DashboardCall → Locking Mutex
  | book => critical .pos
  | riskStatus => getRiskStatus
  | scores => critical .scorer
  | alerts => critical .alerts
  | learner => critical .learner
  | importTrades => Locks.importTrades
  | closeAll client => closeAllPositions client
  | shadow => critical .shadow
  | spotShadow => critical .spotShadow
  | spot => critical .spot
  | readiness => getReadinessJson
  | metrics => inOrder [critical .pos, getRiskStatus, critical .pos]

open Locks in
/-- The locks of a task. -/
def EngineTask.locking : EngineTask → Locking Mutex
  | webhook => inOrder [critical .webhookLimiter, critical .queue]
  | signal symbol client => inOrder [waitPop, processSignal symbol client]
  | periodic client => inOrder [waitPop, periodicTasks client]
  | wsAccount => onWsAccount
  | wsPosition => onWsPosition
  | dashboard call => inOrder [critical .dashboardLimiter, call.locking]
  | start client => Locks.start client
  | stop => Locks.stop

/-- **The threads of the program over its mutexes.** Any number of tasks of
any kind may be under way at once. -/
def engineLocks : System (LockTasks Mutex) (Threads.Label (LockTask Mutex) Empty) :=
  LockTasks.system Mutex

/-- What starts is a run of one of the tasks. -/
def EngineTask.Starts (todo : List (LockOp Mutex)) : Prop :=
  ∃ task : EngineTask, task.locking.Runs todo

end WebhookTrader
