import WebhookTrader.Engine.Model.State

/-!
# Handling an entry signal

`handle_entry` as a machine: every read and every write of a shared
variable, every section under the position mutex, and every HTTP attempt
is one step. What the handler reads of components that are not modelled
(the scorer, the shadow tracker, the learner, the confidence) and what
becomes of its HTTP attempts is fixed when it starts, by the environment.
-/

namespace WebhookTrader

/-- **What a handler is going to read and meet** outside the modelled
state. -/
structure Readings where
  /-- Waiting for the symbol lock ends without it. -/
  timedOut : Bool := false
  contextScore : Option SymbolScore := none
  symbolTier : String := "C"
  /-- The grade and number of trades in the symbol's shadow report. -/
  shadowGrade : Option (String × ℤ) := none
  learnAllowed : Bool := true
  learnMultiplier : ℚ := 1
  bestScore : Option SymbolScore := none
  /-- Confidence and size boost of the context, and of the symbol. -/
  contextConfidence : ℤ × ℚ := (0, 1)
  symbolConfidence : ℤ × ℚ := (0, 1)
  /-- The outcome of the handler's n-th HTTP attempt. -/
  attempts : ℕ → Attempt := fun _ => .delivered

/-- **Where a handler of an entry is.** -/
inductive EntryPc
  | lock
  | readActive
  | readEligible
  | tierGate
  | tfGate
  | tp1Shadow
  | tp1Active
  | feeGate
  | sizing
  | checkEntry
  | takeOid
  | validateBreaker
  | validateOrders
  | validateSymbol
  | dispatchShadow
  | dispatchActive
  | registerPaper
  /-- Before the order is counted as open; the flag is the retry. -/
  | placed (again : Bool)
  /-- Before an HTTP attempt; the second flag is the transport's retry. -/
  | request (again second : Bool)
  | orderDone (again : Bool) (resp : OrderResponse)
  | opened
  | registerReal
  | unlock
  | finished
  deriving DecidableEq, Repr

/-- **A run of `handle_entry`**, with what it has computed so far. -/
structure EntryJob where
  pc : EntryPc := .lock
  sig : WebhookSignal
  rd : Readings
  eligible : Bool := false
  /-- The size and leverage of the order, once computed. -/
  size : ℚ := 0
  leverage : ℤ := 0
  /-- The portfolio manager's mode `check_entry` admitted the run in. -/
  admitted : Option Bool := none
  oid : ℕ := 0
  /-- How many HTTP attempts were made. -/
  sent : ℕ := 0

namespace EntryJob

variable (cfg : EngineConfig) (j : EntryJob)

/-! ## What the handler derives from the signal -/

def tf : String := PortfolioRisk.tfName j.sig.timeframe

def side : String := if j.sig.action = "buy" then "long" else "short"

/-- The context's tier where it has five trades, else the symbol's. -/
def tier : String :=
  match j.rd.contextScore with
  | some score => if 5 ≤ score.totalTrades then score.tier else j.rd.symbolTier
  | none => j.rd.symbolTier

/-- `compute_context_key`. -/
def contextKey : String := j.sig.symbol ++ ":" ++ j.tf ++ ":" ++ j.side

def filter : Option TfFilter := cfg.trading.tfFilters.lookup j.tf

/-- A symbol settled in USDC. -/
def isUsdc : Bool := WebhookSignal.hasSuffix "USDC" j.sig.symbol

/-- The shadow grade blocks the entry. -/
def gradeBlocks : Bool :=
  match j.rd.shadowGrade with
  | some (grade, total) => grade = "F" || grade = "D" || (grade = "C" && 10 ≤ total)
  | none => false

/-- The re-entry is blocked on this timeframe. -/
def reverseBlocked : Bool :=
  (j.filter cfg).any fun filt => filt.blockReverse && j.sig.sigType = .reEntry

/-- The tier meets the filter's minimum, where there is a filter. -/
def tfTierOk : Bool := (j.filter cfg).all fun filt => tierMeetsMin j.tier filt.minTier

/-- The fee check applies. -/
def feeApplies : Bool := j.sig.hasTp1 && 0 < j.sig.price

/-- The fee check passes. -/
def feeProfitable : Bool :=
  cfg.fees.isTpProfitable j.sig.symbol j.sig.price j.sig.tp1
    (((j.filter cfg).map (·.minTpToCostRatio)).getD 0)

def slPrice : ℚ := if j.sig.hasSl then j.sig.sl else 0

def tp1Price : ℚ := if j.sig.hasTp1 then j.sig.tp1 else 0

/-! ## Sizing -/

/-- `MIN_NOTIONAL_USDT`. -/
def minNotionalUsdt : ℚ := 11 / 2

/-- The drawdown in percent. -/
def drawdownPct (s : Shared) : ℚ :=
  if 0 < s.peakBalance then (s.peakBalance - s.balance) / s.peakBalance * 100 else 0

/-- What `calc_size` is asked. -/
def sizeQuery (s : Shared) : SizerConfig.Query where
  balance := s.balance
  price := j.sig.price
  slPrice := j.slPrice
  leverage :=
    match j.rd.bestScore with
    | some score => min cfg.trading.defaultLeverage score.maxLeverage
    | none => cfg.trading.defaultLeverage
  score := j.rd.bestScore
  currentDdPct := drawdownPct s
  usedMargin := s.positions.calcUsedMargin cfg.trading.defaultLeverage
  confidenceBoost :=
    if j.rd.contextConfidence.1 = 0 then j.rd.symbolConfidence.2 else j.rd.contextConfidence.2

/-- The timeframe's and the learner's multipliers. -/
def sizeMultiplier : ℚ :=
  ((j.filter cfg).map (·.sizeMultiplier)).getD 1 *
    (if 1 / 100 < |j.rd.learnMultiplier - 1| then j.rd.learnMultiplier else 1)

/-- The size and leverage of the order, where there is one. A small amount
is raised to the least the exchange takes. -/
def sized (s : Shared) : Option (ℚ × ℤ) :=
  let sz := cfg.sizer.calcSize (j.sizeQuery cfg s)
  if sz.usdtAmount ≤ 0 ∨ sz.qty ≤ 0 then none
  else
    let qty := sz.qty * j.sizeMultiplier cfg
    let usdt := sz.usdtAmount * j.sizeMultiplier cfg
    some (if 0 < j.sig.price ∧ usdt < minNotionalUsdt then minNotionalUsdt / j.sig.price else qty,
      sz.leverage)

/-! ## Admission and order -/

/-- The book holds the symbol on either side. -/
def conflicts (book : Book) : Bool :=
  book.entries.any fun e =>
    e.2.symbol = j.sig.symbol && (e.2.side = "long" || e.2.side = "short")

/-- What `check_entry` is asked. -/
def entryCheck (s : Shared) : EntryCheck where
  timeframe := j.tf
  price := j.sig.price
  qty := j.size
  leverage := j.leverage
  balance := s.balance
  slPrice := j.slPrice
  side := j.side

/-- `check_entry`, on the shared state. -/
def check (s : Shared) : RiskDecision × PortfolioRisk :=
  PortfolioRisk.checkEntry cfg.portfolio s.modes.riskShadowMode s.clock s.positions
    (j.entryCheck s) s.portRisk

def orderRequest : OrderRequest := { j.sig with size := j.size }.toOrderRequest j.oid

/-- The preset stop-loss: the signal's, or the backup's. -/
def presetSl : ℚ :=
  let sl := j.slPrice
  if sl ≤ 0 ∧ 0 < cfg.trading.backupSlPct ∧ 0 < j.sig.price then
    if j.sig.action = "buy" then j.sig.price * (1 - cfg.trading.backupSlPct)
    else j.sig.price * (1 + cfg.trading.backupSlPct)
  else sl

/-- The order the handler sends. -/
def order : OrderBody := placeFuturesOrder cfg.contracts j.orderRequest j.tp1Price (j.presetSl cfg)

def key : PositionKey := .entry j.sig.symbol j.tf j.oid

/-- The position the handler registers. -/
def position (now : Clock) (isReal : Bool) : ManagedPosition where
  symbol := j.sig.symbol
  timeframe := j.tf
  side := j.side
  entryPrice := j.sig.price
  quantity := j.size
  leverage := j.leverage
  slPrice := j.slPrice
  tp1Price := j.tp1Price
  tier := j.tier
  strategy := j.sig.strategyName
  openedAt := now.system
  isReal

/-- `register_position`. -/
def register (isReal : Bool) (s : Shared) : Shared :=
  { s with positions := s.positions.insert j.key (j.position s.clock isReal) }

/-! ## The machine -/

def goto (pc : EntryPc) : EntryJob := { j with pc }

/-- Where an answer to the order leads. -/
def afterOrder (again : Bool) (resp : OrderResponse) : EntryPc :=
  if resp.status = .rejected ∧ resp.errorCode = 99999 ∧ again = false then .placed true
  else if resp.status = .new then .opened
  else .unlock

/-- Where an HTTP attempt leads: an exception is retried once, and then
becomes a made-up answer. -/
def afterAttempt (again second : Bool) : Option Json → EntryPc
  | some answer => .orderDone again (OrderResponse.parse answer)
  | none =>
      if second then .orderDone again (OrderResponse.parse connectionError) else .request again true

/-- **One step of `handle_entry`.** -/
def step (s : Shared) : Option (EntryJob × Shared) :=
  match j.pc with
  | .lock =>
      if s.locked.contains j.sig.symbol then
        if j.rd.timedOut then some (j.goto .finished, s) else none
      else
        -- a USDC symbol is skipped with the lock in hand
        some (j.goto (if j.isUsdc then .unlock else .readActive),
          { s with locked := j.sig.symbol :: s.locked })
  | .readActive => some (j.goto (if s.modes.autoLiveActive then .readEligible else .tierGate), s)
  | .readEligible =>
      some ({ j with
        pc := .tierGate
        eligible := s.modes.eligibleKeys.contains j.contextKey ||
          s.modes.eligibleKeys.contains j.sig.symbol }, s)
  | .tierGate =>
      if s.modes.shadowMode = false ∧ tierMeetsMin j.tier cfg.portfolio.liveMinTier = false then
        some (j.goto .unlock, s)
      -- the grade and the learner are asked in every mode
      else some (j.goto (if j.gradeBlocks || !j.rd.learnAllowed then .unlock else .tfGate), s)
  | .tfGate =>
      -- a re-entry is blocked in every mode, a tier in live mode only
      if j.reverseBlocked cfg then some (j.goto .unlock, s)
      else if s.modes.shadowMode = false ∧ j.tfTierOk cfg = false then some (j.goto .unlock, s)
      else some (j.goto .tp1Shadow, s)
  | .tp1Shadow => some (j.goto (if s.modes.shadowMode then .feeGate else .tp1Active), s)
  | .tp1Active =>
      -- the third read of the mode; the eligibility is the one read before
      let isLiveTrade := !(s.modes.autoLiveActive && !j.eligible)
      some (j.goto (if isLiveTrade && !j.sig.hasTp1 then .unlock else .feeGate), s)
  | .feeGate =>
      if (j.feeApplies && !j.feeProfitable cfg) ∧ s.modes.shadowMode = false then
        some (j.goto .unlock, s)
      else some (j.goto .sizing, s)
  | .sizing =>
      match j.sized cfg s with
      | none => some (j.goto .unlock, s)
      | some (size, leverage) => some ({ j with pc := .checkEntry, size, leverage }, s)
  | .checkEntry =>
      -- 5a, 5b and `check_entry` are one section under the position mutex
      if j.conflicts s.positions then some (j.goto .unlock, s)
      else if (j.check cfg s).1.allowed then
        some ({ j with pc := .takeOid, admitted := some s.modes.riskShadowMode },
          { s with portRisk := (j.check cfg s).2 })
      else some (j.goto .unlock, { s with portRisk := (j.check cfg s).2 })
  | .takeOid =>
      some ({ j with pc := .validateBreaker, oid := s.nextOid },
        { s with nextOid := s.nextOid + 1 })
  | .validateBreaker =>
      -- `validate` reads an atomic, another atomic, and then takes its lock
      some (j.goto
        (if s.risk.circuitBreaker || !RiskManager.validSize cfg.limits j.size then .unlock
        else .validateOrders), s)
  | .validateOrders =>
      some (j.goto (if s.risk.hasOrderSlot cfg.limits then .validateSymbol else .unlock), s)
  | .validateSymbol =>
      some (j.goto (if s.risk.validSymbol cfg.limits j.orderRequest.symbol
        (j.orderRequest.tradeSide = .open) then .dispatchShadow else .unlock), s)
  | .dispatchShadow =>
      some (j.goto (if s.modes.shadowMode then .registerPaper else .dispatchActive), s)
  | .dispatchActive =>
      some (j.goto (if s.modes.autoLiveActive && !j.eligible then .registerPaper
        else .placed false), s)
  | .registerPaper => some (j.goto .unlock, j.register false s)
  | .placed again => some (j.goto (.request again false), { s with risk := s.risk.onOrderPlaced })
  | .request again second =>
      -- no lock but the symbol's is held while the request is under way
      let answer := s.venue.attempt cfg.duplicateCode (j.rd.attempts j.sent) (.order (j.order cfg))
      some ({ j with pc := afterAttempt again second answer.1, sent := j.sent + 1 },
        { s with venue := answer.2 })
  | .orderDone again resp =>
      some (j.goto (afterOrder again resp), { s with risk := s.risk.onOrderDone })
  | .opened =>
      some (j.goto .registerReal,
        { s with risk := s.risk.onPositionOpened j.sig.symbol j.size j.side })
  | .registerReal => some (j.goto .unlock, j.register true s)
  | .unlock => some (j.goto .finished, { s with locked := s.locked.erase j.sig.symbol })
  | .finished => none

end EntryJob

end WebhookTrader
