import ArbBot.Models

/-!
# The paper executor: `execute`

Port of `src/executor.py` up to `_register_failure`, with `_route_key` and `_build_order_payload`.
The object is a state that every call takes and returns; `self.config` and `self.mode` are the
configuration argument, and `time.time()` is the argument `nowTs`. The two balance objects that
`execute` looks up are shared with `self.balances`, also with each other when a route buys and sells
on one exchange, so every write to them is a write to the dictionary at that exchange
(`addQuote`, `addBase`), in the order of the source. Log lines are left out.

`execute` can only raise on `opp.symbol.split("/")`, which stands before every write.
-/

namespace ArbBot

/-- What the guards block for (`RiskState.blocked_reason`; `""` is `none`). -/
inductive BlockReason where
  | dailyDrawdownLimit
  | consecutiveFailuresLimit
  deriving DecidableEq, Repr

/-- `TradeResult.reason`. -/
inductive Reason where
  | blocked (why : BlockReason)
  | riskBlocked
  | cooldownActive
  | unknownExchange
  | insufficientQuoteOnBuyExchange
  | insufficientBaseOnSellExchange
  | makerTimeoutCancelled
  | requoteErodedEdge
  | ok
  | makerTakerOk
  | dryRunSubmitted
  | dryRunMakerTakerSubmitted
  deriving DecidableEq, Repr

/-- The answer of a call (`TradeResult`). -/
structure TradeResult where
  success : Bool
  reason : Reason
  symbol : String
  buyExchange : String
  sellExchange : String
  quantity : ℚ
  realizedPnlUsdt : ℚ
  deriving DecidableEq, Repr

/-- `RiskState`. -/
structure RiskState where
  realizedPnlUsdt : ℚ := 0
  blocked : Bool := false
  blockedReason : Option BlockReason := none
  tradesExecuted : ℕ := 0
  tradesFailed : ℕ := 0
  consecutiveFailures : ℕ := 0
  makerTimeouts : ℕ := 0
  makerRequotes : ℕ := 0
  deriving DecidableEq, Repr

/-- `timeInForce` of an order. -/
inductive TimeInForce where
  | PO
  | IOC
  deriving DecidableEq, Repr

/-- `meta.maker_result` of an order payload. -/
inductive MakerResult where
  | notApplicable
  | cancelTimeout
  | filled
  deriving DecidableEq, Repr

/-- One side of an order payload; its `side` is which of the two it is, its `type` is `"limit"`. -/
structure OrderLeg where
  exchange : String
  symbol : String
  amount : ℚ
  price : ℚ
  timeInForce : TimeInForce
  postOnly : Bool
  deriving DecidableEq, Repr

/-- The `meta` part of an order payload. -/
structure OrderMeta where
  executionStyle : ExecutionStyle
  makerExchange : String
  takerExchange : String
  makerSide : MakerSide
  takerSide : TakerSide
  makerTimeoutMs : ℤ
  makerRequotes : ℕ
  makerFillProbability : ℚ
  makerResult : MakerResult
  dynamicThresholdPct : ℚ
  queueRiskScore : ℚ
  expectedProfitUsdt : ℚ
  netSpreadPct : ℚ
  buyPriceSource : PriceSource
  sellPriceSource : PriceSource
  deriving DecidableEq, Repr

/-- The value of `_build_order_payload`. -/
structure OrderPayload where
  buy : OrderLeg
  sell : OrderLeg
  info : OrderMeta
  deriving DecidableEq, Repr

/-- `PaperExecutor`, less its configuration; the initial payload `{}` is `none`. -/
structure PaperExecutor where
  risk : RiskState
  balances : OrdDict String ExchangeBalance
  lastTradeAt : OrdDict String ℚ
  lastRebalanceAt : OrdDict String ℚ
  lastOrderPayload : Option OrderPayload

namespace PaperExecutor

/-! ## Construction -/

/-- The base inventory that every exchange starts with (inner loop of `_init_balances`). -/
def initInventory (cfg : BotConfig) : Except PyError (OrdDict String ℚ) :=
  cfg.symbols.foldlM (fun inventory symbol => do
    let (base, _) ← splitSymbol symbol
    return inventory.set base (cfg.maxPositionPerSymbol * 3)) OrdDict.empty

/-- `_init_balances`. -/
def initBalances (cfg : BotConfig) : Except PyError (OrdDict String ExchangeBalance) :=
  cfg.exchanges.foldlM (fun balances ex => do
    let baseInventory ← initInventory cfg
    return balances.set ex { quoteFree := cfg.capitalPerExchangeUsdt, baseFree := baseInventory })
    OrdDict.empty

/-- `PaperExecutor.__init__`. -/
def init (cfg : BotConfig) : Except PyError PaperExecutor := do
  let balances ← initBalances cfg
  return { risk := {}, balances, lastTradeAt := .empty, lastRebalanceAt := .empty,
           lastOrderPayload := none }

/-! ## Writes to the balances -/

/-- `balances[ex].quote_free += x`. -/
def addQuote (balances : OrdDict String ExchangeBalance) (ex : String) (x : ℚ) :
    OrdDict String ExchangeBalance :=
  balances.modify ex fun bal => { bal with quoteFree := bal.quoteFree + x }

/-- `balances[ex].base_free[base] = balances[ex].base_free.get(base, 0.0) + x`. -/
def addBase (balances : OrdDict String ExchangeBalance) (ex base : String) (x : ℚ) :
    OrdDict String ExchangeBalance :=
  balances.modify ex fun bal =>
    { bal with baseFree := bal.baseFree.set base (bal.baseFree.getD base 0 + x) }

/-! ## Keys, payloads and guards -/

/-- `_route_key`. -/
def routeKey (opp : Opportunity) : String :=
  opp.symbol ++ ":" ++ opp.buyExchange ++ "->" ++ opp.sellExchange

/-- `_build_order_payload`. -/
def buildOrderPayload (opp : Opportunity) (makerPostOnly : Bool := false)
    (makerTimeoutMs : ℤ := 0) (makerRequotes : ℕ := 0) (makerFillProbability : ℚ := 1)
    (makerResult : MakerResult := .notApplicable) : OrderPayload where
  buy :=
    { exchange := opp.buyExchange
      symbol := opp.symbol
      amount := pyRound opp.quantity 8
      price := pyRound opp.buyPrice 6
      timeInForce := if makerPostOnly ∧ opp.makerSide = .buy then .PO else .IOC
      postOnly := makerPostOnly ∧ opp.makerSide = .buy }
  sell :=
    { exchange := opp.sellExchange
      symbol := opp.symbol
      amount := pyRound opp.quantity 8
      price := pyRound opp.sellPrice 6
      timeInForce := if makerPostOnly ∧ opp.makerSide = .sell then .PO else .IOC
      postOnly := makerPostOnly ∧ opp.makerSide = .sell }
  info :=
    { executionStyle := opp.executionStyle
      makerExchange := opp.makerExchange
      takerExchange := opp.takerExchange
      makerSide := opp.makerSide
      takerSide := opp.takerSide
      makerTimeoutMs
      makerRequotes
      makerFillProbability := pyRound makerFillProbability 4
      makerResult
      dynamicThresholdPct := pyRound opp.dynamicThresholdPct 6
      queueRiskScore := pyRound opp.queueRiskScore 6
      expectedProfitUsdt := pyRound opp.expectedProfitUsdt 6
      netSpreadPct := pyRound opp.netSpreadPct 6
      buyPriceSource := opp.buyPriceSource
      sellPriceSource := opp.sellPriceSource }

/-- The loss at which `_evaluate_drawdown_guard` blocks. -/
def maxLoss (cfg : BotConfig) : ℚ :=
  cfg.maxDailyDrawdownPct / 100 * (cfg.capitalPerExchangeUsdt * cfg.exchanges.length)

/-- `_evaluate_drawdown_guard`. -/
def evaluateDrawdownGuard (cfg : BotConfig) (risk : RiskState) : RiskState :=
  if risk.realizedPnlUsdt ≤ -maxLoss cfg then
    { risk with blocked := true, blockedReason := some .dailyDrawdownLimit }
  else risk

@[simp] lemma evaluateDrawdownGuard_realizedPnlUsdt (cfg : BotConfig) (risk : RiskState) :
    (evaluateDrawdownGuard cfg risk).realizedPnlUsdt = risk.realizedPnlUsdt := by
  unfold evaluateDrawdownGuard
  split <;> rfl

@[simp] lemma evaluateDrawdownGuard_consecutiveFailures (cfg : BotConfig) (risk : RiskState) :
    (evaluateDrawdownGuard cfg risk).consecutiveFailures = risk.consecutiveFailures := by
  unfold evaluateDrawdownGuard
  split <;> rfl

@[simp] lemma evaluateDrawdownGuard_makerRequotes (cfg : BotConfig) (risk : RiskState) :
    (evaluateDrawdownGuard cfg risk).makerRequotes = risk.makerRequotes := by
  unfold evaluateDrawdownGuard
  split <;> rfl

@[simp] lemma evaluateDrawdownGuard_makerTimeouts (cfg : BotConfig) (risk : RiskState) :
    (evaluateDrawdownGuard cfg risk).makerTimeouts = risk.makerTimeouts := by
  unfold evaluateDrawdownGuard
  split <;> rfl

lemma evaluateDrawdownGuard_blocked (cfg : BotConfig) (risk : RiskState) :
    (evaluateDrawdownGuard cfg risk).blocked = true ↔
      risk.blocked = true ∨ risk.realizedPnlUsdt ≤ -maxLoss cfg := by
  unfold evaluateDrawdownGuard
  split
  case isTrue h => exact iff_of_true rfl (.inr h)
  case isFalse h => exact (or_iff_left h).symm

/-- The counters and the circuit breaker of `_register_failure`. -/
def countFailure (cfg : BotConfig) (risk : RiskState) : RiskState :=
  let risk := { risk with
    tradesFailed := risk.tradesFailed + 1
    consecutiveFailures := risk.consecutiveFailures + 1 }
  if cfg.maxConsecutiveFailures ≤ risk.consecutiveFailures then
    { risk with blocked := true, blockedReason := some .consecutiveFailuresLimit }
  else risk

@[simp] lemma countFailure_realizedPnlUsdt (cfg : BotConfig) (risk : RiskState) :
    (countFailure cfg risk).realizedPnlUsdt = risk.realizedPnlUsdt := by
  unfold countFailure
  dsimp only
  split <;> rfl

@[simp] lemma countFailure_consecutiveFailures (cfg : BotConfig) (risk : RiskState) :
    (countFailure cfg risk).consecutiveFailures = risk.consecutiveFailures + 1 := by
  unfold countFailure
  dsimp only
  split <;> rfl

@[simp] lemma countFailure_makerTimeouts (cfg : BotConfig) (risk : RiskState) :
    (countFailure cfg risk).makerTimeouts = risk.makerTimeouts := by
  unfold countFailure
  dsimp only
  split <;> rfl

@[simp] lemma countFailure_makerRequotes (cfg : BotConfig) (risk : RiskState) :
    (countFailure cfg risk).makerRequotes = risk.makerRequotes := by
  unfold countFailure
  dsimp only
  split <;> rfl

/-- A failure writes the reason when it reaches the limit. -/
lemma countFailure_blockedReason (cfg : BotConfig) (risk : RiskState) :
    (countFailure cfg risk).blockedReason =
      if cfg.maxConsecutiveFailures ≤ (risk.consecutiveFailures + 1 : ℕ)
      then some .consecutiveFailuresLimit else risk.blockedReason := by
  unfold countFailure
  dsimp only
  split <;> rfl

lemma countFailure_blocked (cfg : BotConfig) (risk : RiskState) :
    (countFailure cfg risk).blocked = true ↔
      risk.blocked = true ∨ cfg.maxConsecutiveFailures ≤ (risk.consecutiveFailures + 1 : ℕ) := by
  unfold countFailure
  dsimp only
  split
  case isTrue h => exact iff_of_true rfl (.inr h)
  case isFalse h => exact (or_iff_left h).symm

/-- `_register_failure`, with the arguments that all its callers pass. -/
def registerFailure (cfg : BotConfig) (s : PaperExecutor) (reason : Reason) (opp : Opportunity) :
    TradeResult × PaperExecutor :=
  ({ success := false
     reason
     symbol := opp.symbol
     buyExchange := opp.buyExchange
     sellExchange := opp.sellExchange
     quantity := opp.quantity
     realizedPnlUsdt := 0 },
   { s with risk := countFailure cfg s.risk })

/-- `_failed`. -/
abbrev failed (cfg : BotConfig) (s : PaperExecutor) (reason : Reason) (opp : Opportunity) :
    TradeResult × PaperExecutor :=
  registerFailure cfg s reason opp

/-- The counters of a success (`trades_executed`, `consecutive_failures`). -/
def countSuccess (risk : RiskState) : RiskState :=
  { risk with tradesExecuted := risk.tradesExecuted + 1, consecutiveFailures := 0 }

/-- `_finalize_execution`. -/
def finalizeExecution (cfg : BotConfig) (s : PaperExecutor) (opp : Opportunity) (nowTs : ℚ)
    (base : String) (quoteSpent quoteReceived pnl : ℚ) (reasonOk dryReason : Reason)
    (payload : OrderPayload) : TradeResult × PaperExecutor :=
  if cfg.mode = .dryRun then
    ({ success := true
       reason := dryReason
       symbol := opp.symbol
       buyExchange := opp.buyExchange
       sellExchange := opp.sellExchange
       quantity := opp.quantity
       realizedPnlUsdt := pnl },
     { s with
       lastOrderPayload := some payload
       risk := countSuccess s.risk
       lastTradeAt := s.lastTradeAt.set (routeKey opp) nowTs })
  else
    let balances := addQuote s.balances opp.buyExchange (-quoteSpent)
    let balances := addBase balances opp.buyExchange base opp.quantity
    let balances := addBase balances opp.sellExchange base (-opp.quantity)
    let balances := addQuote balances opp.sellExchange quoteReceived
    let risk := { s.risk with realizedPnlUsdt := s.risk.realizedPnlUsdt + pnl }
    ({ success := true
       reason := reasonOk
       symbol := opp.symbol
       buyExchange := opp.buyExchange
       sellExchange := opp.sellExchange
       quantity := opp.quantity
       realizedPnlUsdt := pnl },
     { s with
       balances
       lastOrderPayload := some payload
       risk := evaluateDrawdownGuard cfg (countSuccess risk)
       lastTradeAt := s.lastTradeAt.set (routeKey opp) nowTs })

/-! ## The maker leg -/

/-- Where the cancel-requote loop stands. -/
structure MakerLoop where
  filled : Bool
  fillProbability : ℚ
  requotes : ℕ
  deriving DecidableEq, Repr

/-- The maker order is not filled before its timeout. -/
def timedOut (cfg : BotConfig) (opp : Opportunity) : Prop :=
  cfg.makerOrderTimeoutMs < opp.expectedFillTimeMs

instance (cfg : BotConfig) (opp : Opportunity) : Decidable (timedOut cfg opp) :=
  inferInstanceAs (Decidable (_ < _))

/-- `_clamp(current_fill_probability + maker_requote_fill_boost, 0.0, 0.99)`. -/
def boost (cfg : BotConfig) (p : ℚ) : ℚ := clamp (p + cfg.makerRequoteFillBoost) 0 (99 / 100)

/-- The loop `for attempt in range(1, total_attempts + 1)` with `n` attempts to go. -/
def makerAttempts (cfg : BotConfig) (opp : Opportunity) : ℕ → ℚ → ℕ → MakerLoop
  | 0, p, r => ⟨false, p, r⟩
  | n + 1, p, r =>
    if cfg.makerMinFillProbability ≤ p ∧ ¬timedOut cfg opp then ⟨true, p, r⟩
    else if n = 0 then ⟨false, p, r⟩
    else makerAttempts cfg opp n (boost cfg p) (r + 1)

/-- The cancel-requote loop of `_execute_maker_taker`. -/
def makerLoop (cfg : BotConfig) (opp : Opportunity) : MakerLoop :=
  makerAttempts cfg opp (max 1 (1 + cfg.makerMaxRequotes)).toNat
    (clamp opp.fillProbability 0 (99 / 100)) 0

/-- The quote currency a buy takes, with its fee as a fraction. -/
def quoteSpent (opp : Opportunity) (buyFee : ℚ) : ℚ := opp.quantity * opp.buyPrice * (1 + buyFee)

/-- The quote currency a sale brings, after its fee as a fraction. -/
def quoteReceived (opp : Opportunity) (sellFee : ℚ) : ℚ :=
  opp.quantity * opp.sellPrice * (1 - sellFee)

/-- `requote_penalty`. -/
def requotePenalty (cfg : BotConfig) (opp : Opportunity) (requotes : ℕ) : ℚ :=
  opp.quantity * opp.buyPrice * (cfg.makerRequoteStepBps / 10000) * requotes

/-- `_execute_maker_taker`. -/
def executeMakerTaker (cfg : BotConfig) (s : PaperExecutor) (opp : Opportunity) (nowTs : ℚ)
    (base : String) : TradeResult × PaperExecutor :=
  let loop := makerLoop cfg opp
  let s := { s with risk := { s.risk with makerRequotes := s.risk.makerRequotes + loop.requotes } }
  if loop.filled = false then
    let s := { s with
      risk := { s.risk with makerTimeouts := s.risk.makerTimeouts + 1 }
      lastOrderPayload := some (buildOrderPayload opp true cfg.makerOrderTimeoutMs loop.requotes
        loop.fillProbability .cancelTimeout) }
    registerFailure cfg s .makerTimeoutCancelled opp
  else
    let spent := quoteSpent opp (opp.buyFeePct / 100)
    let received := quoteReceived opp (opp.sellFeePct / 100)
    let pnl := received - spent - requotePenalty cfg opp loop.requotes
    if pnl ≤ 0 ∧ ¬(cfg.mode = .dryRun ∧ cfg.allowNegativeExpectedProfitDryrun) then
      registerFailure cfg s .requoteErodedEdge opp
    else
      finalizeExecution cfg s opp nowTs base spent received pnl .makerTakerOk
        .dryRunMakerTakerSubmitted
        (buildOrderPayload opp true cfg.makerOrderTimeoutMs loop.requotes loop.fillProbability
          .filled)

/-! ## `execute` -/

/-- The route traded less than `trade_cooldown_sec` ago. -/
def cooldownActive (cfg : BotConfig) (s : PaperExecutor) (opp : Opportunity) (nowTs : ℚ) : Prop :=
  ∃ lastTs ∈ s.lastTradeAt.get? (routeKey opp), nowTs - lastTs < cfg.tradeCooldownSec

instance (cfg : BotConfig) (s : PaperExecutor) (opp : Opportunity) (nowTs : ℚ) :
    Decidable (cooldownActive cfg s opp nowTs) :=
  match h : s.lastTradeAt.get? (routeKey opp) with
  | none => isFalse fun ⟨_, hm, _⟩ => by rw [h] at hm; cases hm
  | some lastTs => decidable_of_iff (nowTs - lastTs < cfg.tradeCooldownSec)
      ⟨fun hlt => ⟨lastTs, h, hlt⟩, fun ⟨_, hm, hlt⟩ => by
        rw [h] at hm; cases hm; exact hlt⟩

/-- `execute`. -/
def execute (cfg : BotConfig) (s : PaperExecutor) (nowTs : ℚ) (opp : Opportunity) :
    Except PyError (TradeResult × PaperExecutor) :=
  if s.risk.blocked then
    .ok (registerFailure cfg s (s.risk.blockedReason.elim .riskBlocked .blocked) opp)
  else if cooldownActive cfg s opp nowTs then
    .ok (registerFailure cfg s .cooldownActive opp)
  else
    match splitSymbol opp.symbol with
    | .error e => .error e
    | .ok (base, _) =>
      match s.balances.get? opp.buyExchange, s.balances.get? opp.sellExchange with
      | some buyBal, some sellBal =>
        if buyBal.quoteFree < opp.quantity * opp.buyPrice then
          .ok (failed cfg s .insufficientQuoteOnBuyExchange opp)
        else if sellBal.baseFree.getD base 0 < opp.quantity then
          .ok (failed cfg s .insufficientBaseOnSellExchange opp)
        else if opp.executionStyle = .makerTaker then
          .ok (executeMakerTaker cfg s opp nowTs base)
        else
          let spent := quoteSpent opp (takerFee cfg opp.buyExchange)
          let received := quoteReceived opp (takerFee cfg opp.sellExchange)
          .ok (finalizeExecution cfg s opp nowTs base spent received (received - spent) .ok
            .dryRunSubmitted (buildOrderPayload opp))
      | _, _ => .ok (failed cfg s .unknownExchange opp)

end PaperExecutor

end ArbBot
