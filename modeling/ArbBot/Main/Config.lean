import ArbBot.Exchanges.Symbols
import ArbBot.Lib.Numerals
import ArbBot.Main.Runtime

/-!
# Loading the configuration

Port of `src/config.py`: the settings are read from the environment, one variable each. A text that
spells no number counts as a missing one, so nothing is raised; a text that spells an infinite or an
undefined number gives settings that are outside the model (`none`). The setting that no modelled
function reads is left out, and so is text that is not ASCII.

`loadConfig_iff` says which settings can be configured: the lists hold entries as `_csv_env` leaves
them, the exchanges are in lower case, each has a fee of both kinds and nothing else has one, and the
numbers are decimal fractions in the range of `float`, or whole numbers in that of `int`. `environment`
writes the environment from which such settings are loaded.
An exchange with an equals sign in its name keeps its default fees: no variable can be named after it.
-/

namespace ArbBot

open Numerals Separated

/-- ASCII text, without the character that ends a text of the environment. -/
def IsText (text : String) : Prop := ∀ c ∈ text.toList, 0 < c.toNat ∧ c.toNat < 128

instance (text : String) : Decidable (IsText text) := List.decidableBAll _ text.toList

/-- The environment: what each variable is set to, if it is set. -/
structure Env where
  getenv : String → Option String
  /-- A name ends at the equals sign. -/
  named : ∀ name, '=' ∈ name.toList → getenv name = none
  isText : ∀ name text, getenv name = some text → IsText text

/-- No variable is set. -/
def Env.empty : Env where
  getenv _ := none
  named _ _ := rfl
  isText _ _ e := by cases e

/-- White space. -/
def isSpace (c : Char) : Bool := 9 ≤ c.toNat ∧ c.toNat ≤ 13 ∨ 28 ≤ c.toNat ∧ c.toNat ≤ 32

/-- `text.strip()`. -/
def strip (text : String) : String := String.ofList (trim isSpace text.toList)

/-- `_csv_env`. -/
def csvEnv (env : Env) (name default : String) : List String :=
  (entries ',' isSpace ((env.getenv name).getD default).toList).map String.ofList

/-- `_float_env`. -/
def floatEnv (env : Env) (name : String) (default : ℚ) : Option ℚ :=
  match env.getenv name with
  | none => some default
  | some text =>
    match readDecimal text.toList with
    | .number x => some x
    | .nonFinite => none
    | .unreadable => some default

/-- `_int_env`. -/
def intEnv (env : Env) (name : String) (default : ℤ) : ℤ :=
  match env.getenv name with
  | none => default
  | some text => (readWhole text.toList).getD default

/-- `_bool_env`. -/
def boolEnv (env : Env) (name : String) (default : Bool) : Bool :=
  match env.getenv name with
  | none => default
  | some text => lower (strip text) ∈ ["1", "true", "yes", "on"]

/-- The constructor of a configured mode. -/
def readMode (text : String) : Mode :=
  if text = "paper" then .paper else if text = "dry-run" then .dryRun else .unsupported

/-- The constructor of a configured style. -/
def readStyle (text : String) : ExecutionStyle :=
  if text = "taker-taker" then .takerTaker
  else if text = "maker-taker" then .makerTaker else .unsupported

/-- The constructor of a configured preference. -/
def readPreference (text : String) : MakerSidePreference :=
  if text = "buy" then .buy else if text = "sell" then .sell else .unsupported

/-- `default_fees_taker`. -/
def defaultFeesTaker : OrdDict String ℚ :=
  (((OrdDict.empty.set "binance" (1 / 1000)).set "bybit" (1 / 1000)).set "okx" (1 / 1000)).set
    "kucoin" (1 / 1000)

/-- The default of a taker fee. -/
def defaultTakerFee (ex : String) : ℚ := defaultFeesTaker.getD ex (1 / 1000)

/-- The default of a maker fee. -/
def defaultMakerFee (ex : String) : ℚ := max 0 (defaultFeesTaker.getD ex (1 / 1000) * (6 / 10))

/-- The fees of one kind: a variable for each exchange. -/
def feesEnv (env : Env) (kind : String) (default : String → ℚ) (exchanges : List String) :
    Option (OrdDict String ℚ) :=
  exchanges.foldlM (fun fees ex =>
    (floatEnv env (kind ++ upper ex) (default ex)).map (fees.set ex ·)) .empty

/-- `load_config`. -/
def loadConfig (env : Env) : Option Settings := do
  let exchanges := (csvEnv env "EXCHANGES" "binance,bybit,okx,kucoin").map lower
  let feesTaker ← feesEnv env "FEE_TAKER_" defaultTakerFee exchanges
  let feesMaker ← feesEnv env "FEE_MAKER_" defaultMakerFee exchanges
  let pollIntervalSec ← floatEnv env "POLL_INTERVAL_SEC" 2
  let minNetSpreadPct ← floatEnv env "MIN_NET_SPREAD_PCT" (15 / 100)
  let slippagePct ← floatEnv env "SLIPPAGE_PCT" (5 / 100)
  let autoThresholdCostBufferRatio ← floatEnv env "AUTO_THRESHOLD_COST_BUFFER_RATIO" (25 / 100)
  let autoThresholdMinFloorPct ← floatEnv env "AUTO_THRESHOLD_MIN_FLOOR_PCT" (3 / 100)
  let fillProbabilityEdgeRefPct ← floatEnv env "FILL_PROBABILITY_EDGE_REF_PCT" (12 / 100)
  let queueRiskSensitivity ← floatEnv env "QUEUE_RISK_SENSITIVITY" 1
  let makerRequoteStepBps ← floatEnv env "MAKER_REQUOTE_STEP_BPS" (8 / 10)
  let makerMinFillProbability ← floatEnv env "MAKER_MIN_FILL_PROBABILITY" (45 / 100)
  let makerRequoteFillBoost ← floatEnv env "MAKER_REQUOTE_FILL_BOOST" (12 / 100)
  let maxDailyDrawdownPct ← floatEnv env "MAX_DAILY_DRAWDOWN_PCT" 1
  let capitalPerExchangeUsdt ← floatEnv env "CAPITAL_PER_EXCHANGE_USDT" 1000
  let capitalPerTradeUsdt ← floatEnv env "CAPITAL_PER_TRADE_USDT" 150
  let maxPositionPerSymbol ← floatEnv env "MAX_POSITION_PER_SYMBOL" (2 / 100)
  let minNotionalUsdt ← floatEnv env "MIN_NOTIONAL_USDT" 20
  let tradeCooldownSec ← floatEnv env "TRADE_COOLDOWN_SEC" 8
  let rebalanceThresholdPct ← floatEnv env "REBALANCE_THRESHOLD_PCT" 35
  let rebalanceFeePct ← floatEnv env "REBALANCE_FEE_PCT" (2 / 100)
  let orderbookImpactNotionalUsdt ← floatEnv env "ORDERBOOK_IMPACT_NOTIONAL_USDT" 150
  return {
    mode := readMode (lower ((env.getenv "MODE").getD "paper"))
    executionStyle := readStyle (lower (strip ((env.getenv "EXECUTION_STYLE").getD "taker-taker")))
    makerSidePreference := readPreference (lower (strip ((env.getenv "MAKER_SIDE_PREFERENCE").getD "buy")))
    exchanges
    symbols := csvEnv env "SYMBOLS" "BTC/USDT,ETH/USDT"
    pollIntervalSec
    minNetSpreadPct
    slippagePct
    useDynamicSlippage := boolEnv env "USE_DYNAMIC_SLIPPAGE" true
    autoThresholdEnabled := boolEnv env "AUTO_THRESHOLD_ENABLED" true
    autoThresholdCostBufferRatio
    autoThresholdMinFloorPct
    fillProbabilityEdgeRefPct
    queueRiskSensitivity
    makerOrderTimeoutMs := intEnv env "MAKER_ORDER_TIMEOUT_MS" 1200
    makerMaxRequotes := intEnv env "MAKER_MAX_REQUOTES" 2
    makerRequoteStepBps
    makerMinFillProbability
    makerRequoteFillBoost
    allowNegativeExpectedProfitDryrun :=
      boolEnv env "ALLOW_NEGATIVE_EXPECTED_PROFIT_DRYRUN" false
    maxDataAgeMs := intEnv env "MAX_DATA_AGE_MS" 3500
    maxDailyDrawdownPct
    capitalPerExchangeUsdt
    capitalPerTradeUsdt
    maxPositionPerSymbol
    minNotionalUsdt
    tradeCooldownSec
    maxConsecutiveFailures := intEnv env "MAX_CONSECUTIVE_FAILURES" 8
    rebalanceThresholdPct
    rebalanceIntervalSec := intEnv env "REBALANCE_INTERVAL_SEC" 120
    rebalanceFeePct
    statusLogIntervalSec := intEnv env "STATUS_LOG_INTERVAL_SEC" 30
    maxOpportunitiesPerCycle := intEnv env "MAX_OPPORTUNITIES_PER_CYCLE" 3
    maxOpportunityAgeMs := intEnv env "MAX_OPPORTUNITY_AGE_MS" 1200
    enableOrderbookDepth := boolEnv env "ENABLE_ORDERBOOK_DEPTH" true
    enableWebsocketMarketData := boolEnv env "ENABLE_WEBSOCKET_MARKET_DATA" true
    websocketStaleMs := intEnv env "WEBSOCKET_STALE_MS" 6000
    requireDepthLiquidity := boolEnv env "REQUIRE_DEPTH_LIQUIDITY" true
    orderbookImpactNotionalUsdt
    dashboardEnabled := boolEnv env "DASHBOARD_ENABLED" true
    dashboardHost := strip ((env.getenv "DASHBOARD_HOST").getD "127.0.0.1")
    dashboardPort := intEnv env "DASHBOARD_PORT" 8080
    telegramBotToken := strip ((env.getenv "TELEGRAM_BOT_TOKEN").getD "")
    telegramChatId := strip ((env.getenv "TELEGRAM_CHAT_ID").getD "")
    feesTaker
    feesMaker }

example : (loadConfig .empty).map (fun s => (s.exchanges, s.feesMaker.entries)) =
    some (defaultConfig.exchanges, defaultConfig.feesMaker.entries) := by decide +kernel

/-! ## Writing an environment -/

/-- A number, as it is written. -/
def numberText (x : ℚ) : String := String.ofList (decimalText x)

/-- A whole number, as it is written. -/
def intText (n : ℤ) : String := String.ofList (wholeText n)

/-- A switch, as it is written. -/
def boolText (b : Bool) : String := if b then "true" else "false"

/-- A list, as it is written. -/
def csvText (texts : List String) : String :=
  String.ofList ([','].intercalate (texts.map String.toList))

/-- A mode, as it is written. -/
def modeText : Mode → String
  | .paper => "paper"
  | .dryRun => "dry-run"
  | .unsupported => "unsupported"

/-- A style, as it is written. -/
def styleText : ExecutionStyle → String
  | .takerTaker => "taker-taker"
  | .makerTaker => "maker-taker"
  | .unsupported => "unsupported"

/-- A preference, as it is written. -/
def preferenceText : MakerSidePreference → String
  | .buy => "buy"
  | .sell => "sell"
  | .unsupported => "unsupported"

/-- The settings that are numbers, by their variables. -/
def numbers (s : Settings) : List (String × ℚ) := [
  ("POLL_INTERVAL_SEC", s.pollIntervalSec),
  ("MIN_NET_SPREAD_PCT", s.minNetSpreadPct),
  ("SLIPPAGE_PCT", s.slippagePct),
  ("AUTO_THRESHOLD_COST_BUFFER_RATIO", s.autoThresholdCostBufferRatio),
  ("AUTO_THRESHOLD_MIN_FLOOR_PCT", s.autoThresholdMinFloorPct),
  ("FILL_PROBABILITY_EDGE_REF_PCT", s.fillProbabilityEdgeRefPct),
  ("QUEUE_RISK_SENSITIVITY", s.queueRiskSensitivity),
  ("MAKER_REQUOTE_STEP_BPS", s.makerRequoteStepBps),
  ("MAKER_MIN_FILL_PROBABILITY", s.makerMinFillProbability),
  ("MAKER_REQUOTE_FILL_BOOST", s.makerRequoteFillBoost),
  ("MAX_DAILY_DRAWDOWN_PCT", s.maxDailyDrawdownPct),
  ("CAPITAL_PER_EXCHANGE_USDT", s.capitalPerExchangeUsdt),
  ("CAPITAL_PER_TRADE_USDT", s.capitalPerTradeUsdt),
  ("MAX_POSITION_PER_SYMBOL", s.maxPositionPerSymbol),
  ("MIN_NOTIONAL_USDT", s.minNotionalUsdt),
  ("TRADE_COOLDOWN_SEC", s.tradeCooldownSec),
  ("REBALANCE_THRESHOLD_PCT", s.rebalanceThresholdPct),
  ("REBALANCE_FEE_PCT", s.rebalanceFeePct),
  ("ORDERBOOK_IMPACT_NOTIONAL_USDT", s.orderbookImpactNotionalUsdt)]

/-- The settings that are whole numbers, by their variables. -/
def wholes (s : Settings) : List (String × ℤ) := [
  ("MAKER_ORDER_TIMEOUT_MS", s.makerOrderTimeoutMs),
  ("MAKER_MAX_REQUOTES", s.makerMaxRequotes),
  ("MAX_DATA_AGE_MS", s.maxDataAgeMs),
  ("MAX_CONSECUTIVE_FAILURES", s.maxConsecutiveFailures),
  ("REBALANCE_INTERVAL_SEC", s.rebalanceIntervalSec),
  ("STATUS_LOG_INTERVAL_SEC", s.statusLogIntervalSec),
  ("MAX_OPPORTUNITIES_PER_CYCLE", s.maxOpportunitiesPerCycle),
  ("MAX_OPPORTUNITY_AGE_MS", s.maxOpportunityAgeMs),
  ("WEBSOCKET_STALE_MS", s.websocketStaleMs),
  ("DASHBOARD_PORT", s.dashboardPort)]

/-- The settings that are switches, by their variables. -/
def switches (s : Settings) : List (String × Bool) := [
  ("USE_DYNAMIC_SLIPPAGE", s.useDynamicSlippage),
  ("AUTO_THRESHOLD_ENABLED", s.autoThresholdEnabled),
  ("ALLOW_NEGATIVE_EXPECTED_PROFIT_DRYRUN", s.allowNegativeExpectedProfitDryrun),
  ("ENABLE_ORDERBOOK_DEPTH", s.enableOrderbookDepth),
  ("ENABLE_WEBSOCKET_MARKET_DATA", s.enableWebsocketMarketData),
  ("REQUIRE_DEPTH_LIQUIDITY", s.requireDepthLiquidity),
  ("DASHBOARD_ENABLED", s.dashboardEnabled)]

/-- What the variables are set to, except for those of the fees. -/
def settingTexts (s : Settings) : List (String × String) :=
  [("MODE", modeText s.mode),
    ("EXECUTION_STYLE", styleText s.executionStyle),
    ("MAKER_SIDE_PREFERENCE", preferenceText s.makerSidePreference),
    ("EXCHANGES", csvText s.exchanges),
    ("SYMBOLS", csvText s.symbols),
    ("DASHBOARD_HOST", s.dashboardHost),
    ("TELEGRAM_BOT_TOKEN", s.telegramBotToken),
    ("TELEGRAM_CHAT_ID", s.telegramChatId)] ++
  (numbers s).map (fun entry => (entry.1, numberText entry.2)) ++
  (wholes s).map (fun entry => (entry.1, intText entry.2)) ++
  (switches s).map (fun entry => (entry.1, boolText entry.2))

/-- The variable of a fee. -/
def feeVariable (fees : OrdDict String ℚ) (kind name : String) : Option String :=
  (fees.entries.find? fun entry => kind ++ upper entry.1 = name).map fun entry => numberText entry.2

/-- What a variable is set to, so that the settings are loaded. -/
def variableText (s : Settings) (name : String) : Option String :=
  if startsWith name "FEE_TAKER_" then feeVariable s.feesTaker "FEE_TAKER_" name
  else if startsWith name "FEE_MAKER_" then feeVariable s.feesMaker "FEE_MAKER_" name
  else (settingTexts s).lookup name

/-! ## Text -/

/-- Upper case moves the code of a lower-case letter, and no other. -/
lemma toNat_toUpper (c : Char) :
    c.toUpper.toNat = if 97 ≤ c.toNat ∧ c.toNat ≤ 122 then c.toNat - 32 else c.toNat := by
  by_cases h : 'a'.val ≤ c.val ∧ c.val ≤ 'z'.val
  · have moved := congrArg (fun d : Char => d.val.toNat) (dif_pos h : c.toUpper = _)
    have range : 97 ≤ c.toNat ∧ c.toNat ≤ 122 := h
    have small : (c.val + ('A'.val - 'a'.val)).toNat = c.toNat - 32 := by
      have shift : ('A'.val - 'a'.val).toNat = 2 ^ 32 - 32 := by decide
      rw [UInt32.toNat_add, Char.toNat_val, shift]
      omega
    rw [if_pos range]
    exact moved.trans small
  · have range : ¬(97 ≤ c.toNat ∧ c.toNat ≤ 122) := h
    rw [if_neg range]
    exact congrArg Char.toNat (dif_neg h : c.toUpper = _)

lemma char_eq_of_toNat {c d : Char} (e : c.toNat = d.toNat) : c = d := by
  apply Char.ext
  exact UInt32.toNat_inj.1 e

lemma toLower_toUpper (c : Char) : c.toUpper.toLower = c.toLower := by
  apply char_eq_of_toNat
  rw [toNat_toLower, toNat_toLower, toNat_toUpper]
  grind

lemma toLower_toLower (c : Char) : c.toLower.toLower = c.toLower := by
  apply char_eq_of_toNat
  rw [toNat_toLower c.toLower, toNat_toLower]
  grind

/-- Case is no matter of white space. -/
lemma isSpace_toLower (c : Char) : isSpace c.toLower = isSpace c := by
  unfold isSpace
  rw [toNat_toLower]
  split
  case isTrue => exact decide_eq_decide.2 (by omega)
  case isFalse => rfl

lemma eq_comma_of_toLower {c : Char} (e : c.toLower = ',') : c = ',' := by
  have code := congrArg Char.toNat e
  rw [toNat_toLower] at code
  apply char_eq_of_toNat
  split at code
  case isTrue h =>
    have comma : (',' : Char).toNat = 44 := rfl
    omega
  case isFalse => exact code

lemma lower_lower (text : String) : lower (lower text) = lower text := by
  rw [lower, lower, String.toList_ofList, List.map_map]
  exact congrArg String.ofList (List.map_congr_left fun c _ => toLower_toLower c)

lemma lower_upper (text : String) : lower (upper text) = lower text := by
  rw [lower, upper, String.toList_ofList, List.map_map]
  exact congrArg String.ofList (List.map_congr_left fun c _ => toLower_toUpper c)

/-- Texts in lower case stay different in upper case. -/
lemma upper_inj {a b : String} (ha : lower a = a) (hb : lower b = b) (e : upper a = upper b) :
    a = b := by
  rw [← ha, ← hb, ← lower_upper a, ← lower_upper b, e]

lemma strip_strip (text : String) : strip (strip text) = strip text := by
  rw [strip, strip, String.toList_ofList, trim_trim]

lemma isText_lower {text : String} (h : IsText text) : IsText (lower text) := by
  intro c mem
  rw [lower, String.toList_ofList] at mem
  obtain ⟨d, hd, rfl⟩ := List.mem_map.1 mem
  have range := h d hd
  rw [toNat_toLower]
  split <;> omega

lemma isText_strip {text : String} (h : IsText text) : IsText (strip text) := by
  intro c mem
  rw [strip, String.toList_ofList] at mem
  exact h c ((trim_sublist isSpace text.toList).subset mem)

lemma isText_csvText {texts : List String} (h : ∀ text ∈ texts, IsText text) :
    IsText (csvText texts) := by
  intro c mem
  rw [csvText, String.toList_ofList] at mem
  cases mem_of_mem_intercalate mem with
  | inl comma => rw [comma]; decide
  | inr entry =>
    obtain ⟨cs, hcs, mem⟩ := entry
    obtain ⟨text, htext, rfl⟩ := List.mem_map.1 hcs
    exact h text htext c mem

lemma isText_numberText (x : ℚ) : IsText (numberText x) := by
  intro c mem
  rw [numberText, String.toList_ofList] at mem
  have range := range_of_mem_decimalText mem
  omega

lemma isText_intText (n : ℤ) : IsText (intText n) := by
  intro c mem
  rw [intText, String.toList_ofList] at mem
  have range := range_of_mem_wholeText mem
  omega

lemma isText_boolText (b : Bool) : IsText (boolText b) := by
  cases b <;> decide

lemma isText_modeText (mode : Mode) : IsText (modeText mode) := by
  cases mode <;> decide

lemma isText_styleText (style : ExecutionStyle) : IsText (styleText style) := by
  cases style <;> decide

lemma isText_preferenceText (preference : MakerSidePreference) :
    IsText (preferenceText preference) := by
  cases preference <;> decide

/-- Case is no matter of equals signs. -/
lemma equals_mem_upper (text : String) : '=' ∈ (upper text).toList ↔ '=' ∈ text.toList := by
  rw [upper, String.toList_ofList, List.mem_map]
  refine ⟨fun h => ?_, fun mem => ⟨'=', mem, rfl⟩⟩
  obtain ⟨c, mem, e⟩ := h
  have same : c = '=' := by
    have code := congrArg Char.toNat e
    rw [toNat_toUpper] at code
    have equals : ('=' : Char).toNat = 61 := rfl
    apply char_eq_of_toNat
    split at code <;> omega
  exact same ▸ mem

/-- An entry stays one in lower case. -/
lemma isEntry_lower {text : String} (h : IsEntry ',' isSpace text.toList) :
    IsEntry ',' isSpace (lower text).toList := by
  rw [lower, String.toList_ofList]
  have same : isSpace ∘ Char.toLower = isSpace := funext isSpace_toLower
  exact {
    ne_nil := fun e => h.ne_nil (List.map_eq_nil_iff.1 e)
    no_sep := fun mem => by
      obtain ⟨c, hc, e⟩ := List.mem_map.1 mem
      exact h.no_sep (eq_comma_of_toLower e ▸ hc)
    trimmed := by rw [trim_map same, h.trimmed] }

/-! ## Reading what is written -/

variable {env : Env} {name : String}

lemma csvEnv_csvText {texts : List String} {default : String}
    (h : ∀ text ∈ texts, IsEntry ',' isSpace text.toList) (e : env.getenv name = some (csvText texts)) :
    csvEnv env name default = texts := by
  have texts' : ∀ cs ∈ texts.map String.toList, IsEntry ',' isSpace cs := fun cs mem => by
    obtain ⟨text, htext, rfl⟩ := List.mem_map.1 mem
    exact h text htext
  rw [csvEnv, e, Option.getD_some, csvText, String.toList_ofList, entries_intercalate texts',
    List.map_map]
  exact (List.map_congr_left fun text _ => String.ofList_toList).trans (List.map_id _)

lemma floatEnv_unset {default : ℚ} (e : env.getenv name = none) :
    floatEnv env name default = some default := by
  unfold floatEnv
  rw [e]

lemma floatEnv_numberText {x : ℚ} (h : Spellable x) (e : env.getenv name = some (numberText x)) (default : ℚ) :
    floatEnv env name default = some x := by
  unfold floatEnv
  rw [e]
  dsimp only
  rw [numberText, String.toList_ofList, readDecimal_decimalText h]

lemma intEnv_intText {n : ℤ} (small : n.natAbs < 10 ^ maxDigits)
    (e : env.getenv name = some (intText n)) (default : ℤ) : intEnv env name default = n := by
  unfold intEnv
  rw [e]
  dsimp only
  rw [intText, String.toList_ofList, readWhole_wholeText small, Option.getD_some]

lemma boolEnv_boolText {b : Bool} (e : env.getenv name = some (boolText b)) (default : Bool) :
    boolEnv env name default = b := by
  unfold boolEnv
  rw [e]
  cases b with
  | true => rfl
  | false => rfl

lemma readMode_modeText (mode : Mode) : readMode (lower (modeText mode)) = mode := by
  cases mode <;> rfl

lemma readStyle_styleText (style : ExecutionStyle) :
    readStyle (lower (strip (styleText style))) = style := by
  cases style <;> rfl

lemma readPreference_preferenceText (preference : MakerSidePreference) :
    readPreference (lower (strip (preferenceText preference))) = preference := by
  cases preference <;> rfl

/-- The variable of an exchange's fee holds that fee. -/
lemma feeVariable_tabulate {fee : String → ℚ} {exchanges : List String} {ex : String}
    (lowered : ∀ ex ∈ exchanges, lower ex = ex) (mem : ex ∈ exchanges) (kind : String) :
    feeVariable (.tabulate fee exchanges) kind (kind ++ upper ex) = some (numberText (fee ex)) := by
  have stored : (OrdDict.tabulate fee exchanges).get? ex = some (fee ex) := by
    rw [OrdDict.get?_tabulate, if_pos mem]
  have found : ((OrdDict.tabulate fee exchanges).entries.find? fun entry =>
      kind ++ upper entry.1 = kind ++ upper ex).isSome :=
    List.find?_isSome.2 ⟨(ex, fee ex), OrdDict.mem_of_get? stored, decide_eq_true rfl⟩
  obtain ⟨⟨ex', x⟩, hentry⟩ := Option.isSome_iff_exists.1 found
  have names : kind ++ upper ex' = kind ++ upper ex :=
    of_decide_eq_true (List.find?_some hentry :)
  have entry := OrdDict.get?_of_mem (List.mem_of_find?_eq_some hentry)
  rw [OrdDict.get?_tabulate] at entry
  split at entry
  case isTrue mem' =>
    have same : ex' = ex :=
      upper_inj (lowered ex' mem') (lowered ex mem) ((String.append_right_inj _).1 names)
    rw [feeVariable, hentry, ← same]
    exact congrArg (fun x => some (numberText x)) (Option.some.inj entry).symm
  case isFalse => cases entry

/-! ## What can be configured -/

/-- The fees of one kind: one for each exchange, a number that can be spelled. -/
def FeesOf (default : String → ℚ) (exchanges : List String) (fees : OrdDict String ℚ) : Prop :=
  ∃ fee, fees = .tabulate fee exchanges ∧
    ∀ ex ∈ exchanges, Spellable (fee ex) ∧ ('=' ∈ ex.toList → fee ex = default ex)

/-- The settings that can be configured. -/
structure Settings.Configurable (s : Settings) : Prop where
  exchanges : ∀ ex ∈ s.exchanges, IsText ex ∧ IsEntry ',' isSpace ex.toList ∧ lower ex = ex
  symbols : ∀ symbol ∈ s.symbols, IsText symbol ∧ IsEntry ',' isSpace symbol.toList
  numbers : ∀ entry ∈ numbers s, Spellable entry.2
  wholes : ∀ entry ∈ wholes s, entry.2.natAbs < 10 ^ maxDigits
  feesTaker : FeesOf defaultTakerFee s.exchanges s.feesTaker
  feesMaker : FeesOf defaultMakerFee s.exchanges s.feesMaker
  dashboardHost : IsText s.dashboardHost ∧ strip s.dashboardHost = s.dashboardHost
  telegramBotToken : IsText s.telegramBotToken ∧ strip s.telegramBotToken = s.telegramBotToken
  telegramChatId : IsText s.telegramChatId ∧ strip s.telegramChatId = s.telegramChatId

lemma isText_feeVariable {fees : OrdDict String ℚ} {kind text : String}
    (e : feeVariable fees kind name = some text) : IsText text := by
  obtain ⟨entry, _, rfl⟩ := Option.map_eq_some_iff.1 e
  exact isText_numberText _

/-- All texts can be set. -/
lemma Settings.Configurable.isText {s : Settings} (h : s.Configurable) {text : String}
    (e : variableText s name = some text) : IsText text := by
  unfold variableText at e
  split at e
  case isTrue => exact isText_feeVariable e
  case isFalse =>
    split at e
    case isTrue => exact isText_feeVariable e
    case isFalse =>
      obtain ⟨before, after, split, _⟩ := List.lookup_eq_some_iff.1 e
      have mem : (name, text) ∈ settingTexts s := by
        rw [split]
        exact List.mem_append_right _ List.mem_cons_self
      have texts : ∀ entry ∈ settingTexts s, IsText entry.2 := by
        simp only [settingTexts, List.forall_mem_append, List.forall_mem_cons, List.forall_mem_map]
        exact ⟨⟨⟨⟨isText_modeText _, isText_styleText _, isText_preferenceText _,
          isText_csvText fun ex mem => (h.exchanges ex mem).1,
          isText_csvText fun symbol mem => (h.symbols symbol mem).1, h.dashboardHost.1,
          h.telegramBotToken.1, h.telegramChatId.1, List.forall_mem_nil _⟩, fun _ _ => isText_numberText _⟩,
          fun _ _ => isText_intText _⟩, fun _ _ => isText_boolText _⟩
      exact texts _ mem

/-- The environment from which the settings are loaded. -/
def Settings.Configurable.environment {s : Settings} (h : s.Configurable) : Env where
  getenv name := if '=' ∈ name.toList then none else variableText s name
  named _ mem := if_pos mem
  isText _ _ e := by
    split at e
    case isTrue => cases e
    case isFalse => exact h.isText e

lemma startsWith_append (head rest : String) : startsWith (head ++ rest) head = true := by
  rw [startsWith, String.toList_append]
  exact List.isPrefixOf_iff_prefix.2 (List.prefix_append _ _)

/-- The fees of one kind are read back. -/
lemma feesEnv_environment {s : Settings} (h : s.Configurable) {kind : String} {default : String → ℚ}
    {fees : OrdDict String ℚ} (hfees : FeesOf default s.exchanges fees) (plain : '=' ∉ kind.toList)
    (e : ∀ ex, variableText s (kind ++ upper ex) = feeVariable fees kind (kind ++ upper ex)) :
    feesEnv h.environment kind default s.exchanges = some fees := by
  obtain ⟨fee, rfl, hfee⟩ := hfees
  refine OrdDict.foldlM_set (fun ex mem => ?_) _
  have named : '=' ∈ (kind ++ upper ex).toList ↔ '=' ∈ ex.toList := by
    rw [String.toList_append, List.mem_append, or_iff_right plain, equals_mem_upper]
  by_cases equals : '=' ∈ ex.toList
  · rw [floatEnv_unset (h.environment.named _ (named.2 equals)), (hfee ex mem).2 equals]
  · refine floatEnv_numberText (hfee ex mem).1 ?_ _
    show ite _ none _ = _
    rw [if_neg fun mem => equals (named.1 mem), e,
      feeVariable_tabulate (fun ex mem => (h.exchanges ex mem).2.2) mem]

/-- Settings that can be configured are loaded from their environment. -/
lemma loadConfig_environment {s : Settings} (h : s.Configurable) :
    loadConfig h.environment = some s := by
  have number : ∀ {x} name, h.environment.getenv name = some (numberText x) →
      (numbers s).lookup name = some x → ∀ default, floatEnv h.environment name default = some x := by
    intro x name e found default
    obtain ⟨before, after, split, _⟩ := List.lookup_eq_some_iff.1 found
    have mem : (name, x) ∈ numbers s := by
      rw [split]
      exact List.mem_append_right _ List.mem_cons_self
    exact floatEnv_numberText (h.numbers _ mem) e default
  have whole : ∀ {n} name, h.environment.getenv name = some (intText n) →
      (wholes s).lookup name = some n → ∀ default, intEnv h.environment name default = n := by
    intro n name e found default
    obtain ⟨before, after, split, _⟩ := List.lookup_eq_some_iff.1 found
    have mem : (name, n) ∈ wholes s := by
      rw [split]
      exact List.mem_append_right _ List.mem_cons_self
    exact intEnv_intText (h.wholes _ mem) e default
  have switch : ∀ {b} name, h.environment.getenv name = some (boolText b) →
      ∀ default, boolEnv h.environment name default = b := fun _ => boolEnv_boolText
  have exchanges : (csvEnv h.environment "EXCHANGES" "binance,bybit,okx,kucoin").map lower =
      s.exchanges := by
    have read : csvEnv h.environment "EXCHANGES" "binance,bybit,okx,kucoin" = s.exchanges :=
      csvEnv_csvText (fun ex mem => (h.exchanges ex mem).2.1) rfl
    rw [read]
    exact (List.map_congr_left fun ex mem => (h.exchanges ex mem).2.2).trans (List.map_id _)
  have symbols : csvEnv h.environment "SYMBOLS" "BTC/USDT,ETH/USDT" = s.symbols :=
    csvEnv_csvText (fun symbol mem => (h.symbols symbol mem).2) rfl
  have feesTaker : feesEnv h.environment "FEE_TAKER_" defaultTakerFee s.exchanges =
      some s.feesTaker :=
    feesEnv_environment h h.feesTaker (by decide) fun ex => by
      rw [variableText, if_pos (startsWith_append _ _)]
  have feesMaker : feesEnv h.environment "FEE_MAKER_" defaultMakerFee s.exchanges =
      some s.feesMaker :=
    feesEnv_environment h h.feesMaker (by decide) fun ex => by
      have other : startsWith ("FEE_MAKER_" ++ upper ex) "FEE_TAKER_" = false := by
        rw [startsWith, String.toList_append]
        rfl
      rw [variableText, other, if_neg Bool.false_ne_true, if_pos (startsWith_append _ _)]
  have mode : h.environment.getenv "MODE" = some (modeText s.mode) := rfl
  have style : h.environment.getenv "EXECUTION_STYLE" = some (styleText s.executionStyle) := rfl
  have preference : h.environment.getenv "MAKER_SIDE_PREFERENCE" =
      some (preferenceText s.makerSidePreference) := rfl
  have host : h.environment.getenv "DASHBOARD_HOST" = some s.dashboardHost := rfl
  have token : h.environment.getenv "TELEGRAM_BOT_TOKEN" = some s.telegramBotToken := rfl
  have chat : h.environment.getenv "TELEGRAM_CHAT_ID" = some s.telegramChatId := rfl
  unfold loadConfig
  dsimp only
  rw [exchanges, feesTaker, feesMaker, symbols,
    number "POLL_INTERVAL_SEC" rfl rfl, number "MIN_NET_SPREAD_PCT" rfl rfl, number "SLIPPAGE_PCT" rfl rfl,
    number "AUTO_THRESHOLD_COST_BUFFER_RATIO" rfl rfl, number "AUTO_THRESHOLD_MIN_FLOOR_PCT" rfl rfl,
    number "FILL_PROBABILITY_EDGE_REF_PCT" rfl rfl, number "QUEUE_RISK_SENSITIVITY" rfl rfl,
    number "MAKER_REQUOTE_STEP_BPS" rfl rfl, number "MAKER_MIN_FILL_PROBABILITY" rfl rfl,
    number "MAKER_REQUOTE_FILL_BOOST" rfl rfl, number "MAX_DAILY_DRAWDOWN_PCT" rfl rfl,
    number "CAPITAL_PER_EXCHANGE_USDT" rfl rfl, number "CAPITAL_PER_TRADE_USDT" rfl rfl,
    number "MAX_POSITION_PER_SYMBOL" rfl rfl, number "MIN_NOTIONAL_USDT" rfl rfl,
    number "TRADE_COOLDOWN_SEC" rfl rfl, number "REBALANCE_THRESHOLD_PCT" rfl rfl,
    number "REBALANCE_FEE_PCT" rfl rfl, number "ORDERBOOK_IMPACT_NOTIONAL_USDT" rfl rfl,
    whole "MAKER_ORDER_TIMEOUT_MS" rfl rfl, whole "MAKER_MAX_REQUOTES" rfl rfl,
    whole "MAX_DATA_AGE_MS" rfl rfl, whole "MAX_CONSECUTIVE_FAILURES" rfl rfl,
    whole "REBALANCE_INTERVAL_SEC" rfl rfl, whole "STATUS_LOG_INTERVAL_SEC" rfl rfl,
    whole "MAX_OPPORTUNITIES_PER_CYCLE" rfl rfl, whole "MAX_OPPORTUNITY_AGE_MS" rfl rfl,
    whole "WEBSOCKET_STALE_MS" rfl rfl, whole "DASHBOARD_PORT" rfl rfl,
    switch "USE_DYNAMIC_SLIPPAGE" rfl, switch "AUTO_THRESHOLD_ENABLED" rfl,
    switch "ALLOW_NEGATIVE_EXPECTED_PROFIT_DRYRUN" rfl, switch "ENABLE_ORDERBOOK_DEPTH" rfl,
    switch "ENABLE_WEBSOCKET_MARKET_DATA" rfl, switch "REQUIRE_DEPTH_LIQUIDITY" rfl,
    switch "DASHBOARD_ENABLED" rfl,
    mode, Option.getD_some, readMode_modeText, style, Option.getD_some, readStyle_styleText,
    preference, Option.getD_some, readPreference_preferenceText, host, Option.getD_some,
    h.dashboardHost.2, token, Option.getD_some, h.telegramBotToken.2, chat, Option.getD_some,
    h.telegramChatId.2]
  rfl

/-! ## What is loaded -/

/-- What a variable holds can be set, as its default can. -/
lemma isText_getD {default : String} (h : IsText default) (env : Env) (name : String) :
    IsText ((env.getenv name).getD default) := by
  cases set : env.getenv name with
  | none => exact h
  | some text => exact env.isText name text set

lemma isEntry_of_csvEnv {text default : String} (h : IsText default)
    (mem : text ∈ csvEnv env name default) : IsText text ∧ IsEntry ',' isSpace text.toList := by
  obtain ⟨cs, hcs, rfl⟩ := List.mem_map.1 mem
  refine ⟨fun c hc => ?_, ?_⟩
  · rw [String.toList_ofList] at hc
    exact isText_getD h env name c (mem_of_mem_entries hcs hc)
  · rw [String.toList_ofList]
    exact isEntry_of_mem hcs

lemma spellable_of_floatEnv {x default : ℚ} (h : Spellable default)
    (e : floatEnv env name default = some x) : Spellable x := by
  unfold floatEnv at e
  split at e
  case h_1 => exact Option.some.inj e ▸ h
  case h_2 =>
    split at e
    case h_1 y hy => exact Option.some.inj e ▸ spellable_of_readDecimal hy
    case h_2 => cases e
    case h_3 => exact Option.some.inj e ▸ h

lemma small_intEnv {default : ℤ} (h : default.natAbs < 10 ^ 6) (env : Env) (name : String) :
    (intEnv env name default).natAbs < 10 ^ maxDigits := by
  have small : default.natAbs < 10 ^ maxDigits :=
    h.trans_le (Nat.pow_le_pow_right (by decide) (by decide))
  unfold intEnv
  split
  case h_1 => exact small
  case h_2 text _ =>
    cases read : readWhole text.toList with
    | none => exact small
    | some n => exact small_of_readWhole read

lemma feesOf_of_feesEnv {kind : String} {default : String → ℚ} {exchanges : List String}
    {fees : OrdDict String ℚ} (spellable : ∀ ex, Spellable (default ex))
    (e : feesEnv env kind default exchanges = some fees) : FeesOf default exchanges fees := by
  have read : ∀ ex ∈ exchanges, floatEnv env (kind ++ upper ex) (default ex) =
      some ((floatEnv env (kind ++ upper ex) (default ex)).getD 0) := fun ex mem => by
    obtain ⟨x, hx⟩ := OrdDict.exists_of_foldlM_set e ex mem
    rw [hx, Option.getD_some]
  refine ⟨fun ex => (floatEnv env (kind ++ upper ex) (default ex)).getD 0, ?_, fun ex mem =>
    ⟨spellable_of_floatEnv (spellable ex) (read ex mem), fun equals => ?_⟩⟩
  · exact (Option.some.inj ((OrdDict.foldlM_set read _).symm.trans e)).symm
  · have named : '=' ∈ (kind ++ upper ex).toList := by
      rw [String.toList_append]
      exact List.mem_append_right _ ((equals_mem_upper ex).2 equals)
    show (floatEnv env (kind ++ upper ex) (default ex)).getD 0 = default ex
    rw [floatEnv_unset (env.named _ named), Option.getD_some]

/-- All exchanges have the same default. -/
lemma defaultFeesTaker_getD (ex : String) : defaultFeesTaker.getD ex (1 / 1000) = 1 / 1000 := by
  have entries : ∀ entry ∈ defaultFeesTaker.entries, entry.2 = 1 / 1000 := by decide +kernel
  unfold OrdDict.getD
  cases stored : defaultFeesTaker.get? ex with
  | none => rfl
  | some fee => exact entries _ (OrdDict.mem_of_get? stored)

/-- Numbers with few digits can be spelled. -/
lemma spellable_of_few {x : ℚ} (dvd : x.den ∣ 10 ^ 4) (finite : |x| < 10 ^ 6)
    (notable : x ≠ 0 → 1 < |x| * 10 ^ 5) : Spellable x where
  decimal := ⟨4, dvd⟩
  finite := finite.trans_le (by decide +kernel)
  notable ne := (notable ne).trans_le
    (mul_le_mul_of_nonneg_left (by decide +kernel) (abs_nonneg x))

lemma spellable_defaultTakerFee (ex : String) : Spellable (defaultTakerFee ex) := by
  rw [defaultTakerFee, defaultFeesTaker_getD]
  exact spellable_of_few (by decide +kernel) (by decide +kernel) (by decide +kernel)

lemma spellable_defaultMakerFee (ex : String) : Spellable (defaultMakerFee ex) := by
  rw [defaultMakerFee, defaultFeesTaker_getD]
  exact spellable_of_few (by decide +kernel) (by decide +kernel) (by decide +kernel)

/-- The defaults of the settings that are numbers. -/
def numberDefaults : List ℚ :=
  [2, 15 / 100, 5 / 100, 25 / 100, 3 / 100, 12 / 100, 1, 8 / 10, 45 / 100, 12 / 100, 1, 1000, 150, 2 / 100,
    20, 8, 35, 2 / 100, 150]

/-- The settings that are numbers are read from their variables, with these defaults. -/
lemma numbers_of_loadConfig {s : Settings} (e : loadConfig env = some s) :
    List.Forall₂ (fun entry default => floatEnv env entry.1 default = some entry.2) (numbers s)
      numberDefaults := by
  unfold loadConfig at e
  obtain ⟨_, _, e⟩ := Option.bind_eq_some_iff.1 e
  obtain ⟨_, _, e⟩ := Option.bind_eq_some_iff.1 e
  iterate 19 obtain ⟨_, _, e⟩ := Option.bind_eq_some_iff.1 e
  cases e
  unfold numbers numberDefaults
  iterate 19 refine .cons ‹_› ?_
  exact .nil

lemma spellable_numberDefaults {default : ℚ} (mem : default ∈ numberDefaults) : Spellable default := by
  have few : ∀ x ∈ numberDefaults, x.den ∣ 10 ^ 4 ∧ |x| < 10 ^ 6 ∧ (x ≠ 0 → 1 < |x| * 10 ^ 5) := by
    decide +kernel
  obtain ⟨dvd, finite, notable⟩ := few default mem
  exact spellable_of_few dvd finite notable

/-- What is read with defaults that can be spelled can be spelled. -/
lemma spellable_of_forall₂ {entries : List (String × ℚ)} {defaults : List ℚ}
    (read : List.Forall₂ (fun entry default => floatEnv env entry.1 default = some entry.2) entries defaults)
    (spellable : ∀ default ∈ defaults, Spellable default) : ∀ entry ∈ entries, Spellable entry.2 := by
  induction read with
  | nil => exact List.forall_mem_nil _
  | cons first _ ih =>
    obtain ⟨known, rest⟩ := List.forall_mem_cons.1 spellable
    exact List.forall_mem_cons.2 ⟨spellable_of_floatEnv known first, ih rest⟩

/-- What is loaded is configurable. -/
lemma configurable_of_loadConfig {s : Settings} (e : loadConfig env = some s) : s.Configurable := by
  have numbers := spellable_of_forall₂ (numbers_of_loadConfig e) fun _ => spellable_numberDefaults
  unfold loadConfig at e
  obtain ⟨feesTaker, hTaker, e⟩ := Option.bind_eq_some_iff.1 e
  obtain ⟨feesMaker, hMaker, e⟩ := Option.bind_eq_some_iff.1 e
  iterate 19 obtain ⟨_, _, e⟩ := Option.bind_eq_some_iff.1 e
  cases e
  exact {
    exchanges := fun ex mem => by
      obtain ⟨text, htext, rfl⟩ := List.mem_map.1 mem
      obtain ⟨ascii, entry⟩ := isEntry_of_csvEnv (by decide) htext
      exact ⟨isText_lower ascii, isEntry_lower entry, lower_lower text⟩
    symbols := fun symbol mem => isEntry_of_csvEnv (by decide) mem
    numbers
    wholes := by
      simp only [wholes, List.forall_mem_cons]
      exact ⟨small_intEnv (by decide) env _, small_intEnv (by decide) env _,
        small_intEnv (by decide) env _, small_intEnv (by decide) env _, small_intEnv (by decide) env _,
        small_intEnv (by decide) env _, small_intEnv (by decide) env _, small_intEnv (by decide) env _,
        small_intEnv (by decide) env _, small_intEnv (by decide) env _, List.forall_mem_nil _⟩
    feesTaker := feesOf_of_feesEnv spellable_defaultTakerFee hTaker
    feesMaker := feesOf_of_feesEnv spellable_defaultMakerFee hMaker
    dashboardHost := ⟨isText_strip (isText_getD (by decide) env _), strip_strip _⟩
    telegramBotToken := ⟨isText_strip (isText_getD (by decide) env _), strip_strip _⟩
    telegramChatId := ⟨isText_strip (isText_getD (by decide) env _), strip_strip _⟩ }

/-- Exactly the configurable settings can be configured. Nothing else is ever loaded: whatever the
environment holds, the lists are clean, each exchange has its fees and the numbers are decimal fractions.
And each such setting can be written down, so that it is loaded as it was written. -/
theorem loadConfig_iff (s : Settings) : (∃ env, loadConfig env = some s) ↔ s.Configurable :=
  ⟨fun ⟨_, e⟩ => configurable_of_loadConfig e, fun h => ⟨h.environment, loadConfig_environment h⟩⟩

end ArbBot
