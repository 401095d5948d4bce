import ArbBot.Executor.Inventory
import ArbBot.Lib.Leveling

/-!
# Rebalancing levels the inventory

The rebalancer in terms of `Leveling`: what it reads are holdings over the set of exchanges `pool`,
and a transfer is a round of leveling (`planned_round`). `rebalance_levels` is the account of one
call: it changes nothing, or it brings two holdings closer to the average and leaves everything else
alone. `rebalance_settles` is the account of a run of calls with no trade in between: it comes to
rest. `rebalance_refills` says when an empty exchange is refilled, which takes an exchange that is
as far above the average as the threshold asks for.
-/

namespace ArbBot.PaperExecutor

open Leveling

/-! ## The holdings that the rebalancer reads -/

/-- The exchanges that the rebalancer reads: the configured ones that have an account. -/
def pool (cfg : BotConfig) (s : PaperExecutor) : Finset String :=
  cfg.exchanges.toFinset.filter (· ∈ s.balances.keys)

/-- The holdings of a base asset, by exchange. -/
def holdings (s : PaperExecutor) (base : String) : String → ℚ := fun ex => s.books.stock ex base

lemma get?_baseByExchange_pool (cfg s base ex) :
    (baseByExchange cfg s base).get? ex =
      if ex ∈ pool cfg s then some (holdings s base ex) else none := by
  rw [get?_baseByExchange]
  simp only [pool, Finset.mem_filter, List.mem_toFinset]
  cases h : s.balances.get? ex with
  | none => simp [OrdDict.mem_keys, h]
  | some bal => simp [OrdDict.mem_keys_of_get? h, holdings, books, booksOf, h]

lemma keys_baseByExchange (cfg s base) : (baseByExchange cfg s base).keys.toFinset = pool cfg s := by
  ext ex
  rw [List.mem_toFinset, OrdDict.mem_keys, get?_baseByExchange_pool]
  split
  case isTrue h => exact iff_of_true ⟨_, rfl⟩ h
  case isFalse h => exact iff_of_false (fun ⟨_, e⟩ => by cases e) h

lemma length_baseByExchange (cfg s base) :
    (baseByExchange cfg s base).entries.length = (pool cfg s).card := by
  have nodup : (baseByExchange cfg s base).keys.Nodup := (baseByExchange cfg s base).nodup
  rw [← keys_baseByExchange cfg s base, List.toFinset_card_of_nodup nodup, OrdDict.keys,
    List.length_map]

lemma mem_baseByExchange {cfg s base} {e : String × ℚ} :
    e ∈ (baseByExchange cfg s base).entries ↔ e.1 ∈ pool cfg s ∧ e.2 = holdings s base e.1 := by
  obtain ⟨ex, v⟩ := e
  rw [OrdDict.mem_entries, get?_baseByExchange_pool]
  split
  case isTrue h => simp [h, eq_comm]
  case isFalse h => simp [h]

/-- A sum over the entries that the rebalancer reads. -/
lemma sumBy_baseByExchange (cfg s base) (φ : ℚ → ℚ) :
    (baseByExchange cfg s base).sumBy φ = ∑ ex ∈ pool cfg s, φ (holdings s base ex) := by
  rw [OrdDict.sumBy_eq_sum, keys_baseByExchange]
  refine Finset.sum_congr rfl fun ex hex => ?_
  rw [get?_baseByExchange_pool, if_pos hex, Option.elim_some]

lemma sum_values_baseByExchange (cfg s base) :
    (baseByExchange cfg s base).values.sum = ∑ ex ∈ pool cfg s, holdings s base ex := by
  have h := sumBy_baseByExchange cfg s base id
  rwa [OrdDict.sumBy, List.map_id] at h

lemma avgBase_baseByExchange (cfg s base) :
    avgBase (baseByExchange cfg s base) = mean (pool cfg s) (holdings s base) := by
  rw [avgBase, sum_values_baseByExchange, length_baseByExchange, mean]

lemma forall_values_baseByExchange {cfg s base} {P : ℚ → Prop} :
    (∀ v ∈ (baseByExchange cfg s base).values, P v) ↔
      ∀ ex ∈ pool cfg s, P (holdings s base ex) := by
  simp only [OrdDict.values, List.forall_mem_map, Prod.forall, mem_baseByExchange]
  exact ⟨fun h ex hex => h ex _ ⟨hex, rfl⟩, fun h ex v hv => hv.2 ▸ h ex hv.1⟩

lemma exists_values_baseByExchange {cfg s base} {P : ℚ → Prop} :
    (∃ v ∈ (baseByExchange cfg s base).values, P v) ↔
      ∃ ex ∈ pool cfg s, P (holdings s base ex) := by
  have h : (∀ v ∈ (baseByExchange cfg s base).values, ¬P v) ↔
      ∀ ex ∈ pool cfg s, ¬P (holdings s base ex) :=
    forall_values_baseByExchange (P := fun v => ¬P v)
  simpa only [not_forall, exists_prop, not_not] using not_congr h

/-! ## A transfer is a round -/

/-- The balances after a transfer. -/
def transferred (balances : OrdDict String ExchangeBalance) (base : String) (m : RebalanceMessage) :
    OrdDict String ExchangeBalance :=
  addBase (addBase balances m.source base (-m.gross)) m.target base m.net

@[simp] lemma keys_transferred (balances base m) :
    (transferred balances base m).keys = balances.keys := by
  simp [transferred]

lemma rebalance_of_recent {cfg s nowTs symbol}
    (recent : rebalancedRecently cfg s symbol nowTs = true) :
    rebalanceSymbolInventory cfg s nowTs symbol = .ok (none, s) := if_pos recent

/-- A transfer that is due and planned is made. -/
lemma rebalance_of_plan {cfg s nowTs symbol base quote m}
    (split : splitSymbol symbol = .ok (base, quote))
    (due : rebalancedRecently cfg s symbol nowTs = false)
    (plan : planTransfer cfg symbol (baseByExchange cfg s base) = some m) :
    rebalanceSymbolInventory cfg s nowTs symbol = .ok (some m, { s with
      balances := transferred s.balances base m
      lastRebalanceAt := s.lastRebalanceAt.set symbol nowTs }) := by
  simp only [rebalanceSymbolInventory, due, Bool.false_eq_true, if_false, split, plan]
  rfl

/-- Without a plan a call is idle, whether it is due or not. -/
lemma rebalance_of_no_plan {cfg s nowTs symbol base quote}
    (split : splitSymbol symbol = .ok (base, quote))
    (plan : planTransfer cfg symbol (baseByExchange cfg s base) = none) :
    rebalanceSymbolInventory cfg s nowTs symbol = .ok (none, s) := by
  cases recent : rebalancedRecently cfg s symbol nowTs with
  | true => exact rebalance_of_recent recent
  | false => simp only [rebalanceSymbolInventory, recent, Bool.false_eq_true, if_false, split, plan]

/-- A call on a `BASE/QUOTE` symbol is idle, or it makes a planned transfer. -/
lemma rebalance_cases {symbol base quote} (split : splitSymbol symbol = .ok (base, quote))
    (cfg s nowTs) :
    rebalanceSymbolInventory cfg s nowTs symbol = .ok (none, s) ∨
    ∃ m, planTransfer cfg symbol (baseByExchange cfg s base) = some m ∧
      rebalanceSymbolInventory cfg s nowTs symbol = .ok (some m, { s with
        balances := transferred s.balances base m
        lastRebalanceAt := s.lastRebalanceAt.set symbol nowTs }) := by
  cases due : rebalancedRecently cfg s symbol nowTs with
  | true => exact .inl (rebalance_of_recent due)
  | false =>
    cases plan : planTransfer cfg symbol (baseByExchange cfg s base) with
    | none => exact .inl (rebalance_of_no_plan split plan)
    | some m => exact .inr ⟨m, rfl, rebalance_of_plan split due plan⟩

lemma pool_of_keys {cfg s s'} (h : s'.balances.keys = s.balances.keys) :
    pool cfg s' = pool cfg s := by
  rw [pool, pool, h]

/-- A transfer is a shipment. -/
lemma holdings_transferred {cfg s s' symbol base m vs vt}
    (plan : Planned cfg symbol (baseByExchange cfg s base) m vs vt)
    (h : s'.balances = transferred s.balances base m) :
    holdings s' base = ship (holdings s base) m.source m.target m.gross m.net := by
  obtain ⟨hsource, htarget⟩ := planned_keys plan
  funext ex
  rw [holdings, books, h, transferred, booksOf_addBase (by simpa), booksOf_addBase hsource]
  simp only [Books.deliver, and_true, ship, holdings, books]
  split_ifs <;> ring

/-- A planned transfer is a round of leveling. -/
lemma planned_round {cfg s s' symbol base m vs vt}
    (plan : Planned cfg symbol (baseByExchange cfg s base) m vs vt)
    (h : s'.balances = transferred s.balances base m) :
    Round (pool cfg s) (cfg.rebalanceThresholdPct / 100) (cfg.rebalanceFeePct / 100)
      (holdings s base) m.gross (holdings s' base) m.source m.target := by
  obtain ⟨hvs, hvt⟩ : holdings s base m.source = vs ∧ holdings s base m.target = vt :=
    planned_stock plan
  have hmem : ∀ {ex v}, (baseByExchange cfg s base).get? ex = some v → ex ∈ pool cfg s :=
    fun e => (mem_baseByExchange.1 (OrdDict.mem_of_get? e)).1
  have hnet : (1 - cfg.rebalanceFeePct / 100) * m.gross = m.net := by
    rw [plan.net_eq, plan.fee_eq]
    ring
  have havg := avgBase_baseByExchange cfg s base
  exact
    { source := hmem plan.source
      target := hmem plan.target
      gap_pos := havg ▸ plan.threshold_pos
      source_over := by rw [hvs, ← havg]; exact plan.source_over
      target_under := by rw [hvt, ← havg]; exact plan.target_under
      gross_eq := by rw [hvs, hvt, ← havg]; exact plan.gross_eq
      arrives := hnet ▸ plan.net_pos
      after := fun ex _ => by rw [hnet, holdings_transferred plan h] }

/-! ## One call -/

/-- A rebalance has moved `base` from one exchange above the average to another one below it. -/
structure Rebalanced (cfg : BotConfig) (s : PaperExecutor) (base : String) (m : RebalanceMessage)
    (s' : PaperExecutor) : Prop where
  distinct : m.source ≠ m.target
  source : ∃ v v', (baseByExchange cfg s base).get? m.source = some v ∧
    (baseByExchange cfg s' base).get? m.source = some v' ∧
    avgBase (baseByExchange cfg s base) ≤ v' ∧ v' < v
  target : ∃ v v', (baseByExchange cfg s base).get? m.target = some v ∧
    (baseByExchange cfg s' base).get? m.target = some v' ∧
    v < v' ∧ v' ≤ avgBase (baseByExchange cfg s base)
  deviation : (baseByExchange cfg s' base).sumBy (|· - avgBase (baseByExchange cfg s base)|) =
    (baseByExchange cfg s base).sumBy (|· - avgBase (baseByExchange cfg s base)|)
      - (m.gross + m.net)
  noHigher : ∀ top, (∀ v ∈ (baseByExchange cfg s base).values, v ≤ top) →
    ∀ v ∈ (baseByExchange cfg s' base).values, v ≤ top
  noLower : ∀ bottom, (∀ v ∈ (baseByExchange cfg s base).values, bottom ≤ v) →
    ∀ v ∈ (baseByExchange cfg s' base).values, bottom ≤ v
  total : (baseByExchange cfg s' base).values.sum =
    (baseByExchange cfg s base).values.sum - (m.gross - m.net)
  loss : m.gross - m.net = m.gross * cfg.rebalanceFeePct / 100
  others : ∀ ex, ex ≠ m.source → ex ≠ m.target → s'.balances.get? ex = s.balances.get? ex
  quotes : ∀ ex, (s'.balances.get? ex).map (·.quoteFree) = (s.balances.get? ex).map (·.quoteFree)
  otherBases : ∀ ex c, c ≠ base →
    (s'.balances.get? ex).map (·.baseFree.get? c) = (s.balances.get? ex).map (·.baseFree.get? c)
  risk : s'.risk = s.risk
  lastTradeAt : s'.lastTradeAt = s.lastTradeAt
  lastOrderPayload : s'.lastOrderPayload = s.lastOrderPayload

/-! ### A write to one holding leaves the rest of the account alone -/

lemma get?_addBase_of_ne {b : OrdDict String ExchangeBalance} {ex ex' : String} (h : ex' ≠ ex)
    (base x) : (addBase b ex base x).get? ex' = b.get? ex' := by
  rw [addBase, OrdDict.get?_modify, if_neg h]

lemma quoteFree_addBase (b : OrdDict String ExchangeBalance) (ex base x ex') :
    ((addBase b ex base x).get? ex').map (·.quoteFree) = (b.get? ex').map (·.quoteFree) := by
  rw [addBase, OrdDict.get?_modify]
  split
  · rw [Option.map_map]; rfl
  · rfl

lemma baseFree_addBase_of_ne (b : OrdDict String ExchangeBalance) (ex base x ex') {c : String}
    (h : c ≠ base) :
    ((addBase b ex base x).get? ex').map (·.baseFree.get? c) =
      (b.get? ex').map (·.baseFree.get? c) := by
  rw [addBase, OrdDict.get?_modify]
  split
  · rw [Option.map_map]
    refine congrArg (fun f => (b.get? ex').map f) (funext fun bal => ?_)
    exact OrdDict.get?_set_of_ne _ _ h
  · rfl

/-- A transfer levels. -/
lemma planned_rebalanced {cfg s s' symbol base m} (fee : 0 ≤ cfg.rebalanceFeePct)
    (plan : planTransfer cfg symbol (baseByExchange cfg s base) = some m)
    (balances : s'.balances = transferred s.balances base m) (risk : s'.risk = s.risk)
    (lastTradeAt : s'.lastTradeAt = s.lastTradeAt)
    (payload : s'.lastOrderPayload = s.lastOrderPayload) : Rebalanced cfg s base m s' := by
  obtain ⟨vs, vt, plan⟩ := planTransfer_planned plan
  have round := planned_round plan balances
  have hnet : (1 - cfg.rebalanceFeePct / 100) * m.gross = m.net := by
    rw [plan.net_eq, plan.fee_eq]
    ring
  have lv := round.levels (div_nonneg fee (by norm_num))
  rw [hnet] at lv
  have hpool : pool cfg s' = pool cfg s := pool_of_keys (by rw [balances, keys_transferred])
  have hship := holdings_transferred plan balances
  have hsource : holdings s' base m.source = holdings s base m.source - m.gross := by
    rw [hship, ship_source lv.ne]
  have htarget : holdings s' base m.target = holdings s base m.target + m.net := by
    rw [hship, ship_target lv.ne]
  have hread : ∀ {ex}, ex ∈ pool cfg s → ∀ s'', pool cfg s'' = pool cfg s →
      (baseByExchange cfg s'' base).get? ex = some (holdings s'' base ex) := by
    intro ex hex s'' h
    rw [get?_baseByExchange_pool, h, if_pos hex]
  constructor
  case distinct => exact lv.ne
  case source =>
    refine ⟨_, _, hread lv.source s rfl, hread lv.source s' hpool, ?_, ?_⟩
    · rw [avgBase_baseByExchange, hsource]
      linarith [lv.source_over]
    · linarith [lv.gross_pos]
  case target =>
    refine ⟨_, _, hread lv.target s rfl, hread lv.target s' hpool, ?_, ?_⟩
    · linarith [lv.net_pos]
    · rw [avgBase_baseByExchange, htarget]
      linarith [lv.target_under, lv.net_le]
  case deviation =>
    rw [sumBy_baseByExchange, sumBy_baseByExchange, avgBase_baseByExchange, hpool, hship]
    exact lv.deviation_eq
  case noHigher =>
    intro top
    rw [forall_values_baseByExchange (P := (· ≤ top)), forall_values_baseByExchange (P := (· ≤ top)),
      hpool, hship]
    exact lv.le_of_le
  case noLower =>
    intro bottom
    rw [forall_values_baseByExchange (P := (bottom ≤ ·)),
      forall_values_baseByExchange (P := (bottom ≤ ·)), hpool, hship]
    exact lv.ge_of_ge
  case total =>
    rw [sum_values_baseByExchange, sum_values_baseByExchange, hpool, hship]
    exact lv.sum_eq
  case loss => linarith [hnet]
  case others =>
    intro ex hs ht
    rw [balances, transferred, get?_addBase_of_ne ht, get?_addBase_of_ne hs]
  case quotes =>
    intro ex
    rw [balances, transferred, quoteFree_addBase, quoteFree_addBase]
  case otherBases =>
    intro ex c hc
    rw [balances, transferred, baseFree_addBase_of_ne _ _ _ _ _ hc,
      baseFree_addBase_of_ne _ _ _ _ _ hc]
  case risk => exact risk
  case lastTradeAt => exact lastTradeAt
  case lastOrderPayload => exact payload

/-- A call of the rebalancer raises on a symbol that is not `BASE/QUOTE`, or it changes nothing, or it
brings two holdings closer to their average and leaves everything else alone. -/
theorem rebalance_levels {cfg} (fee : 0 ≤ cfg.rebalanceFeePct) (s nowTs symbol) :
    (∃ e, rebalanceSymbolInventory cfg s nowTs symbol = .error e ∧
      splitSymbol symbol = .error e) ∨
    rebalanceSymbolInventory cfg s nowTs symbol = .ok (none, s) ∨
    ∃ base quote m s', splitSymbol symbol = .ok (base, quote) ∧
      rebalanceSymbolInventory cfg s nowTs symbol = .ok (some m, s') ∧
      Rebalanced cfg s base m s' := by
  cases split : splitSymbol symbol with
  | error e =>
    cases due : rebalancedRecently cfg s symbol nowTs with
    | true => exact .inr (.inl (rebalance_of_recent due))
    | false =>
      refine .inl ⟨e, ?_, rfl⟩
      simp only [rebalanceSymbolInventory, due, Bool.false_eq_true, if_false, split]
  | ok p =>
    obtain ⟨base, quote⟩ := p
    rcases rebalance_cases split cfg s nowTs with idle | ⟨m, plan, made⟩
    · exact .inr (.inl idle)
    · exact .inr (.inr ⟨base, quote, m, _, rfl, made, planned_rebalanced fee plan rfl rfl rfl rfl⟩)

/-- Four accounts with the given amounts of BTC. -/
def sampleStock (binance bybit okx kucoin : ℚ) : PaperExecutor where
  risk := {}
  balances := ⟨[("binance", ⟨1000, ⟨[("BTC", binance)], by simp⟩⟩),
    ("bybit", ⟨1000, ⟨[("BTC", bybit)], by simp⟩⟩), ("okx", ⟨1000, ⟨[("BTC", okx)], by simp⟩⟩),
    ("kucoin", ⟨1000, ⟨[("BTC", kucoin)], by simp⟩⟩)], by simp⟩
  lastTradeAt := .empty
  lastRebalanceAt := .empty
  lastOrderPayload := none

/-- The default configuration ships from the exchange that holds everything. -/
theorem rebalance_levels_sample :
    ∃ m s', rebalanceSymbolInventory defaultConfig (sampleStock 4 0 0 0) 0 "BTC/USDT" =
        .ok (some m, s') ∧ Rebalanced defaultConfig (sampleStock 4 0 0 0) "BTC" m s' := by
  have hsplit : splitSymbol "BTC/USDT" = .ok ("BTC", "USDT") := by decide +kernel
  have hsome : (rebalanceSymbolInventory defaultConfig (sampleStock 4 0 0 0) 0
      "BTC/USDT").toOption.any (fun p => p.1.isSome) = true := by decide +kernel
  have hfee : 0 ≤ defaultConfig.rebalanceFeePct := by decide +kernel
  rcases rebalance_levels hfee (sampleStock 4 0 0 0) 0 "BTC/USDT" with
    ⟨e, h, _⟩ | h | ⟨base, quote, m, s', split, h, levels⟩
  · rw [h] at hsome; cases hsome
  · rw [h] at hsome; cases hsome
  · rw [hsplit] at split
    cases split
    exact ⟨m, s', h, levels⟩

/-! ## Calls in a row -/

/-- The first `k` calls on a symbol, at the readings of a clock. -/
def polls (symbol : String) (clock : ℕ → ℚ) (k : ℕ) : List Op :=
  (List.range k).map fun j => .rebalance (clock j) symbol

/-- The state after the first `k` calls. -/
def afterPolls (cfg : BotConfig) (s : PaperExecutor) (symbol : String) (clock : ℕ → ℚ) (k : ℕ) :
    PaperExecutor :=
  (machine cfg).run s (polls symbol clock k)

/-- The message of the call after the first `k`. -/
def messageAt (cfg : BotConfig) (s : PaperExecutor) (symbol : String) (clock : ℕ → ℚ) (k : ℕ) :
    Option RebalanceMessage :=
  match (machine cfg).out (afterPolls cfg s symbol clock k) (.rebalance (clock k) symbol) with
  | .rebalanced _ message => message
  | _ => none

/-- The transfers of the first `k` calls. -/
def transfers (cfg : BotConfig) (s : PaperExecutor) (symbol : String) (clock : ℕ → ℚ) (k : ℕ) :
    List RebalanceMessage :=
  (List.range k).filterMap (messageAt cfg s symbol clock)

lemma afterPolls_succ (cfg s symbol clock k) :
    afterPolls cfg s symbol clock (k + 1) =
      (machine cfg).next (afterPolls cfg s symbol clock k) (.rebalance (clock k) symbol) := by
  rw [afterPolls, polls, List.range_succ, List.map_append]
  exact Machine.run_concat _ _

/-- The same of one step of the machine. -/
lemma poll_cases {symbol base quote} (split : splitSymbol symbol = .ok (base, quote))
    (cfg s nowTs) :
    ((machine cfg).out s (.rebalance nowTs symbol) = .rebalanced symbol none ∧
      rebalanceSymbolInventory cfg s nowTs symbol = .ok (none, s) ∧
      (machine cfg).next s (.rebalance nowTs symbol) = s) ∨
    ∃ m, (machine cfg).out s (.rebalance nowTs symbol) = .rebalanced symbol (some m) ∧
      planTransfer cfg symbol (baseByExchange cfg s base) = some m ∧
      ((machine cfg).next s (.rebalance nowTs symbol)).balances =
        transferred s.balances base m := by
  simp only [Machine.next, Machine.out, machine, step]
  rcases rebalance_cases split cfg s nowTs with idle | ⟨m, plan, made⟩
  · rw [idle]
    exact .inl ⟨rfl, rfl, rfl⟩
  · rw [made]
    exact .inr ⟨m, rfl, plan, rfl⟩

/-- The calls are rounds of leveling. -/
lemma polls_rounds {symbol base quote} (split : splitSymbol symbol = .ok (base, quote))
    (cfg s clock k) :
    pool cfg (afterPolls cfg s symbol clock k) = pool cfg s ∧
      Rounds (pool cfg s) (cfg.rebalanceThresholdPct / 100) (cfg.rebalanceFeePct / 100)
        (holdings s base) ((transfers cfg s symbol clock k).map (·.gross))
        (holdings (afterPolls cfg s symbol clock k) base) := by
  induction k with
  | zero => exact ⟨rfl, .nil⟩
  | succ k ih =>
    obtain ⟨hpool, rounds⟩ := ih
    rw [afterPolls_succ, transfers, List.range_succ, List.filterMap_append, ← transfers]
    rcases poll_cases split cfg (afterPolls cfg s symbol clock k) (clock k) with
      ⟨out, _, next⟩ | ⟨m, out, plan, balances⟩
    · have hnone : messageAt cfg s symbol clock k = none := by rw [messageAt, out]
      rw [List.filterMap_cons_none hnone, List.filterMap_nil, List.append_nil, next]
      exact ⟨hpool, rounds⟩
    · have hsome : messageAt cfg s symbol clock k = some m := by rw [messageAt, out]
      obtain ⟨vs, vt, plan⟩ := planTransfer_planned plan
      have round := planned_round plan balances
      rw [hpool] at round
      rw [List.filterMap_cons_some hsome, List.filterMap_nil, List.map_append]
      exact ⟨(pool_of_keys (by rw [balances, keys_transferred])).trans hpool,
        rounds.concat round⟩

/-- Rebalancing settles. With a positive threshold, a fee of at most half the amount and non-negative
holdings, calls on one symbol with no trade in between transfer finitely often, whatever the clock
reads; in total they transfer at most the deviation of the holdings from their average over twice the
fraction that arrives; and without a fee there are fewer transfers than exchanges. -/
theorem rebalance_settles {cfg s symbol base quote} (split : splitSymbol symbol = .ok (base, quote))
    (nn : ∀ v ∈ (baseByExchange cfg s base).values, 0 ≤ v) (threshold : 0 < cfg.rebalanceThresholdPct)
    (fee : 0 ≤ cfg.rebalanceFeePct / 100) (half : cfg.rebalanceFeePct / 100 ≤ 1 / 2)
    (clock : ℕ → ℚ) :
    (∃ K, ∀ k, K ≤ k → rebalanceSymbolInventory cfg (afterPolls cfg s symbol clock k) (clock k)
      symbol = .ok (none, afterPolls cfg s symbol clock k)) ∧
    (∀ k, ((transfers cfg s symbol clock k).map (·.gross)).sum ≤
      (baseByExchange cfg s base).sumBy (|· - avgBase (baseByExchange cfg s base)|) /
        (2 * (1 - cfg.rebalanceFeePct / 100))) ∧
    (cfg.rebalanceFeePct / 100 = 0 → ∀ k, (transfers cfg s symbol clock k).length ≤
      (baseByExchange cfg s base).entries.length - 1) := by
  have nn' : ∀ ex ∈ pool cfg s, 0 ≤ holdings s base ex :=
    (forall_values_baseByExchange (P := (0 ≤ ·))).1 nn
  refine ⟨?_, fun k => ?_, fun free k => ?_⟩
  · obtain ⟨n, hn⟩ := rounds_bounded nn' (div_pos threshold (by norm_num : (0 : ℚ) < 100))
      fee half
    have bounded : ∀ k, (transfers cfg s symbol clock k).length ≤ n := by
      intro k
      rw [← List.length_map (f := (·.gross))]
      exact hn _ _ (polls_rounds split cfg s clock k).2
    obtain ⟨K, hK⟩ := eventually_none bounded
    refine ⟨K, fun k hk => ?_⟩
    rcases poll_cases split cfg (afterPolls cfg s symbol clock k) (clock k) with
      ⟨_, idle, _⟩ | ⟨m, out, _⟩
    · exact idle
    · have hnone := hK k hk
      rw [messageAt, out] at hnone
      cases hnone
  · have hsum := (polls_rounds split cfg s clock k).2.sum_le fee
    rw [sumBy_baseByExchange, avgBase_baseByExchange, le_div_iff₀ (by linarith), mul_comm]
    exact hsum
  · have rounds := (polls_rounds split cfg s clock k).2
    rw [free] at rounds
    rw [length_baseByExchange, ← List.length_map (f := (·.gross))]
    exact rounds.length_le

/-- The default configuration on an inventory that lies on one exchange. -/
theorem rebalance_settles_sample :
    ∃ K, ∀ k, K ≤ k → rebalanceSymbolInventory defaultConfig
        (afterPolls defaultConfig (sampleStock 4 0 0 0) "BTC/USDT" (fun j => 121 * j) k) (121 * k)
        "BTC/USDT" =
      .ok (none, afterPolls defaultConfig (sampleStock 4 0 0 0) "BTC/USDT" (fun j => 121 * j) k) := by
  have split : splitSymbol "BTC/USDT" = .ok ("BTC", "USDT") := by decide +kernel
  exact (rebalance_settles split (by decide +kernel) (by decide +kernel) (by decide +kernel)
    (by decide +kernel) fun j => 121 * j).1

/-! ## Empty exchanges -/

/-- The call makes a transfer of a positive amount to an exchange that holds none. -/
def Refills (cfg : BotConfig) (s : PaperExecutor) (nowTs : ℚ) (symbol base : String) : Prop :=
  ∃ m s', rebalanceSymbolInventory cfg s nowTs symbol = .ok (some m, s') ∧ 0 < m.gross ∧ 0 < m.net ∧
    (baseByExchange cfg s base).get? m.target = some 0

/-- With an empty exchange, a transfer is made exactly when the threshold is reached from above. -/
lemma refills_iff {cfg s nowTs symbol base quote} (split : splitSymbol symbol = .ok (base, quote))
    (due : rebalancedRecently cfg s symbol nowTs = false)
    (nn : ∀ ex ∈ pool cfg s, 0 ≤ holdings s base ex)
    (mean_pos : 0 < mean (pool cfg s) (holdings s base)) (threshold : 0 < cfg.rebalanceThresholdPct)
    (hundred : cfg.rebalanceThresholdPct ≤ 100) (fee : cfg.rebalanceFeePct < 100)
    (empty : ∃ ex ∈ pool cfg s, holdings s base ex = 0) :
    Refills cfg s nowTs symbol base ↔ ∃ ex ∈ pool cfg s,
      mean (pool cfg s) (holdings s base) * (1 + cfg.rebalanceThresholdPct / 100) ≤
        holdings s base ex := by
  have havg := avgBase_baseByExchange cfg s base
  constructor
  · rintro ⟨m, s', e, _⟩
    rcases rebalance_cases split cfg s nowTs with idle | ⟨m', plan, _⟩
    · rw [idle] at e
      cases e
    · obtain ⟨vs, vt, plan⟩ := planTransfer_planned plan
      obtain ⟨hsource, hvs⟩ := mem_baseByExchange.1 (OrdDict.mem_of_get? plan.source)
      refine ⟨_, hsource, ?_⟩
      rw [← hvs, ← havg]
      linarith [plan.source_over]
  · rintro ⟨ex, hex, hover⟩
    obtain ⟨ex₀, hex₀, hempty⟩ := empty
    -- the empty exchange is as far below the average as anything can be
    have hunder : mean (pool cfg s) (holdings s base) * (cfg.rebalanceThresholdPct / 100) ≤
        mean (pool cfg s) (holdings s base) :=
      mul_le_of_le_one_right mean_pos.le (by linarith)
    obtain ⟨m, hm⟩ : ∃ m, planTransfer cfg symbol (baseByExchange cfg s base) = some m := by
      refine planTransfer_of fee (by rw [havg]; exact mul_pos mean_pos (by linarith))
        ⟨(ex, holdings s base ex), mem_baseByExchange.2 ⟨hex, rfl⟩, ?_⟩
        ⟨(ex₀, holdings s base ex₀), mem_baseByExchange.2 ⟨hex₀, rfl⟩, ?_⟩
      · dsimp only
        rw [havg]
        linarith
      · dsimp only
        rw [havg, hempty, sub_zero]
        exact hunder
    obtain ⟨vs, vt, plan⟩ := planTransfer_planned hm
    obtain ⟨htarget, hvt⟩ := mem_baseByExchange.1 (OrdDict.mem_of_get? plan.target)
    have hle : vt ≤ holdings s base ex₀ :=
      plan.target_min (ex₀, holdings s base ex₀) (mem_baseByExchange.2 ⟨hex₀, rfl⟩)
    have hzero : vt = 0 := le_antisymm (hle.trans hempty.le) ((nn _ htarget).trans_eq hvt.symm)
    exact ⟨m, _, rebalance_of_plan split due hm, plan.gross_pos, plan.net_pos,
      hzero ▸ plan.target⟩

/-- An empty exchange is refilled exactly when some exchange is as far above the average as the
threshold asks for. With `n` exchanges there is one if the threshold is at most `100 / (n - 1)`
percent. -/
theorem rebalance_refills {cfg s nowTs symbol base quote}
    (split : splitSymbol symbol = .ok (base, quote))
    (due : rebalancedRecently cfg s symbol nowTs = false)
    (nn : ∀ v ∈ (baseByExchange cfg s base).values, 0 ≤ v)
    (total : 0 < (baseByExchange cfg s base).values.sum) (threshold : 0 < cfg.rebalanceThresholdPct)
    (hundred : cfg.rebalanceThresholdPct ≤ 100) (fee : cfg.rebalanceFeePct < 100)
    (empty : ∃ v ∈ (baseByExchange cfg s base).values, v = 0) :
    (Refills cfg s nowTs symbol base ↔ ∃ v ∈ (baseByExchange cfg s base).values,
      avgBase (baseByExchange cfg s base) * (1 + cfg.rebalanceThresholdPct / 100) ≤ v) ∧
    (cfg.rebalanceThresholdPct / 100 * ((baseByExchange cfg s base).entries.length - 1) ≤ 1 →
      Refills cfg s nowTs symbol base) := by
  rw [exists_values_baseByExchange (P := (· = 0))] at empty
  rw [forall_values_baseByExchange (P := (0 ≤ ·))] at nn
  rw [sum_values_baseByExchange] at total
  rw [exists_values_baseByExchange (P := (_ ≤ ·)), avgBase_baseByExchange, length_baseByExchange]
  obtain ⟨ex₀, hex₀, hempty⟩ := empty
  have mean_pos : 0 < mean (pool cfg s) (holdings s base) :=
    div_pos total (Nat.cast_pos.2 (Finset.card_pos.2 ⟨ex₀, hex₀⟩))
  have hiff := refills_iff split due nn mean_pos threshold hundred fee ⟨ex₀, hex₀, hempty⟩
  exact ⟨hiff, fun small => hiff.2 (exists_over_mean hex₀ hempty total small)⟩

/-- The default configuration refills the three empty exchanges one after the other. -/
theorem rebalance_refills_sample :
    Refills defaultConfig (sampleStock 4 0 0 0) 0 "BTC/USDT" "BTC" := by
  have split : splitSymbol "BTC/USDT" = .ok ("BTC", "USDT") := by decide +kernel
  exact (rebalance_refills split (by decide +kernel) (by decide +kernel) (by decide +kernel)
    (by decide +kernel) (by decide +kernel) (by decide +kernel) (by decide +kernel)).1.2
    (by decide +kernel)

/-- With three mildly overstocked exchanges, the default configuration leaves the fourth one empty. -/
theorem empty_exchange_stuck :
    ∃ s : PaperExecutor, rebalancedRecently defaultConfig s "BTC/USDT" 0 = false ∧
      s.balances.keys = defaultConfig.exchanges ∧
      (∀ v ∈ (baseByExchange defaultConfig s "BTC").values, 0 ≤ v) ∧
      0 < (baseByExchange defaultConfig s "BTC").values.sum ∧
      (∃ v ∈ (baseByExchange defaultConfig s "BTC").values, v = 0) ∧
      rebalanceSymbolInventory defaultConfig s 0 "BTC/USDT" = .ok (none, s) := by
  refine ⟨sampleStock 0 (4 / 3) (4 / 3) (4 / 3), by decide +kernel, by decide +kernel,
    by decide +kernel, by decide +kernel, by decide +kernel, ?_⟩
  have hsplit : splitSymbol "BTC/USDT" = .ok ("BTC", "USDT") := by decide +kernel
  exact rebalance_of_no_plan hsplit (by decide +kernel)

end ArbBot.PaperExecutor
