import ArbBot.Executor.Execute
import Mathlib.Data.List.MinMax
import Mathlib.Tactic.Linarith

/-!
# The paper executor: `rebalance_symbol_inventory`

Port of the inventory rebalancer of `src/executor.py`. `max(d, key=d.get)` and `min(d, key=d.get)`
return the first key with an extreme value, as `List.argmax` and `List.argmin` do on the entries.
The returned message is the record of the numbers that its text prints.

`get?_baseByExchange` says what the rebalancer reads, `planTransfer_planned` is the inversion of
its decision.
-/

namespace ArbBot

/-- The message that `rebalance_symbol_inventory` returns. -/
structure RebalanceMessage where
  symbol : String
  source : String
  target : String
  gross : ℚ
  fee : ℚ
  net : ℚ
  deriving DecidableEq, Repr

namespace PaperExecutor

/-- `base_by_exchange`: the base holdings of the configured exchanges. -/
def baseByExchange (cfg : BotConfig) (s : PaperExecutor) (base : String) : OrdDict String ℚ :=
  cfg.exchanges.foldl (fun d exchangeName =>
    match s.balances.get? exchangeName with
    | none => d
    | some bal => d.set exchangeName (bal.baseFree.getD base 0)) OrdDict.empty

/-- The symbol was rebalanced less than `rebalance_interval_sec` ago. -/
def rebalancedRecently (cfg : BotConfig) (s : PaperExecutor) (symbol : String) (nowTs : ℚ) : Bool :=
  match s.lastRebalanceAt.get? symbol with
  | none => false
  | some lastTs => nowTs - lastTs < cfg.rebalanceIntervalSec

/-- The average holding (`avg_base`). -/
def avgBase (d : OrdDict String ℚ) : ℚ := d.values.sum / d.entries.length

/-- What to ship where, if anything: from `len(base_by_exchange) < 2` to `net_transfer <= 0`. -/
def planTransfer (cfg : BotConfig) (symbol : String) (d : OrdDict String ℚ) :
    Option RebalanceMessage :=
  if d.entries.length < 2 then none
  else
    let avg := avgBase d
    let threshold := avg * (cfg.rebalanceThresholdPct / 100)
    if threshold ≤ 0 then none
    else
      match d.entries.argmax Prod.snd, d.entries.argmin Prod.snd with
      | some (source, sourceBase), some (target, targetBase) =>
        if sourceBase - avg < threshold ∨ avg - targetBase < threshold then none
        else
          let transferSize := min (sourceBase - avg) (avg - targetBase)
          if transferSize ≤ 0 then none
          else
            let fee := transferSize * (cfg.rebalanceFeePct / 100)
            let netTransfer := transferSize - fee
            if netTransfer ≤ 0 then none
            else some ⟨symbol, source, target, transferSize, fee, netTransfer⟩
      | _, _ => none

/-- `rebalance_symbol_inventory`. -/
def rebalanceSymbolInventory (cfg : BotConfig) (s : PaperExecutor) (nowTs : ℚ) (symbol : String) :
    Except PyError (Option RebalanceMessage × PaperExecutor) :=
  if rebalancedRecently cfg s symbol nowTs then .ok (none, s)
  else
    match splitSymbol symbol with
    | .error e => .error e
    | .ok (base, _) =>
      match planTransfer cfg symbol (baseByExchange cfg s base) with
      | none => .ok (none, s)
      | some message =>
        let balances := addBase s.balances message.source base (-message.gross)
        let balances := addBase balances message.target base message.net
        .ok (some message, { s with
          balances
          lastRebalanceAt := s.lastRebalanceAt.set symbol nowTs })

/-! ## What the rebalancer reads -/

lemma get?_baseByExchange_from (s : PaperExecutor) (base ex : String) (exchanges : List String)
    (d : OrdDict String ℚ) :
    (exchanges.foldl (fun d exchangeName =>
        match s.balances.get? exchangeName with
        | none => d
        | some bal => d.set exchangeName (bal.baseFree.getD base 0)) d).get? ex =
      if ex ∈ exchanges ∧ (s.balances.get? ex).isSome
      then (s.balances.get? ex).map (·.baseFree.getD base 0) else d.get? ex := by
  induction exchanges generalizing d with
  | nil => simp
  | cons exchangeName rest ih =>
    rw [List.foldl_cons, ih]
    cases h : s.balances.get? exchangeName with
    | none =>
      rcases eq_or_ne ex exchangeName with rfl | hne
      · simp [h]
      · simp [hne]
    | some bal =>
      rcases eq_or_ne ex exchangeName with rfl | hne
      · simp [h]
      · simp [hne, OrdDict.get?_set_of_ne]

/-- The rebalancer reads, for every configured exchange with an account, its base holding. -/
lemma get?_baseByExchange (cfg : BotConfig) (s : PaperExecutor) (base ex : String) :
    (baseByExchange cfg s base).get? ex =
      if ex ∈ cfg.exchanges then (s.balances.get? ex).map (·.baseFree.getD base 0) else none := by
  rw [baseByExchange, get?_baseByExchange_from]
  cases s.balances.get? ex <;> simp

/-- What `planTransfer` decided when it ships `m`, from a holding `vs` to a holding `vt`. -/
structure Planned (cfg : BotConfig) (symbol : String) (d : OrdDict String ℚ) (m : RebalanceMessage)
    (vs vt : ℚ) : Prop where
  symbol_eq : m.symbol = symbol
  two : 2 ≤ d.entries.length
  source : d.get? m.source = some vs
  target : d.get? m.target = some vt
  source_max : ∀ e ∈ d.entries, e.2 ≤ vs
  target_min : ∀ e ∈ d.entries, vt ≤ e.2
  threshold_pos : 0 < avgBase d * (cfg.rebalanceThresholdPct / 100)
  source_over : avgBase d * (cfg.rebalanceThresholdPct / 100) ≤ vs - avgBase d
  target_under : avgBase d * (cfg.rebalanceThresholdPct / 100) ≤ avgBase d - vt
  gross_eq : m.gross = min (vs - avgBase d) (avgBase d - vt)
  gross_pos : 0 < m.gross
  fee_eq : m.fee = m.gross * (cfg.rebalanceFeePct / 100)
  net_eq : m.net = m.gross - m.fee
  net_pos : 0 < m.net

/-- Inversion of `planTransfer`. -/
theorem planTransfer_planned {cfg symbol d m} (e : planTransfer cfg symbol d = some m) :
    ∃ vs vt, Planned cfg symbol d m vs vt := by
  unfold planTransfer at e
  dsimp only at e
  -- every guard that a plan gets past is a field
  split at e
  case isTrue => cases e
  case isFalse two =>
    split at e
    case isTrue => cases e
    case isFalse pos =>
      split at e
      case h_2 => cases e
      case h_1 source vs target vt hmax hmin =>
        split at e
        case isTrue => cases e
        case isFalse far =>
          split at e
          case isTrue => cases e
          case isFalse gross =>
            split at e
            case isTrue => cases e
            case isFalse net =>
              cases e
              rw [not_or] at far
              exact ⟨vs, vt,
                { symbol_eq := rfl
                  two := not_lt.1 two
                  source := OrdDict.get?_of_mem (List.argmax_mem hmax)
                  target := OrdDict.get?_of_mem (List.argmin_mem hmin)
                  source_max := fun e he => List.le_of_mem_argmax he hmax
                  target_min := fun e he => List.le_of_mem_argmin he hmin
                  threshold_pos := not_le.1 pos
                  source_over := not_lt.1 far.1
                  target_under := not_lt.1 far.2
                  gross_eq := rfl
                  gross_pos := not_le.1 gross
                  fee_eq := rfl
                  net_eq := rfl
                  net_pos := not_le.1 net }⟩

/-- A transfer is planned when the average is positive and the threshold is reached on both sides. -/
lemma planTransfer_of {cfg symbol} {d : OrdDict String ℚ} (fee : cfg.rebalanceFeePct < 100)
    (pos : 0 < avgBase d * (cfg.rebalanceThresholdPct / 100))
    (above : ∃ e ∈ d.entries, avgBase d * (cfg.rebalanceThresholdPct / 100) ≤ e.2 - avgBase d)
    (below : ∃ e ∈ d.entries, avgBase d * (cfg.rebalanceThresholdPct / 100) ≤ avgBase d - e.2) :
    ∃ m, planTransfer cfg symbol d = some m := by
  obtain ⟨eo, ho, hover⟩ := above
  obtain ⟨eu, hu, hunder⟩ := below
  have two : ¬d.entries.length < 2 := by
    intro hlt
    have one : d.entries.length = 1 := by
      have := List.length_pos_of_mem ho
      omega
    -- one holding cannot be above and below the average
    obtain ⟨e, he⟩ := List.length_eq_one_iff.1 one
    rw [he, List.mem_singleton] at ho hu
    subst ho hu
    linarith
  cases hmax : d.entries.argmax Prod.snd with
  | none => rw [List.argmax_eq_none.1 hmax] at ho; cases ho
  | some source =>
    cases hmin : d.entries.argmin Prod.snd with
    | none => rw [List.argmin_eq_none.1 hmin] at hu; cases hu
    | some target =>
      have hs : eo.2 ≤ source.2 := List.le_of_mem_argmax ho hmax
      have ht : target.2 ≤ eu.2 := List.le_of_mem_argmin hu hmin
      have gross : 0 < min (source.2 - avgBase d) (avgBase d - target.2) :=
        lt_min (by linarith) (by linarith)
      have net : 0 < min (source.2 - avgBase d) (avgBase d - target.2) -
          min (source.2 - avgBase d) (avgBase d - target.2) * (cfg.rebalanceFeePct / 100) := by
        have := mul_pos gross (by linarith : 0 < 1 - cfg.rebalanceFeePct / 100)
        linarith
      unfold planTransfer
      dsimp only
      rw [if_neg two, if_neg (not_le.2 pos), hmax, hmin]
      dsimp only
      rw [if_neg (not_or.2 ⟨by linarith, by linarith⟩), if_neg (not_le.2 gross),
        if_neg (not_le.2 net)]
      exact ⟨_, rfl⟩

end PaperExecutor

end ArbBot
