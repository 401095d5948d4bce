import ArbBot.Engine.Caps
import ArbBot.Executor.Cooldown
import ArbBot.Lib.Counting
import ArbBot.Lib.Spacing
import ArbBot.Main.System

/-!
# How fast the bot can trade

Two limits of the configuration make a third one that stands nowhere in the code. The engine caps the
size of a trade, and the executor spaces the trades of a route by the cooldown, so that in a window of
time there is a bound on what the bot moves, on each route and in all. `trades` is the history of a run
of engine and executor, with the readings of the clock at which it trades; `History` is what it satisfies,
and `turnover_bounded` the bound, by the rate limit of `Lib/Spacing`.
-/

namespace ArbBot

open OpportunityEngine PaperExecutor

/-! ## The accounts of the executor -/

namespace PaperExecutor

/-- There is an account for a configured exchange only. -/
lemma init_exchanges {cfg s} (e : init cfg = .ok s) : s.balances.keys ⊆ cfg.exchanges := by
  obtain ⟨balances, eb, e⟩ := Loop.bind_eq_ok.1 e
  cases e
  refine Loop.foldlM_inv (I := fun _ (d : OrdDict String ExchangeBalance) => d.keys ⊆ cfg.exchanges)
    (List.nil_subset _) ?_ eb
  intro pre ex post d d' split known e
  obtain ⟨inventory, _, e⟩ := Loop.bind_eq_ok.1 e
  cases e
  intro name mem
  rcases OrdDict.mem_keys_set.1 mem with rfl | mem
  · rw [split]
    exact List.mem_append_right _ List.mem_cons_self
  · exact known mem

/-- A success trades on two accounts. -/
lemma Step.accounts {cfg s op ev s' nowTs opp} (st : Step cfg s op ev s')
    (h : successOf (op, ev) = some (nowTs, opp)) :
    op = .execute nowTs opp ∧ opp.buyExchange ∈ s.balances.keys ∧
      opp.sellExchange ∈ s.balances.keys := by
  have accounts : ∀ {t o base}, Admitted cfg s t o base →
      o.buyExchange ∈ s.balances.keys ∧ o.sellExchange ∈ s.balances.keys := by
    intro t o base adm
    obtain ⟨_, buy, _⟩ := adm.canBuy
    obtain ⟨_, sell, _⟩ := adm.canSell
    exact ⟨OrdDict.mem_keys_of_get? buy, OrdDict.mem_keys_of_get? sell⟩
  cases st with
  | executeRaised => cases h
  | rebalanceRaised => cases h
  | idle => cases h
  | shipped => cases h
  | called call =>
    cases call with
    | refused => cases h
    | rehearsed _ adm => cases h; exact ⟨rfl, accounts adm⟩
    | booked _ adm => cases h; exact ⟨rfl, accounts adm⟩

end PaperExecutor

namespace System

/-! ## Histories -/

/-- A trade, with the reading of the clock at which it is executed. -/
def tradeOf : SystemOp × SystemEvent → Option (ℚ × Opportunity)
  | (.call op, .answered ev) => successOf (op, ev)
  | _ => none

/-- The trades of a run, in order. -/
def trades (cfg : BotConfig) (sys : System) (ops : List SystemOp) : List (ℚ × Opportunity) :=
  ((machine cfg).trace sys ops).filterMap tradeOf

lemma routeOf_eq_iff {a b : Opportunity} : routeOf a = routeOf b ↔ SameRoute a b := by
  rw [routeOf, routeOf, Prod.mk.injEq, Prod.mk.injEq, SameRoute]

/-- The routes of a configuration. -/
def routes (cfg : BotConfig) : Finset (String × String × String) :=
  cfg.symbols.toFinset ×ˢ cfg.exchanges.toFinset.offDiag

lemma card_routes (cfg : BotConfig) : (routes cfg).card =
    cfg.symbols.toFinset.card * (cfg.exchanges.toFinset.card * (cfg.exchanges.toFinset.card - 1)) := by
  rw [routes, Finset.card_product, Finset.offDiag_card, Nat.mul_sub_one]

/-- An operation that is issued by the main loop: it scans a market whose snapshots carry their keys, and
executes what a scan has returned. -/
def Issued (sys : System) (op : SystemOp) : Prop :=
  FromScan sys op ∧ ∀ market clock, op = .scan market clock → Keyed market

/-- The opportunity is for a configured symbol and two different exchanges. -/
def Listed (cfg : BotConfig) (opp : Opportunity) : Prop :=
  opp.symbol ∈ cfg.symbols ∧ opp.buyExchange ≠ opp.sellExchange

/-- What holds of the state between the operations. -/
structure Known (cfg : BotConfig) (sys : System) : Prop where
  sound : Sound cfg sys
  listed : ∀ opp ∈ sys.issued, Listed cfg opp
  accounts : sys.executor.balances.keys ⊆ cfg.exchanges

lemma Known.next {cfg sys op} (known : Known cfg sys) (issued : Issued sys op) :
    Known cfg ((machine cfg).next sys op) := by
  refine ⟨known.sound.next op, ?_, ?_⟩
  · cases op with
    | call => exact known.listed
    | scan market clock =>
      intro opp mem
      simp only [Machine.next, machine, step] at mem
      rcases e : findOpportunities cfg sys.engine market clock with ⟨result, engine⟩
      rw [e] at mem
      cases result with
      | error => exact known.listed opp (by simpa [Except.toOption] using mem)
      | ok opps =>
        rcases List.mem_append.1 mem with old | new
        · exact known.listed opp old
        · obtain ⟨j, timestampMs, found, rfl⟩ := findOpportunities_found e new
          have visit := visits_visit (issued.2 market clock rfl) found.mem
          exact ⟨visit.symbol, visit.differ⟩
  · cases op with
    | scan => exact known.accounts
    | call op =>
      have st := next_step cfg sys.executor op
      show ((PaperExecutor.machine cfg).next sys.executor op).balances.keys ⊆ cfg.exchanges
      rw [st.books.keys]
      exact known.accounts

/-- What the trades of a run satisfy. -/
structure History (cfg : BotConfig) (sys : System) (history : List (ℚ × Opportunity)) : Prop where
  cooldown : CooldownInv cfg sys.executor history
  emitted : ∀ h ∈ history, Emitted cfg h.2
  routes : ∀ h ∈ history, routeOf h.2 ∈ routes cfg

/-- The trades of a run satisfy it, where the configured exchanges have plain names. -/
lemma history_run {cfg s₀} (hinit : PaperExecutor.init cfg = .ok s₀) (engine₀ : OpportunityEngine)
    (cooldown : 0 ≤ cfg.tradeCooldownSec) (names : ∀ ex ∈ cfg.exchanges, PlainName ex)
    {ops : List SystemOp} (issued : (machine cfg).Along Issued ⟨engine₀, s₀, []⟩ ops) :
    Known cfg ((machine cfg).run ⟨engine₀, s₀, []⟩ ops) ∧
      History cfg ((machine cfg).run ⟨engine₀, s₀, []⟩ ops) (trades cfg ⟨engine₀, s₀, []⟩ ops) := by
  induction ops using List.reverseRecOn with
  | nil =>
    have fresh := init_fresh hinit
    refine ⟨⟨fun _ h => absurd h List.not_mem_nil, fun _ h => absurd h List.not_mem_nil,
      init_exchanges hinit⟩, ⟨fun _ h => absurd h List.not_mem_nil, fun opp _ => ?_, fun opp => .nil⟩,
      fun _ h => absurd h List.not_mem_nil, fun _ h => absurd h List.not_mem_nil⟩
    rw [Machine.run_nil, fresh.lastTradeAt, OrdDict.get?_empty]
    rfl
  | append_singleton ops op ih =>
    obtain ⟨before, now⟩ := (Machine.along_concat ops op).1 issued
    obtain ⟨known, history⟩ := ih before
    rw [trades, Machine.trace_concat, List.filterMap_append, ← trades, Machine.run_concat]
    generalize (machine cfg).run ⟨engine₀, s₀, []⟩ ops = sys at known history now ⊢
    refine ⟨known.next now, ?_⟩
    cases op with
    | scan market clock =>
      -- a scan is no trade
      have silent : tradeOf (.scan market clock, (machine cfg).out sys (.scan market clock)) = none := rfl
      rw [List.filterMap_cons_none silent, List.filterMap_nil, List.append_nil]
      exact ⟨⟨history.cooldown.plain, history.cooldown.stamp, history.cooldown.spaced⟩,
        history.emitted, history.routes⟩
    | call op =>
      have st := next_step cfg sys.executor op
      show History cfg { sys with executor := (PaperExecutor.machine cfg).next sys.executor op } _
      have trade : tradeOf (.call op, (machine cfg).out sys (.call op)) =
          successOf (op, (PaperExecutor.machine cfg).out sys.executor op) := rfl
      rcases st.stamps with ⟨silent, stamped⟩ | ⟨nowTs, opp, rfl, success, cooled, stamped⟩
      · rw [List.filterMap_cons_none (trade.trans silent), List.filterMap_nil, List.append_nil]
        exact ⟨⟨history.cooldown.plain, by rw [stamped]; exact history.cooldown.stamp,
          history.cooldown.spaced⟩, history.emitted, history.routes⟩
      · obtain ⟨_, buy, sell⟩ := st.accounts success
        have mem : opp ∈ sys.issued := now.1
        have plain : Plain opp := ⟨names _ (known.accounts buy), names _ (known.accounts sell)⟩
        obtain ⟨symbol, differ⟩ := known.listed opp mem
        have listed : routeOf opp ∈ System.routes cfg := by
          rw [System.routes, Finset.mem_product, Finset.mem_offDiag]
          exact ⟨List.mem_toFinset.2 symbol, List.mem_toFinset.2 (known.accounts buy),
            List.mem_toFinset.2 (known.accounts sell), differ⟩
        rw [List.filterMap_cons_some (trade.trans success), List.filterMap_nil]
        refine ⟨history.cooldown.concat cooldown plain cooled stamped, ?_, ?_⟩
        · intro h hh
          rcases List.mem_append.1 hh with old | new
          · exact history.emitted h old
          · rw [List.mem_singleton.1 new]
            exact known.sound opp mem
        · intro h hh
          rcases List.mem_append.1 hh with old | new
          · exact history.routes h old
          · rw [List.mem_singleton.1 new]
            exact listed

/-! ## The bound -/

/-- What the engine emits is within positive caps. -/
lemma withinCaps_emitted {cfg opp} (emitted : Emitted cfg opp) (capital : 0 < cfg.capitalPerTradeUsdt)
    (position : 0 < cfg.maxPositionPerSymbol) : WithinCaps cfg opp := by
  obtain ⟨ewma, buyRow, sellRow, timestampMs, passes, rfl⟩ := emitted
  exact ⟨quantity_mul_le_capital passes.buyPrice capital _ _, quantity_le_position position _ _ _⟩

/-- The turnover is bounded. With a positive cooldown, positive caps and plain names of the exchanges, in
every run from a fresh executor and for every window of time: on each route there is at most one trade
for each cooldown that fits into the window, and one more, and they move at most so many times the
position cap; in all there are at most so many trades for each route, and they cost at most so many
times the capital cap. -/
theorem turnover_bounded {cfg s₀} (hinit : PaperExecutor.init cfg = .ok s₀)
    (engine₀ : OpportunityEngine) (cooldown : 0 < cfg.tradeCooldownSec)
    (capital : 0 < cfg.capitalPerTradeUsdt) (position : 0 < cfg.maxPositionPerSymbol)
    (names : ∀ ex ∈ cfg.exchanges, PlainName ex) {ops : List SystemOp}
    (issued : (machine cfg).Along Issued ⟨engine₀, s₀, []⟩ ops) (lo width : ℚ) :
    let recent := (trades cfg ⟨engine₀, s₀, []⟩ ops).filter fun h => lo ≤ h.1 ∧ h.1 ≤ lo + width
    let most := ⌊width / cfg.tradeCooldownSec⌋₊ + 1
    (∀ r, (recent.filter fun h => routeOf h.2 = r).length ≤ most ∧
      ((recent.filter fun h => routeOf h.2 = r).map fun h => h.2.quantity).sum ≤
        most * cfg.maxPositionPerSymbol) ∧
    recent.length ≤ (routes cfg).card * most ∧
    (recent.map fun h => h.2.quantity * h.2.buyPrice).sum ≤
      ((routes cfg).card * most : ℕ) * cfg.capitalPerTradeUsdt := by
  obtain ⟨_, history⟩ := history_run hinit engine₀ cooldown.le names issued
  dsimp only
  generalize trades cfg ⟨engine₀, s₀, []⟩ ops = all at history ⊢
  have caps : ∀ h ∈ all, WithinCaps cfg h.2 :=
    fun h mem => withinCaps_emitted (history.emitted h mem) capital position
  have within : ∀ h ∈ all.filter fun h => lo ≤ h.1 ∧ h.1 ≤ lo + width, lo ≤ h.1 ∧ h.1 ≤ lo + width :=
    fun h mem => of_decide_eq_true (List.mem_filter.1 mem).2
  have sub : (all.filter fun h => lo ≤ h.1 ∧ h.1 ≤ lo + width) ⊆ all :=
    fun h mem => (List.mem_filter.1 mem).1
  -- the trades of a route are spaced by the cooldown
  have spaced : ∀ r, Spaced Prod.fst cfg.tradeCooldownSec
      ((all.filter fun h => lo ≤ h.1 ∧ h.1 ≤ lo + width).filter fun h => routeOf h.2 = r) := by
    intro r
    have apart := history.cooldown.apart.sublist
      ((@List.filter_sublist _ (fun h => decide (routeOf h.2 = r)) _).trans
        (@List.filter_sublist _ (fun h => decide (lo ≤ h.1 ∧ h.1 ≤ lo + width)) all))
    refine apart.imp_of_mem fun {a b} ha hb h => h (routeOf_eq_iff.1 ?_)
    exact (of_decide_eq_true (List.mem_filter.1 ha).2).trans
      (of_decide_eq_true (List.mem_filter.1 hb).2).symm
  generalize (all.filter fun h => decide (lo ≤ h.1 ∧ h.1 ≤ lo + width)) = recent at within sub spaced ⊢
  have inRoute : ∀ r, ∀ h ∈ recent.filter fun h => routeOf h.2 = r, h ∈ recent :=
    fun r h mem => (List.mem_filter.1 mem).1
  have each : ∀ r, (recent.filter fun h => routeOf h.2 = r).length ≤
      ⌊width / cfg.tradeCooldownSec⌋₊ + 1 :=
    fun r => (spaced r).length_le cooldown fun h mem => within h (inRoute r h mem)
  have total : recent.length ≤ (routes cfg).card * (⌊width / cfg.tradeCooldownSec⌋₊ + 1) := by
    rw [← Finset.length_toList]
    refine List.length_le_of_classes (Finset.nodup_toList _)
      (fun h mem => Finset.mem_toList.2 (history.routes h (sub mem))) each
  refine ⟨fun r => ⟨each r, ?_⟩, total, ?_⟩
  · exact (spaced r).sum_le cooldown (fun h mem => within h (inRoute r h mem)) position.le
      fun h mem => (caps h (sub (inRoute r h mem))).2
  · have cost : (recent.map fun h => h.2.quantity * h.2.buyPrice).sum ≤
        recent.length * cfg.capitalPerTradeUsdt := by
      rw [← nsmul_eq_mul, ← List.length_map fun h : ℚ × Opportunity => h.2.quantity * h.2.buyPrice]
      refine List.sum_le_card_nsmul _ _ fun x hx => ?_
      obtain ⟨h, mem, rfl⟩ := List.mem_map.1 hx
      exact (caps h (sub mem)).1
    exact cost.trans (mul_le_mul_of_nonneg_right (Nat.cast_le.2 total) capital.le)

/-- By default a minute has room for eight trades on each of 24 routes. The sample scan finds one. -/
theorem turnover_bounded_sample :
    ∃ s₀, PaperExecutor.init defaultConfig = .ok s₀ ∧
      (trades defaultConfig ⟨OpportunityEngine.init defaultConfig, s₀, []⟩
        [.scan sampleMarket fun _ => 1, .call (.execute 1 sampleOpportunity)]).length = 1 ∧
      (((trades defaultConfig ⟨OpportunityEngine.init defaultConfig, s₀, []⟩
        [.scan sampleMarket fun _ => 1, .call (.execute 1 sampleOpportunity)]).filter
          fun h => 0 ≤ h.1 ∧ h.1 ≤ 0 + 60).map fun h => h.2.quantity * h.2.buyPrice).sum ≤
        ((routes defaultConfig).card * (⌊60 / defaultConfig.tradeCooldownSec⌋₊ + 1) : ℕ) *
          defaultConfig.capitalPerTradeUsdt := by
  have found : sampleOpportunity ∈ [] ++ (findOpportunities defaultConfig
      (OpportunityEngine.init defaultConfig) sampleMarket fun _ => 1).1.toOption.getD [] := by
    decide +kernel
  obtain ⟨s₀, hinit, h⟩ := Loop.exists_ok_of_any (x := PaperExecutor.init defaultConfig)
    (p := fun s₀ => (trades defaultConfig ⟨OpportunityEngine.init defaultConfig, s₀, []⟩
      [.scan sampleMarket fun _ => 1, .call (.execute 1 sampleOpportunity)]).length = 1)
    (by decide +kernel)
  have issued : (machine defaultConfig).Along Issued ⟨OpportunityEngine.init defaultConfig, s₀, []⟩
      [.scan sampleMarket fun _ => 1, .call (.execute 1 sampleOpportunity)] := by
    refine ⟨⟨trivial, ?_⟩, ⟨found, ?_⟩, trivial⟩
    · intro market clock e
      cases e
      exact keyed_sampleMarket
    · intro market clock e
      cases e
  exact ⟨s₀, hinit, of_decide_eq_true h, (turnover_bounded hinit _ (by decide +kernel)
    (by decide +kernel) (by decide +kernel) (by decide +kernel) issued 0 60).2.2⟩

end System

end ArbBot
