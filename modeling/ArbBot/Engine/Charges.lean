import ArbBot.Engine.Averages
import ArbBot.Engine.Filters

/-!
# The slippage that is charged

What a run of `find_opportunities` does to the slippage averages, and what the opportunities are
charged. A call may raise part-way (which takes negative fees), and the averages then stay as they are
at that point: `reached` lists the visits that a scan gets to, and `findOpportunities_averages` says
that the averages after a call, whatever its result, are those after these visits. `runVisits` are the
visits of a run, so that `run_averages` gives every state of the averages. `averages_between` is the
invariant: an average lies between two of the slippages that its exchange started with or was observed
to have. `charged_slippage` carries it through the selection of the slippages into the opportunities.
-/

namespace ArbBot.OpportunityEngine

/-! ## Scans that raise -/

/-- The visits that a scan gets to: all of them, or those up to the first one that raises. Whether a
visit raises does not depend on the clock (`assemble_returns`). -/
def reached (cfg : BotConfig) : OrdDict String ℚ → List Pair → List Pair
  | _, [] => []
  | ewma, p :: ps =>
    match assemble cfg (updateSlippages cfg ewma p.1 p.2) 0 p.1 p.2 with
    | .ok _ => p :: reached cfg (updateSlippages cfg ewma p.1 p.2) ps
    | .error _ => [p]

lemma reached_initial (cfg ewma) (v : List Pair) : reached cfg ewma v <+: v := by
  induction v generalizing ewma with
  | nil => exact List.prefix_rfl
  | cons p v ih =>
    rw [reached]
    split
    · exact List.cons_prefix_cons.2 ⟨rfl, ih _⟩
    · exact List.cons_prefix_cons.2 ⟨rfl, List.nil_prefix⟩

lemma reached_singleton (cfg ewma) (p : Pair) : reached cfg ewma [p] = [p] := by
  rw [reached]
  split <;> rfl

/-- After visits that return come those that the rest of the scan gets to. -/
lemma reached_append_of_returns {cfg ewma} {v : List Pair} (h : Returns cfg ewma v) (w : List Pair) :
    reached cfg ewma (v ++ w) = v ++ reached cfg (averagesAfter cfg ewma v) w := by
  induction v generalizing ewma with
  | nil => rfl
  | cons p v ih =>
    obtain ⟨verdict, e⟩ := h.1 0
    rw [List.cons_append, reached, e]
    exact congrArg (p :: ·) (ih h.2)

/-- After a visit that raises comes none. -/
lemma reached_append_of_raises {cfg ewma} {v : List Pair} (h : ¬Returns cfg ewma v) (w : List Pair) :
    reached cfg ewma (v ++ w) = reached cfg ewma v := by
  induction v generalizing ewma with
  | nil => exact absurd trivial h
  | cons p v ih =>
    rw [List.cons_append, reached, reached]
    cases e : assemble cfg (updateSlippages cfg ewma p.1 p.2) 0 p.1 p.2 with
    | error _ => rfl
    | ok verdict => exact congrArg (p :: ·) (ih fun rest => h ⟨assemble_returns e, rest⟩)

/-- A part of the scan raises, and leaves the averages after the visits that it got to. -/
structure Stops (cfg : BotConfig) (visited : List Pair) (scan : Scan) (halted : Halted) : Prop where
  raises : ¬Returns cfg scan.ewma visited
  ewma : halted.ewma = averagesAfter cfg scan.ewma (reached cfg scan.ewma visited)

lemma Stops.append {cfg v w scan halted} (stops : Stops cfg v scan halted) :
    Stops cfg (v ++ w) scan halted where
  raises h := stops.raises ((returns_append ..).1 h).1
  ewma := by rw [reached_append_of_raises stops.raises, stops.ewma]

lemma Grows.stops {cfg clock v w scan scan' halted} (grows : Grows cfg clock v scan scan')
    (stops : Stops cfg w scan' halted) : Stops cfg (v ++ w) scan halted where
  raises h := stops.raises (grows.ewma ▸ ((returns_append ..).1 h).2)
  ewma := by
    rw [reached_append_of_returns grows.returns, averagesAfter_append, ← grows.ewma, stops.ewma]

/-- The body of the inner loop raises after the update of the averages. -/
lemma scanPair_stops {cfg clock buyRow scan sellRow halted}
    (e : scanPair cfg clock buyRow scan sellRow = .error halted) :
    Stops cfg (if buyRow.exchange = sellRow.exchange then [] else [(buyRow, sellRow)]) scan
      halted := by
  unfold scanPair at e
  split at e
  case isTrue => cases e
  case isFalse differ =>
    dsimp only at e
    split at e
    case h_2 => cases e
    case h_3 => cases e
    case h_1 err raised =>
      cases e
      have raises : ¬Returns cfg scan.ewma [(buyRow, sellRow)] := fun h => by
        obtain ⟨verdict, e⟩ := h.1 (clockMs (clock (scan.opportunities.length + 1)))
        rw [raised] at e
        cases e
      rw [if_neg differ]
      exact ⟨raises, by rw [reached_singleton]; rfl⟩

lemma scanPairs_stops {cfg clock rows scan halted}
    (e : rows.foldlM (fun scan buyRow => rows.foldlM (scanPair cfg clock buyRow) scan) scan =
      .error halted) : Stops cfg (pairsOf rows) scan halted := by
  rw [← flatMap_pairs]
  refine Loop.foldlM_raise (R := Grows cfg clock) (E := Stops cfg) .append Grows.stops
    (fun scan buyRow scan' e => ?_) (fun scan buyRow halted e => ?_) e
  · exact Loop.foldlM_trace (R := Grows cfg clock) (.refl cfg clock) .trans
      (fun scan sellRow scan' _ e => (scanPair_scanned e).grows) e
  · exact Loop.foldlM_raise (R := Grows cfg clock) (E := Stops cfg) .append Grows.stops
      (fun scan sellRow scan' e => (scanPair_scanned e).grows)
      (fun scan sellRow halted e => scanPair_stops e) e

lemma scanSymbol_stops {cfg market clock scan symbol halted}
    (e : scanSymbol cfg market clock scan symbol = .error halted) :
    Stops cfg (pairsOf (freshRows cfg (clockMs (clock 0)) market symbol)) scan halted := by
  rw [← gatherRows_fst cfg (clockMs (clock 0)) symbol market scan.rejections]
  unfold scanSymbol at e
  dsimp only at e
  split at e
  case isTrue => cases e
  case isFalse =>
    have stops := scanPairs_stops e
    exact ⟨stops.raises, stops.ewma⟩

/-- The averages after a call, whether it returns or raises. -/
lemma findOpportunities_averages (cfg engine market clock) :
    (findOpportunities cfg engine market clock).2.exchangeSlippageEwmaPct =
      averagesAfter cfg engine.exchangeSlippageEwmaPct
        (reached cfg engine.exchangeSlippageEwmaPct (visits cfg (clockMs (clock 0)) market)) := by
  unfold findOpportunities
  cases e : scanMarket cfg engine market clock with
  | error halted =>
    have stops := Loop.foldlM_raise (R := Grows cfg clock) (E := Stops cfg) .append Grows.stops
      (fun scan symbol scan' e => scanSymbol_grows e)
      (fun scan symbol halted e => scanSymbol_stops e) e
    exact stops.ewma
  | ok scan =>
    obtain ⟨returns, averages, _⟩ := scanMarket_found e
    have all := reached_append_of_returns returns []
    rw [List.append_nil, reached, List.append_nil] at all
    rw [all, ← averages]
    dsimp only
    split <;> rfl

/-! ## Runs -/

/-- The visits of a run. -/
def runVisits (cfg : BotConfig) : OpportunityEngine → List Cycle → List Pair
  | _, [] => []
  | engine, cycle :: cycles =>
    reached cfg engine.exchangeSlippageEwmaPct
      (visits cfg (clockMs (cycle.clock 0)) cycle.market) ++
      runVisits cfg ((machine cfg).next engine cycle) cycles

/-- The averages after a run. -/
lemma run_averages (cfg engine) (cycles : List Cycle) :
    ((machine cfg).run engine cycles).exchangeSlippageEwmaPct =
      averagesAfter cfg engine.exchangeSlippageEwmaPct (runVisits cfg engine cycles) := by
  induction cycles generalizing engine with
  | nil => rfl
  | cons cycle cycles ih =>
    have first : ((machine cfg).next engine cycle).exchangeSlippageEwmaPct = _ :=
      findOpportunities_averages cfg engine cycle.market cycle.clock
    rw [Machine.run_cons, ih, runVisits, averagesAfter_append, ← first]

/-- All snapshots of a market are of configured exchanges. -/
def Configured (cfg : BotConfig) (market : Market) : Prop :=
  ∀ exchange symbol snap, snapshotAt market exchange symbol = some snap →
    snap.exchange ∈ cfg.exchanges

/-- Both snapshots of a visit are of configured exchanges. -/
lemma Configured.visits {cfg nowMs market} (h : Configured cfg market) {p : Pair}
    (hp : p ∈ visits cfg nowMs market) :
    p.1.exchange ∈ cfg.exchanges ∧ p.2.exchange ∈ cfg.exchanges := by
  obtain ⟨symbol, _, hbuy, hsell, _⟩ := mem_visits.1 hp
  obtain ⟨exchange, hbuy, _⟩ := mem_freshRows.1 hbuy
  obtain ⟨exchange', hsell, _⟩ := mem_freshRows.1 hsell
  exact ⟨h _ _ _ hbuy, h _ _ _ hsell⟩

lemma Configured.runVisits {cfg engine} {cycles : List Cycle}
    (h : ∀ cycle ∈ cycles, Configured cfg cycle.market) {p : Pair}
    (hp : p ∈ runVisits cfg engine cycles) :
    p.1.exchange ∈ cfg.exchanges ∧ p.2.exchange ∈ cfg.exchanges := by
  induction cycles generalizing engine with
  | nil => cases hp
  | cons cycle cycles ih =>
    rw [OpportunityEngine.runVisits] at hp
    rcases List.mem_append.1 hp with hp | hp
    · exact (h cycle (List.mem_cons_self ..)).visits ((reached_initial ..).subset hp)
    · exact ih (fun cycle mem => h cycle (List.mem_cons_of_mem _ mem)) hp

/-! ## The range of an average -/

/-- The slippages of an exchange: the one that it starts with, and those that some visits observe. -/
def slippagesOf (cfg : BotConfig) (visited : List Pair) (exchange : String) : List ℚ :=
  max 0 cfg.slippagePct :: observations exchange visited

lemma slippagesOf_nonneg {cfg visited exchange x} (h : x ∈ slippagesOf cfg visited exchange) :
    0 ≤ x := by
  rcases List.mem_cons.1 h with rfl | h
  · exact le_max_left _ _
  · exact observations_nonneg h

/-- The average of an exchange is known and lies between the least and the greatest of some slippages,
none of which is negative. -/
structure Between (ewma : OrdDict String ℚ) (slippages : List ℚ) (exchange : String) (x : ℚ) :
    Prop where
  get?_eq : ewma.get? exchange = some x
  nonneg : 0 ≤ x
  lower : ∃ lo ∈ slippages, lo ≤ x
  upper : ∃ hi ∈ slippages, x ≤ hi

/-- The invariant: after any visits, the average of a configured exchange lies between the least and
the greatest of its slippages so far. -/
lemma averages_between {cfg exchange} (configured : exchange ∈ cfg.exchanges)
    (visited : List Pair) :
    ∃ x, Between (averagesAfter cfg (init cfg).exchangeSlippageEwmaPct visited)
      (slippagesOf cfg visited exchange) exchange x := by
  have start := (init_get? cfg exchange).trans (if_pos configured)
  by_cases observed : observations exchange visited = []
  · refine ⟨max 0 cfg.slippagePct, ?_, le_max_left _ _, ?_, ?_⟩
    · rw [get?_averagesAfter, if_pos observed, start]
    · exact ⟨_, List.mem_cons_self .., le_rfl⟩
    · exact ⟨_, List.mem_cons_self .., le_rfl⟩
  · obtain ⟨x, hx, spanned⟩ := @averagesAfter_inRange cfg (init cfg).exchangeSlippageEwmaPct _ _ _
      (List.Subset.refl visited) observed
    have range : rangeOf cfg (init cfg).exchangeSlippageEwmaPct visited exchange =
        {y | y ∈ slippagesOf cfg visited exchange} := by
      simp only [rangeOf, slippagesOf, OrdDict.getD, start, Option.getD_some, List.mem_cons]
    rw [range] at spanned
    obtain ⟨lo, hlo, hi, hhi, above, below⟩ :=
      spanned.between (List.finite_toSet _) ⟨_, List.mem_cons_self ..⟩
    exact ⟨x, hx, (slippagesOf_nonneg hlo).trans above, ⟨lo, hlo, above⟩, ⟨hi, hhi, below⟩⟩

/-- An exchange that no visit is about has no average, if it is not configured. -/
lemma averages_missing {cfg exchange} (other : exchange ∉ cfg.exchanges) {visited : List Pair}
    (h : ∀ p ∈ visited, p.1.exchange ∈ cfg.exchanges ∧ p.2.exchange ∈ cfg.exchanges) :
    (averagesAfter cfg (init cfg).exchangeSlippageEwmaPct visited).get? exchange = none := by
  have unobserved : observations exchange visited = [] := by
    refine List.eq_nil_iff_forall_not_mem.2 fun x hx => ?_
    obtain ⟨p, hp, hup⟩ := mem_observations.1 hx
    simp only [updatesOf, List.mem_cons, Prod.mk.injEq, List.not_mem_nil, or_false] at hup
    rcases hup with ⟨rfl, _⟩ | ⟨rfl, _⟩
    · exact other (h p hp).1
    · exact other (h p hp).2
  rw [get?_averagesAfter, if_pos unobserved, init_get?, if_neg other]

/-! ## The charges of an opportunity -/

/-- What is charged on a leg that takes, by the slippages of its exchange so far and the slippage that
its own snapshot shows. -/
structure TakerCharge (cfg : BotConfig) (slippages : List ℚ) (observed charged : ℚ) : Prop where
  configured : max 0 cfg.slippagePct ≤ charged
  observed : observed ≤ charged
  most : ∃ x ∈ slippages, charged ≤ x

/-- What is charged on the two legs of an opportunity, by the visits so far and the pair that it was
built from. -/
structure LegCharges (cfg : BotConfig) (visited : List Pair) (p : Pair) (opp : Opportunity) :
    Prop where
  buyTakes : opp.makerSide ≠ .buy → TakerCharge cfg (slippagesOf cfg visited p.1.exchange)
    (dynamicBuySlippagePct p.1) opp.buySlippagePct
  sellTakes : opp.makerSide ≠ .sell → TakerCharge cfg (slippagesOf cfg visited p.2.exchange)
    (dynamicSellSlippagePct p.2) opp.sellSlippagePct
  buyMakes : opp.makerSide = .buy → opp.buySlippagePct = 0
  sellMakes : opp.makerSide = .sell → opp.sellSlippagePct = 0

/-- The slippage selected is the largest of three that are all within the slippages so far. -/
lemma selectSlippagePct_charge {cfg ewma slippages exchange x observed}
    (dynamic : cfg.useDynamicSlippage = true) (between : Between ewma slippages exchange x)
    (base : max 0 cfg.slippagePct ∈ slippages) (mem : observed ∈ slippages) :
    TakerCharge cfg slippages observed (selectSlippagePct cfg ewma exchange observed) := by
  have most : ∀ {a b}, (∃ y ∈ slippages, a ≤ y) → (∃ y ∈ slippages, b ≤ y) →
      ∃ y ∈ slippages, max a b ≤ y := fun {a b} ha hb => by
    cases le_total a b with
    | inl h => rwa [max_eq_right h]
    | inr h => rwa [max_eq_left h]
  have selected : selectSlippagePct cfg ewma exchange observed =
      max (max (max 0 cfg.slippagePct) observed) x := by
    rw [selectSlippagePct, if_pos dynamic, OrdDict.getD, between.get?_eq, Option.getD_some]
  rw [selected]
  exact {
    configured := (le_max_left _ _).trans (le_max_left _ _)
    observed := (le_max_right _ _).trans (le_max_left _ _)
    most := most (most ⟨_, base, le_rfl⟩ ⟨_, mem, le_rfl⟩) between.upper }

/-- The charges of a pair, judged by averages that lie between the slippages so far. -/
lemma legCharges {cfg ewma visited} {p : Pair} {x y} (dynamic : cfg.useDynamicSlippage = true)
    (hp : p ∈ visited) (buy : Between ewma (slippagesOf cfg visited p.1.exchange) p.1.exchange x)
    (sell : Between ewma (slippagesOf cfg visited p.2.exchange) p.2.exchange y) (timestampMs) :
    LegCharges cfg visited p (opportunityFor cfg timestampMs (ewma, p)) := by
  have hbuy := selectSlippagePct_charge dynamic buy (List.mem_cons_self ..)
    (List.mem_cons_of_mem _ (mem_observations.2 ⟨p, hp, List.mem_cons_self ..⟩))
  have hsell := selectSlippagePct_charge dynamic sell (List.mem_cons_self ..)
    (List.mem_cons_of_mem _
      (mem_observations.2 ⟨p, hp, List.mem_cons_of_mem _ (List.mem_cons_self ..)⟩))
  rw [opportunityFor, opportunityOf]
  dsimp only
  rcases legsOf_cases cfg ewma p.1 p.2 with ⟨_, h⟩ | ⟨_, h⟩ | ⟨_, h⟩ <;> rw [h]
  · exact ⟨fun _ => hbuy, fun _ => hsell, fun e => (by cases e), fun e => (by cases e)⟩
  · exact ⟨fun _ => hbuy, fun e => absurd rfl e, fun e => (by cases e), fun _ => rfl⟩
  · exact ⟨fun e => absurd rfl e, fun _ => hsell, fun _ => rfl, fun e => (by cases e)⟩

/-- The slippage that is charged. After a run over markets of configured exchanges, whether its calls
return or raise, the average of an exchange lies between the least and the greatest of the slippages
that it started with and that the run has observed; and an opportunity that the next call returns is
charged, on a leg that takes, no less than is configured and than its own snapshot shows, and no more
than the greatest of these slippages, and nothing on a leg that makes. -/
theorem charged_slippage {cfg : BotConfig} {cycles : List Cycle}
    (configured : ∀ cycle ∈ cycles, Configured cfg cycle.market) :
    (∀ exchange ∈ cfg.exchanges, ∃ x,
      Between ((machine cfg).run (init cfg) cycles).exchangeSlippageEwmaPct
        (slippagesOf cfg (runVisits cfg (init cfg) cycles) exchange) exchange x) ∧
    (∀ exchange ∉ cfg.exchanges,
      ((machine cfg).run (init cfg) cycles).exchangeSlippageEwmaPct.get? exchange = none) ∧
    ∀ (cycle : Cycle) (opps : List Opportunity), Configured cfg cycle.market →
      cfg.useDynamicSlippage = true →
      (machine cfg).out ((machine cfg).run (init cfg) cycles) cycle = .ok opps →
      ∀ opp ∈ opps, ∃ pre p post timestampMs,
        visits cfg (clockMs (cycle.clock 0)) cycle.market = pre ++ p :: post ∧
        opp = opportunityFor cfg timestampMs (averagesAfter cfg
          ((machine cfg).run (init cfg) cycles).exchangeSlippageEwmaPct (pre ++ [p]), p) ∧
        LegCharges cfg (runVisits cfg (init cfg) cycles ++ (pre ++ [p])) p opp := by
  rw [run_averages]
  refine ⟨fun exchange h => averages_between h _, fun exchange h =>
    averages_missing h fun p => Configured.runVisits configured, ?_⟩
  intro cycle opps market dynamic e opp hopp
  have call := findOpportunities_eq cfg ((machine cfg).run (init cfg) cycles) cycle
  rw [e] at call
  obtain ⟨⟨ewma, p⟩, timestampMs, f, rfl⟩ := findOpportunities_found call hopp
  obtain ⟨pre, post, split, judged⟩ := f.visit
  dsimp only at split judged
  rw [run_averages] at judged
  subst judged
  refine ⟨pre, p, post, timestampMs, split, rfl, ?_⟩
  rw [← averagesAfter_append]
  obtain ⟨hbuy, hsell⟩ := market.visits (split ▸ List.mem_append_right pre (List.mem_cons_self ..))
  obtain ⟨x, buy⟩ := averages_between hbuy (runVisits cfg (init cfg) cycles ++ (pre ++ [p]))
  obtain ⟨y, sell⟩ := averages_between hsell (runVisits cfg (init cfg) cycles ++ (pre ++ [p]))
  refine legCharges dynamic ?_ buy sell timestampMs
  exact List.mem_append_right _ (List.mem_append_right _ (List.mem_singleton_self p))

lemma configured_sampleMarket : Configured defaultConfig sampleMarket := by
  intro exchange symbol snap h
  rcases snapshotAt_sampleMarket h with ⟨_, rfl⟩ | ⟨_, rfl⟩
  · exact List.mem_cons_self ..
  · exact List.mem_cons_of_mem _ (List.mem_cons_self ..)

/-- The second of two cycles on the sample market charges its purchase the configured slippage, at
least. -/
theorem charged_slippage_sample :
    ∃ opps, (machine defaultConfig).out ((machine defaultConfig).run (init defaultConfig)
        [sampleCycle]) sampleCycle = .ok opps ∧ opps ≠ [] ∧
      ∀ opp ∈ opps, opp.makerSide ≠ .buy → 1 / 20 ≤ opp.buySlippagePct := by
  have hsome : ((machine defaultConfig).out ((machine defaultConfig).run (init defaultConfig)
      [sampleCycle]) sampleCycle).toOption.any (· ≠ []) = true := by decide +kernel
  obtain ⟨opps, e, ne⟩ := Loop.exists_ok_of_any hsome
  have configured : ∀ cycle ∈ [sampleCycle], Configured defaultConfig cycle.market :=
    fun cycle mem => List.mem_singleton.1 mem ▸ configured_sampleMarket
  refine ⟨opps, e, of_decide_eq_true ne, fun opp hopp takes => ?_⟩
  obtain ⟨pre, p, post, timestampMs, _, _, charges⟩ := (charged_slippage configured).2.2 sampleCycle
    opps configured_sampleMarket rfl e opp hopp
  calc (1 / 20 : ℚ) = max 0 defaultConfig.slippagePct := by decide +kernel
    _ ≤ opp.buySlippagePct := (charges.buyTakes takes).configured

end ArbBot.OpportunityEngine
