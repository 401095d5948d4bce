import ArbBot.Engine.Averages
import ArbBot.Engine.Filters

/-!
# The order in which the exchanges are listed

Two scans of the same snapshots, with the exchanges listed in different orders, visit the same pairs,
but judge them by averages that differ: a visit updates the averages that the next visit reads. What
the averages enter of a judgement are the `charges`, two slippages and a threshold. `Settled` says
that the charges of a pair come out the same wherever in range the averages stand; settled pairs are
judged alike by both scans (`Found.transfer`), and so is everything but the charges of any pair
(`uncharged_opportunityFor`). `observations_visits_eq` is the condition for the same averages at the
end. `findOpportunities_perm` puts these together.
-/

namespace ArbBot.OpportunityEngine

/-! ## What the averages enter -/

/-- The slippages and the threshold that a pair is charged. -/
def charges (cfg : BotConfig) (ewma : OrdDict String ℚ) (p : Pair) : ℚ × ℚ × ℚ :=
  let legs := legsOf cfg ewma p.1 p.2
  (legs.buySlippagePct, legs.sellSlippagePct, thresholdPct cfg ewma legs p.1 p.2)

/-- Of the legs, the averages enter the two slippages only. -/
lemma legsOf_slippages (cfg ewma ewma' buyRow sellRow) :
    legsOf cfg ewma' buyRow sellRow = { legsOf cfg ewma buyRow sellRow with
      buySlippagePct := (legsOf cfg ewma' buyRow sellRow).buySlippagePct
      sellSlippagePct := (legsOf cfg ewma' buyRow sellRow).sellSlippagePct } := by
  unfold legsOf
  split
  case isTrue => split <;> rfl
  case isFalse => rfl

lemma legsOf_of_charges {cfg ewma ewma'} {p : Pair} (h : charges cfg ewma p = charges cfg ewma' p) :
    legsOf cfg ewma p.1 p.2 = legsOf cfg ewma' p.1 p.2 := by
  simp only [charges, Prod.mk.injEq] at h
  obtain ⟨buy, sell, _⟩ := h
  rw [legsOf_slippages cfg ewma ewma', ← buy, ← sell]

lemma thresholdPct_of_charges {cfg ewma ewma'} {p : Pair}
    (h : charges cfg ewma p = charges cfg ewma' p) :
    thresholdPct cfg ewma (legsOf cfg ewma' p.1 p.2) p.1 p.2 =
      thresholdPct cfg ewma' (legsOf cfg ewma' p.1 p.2) p.1 p.2 := by
  have legs := legsOf_of_charges h
  simp only [charges, Prod.mk.injEq, legs] at h
  exact h.2.2

/-- Equal charges make equal opportunities, -/
lemma opportunityFor_of_charges {cfg ewma ewma'} {p : Pair}
    (h : charges cfg ewma p = charges cfg ewma' p) (timestampMs) :
    opportunityFor cfg timestampMs (ewma, p) = opportunityFor cfg timestampMs (ewma', p) := by
  simp only [opportunityFor, opportunityOf, makerEstimates, legsOf_of_charges h,
    thresholdPct_of_charges h]

/-- and equal verdicts. -/
lemma assemble_of_charges {cfg ewma ewma'} {p : Pair} (h : charges cfg ewma p = charges cfg ewma' p)
    (timestampMs) :
    assemble cfg ewma timestampMs p.1 p.2 = assemble cfg ewma' timestampMs p.1 p.2 := by
  have opp := opportunityFor_of_charges h timestampMs
  simp only [opportunityFor, legsOf_of_charges h] at opp
  simp only [assemble, legsOf_of_charges h, thresholdPct_of_charges h, opp]

lemma passes_of_charges {cfg ewma ewma'} {p : Pair} (h : charges cfg ewma p = charges cfg ewma' p)
    (pass : Passes cfg ewma p.1 p.2) : Passes cfg ewma' p.1 p.2 := by
  have emitted : assemble cfg ewma 0 p.1 p.2 = .ok (.emitted (opportunityFor cfg 0 (ewma, p))) :=
    assemble_emitted_iff.2 ⟨pass, rfl⟩
  rw [assemble_of_charges h] at emitted
  exact (assemble_emitted_iff.1 emitted).1

/-- An opportunity without what the averages and the clock enter. -/
def uncharged (opp : Opportunity) : Opportunity :=
  { opp with
    buySlippagePct := 0
    sellSlippagePct := 0
    slippageCostPct := 0
    dynamicThresholdPct := 0
    fillProbability := 0
    expectedFillTimeMs := 0
    netSpreadPct := 0
    expectedProfitUsdt := 0
    timestampMs := 0 }

/-- An opportunity without its timestamp. -/
def untimed (opp : Opportunity) : Opportunity := { opp with timestampMs := 0 }

/-- Whatever the averages, the rest of an opportunity is the same. -/
lemma uncharged_opportunityFor (cfg ewma ewma' timestampMs timestampMs') (p : Pair) :
    uncharged (opportunityFor cfg timestampMs (ewma, p)) =
      uncharged (opportunityFor cfg timestampMs' (ewma', p)) := by
  have legs := legsOf_slippages cfg ewma ewma' p.1 p.2
  generalize (legsOf cfg ewma' p.1 p.2).buySlippagePct = buySlippagePct at legs
  generalize (legsOf cfg ewma' p.1 p.2).sellSlippagePct = sellSlippagePct at legs
  simp only [opportunityFor, legs]
  simp only [opportunityOf, makerEstimates, uncharged, quantity, qtyConstraints,
    Legs.grossSpreadPct]
  split <;> rfl

/-! ## Settled pairs -/

/-- The charges of a pair are the same wherever in range the averages of its exchanges stand. -/
def Settled (cfg : BotConfig) (ewma : OrdDict String ℚ) (visited : List Pair) (p : Pair) : Prop :=
  ∀ ewma₁ ewma₂,
    (∀ exchange, exchange = p.1.exchange ∨ exchange = p.2.exchange →
      InRange cfg ewma visited exchange ewma₁ ∧ InRange cfg ewma visited exchange ewma₂) →
    charges cfg ewma₁ p = charges cfg ewma₂ p

lemma Settled.charges_eq {cfg ewma visited} {p : Pair} (settled : Settled cfg ewma visited p)
    {pre pre' : List Pair} (h : pre ++ [p] ⊆ visited) (h' : pre' ++ [p] ⊆ visited) :
    charges cfg (averagesAfter cfg ewma (pre ++ [p])) p =
      charges cfg (averagesAfter cfg ewma (pre' ++ [p])) p := by
  refine settled _ _ fun exchange hex => ⟨averagesAfter_inRange h ?_, averagesAfter_inRange h' ?_⟩
  · exact observations_ne_nil_of_mem (List.mem_append_right _ (List.mem_singleton_self p)) hex
  · exact observations_ne_nil_of_mem (List.mem_append_right _ (List.mem_singleton_self p)) hex

lemma concat_subset {pre post v w : List Pair} {p : Pair} (h : v = pre ++ p :: post) (hvw : v ⊆ w) :
    pre ++ [p] ⊆ w := by
  refine List.Subset.trans (fun q hq => ?_) hvw
  rw [h, List.append_cons]
  exact List.mem_append_left _ hq

/-- Without dynamic slippage and automatic threshold, every pair is settled. -/
lemma settled_of_fixed {cfg} (slippage : cfg.useDynamicSlippage = false)
    (threshold : cfg.autoThresholdEnabled = false) (ewma visited) (p : Pair) :
    Settled cfg ewma visited p := by
  intro ewma₁ ewma₂ _
  have select : ∀ exchange observed, selectSlippagePct cfg ewma₁ exchange observed =
      selectSlippagePct cfg ewma₂ exchange observed := fun _ _ => by
    simp only [selectSlippagePct, slippage, Bool.false_eq_true, if_false]
  have legs : legsOf cfg ewma₁ p.1 p.2 = legsOf cfg ewma₂ p.1 p.2 := by
    simp only [legsOf, takerLegs, makerSellLegs, makerBuyLegs, select]
  simp only [charges, legs, thresholdPct, effectiveDynamicThreshold, threshold, Bool.false_eq_true,
    if_false]

/-- No average at the start and no impact observed exceeds the configured slippage. -/
structure Quiet (cfg : BotConfig) (ewma : OrdDict String ℚ) (visited : List Pair) : Prop where
  start : ∀ exchange, ewma.getD exchange cfg.slippagePct ≤ max 0 cfg.slippagePct
  observed : ∀ p ∈ visited, ∀ u ∈ updatesOf p, u.2 ≤ max 0 cfg.slippagePct

/-- A new engine has averages to start a quiet scan from. -/
lemma init_getD_le (cfg exchange) :
    (init cfg).exchangeSlippageEwmaPct.getD exchange cfg.slippagePct ≤ max 0 cfg.slippagePct := by
  rw [OrdDict.getD, init_get?]
  split
  · exact le_rfl
  · exact le_max_right _ _

/-- In a quiet scan, no average exceeds the configured slippage at any point. -/
lemma Quiet.getD_le {cfg ewma visited} (quiet : Quiet cfg ewma visited) {exchange ewma'}
    (h : InRange cfg ewma visited exchange ewma') (d : ℚ) :
    ewma'.getD exchange d ≤ max 0 cfg.slippagePct := by
  obtain ⟨x, hx, spanned⟩ := h
  rw [OrdDict.getD, hx]
  refine (spanned (min 0 (ewma.getD exchange cfg.slippagePct)) _ fun y hy => ?_).2
  rcases hy with rfl | hy
  · exact ⟨min_le_right _ _, quiet.start exchange⟩
  · obtain ⟨p, hp, hup⟩ := mem_observations.1 hy
    exact ⟨(min_le_left _ _).trans (observations_nonneg hy), quiet.observed p hp _ hup⟩

/-- A quiet scan charges a leg that takes the configured slippage. -/
lemma Quiet.selectSlippagePct {cfg ewma visited} (quiet : Quiet cfg ewma visited)
    {exchange ewma' observed} (h : InRange cfg ewma visited exchange ewma')
    (hobserved : observed ≤ max 0 cfg.slippagePct) :
    selectSlippagePct cfg ewma' exchange observed = max 0 cfg.slippagePct := by
  refine le_antisymm ?_ (le_selectSlippagePct ..)
  unfold OpportunityEngine.selectSlippagePct
  dsimp only
  split
  · exact max_le (max_le le_rfl hobserved) (quiet.getD_le h 0)
  · exact le_rfl

/-- In a quiet scan where both legs take, every pair is settled. -/
lemma settled_of_quiet {cfg ewma visited} (taker : executionStyle cfg ≠ .makerTaker)
    (quiet : Quiet cfg ewma visited) {p : Pair} (hp : p ∈ visited) : Settled cfg ewma visited p := by
  intro ewma₁ ewma₂ h
  have hbuy : dynamicBuySlippagePct p.1 ≤ max 0 cfg.slippagePct :=
    quiet.observed p hp _ List.mem_cons_self
  have hsell : dynamicSellSlippagePct p.2 ≤ max 0 cfg.slippagePct :=
    quiet.observed p hp _ (List.mem_cons_of_mem _ List.mem_cons_self)
  -- whatever the averages in range, the charges are those of the configured slippage
  have charged : ∀ ewma', (∀ exchange, exchange = p.1.exchange ∨ exchange = p.2.exchange →
      InRange cfg ewma visited exchange ewma') →
      charges cfg ewma' p = (max 0 cfg.slippagePct, max 0 cfg.slippagePct,
        if cfg.autoThresholdEnabled then
          max cfg.minNetSpreadPct (max cfg.autoThresholdMinFloorPct
            (((takerFee cfg p.1.exchange + takerFee cfg p.2.exchange) * 100 +
              max 0 cfg.slippagePct + max 0 cfg.slippagePct) * cfg.autoThresholdCostBufferRatio))
        else cfg.minNetSpreadPct) := by
    intro ewma' range
    have buy := quiet.selectSlippagePct (range _ (.inl rfl)) hbuy
    have sell := quiet.selectSlippagePct (range _ (.inr rfl)) hsell
    have legs : legsOf cfg ewma' p.1 p.2 = takerLegs cfg ewma' p.1 p.2 := if_neg taker
    simp only [charges, legs, takerLegs, thresholdPct, buy, sell, effectiveDynamicThreshold,
      max_eq_left (quiet.getD_le (range _ (.inl rfl)) _),
      max_eq_left (quiet.getD_le (range _ (.inr rfl)) _)]
  rw [charged ewma₁ fun exchange hex => (h exchange hex).1,
    charged ewma₂ fun exchange hex => (h exchange hex).2]

/-- A settled pair that one scan finds, the other finds too, with the same charges. -/
lemma Found.transfer {cfg ewma ewma₁} {u v w : List Pair} {p : Pair} (hv : v ⊆ u) (hw : w ⊆ u)
    (hvw : v ⊆ w) (settled : Settled cfg ewma u p) (f : Found cfg ewma v (ewma₁, p)) :
    ∃ ewma₂, Found cfg ewma w (ewma₂, p) ∧ charges cfg ewma₁ p = charges cfg ewma₂ p := by
  obtain ⟨⟨pre, post, split, hewma⟩, passes⟩ := f
  dsimp only at split hewma passes
  subst hewma
  obtain ⟨pre', post', split'⟩ := List.append_of_mem (hvw (split ▸ List.mem_append_cons_self))
  have same := settled.charges_eq (concat_subset split hv) (concat_subset split' hw)
  exact ⟨_, ⟨⟨pre', post', split', rfl⟩, passes_of_charges same passes⟩, same⟩

/-- No visit raises if none does at its place. -/
lemma returns_iff {cfg ewma} {v : List Pair} : Returns cfg ewma v ↔
    ∀ pre p post, v = pre ++ p :: post → ∀ timestampMs, ∃ verdict,
      assemble cfg (averagesAfter cfg ewma (pre ++ [p])) timestampMs p.1 p.2 = .ok verdict := by
  constructor
  · rintro h pre p post rfl
    rw [averagesAfter_concat]
    exact ((returns_append ..).1 h).2.1
  · intro h
    induction v generalizing ewma with
    | nil => trivial
    | cons p v ih =>
      refine ⟨h [] p v rfl, ih fun pre q post hv => ?_⟩
      exact h (p :: pre) q post (congrArg (p :: ·) hv)

/-- If all pairs are settled, one scan raises if and only if the other does. -/
lemma Returns.transfer {cfg ewma} {u v w : List Pair} (hv : v ⊆ u) (hw : w ⊆ u) (hwv : w ⊆ v)
    (settled : ∀ p ∈ u, Settled cfg ewma u p) (h : Returns cfg ewma v) : Returns cfg ewma w := by
  refine returns_iff.2 fun pre p post split timestampMs => ?_
  have hp : p ∈ w := split ▸ List.mem_append_cons_self
  obtain ⟨pre', post', split'⟩ := List.append_of_mem (hwv hp)
  have same := (settled p (hw hp)).charges_eq (concat_subset split' hv) (concat_subset split hw)
  rw [← assemble_of_charges same]
  exact returns_iff.1 h pre' p post' split' timestampMs

/-! ## Permuted markets -/

lemma freshRows_perm {market₁ market₂ : Market} (same : market₁.entries.Perm market₂.entries)
    (cfg nowMs symbol) :
    (freshRows cfg nowMs market₁ symbol).Perm (freshRows cfg nowMs market₂ symbol) :=
  (same.map _).filterMap _

lemma pairsOf_perm {rows rows' : List TickerSnapshot} (h : rows.Perm rows') :
    (pairsOf rows).Perm (pairsOf rows') :=
  (h.product h).filter _

lemma visits_perm {market₁ market₂ : Market} (same : market₁.entries.Perm market₂.entries)
    (cfg nowMs) : (visits cfg nowMs market₁).Perm (visits cfg nowMs market₂) :=
  List.Perm.flatMap_left _ fun symbol _ => pairsOf_perm (freshRows_perm same cfg nowMs symbol)

/-- The fresh snapshots of a symbol on one exchange have the same impact on either side. -/
def Balanced (cfg : BotConfig) (nowMs : ℤ) (market : Market) : Prop :=
  ∀ symbol ∈ cfg.symbols, ∀ row ∈ freshRows cfg nowMs market symbol,
    ∀ row' ∈ freshRows cfg nowMs market symbol, row.exchange = row'.exchange →
      dynamicBuySlippagePct row = dynamicSellSlippagePct row'

/-- The pairs of balanced rows always observe the same of an exchange. -/
lemma observations_pairsOf_eq {rows : List TickerSnapshot}
    (balanced : ∀ row ∈ rows, ∀ row' ∈ rows, row.exchange = row'.exchange →
      dynamicBuySlippagePct row = dynamicSellSlippagePct row')
    {exchange x y} (hx : x ∈ observations exchange (pairsOf rows))
    (hy : y ∈ observations exchange (pairsOf rows)) : x = y := by
  -- what a pair observes is the impact of a row, on either side
  have row : ∀ {x}, x ∈ observations exchange (pairsOf rows) →
      ∃ row ∈ rows, row.exchange = exchange ∧ x = dynamicBuySlippagePct row := by
    intro x hx
    obtain ⟨p, hp, hup⟩ := mem_observations.1 hx
    obtain ⟨hbuy, hsell⟩ := List.mem_product.1 (List.mem_of_mem_filter hp)
    simp only [updatesOf, List.mem_cons, Prod.mk.injEq, List.not_mem_nil, or_false] at hup
    rcases hup with ⟨hex, hval⟩ | ⟨hex, hval⟩
    · exact ⟨p.1, hbuy, hex.symm, hval⟩
    · exact ⟨p.2, hsell, hex.symm, hval.trans (balanced _ hsell _ hsell rfl).symm⟩
  obtain ⟨r, hr, hex, rfl⟩ := row hx
  obtain ⟨r', hr', hex', rfl⟩ := row hy
  rw [balanced r hr r hr rfl, balanced r' hr' r hr (hex'.trans hex.symm)]

/-- With balanced rows, scans in different orders observe the same, in the same order. -/
lemma observations_visits_eq {cfg nowMs} {market₁ market₂ : Market}
    (same : market₁.entries.Perm market₂.entries) (balanced : Balanced cfg nowMs market₁)
    (exchange) :
    observations exchange (visits cfg nowMs market₁) =
      observations exchange (visits cfg nowMs market₂) := by
  rw [visits, visits, observations_flatMap, observations_flatMap]
  refine List.flatMap_congr fun symbol hsymbol => ?_
  have perm := observations_perm exchange (pairsOf_perm (freshRows_perm same cfg nowMs symbol))
  refine List.Perm.eq_of_pairwise (fun x y hx hy _ _ => ?_)
    (List.pairwise_of_forall fun _ _ => trivial) (List.pairwise_of_forall fun _ _ => trivial) perm
  exact observations_pairsOf_eq (balanced symbol hsymbol) hx (perm.mem_iff.2 hy)

/-! ## Two scans -/

/-- The opportunities returned, without their timestamps, are those of the pairs found. -/
lemma mem_untimed {cfg engine market clock opps engine' opp}
    (e : findOpportunities cfg engine market clock = (.ok opps, engine')) :
    opp ∈ opps.map untimed ↔ ∃ j, Found cfg engine.exchangeSlippageEwmaPct
      (visits cfg (clockMs (clock 0)) market) j ∧ opp = opportunityFor cfg 0 j := by
  rw [(findOpportunities_ok e).2.2, ((rank_perm _).map untimed).mem_iff,
    map_stamped (f := untimed) (g := opportunityFor cfg 0) fun _ _ => rfl, List.mem_map]
  exact exists_congr fun j => and_congr mem_found eq_comm

/-- What two scans of the same snapshots have in common. -/
structure ScansAgree (cfg : BotConfig) (engine : OpportunityEngine) (nowMs : ℤ) (market : Market)
    (opps₁ : List Opportunity) (engine₁ : OpportunityEngine)
    (opps₂ : List Opportunity) (engine₂ : OpportunityEngine) : Prop where
  settled : ∀ opp, (∀ p ∈ visits cfg nowMs market, routeOfPair p = routeOf opp →
      Settled cfg engine.exchangeSlippageEwmaPct (visits cfg nowMs market) p) →
    (opp ∈ opps₁.map untimed ↔ opp ∈ opps₂.map untimed)
  uncharged : Keyed market → ∀ opp₁ ∈ opps₁, ∀ opp₂ ∈ opps₂, routeOf opp₁ = routeOf opp₂ →
    uncharged opp₁ = uncharged opp₂
  averages : Balanced cfg nowMs market → ∀ exchange,
    engine₁.exchangeSlippageEwmaPct.get? exchange = engine₂.exchangeSlippageEwmaPct.get? exchange

/-- What one scan returns on a settled route, the other returns too. -/
lemma untimed_transfer {cfg engine clock} {market₁ market₂ : Market} {u : List Pair}
    {opps₁ engine₁ opps₂ engine₂ opp} (h₁ : visits cfg (clockMs (clock 0)) market₁ ⊆ u)
    (h₂ : visits cfg (clockMs (clock 0)) market₂ ⊆ u)
    (h₁₂ : visits cfg (clockMs (clock 0)) market₁ ⊆ visits cfg (clockMs (clock 0)) market₂)
    (e₁ : findOpportunities cfg engine market₁ clock = (.ok opps₁, engine₁))
    (e₂ : findOpportunities cfg engine market₂ clock = (.ok opps₂, engine₂))
    (settled : ∀ p ∈ u, routeOfPair p = routeOf opp →
      Settled cfg engine.exchangeSlippageEwmaPct u p)
    (h : opp ∈ opps₁.map untimed) : opp ∈ opps₂.map untimed := by
  obtain ⟨j, f, rfl⟩ := (mem_untimed e₁).1 h
  obtain ⟨ewma₂, f', charged⟩ := f.transfer h₁ h₂ h₁₂ (settled j.2 (h₁ f.mem) rfl)
  exact (mem_untimed e₂).2 ⟨_, f', opportunityFor_of_charges charged 0⟩

/-- In a keyed market, the route names the pair. -/
lemma visits_inj {cfg nowMs market} (keyed : Keyed market) {p q : Pair}
    (hp : p ∈ visits cfg nowMs market) (hq : q ∈ visits cfg nowMs market)
    (h : routeOfPair p = routeOfPair q) : p = q := by
  simp only [routeOfPair, Prod.mk.injEq] at h
  obtain ⟨symbol, buy, sell⟩ := h
  have stored := (visits_visit keyed hp).stored
  rw [symbol, buy, sell, (visits_visit keyed hq).stored.1, (visits_visit keyed hq).stored.2]
    at stored
  exact Prod.ext (Option.some.inj stored.1).symm (Option.some.inj stored.2).symm

/-- Two scans of the same snapshots, with the exchanges listed in different orders. -/
theorem findOpportunities_perm {market₁ market₂ : Market}
    (same : market₁.entries.Perm market₂.entries) (cfg engine clock) :
    ((∀ p ∈ visits cfg (clockMs (clock 0)) market₁, Settled cfg engine.exchangeSlippageEwmaPct
        (visits cfg (clockMs (clock 0)) market₁) p) →
      ((∃ opps engine', findOpportunities cfg engine market₁ clock = (.ok opps, engine')) ↔
        ∃ opps engine', findOpportunities cfg engine market₂ clock = (.ok opps, engine'))) ∧
    ∀ opps₁ engine₁ opps₂ engine₂,
      findOpportunities cfg engine market₁ clock = (.ok opps₁, engine₁) →
      findOpportunities cfg engine market₂ clock = (.ok opps₂, engine₂) →
      ScansAgree cfg engine (clockMs (clock 0)) market₁ opps₁ engine₁ opps₂ engine₂ := by
  have perm := visits_perm same cfg (clockMs (clock 0))
  have self := List.Subset.refl (visits cfg (clockMs (clock 0)) market₁)
  refine ⟨fun settled => ⟨?_, ?_⟩, fun opps₁ engine₁ opps₂ engine₂ e₁ e₂ => ⟨?_, ?_, ?_⟩⟩
  · rintro ⟨opps, engine', e⟩
    exact findOpportunities_returns
      ((findOpportunities_ok e).1.transfer self perm.symm.subset perm.symm.subset settled)
  · rintro ⟨opps, engine', e⟩
    exact findOpportunities_returns
      ((findOpportunities_ok e).1.transfer perm.symm.subset self perm.subset settled)
  · intro opp settled
    exact ⟨untimed_transfer self perm.symm.subset perm.subset e₁ e₂ settled,
      untimed_transfer perm.symm.subset self perm.symm.subset e₂ e₁ settled⟩
  · -- one pair, judged by two averages
    intro keyed opp₁ h₁ opp₂ h₂ route
    obtain ⟨j₁, timestampMs₁, f₁, rfl⟩ := findOpportunities_found e₁ h₁
    obtain ⟨j₂, timestampMs₂, f₂, rfl⟩ := findOpportunities_found e₂ h₂
    obtain ⟨ewma₁, p⟩ := j₁
    obtain ⟨ewma₂, q⟩ := j₂
    obtain rfl : p = q := visits_inj keyed f₁.mem (perm.mem_iff.2 f₂.mem) route
    exact uncharged_opportunityFor ..
  · intro balanced exchange
    rw [(findOpportunities_ok e₁).2.1, (findOpportunities_ok e₂).2.1, get?_averagesAfter,
      get?_averagesAfter, observations_visits_eq same balanced]

/-- The sample market, listed the other way. -/
def reversedMarket : Market where
  entries := sampleMarket.entries.reverse
  nodup := by decide

/-- The default configuration finds the same in the sample market, listed either way. -/
theorem findOpportunities_perm_sample :
    ∃ opps₁ engine₁ opps₂ engine₂,
      findOpportunities defaultConfig (init defaultConfig) sampleMarket (fun _ => 1) =
        (.ok opps₁, engine₁) ∧
      findOpportunities defaultConfig (init defaultConfig) reversedMarket (fun _ => 1) =
        (.ok opps₂, engine₂) ∧
      opps₁.map routeOf = [("BTC/USDT", "binance", "bybit")] ∧
      (∀ opp, opp ∈ opps₁.map untimed ↔ opp ∈ opps₂.map untimed) ∧
      ∀ exchange, engine₁.exchangeSlippageEwmaPct.get? exchange =
        engine₂.exchangeSlippageEwmaPct.get? exchange := by
  have same : sampleMarket.entries.Perm reversedMarket.entries := (List.reverse_perm _).symm
  obtain ⟨opps₁, engine₁, e₁⟩ := findOpportunities_total feesNonneg_default (init defaultConfig)
    sampleMarket fun _ => 1
  obtain ⟨opps₂, engine₂, e₂⟩ := findOpportunities_total feesNonneg_default (init defaultConfig)
    reversedMarket fun _ => 1
  obtain ⟨-, agree⟩ := findOpportunities_perm same defaultConfig (init defaultConfig) fun _ => 1
  have quiet : Quiet defaultConfig (init defaultConfig).exchangeSlippageEwmaPct
      (visits defaultConfig (clockMs 1) sampleMarket) :=
    ⟨init_getD_le defaultConfig, by decide +kernel⟩
  have balanced : Balanced defaultConfig (clockMs 1) sampleMarket := by
    unfold Balanced; decide +kernel
  refine ⟨opps₁, engine₁, opps₂, engine₂, e₁, e₂, routes_sampleMarket e₁, fun opp => ?_, ?_⟩
  · exact (agree opps₁ engine₁ opps₂ engine₂ e₁ e₂).settled opp fun p hp _ =>
      settled_of_quiet (by decide) quiet hp
  · exact (agree opps₁ engine₁ opps₂ engine₂ e₁ e₂).averages balanced

/-- A snapshot whose ask side is thin: to buy there costs far more than the best ask. -/
def thinSnapshot : TickerSnapshot :=
  { sampleSnapshot "bybit" 50500 50510 with askDepthPrice := 53000 }

def thinMarket : Market := sampleMarket.set "bybit" (OrdDict.empty.set "BTC/USDT" thinSnapshot)

def reversedThinMarket : Market where
  entries := thinMarket.entries.reverse
  nodup := by decide

/-- With the thin exchange listed first, its impact as the place to buy is charged to the sale there:
the route that the other order finds is lost, and the averages differ in the end. -/
theorem findOpportunities_order_matters :
    thinMarket.entries.Perm reversedThinMarket.entries ∧
    (findOpportunities defaultConfig (init defaultConfig) thinMarket
      (fun _ => 1)).1.toOption.map (·.map routeOf) = some [("BTC/USDT", "binance", "bybit")] ∧
    (findOpportunities defaultConfig (init defaultConfig) reversedThinMarket
      (fun _ => 1)).1.toOption.map (·.map routeOf) = some [] ∧
    (findOpportunities defaultConfig (init defaultConfig) thinMarket
      (fun _ => 1)).2.exchangeSlippageEwmaPct.get? "bybit" ≠
    (findOpportunities defaultConfig (init defaultConfig) reversedThinMarket
      (fun _ => 1)).2.exchangeSlippageEwmaPct.get? "bybit" :=
  ⟨(List.reverse_perm _).symm, by decide +kernel, by decide +kernel, by decide +kernel⟩

end ArbBot.OpportunityEngine
