import ArbBot.Engine.Averages
import ArbBot.Engine.Filters

/-!
# Higher costs never create opportunities

`Costs` are the settings that say what a trade costs and what it has to earn, `withCosts` puts others
in their place, and `Dearer` says that the others are at least as high. Two engines that differ in
nothing else, fed the same cycles, run in lockstep: the averages of the first stay at or below those
of the second (`AtMost`), which every visit keeps. So the second judges each pair at higher slippages
and by a higher threshold; what passes there passes at the lower costs too, with the same size and at
least the profit (`Passes.of_dearer`). `costs_monotone` says so of whole runs.
-/

namespace ArbBot.OpportunityEngine

/-! ## Costs -/

/-- The settings that say what a trade costs and what it has to earn. -/
structure Costs where
  feesTaker : OrdDict String ℚ
  feesMaker : OrdDict String ℚ
  slippagePct : ℚ
  minNetSpreadPct : ℚ
  autoThresholdMinFloorPct : ℚ
  autoThresholdCostBufferRatio : ℚ

/-- The configuration with other costs. -/
def withCosts (cfg : BotConfig) (costs : Costs) : BotConfig :=
  { cfg with
    feesTaker := costs.feesTaker
    feesMaker := costs.feesMaker
    slippagePct := costs.slippagePct
    minNetSpreadPct := costs.minNetSpreadPct
    autoThresholdMinFloorPct := costs.autoThresholdMinFloorPct
    autoThresholdCostBufferRatio := costs.autoThresholdCostBufferRatio }

/-- The other costs are at least as high, exchange by exchange. -/
structure Dearer (cfg : BotConfig) (costs : Costs) : Prop where
  taker : ∀ exchange, takerFee cfg exchange ≤ takerFee (withCosts cfg costs) exchange
  maker : ∀ exchange, makerFee cfg exchange ≤ makerFee (withCosts cfg costs) exchange
  slippage : cfg.slippagePct ≤ costs.slippagePct
  minNetSpread : cfg.minNetSpreadPct ≤ costs.minNetSpreadPct
  minFloor : cfg.autoThresholdMinFloorPct ≤ costs.autoThresholdMinFloorPct
  bufferRatio : cfg.autoThresholdCostBufferRatio ≤ costs.autoThresholdCostBufferRatio

lemma Dearer.feesNonneg {cfg costs} (dearer : Dearer cfg costs) (fees : FeesNonneg cfg) :
    FeesNonneg (withCosts cfg costs) where
  taker exchange fee h := by
    have hfee : takerFee (withCosts cfg costs) exchange = fee := by
      rw [takerFee, OrdDict.getD, h]; rfl
    rw [← hfee]
    exact (takerFee_nonneg fees exchange).trans (dearer.taker exchange)
  maker exchange fee h := by
    have hfee : makerFee (withCosts cfg costs) exchange = fee := by
      rw [makerFee, OrdDict.getD, h]; rfl
    rw [← hfee]
    exact (makerFee_nonneg fees exchange).trans (dearer.maker exchange)

/-- The slippage that no observation undercuts is at least as high. -/
lemma Dearer.base_le {cfg costs} (dearer : Dearer cfg costs) :
    max 0 cfg.slippagePct ≤ max 0 costs.slippagePct :=
  max_le_max_left 0 dearer.slippage

/-- Fees for the same exchanges are compared entry by entry. -/
lemma getD_le_of_entries {fees fees' : OrdDict String ℚ} {default : ℚ} (keys : fees'.keys = fees.keys)
    (h : ∀ e ∈ fees.entries, e.2 ≤ fees'.getD e.1 default) (exchange) :
    fees.getD exchange default ≤ fees'.getD exchange default := by
  cases e : fees.get? exchange with
  | some fee =>
    rw [OrdDict.getD, e]
    exact h (exchange, fee) (OrdDict.mem_of_get? e)
  | none =>
    have e' : fees'.get? exchange = none := by
      cases e' : fees'.get? exchange with
      | none => rfl
      | some fee' =>
        have hmem := OrdDict.mem_keys_of_get? e'
        obtain ⟨fee, hfee⟩ := OrdDict.mem_keys.1 (keys ▸ hmem)
        rw [e] at hfee
        cases hfee
    rw [OrdDict.getD, OrdDict.getD, e, e']

/-! ## The averages in lockstep -/

/-- The averages of the first are at most those of the second, whatever ordered defaults stand in for
the averages that are missing. -/
def AtMost (ewma ewma' : OrdDict String ℚ) : Prop :=
  ∀ exchange d d', d ≤ d' → ewma.getD exchange d ≤ ewma'.getD exchange d'

lemma AtMost.set {ewma ewma'} (h : AtMost ewma ewma') (exchange) {v v' : ℚ} (hv : v ≤ v') :
    AtMost (ewma.set exchange v) (ewma'.set exchange v') := by
  intro ex d d' hd
  rw [OrdDict.getD_set, OrdDict.getD_set]
  split
  · exact hv
  · exact h ex d d' hd

/-- A new engine with the higher slippage starts higher. -/
lemma Dearer.init_atMost {cfg costs} (dearer : Dearer cfg costs) :
    AtMost (init cfg).exchangeSlippageEwmaPct
      (init (withCosts cfg costs)).exchangeSlippageEwmaPct := by
  intro exchange d d' hd
  have same : (withCosts cfg costs).exchanges = cfg.exchanges := rfl
  rw [OrdDict.getD, OrdDict.getD, init_get?, init_get?, same]
  split
  · exact dearer.base_le
  · exact hd

lemma AtMost.after_update {cfg costs} (dearer : Dearer cfg costs) {ewma ewma'}
    (h : AtMost ewma ewma') (exchange observed) :
    AtMost (updateExchangeSlippage cfg ewma exchange observed)
      (updateExchangeSlippage (withCosts cfg costs) ewma' exchange observed) :=
  h.set exchange (smooth_mono (by norm_num) (h exchange _ _ dearer.slippage))

/-- A visit keeps the averages in order, -/
lemma AtMost.after_visit {cfg costs} (dearer : Dearer cfg costs) {ewma ewma'}
    (h : AtMost ewma ewma') (buyRow sellRow) :
    AtMost (updateSlippages cfg ewma buyRow sellRow)
      (updateSlippages (withCosts cfg costs) ewma' buyRow sellRow) :=
  (h.after_update dearer _ _).after_update dearer _ _

/-- and so do any visits in a row. -/
lemma AtMost.after_visits {cfg costs} (dearer : Dearer cfg costs) {ewma ewma'}
    (h : AtMost ewma ewma') (visited) :
    AtMost (averagesAfter cfg ewma visited) (averagesAfter (withCosts cfg costs) ewma' visited) := by
  induction visited generalizing ewma ewma' with
  | nil => exact h
  | cons p visited ih => exact ih (h.after_visit dearer p.1 p.2)

/-! ## One pair -/

/-- The same legs, at higher fees and slippages. -/
structure Legs.Dearer (legs legs' : Legs) : Prop where
  same : legs' = { legs with
    buyFee := legs'.buyFee
    sellFee := legs'.sellFee
    buySlippagePct := legs'.buySlippagePct
    sellSlippagePct := legs'.sellSlippagePct }
  buyFee : legs.buyFee ≤ legs'.buyFee
  sellFee : legs.sellFee ≤ legs'.sellFee
  buySlippage : legs.buySlippagePct ≤ legs'.buySlippagePct
  sellSlippage : legs.sellSlippagePct ≤ legs'.sellSlippagePct

lemma AtMost.select_le {cfg costs} (dearer : Dearer cfg costs) {ewma ewma'}
    (h : AtMost ewma ewma') (exchange observed) :
    selectSlippagePct cfg ewma exchange observed ≤
      selectSlippagePct (withCosts cfg costs) ewma' exchange observed := by
  cases dynamic : cfg.useDynamicSlippage with
  | true =>
    simp only [selectSlippagePct, withCosts, dynamic, if_true]
    exact max_le_max (max_le_max_right _ dearer.base_le) (h exchange 0 0 le_rfl)
  | false =>
    simp only [selectSlippagePct, withCosts, dynamic, Bool.false_eq_true, if_false]
    exact dearer.base_le

lemma AtMost.legs {cfg costs} (dearer : Dearer cfg costs) {ewma ewma'} (h : AtMost ewma ewma')
    (buyRow sellRow) : (legsOf cfg ewma buyRow sellRow).Dearer
      (legsOf (withCosts cfg costs) ewma' buyRow sellRow) := by
  have slippage := h.select_le dearer
  unfold legsOf
  by_cases style : executionStyle cfg = .makerTaker
  · rw [if_pos style, if_pos (show executionStyle (withCosts cfg costs) = .makerTaker from style)]
    by_cases side : makerSide cfg = .sell
    · rw [if_pos side, if_pos (show makerSide (withCosts cfg costs) = .sell from side)]
      exact ⟨rfl, dearer.taker _, dearer.maker _, slippage _ _, le_rfl⟩
    · rw [if_neg side, if_neg (show makerSide (withCosts cfg costs) ≠ .sell from side)]
      exact ⟨rfl, dearer.maker _, dearer.taker _, le_rfl, slippage _ _⟩
  · rw [if_neg style, if_neg (show executionStyle (withCosts cfg costs) ≠ .makerTaker from style)]
    exact ⟨rfl, dearer.taker _, dearer.taker _, slippage _ _, slippage _ _⟩

namespace Legs.Dearer

variable {legs legs' : Legs} (d : legs.Dearer legs')
include d

lemma buyPrice_eq : legs'.buyPrice = legs.buyPrice := by rw [d.same]

lemma sellPrice_eq : legs'.sellPrice = legs.sellPrice := by rw [d.same]

lemma netBuy_le (hprice : 0 ≤ legs.buyPrice) : legs.netBuy ≤ legs'.netBuy := by
  have hfee := d.buyFee
  have hslip := d.buySlippage
  rw [Legs.netBuy, Legs.netBuy, d.buyPrice_eq]
  exact mul_le_mul_of_nonneg_left (by linarith) hprice

lemma netSell_le (hprice : 0 ≤ legs.sellPrice) : legs'.netSell ≤ legs.netSell := by
  have hfee := d.sellFee
  have hslip := d.sellSlippage
  rw [Legs.netSell, Legs.netSell, d.sellPrice_eq]
  exact mul_le_mul_of_nonneg_left (by linarith) hprice

/-- A higher cost of a purchase and a lower return of a sale, which is not negative, make a lower net
spread. -/
lemma netSpreadPct_le (hbuyPrice : 0 ≤ legs.buyPrice) (hsellPrice : 0 ≤ legs.sellPrice)
    (hbuy : 0 < legs.netBuy) (hsell : 0 ≤ legs'.netSell) :
    legs'.netSpreadPct ≤ legs.netSpreadPct := by
  have hnetBuy := d.netBuy_le hbuyPrice
  have hnetSell := d.netSell_le hsellPrice
  have ratio : legs'.netSell / legs'.netBuy ≤ legs.netSell / legs.netBuy :=
    div_le_div₀ (hsell.trans hnetSell) hnetSell hbuy hnetBuy
  rw [Legs.netSpreadPct, Legs.netSpreadPct, sub_div, sub_div, div_self hbuy.ne',
    div_self (hbuy.trans_le hnetBuy).ne']
  linarith

lemma quantity_eq (cfg costs buyRow sellRow) :
    quantity (withCosts cfg costs) legs' buyRow sellRow = quantity cfg legs buyRow sellRow := by
  rw [d.same]
  rfl

lemma expectedProfitUsdt_le (hbuyPrice : 0 ≤ legs.buyPrice) (hsellPrice : 0 ≤ legs.sellPrice)
    {cfg costs buyRow sellRow} (hquantity : 0 ≤ quantity cfg legs buyRow sellRow) :
    expectedProfitUsdt (withCosts cfg costs) legs' buyRow sellRow ≤
      expectedProfitUsdt cfg legs buyRow sellRow := by
  rw [expectedProfitUsdt, expectedProfitUsdt, d.quantity_eq]
  apply mul_le_mul_of_nonneg_left _ hquantity
  exact sub_le_sub (d.netSell_le hsellPrice) (d.netBuy_le hbuyPrice)

end Legs.Dearer

/-- At higher fees and slippages the threshold is higher. -/
lemma AtMost.threshold_le {cfg costs} (dearer : Dearer cfg costs) (fees : FeesNonneg cfg)
    (ratio : 0 ≤ cfg.autoThresholdCostBufferRatio) {ewma ewma'} (h : AtMost ewma ewma')
    (buyRow sellRow) :
    thresholdPct cfg ewma (legsOf cfg ewma buyRow sellRow) buyRow sellRow ≤
      thresholdPct (withCosts cfg costs) ewma'
        (legsOf (withCosts cfg costs) ewma' buyRow sellRow) buyRow sellRow := by
  obtain ⟨hbuyFee, hsellFee⟩ := legsOf_fee_nonneg fees ewma buyRow sellRow
  obtain ⟨hbuySlip, hsellSlip⟩ := legsOf_slippage_nonneg cfg ewma buyRow sellRow
  have d := h.legs dearer buyRow sellRow
  generalize legsOf cfg ewma buyRow sellRow = legs at *
  generalize legsOf (withCosts cfg costs) ewma' buyRow sellRow = legs' at *
  cases auto : cfg.autoThresholdEnabled with
  | true =>
    simp only [thresholdPct, effectiveDynamicThreshold, withCosts, auto, if_true]
    have buyRt : max legs.buySlippagePct (ewma.getD buyRow.exchange cfg.slippagePct) ≤
        max legs'.buySlippagePct (ewma'.getD buyRow.exchange costs.slippagePct) :=
      max_le_max d.buySlippage (h _ _ _ dearer.slippage)
    have sellRt : max legs.sellSlippagePct (ewma.getD sellRow.exchange cfg.slippagePct) ≤
        max legs'.sellSlippagePct (ewma'.getD sellRow.exchange costs.slippagePct) :=
      max_le_max d.sellSlippage (h _ _ _ dearer.slippage)
    have buyRt_nonneg := le_max_of_le_left (b := legs.buySlippagePct)
      (c := ewma.getD buyRow.exchange cfg.slippagePct) hbuySlip
    have sellRt_nonneg := le_max_of_le_left (b := legs.sellSlippagePct)
      (c := ewma.getD sellRow.exchange cfg.slippagePct) hsellSlip
    have hbuyFee' := d.buyFee
    have hsellFee' := d.sellFee
    refine max_le_max dearer.minNetSpread (max_le_max dearer.minFloor ?_)
    -- the cost is not negative, so a higher ratio of a higher cost is higher
    refine mul_le_mul ?_ dearer.bufferRatio ratio ?_
    · linarith
    · linarith
  | false =>
    simp only [thresholdPct, effectiveDynamicThreshold, withCosts, auto,
      Bool.false_eq_true, if_false]
    exact dearer.minNetSpread

/-- Outside dry-run, what passes at the higher costs passes at the lower ones. -/
lemma Passes.of_dearer {cfg costs} (dearer : Dearer cfg costs) (fees : FeesNonneg cfg)
    (ratio : 0 ≤ cfg.autoThresholdCostBufferRatio) (live : cfg.mode ≠ .dryRun) {ewma ewma'}
    (h : AtMost ewma ewma') {buyRow sellRow}
    (p : Passes (withCosts cfg costs) ewma' buyRow sellRow) : Passes cfg ewma buyRow sellRow := by
  have d := h.legs dearer buyRow sellRow
  have threshold := h.threshold_le dearer fees ratio buyRow sellRow
  have hbuyPrice : 0 < (legsOf cfg ewma buyRow sellRow).buyPrice := d.buyPrice_eq ▸ p.buyPrice
  have hsellPrice : 0 < (legsOf cfg ewma buyRow sellRow).sellPrice := d.sellPrice_eq ▸ p.sellPrice
  have hbuy := netBuy_pos fees hbuyPrice
  have hquantity := d.quantity_eq cfg costs buyRow sellRow
  have hprofit := p.profit.resolve_right fun h => live h.1
  -- a profit at the higher costs needs a positive return
  have hsell : 0 < (legsOf (withCosts cfg costs) ewma' buyRow sellRow).netSell :=
    (netBuy_pos (dearer.feesNonneg fees) p.buyPrice).trans
      (sub_pos.1 ((mul_pos_iff_of_pos_left p.quantity).1 hprofit))
  exact
    { depth := fun missing => p.depth (by rw [d.same]; exact missing)
      buyPrice := hbuyPrice
      sellPrice := hsellPrice
      netBuy := hbuy.ne'
      spread := (threshold.trans p.spread).trans
        (d.netSpreadPct_le hbuyPrice.le hsellPrice.le hbuy hsell.le)
      quantity := hquantity ▸ p.quantity
      notional := by
        have notional := p.notional
        rw [hquantity, d.buyPrice_eq] at notional
        exact notional
      profit := .inl (hprofit.trans_le
        (d.expectedProfitUsdt_le hbuyPrice.le hsellPrice.le (hquantity ▸ p.quantity.le))) }

/-! ## Whole runs -/

/-- Both calls return, and every route of the second is one of the first, at the same size and with
at least the profit. -/
def Dominates (result result' : Except PyError (List Opportunity)) : Prop :=
  ∃ opps opps', result = .ok opps ∧ result' = .ok opps' ∧
    ∀ opp' ∈ opps', ∃ opp ∈ opps, routeOf opp = routeOf opp' ∧ opp.quantity = opp'.quantity ∧
      opp'.expectedProfitUsdt ≤ opp.expectedProfitUsdt

/-- One cycle of two engines in lockstep. -/
lemma AtMost.cycle {cfg costs} (dearer : Dearer cfg costs) (fees : FeesNonneg cfg)
    (ratio : 0 ≤ cfg.autoThresholdCostBufferRatio) (live : cfg.mode ≠ .dryRun)
    {engine engine' : OpportunityEngine}
    (h : AtMost engine.exchangeSlippageEwmaPct engine'.exchangeSlippageEwmaPct) (cycle : Cycle) :
    AtMost ((machine cfg).next engine cycle).exchangeSlippageEwmaPct
        ((machine (withCosts cfg costs)).next engine' cycle).exchangeSlippageEwmaPct ∧
      Dominates ((machine cfg).out engine cycle)
        ((machine (withCosts cfg costs)).out engine' cycle) := by
  obtain ⟨opps, next, e⟩ := findOpportunities_total fees engine cycle.market cycle.clock
  obtain ⟨opps', next', e'⟩ :=
    findOpportunities_total (dearer.feesNonneg fees) engine' cycle.market cycle.clock
  rw [findOpportunities_eq, Prod.mk.injEq] at e e'
  obtain ⟨hout, hnext⟩ := e
  obtain ⟨hout', hnext'⟩ := e'
  have call : findOpportunities cfg engine cycle.market cycle.clock = (.ok opps, next) :=
    Prod.ext hout hnext
  have call' : findOpportunities (withCosts cfg costs) engine' cycle.market cycle.clock =
      (.ok opps', next') := Prod.ext hout' hnext'
  constructor
  · rw [hnext, hnext', (findOpportunities_ok call).2.1, (findOpportunities_ok call').2.1]
    exact h.after_visits dearer _
  · refine ⟨opps, opps', hout, hout', fun opp' hopp' => ?_⟩
    obtain ⟨⟨_, p⟩, timestampMs', ⟨⟨pre, post, hvisits, hewma⟩, pass⟩, rfl⟩ :=
      findOpportunities_found call' hopp'
    dsimp only at hewma pass
    subst hewma
    -- the same visit, judged by the averages of the first engine
    have hle := h.after_visits dearer (pre ++ [p])
    have pass' := pass.of_dearer dearer fees ratio live hle
    have d := hle.legs dearer p.1 p.2
    obtain ⟨timestampMs, hopp⟩ := findOpportunities_of_found call
      (j := (averagesAfter cfg engine.exchangeSlippageEwmaPct (pre ++ [p]), p))
      ⟨⟨pre, post, hvisits, rfl⟩, pass'⟩
    refine ⟨_, hopp, rfl, (d.quantity_eq cfg costs p.1 p.2).symm, ?_⟩
    exact d.expectedProfitUsdt_le pass'.buyPrice.le pass'.sellPrice.le pass'.quantity.le

/-- Higher costs never create opportunities. In paper mode, two fresh engines that differ in their
costs only are fed the same cycles: in every cycle, each route that the dearer one returns is returned
by the other too, at the same size and with at least the expected profit. -/
theorem costs_monotone {cfg costs} (paper : cfg.mode = .paper) (fees : FeesNonneg cfg)
    (ratio : 0 ≤ cfg.autoThresholdCostBufferRatio) (dearer : Dearer cfg costs)
    (cycles : List Cycle) :
    List.Forall₂ Dominates ((machine cfg).outs (init cfg) cycles)
      ((machine (withCosts cfg costs)).outs (init (withCosts cfg costs)) cycles) := by
  have live : cfg.mode ≠ .dryRun := by rw [paper]; exact nofun
  apply Machine.forall₂_outs (R := fun engine engine' : OpportunityEngine =>
    AtMost engine.exchangeSlippageEwmaPct engine'.exchangeSlippageEwmaPct) dearer.init_atMost
  intro engine engine' cycle h
  exact h.cycle dearer fees ratio live cycle

/-- Twice the fees and the slippage of the default configuration. -/
def sampleCosts : Costs where
  feesTaker := ⟨defaultConfig.feesTaker.entries.map fun e => (e.1, 2 * e.2), by decide +kernel⟩
  feesMaker := ⟨defaultConfig.feesMaker.entries.map fun e => (e.1, 2 * e.2), by decide +kernel⟩
  slippagePct := 2 * defaultConfig.slippagePct
  minNetSpreadPct := defaultConfig.minNetSpreadPct
  autoThresholdMinFloorPct := defaultConfig.autoThresholdMinFloorPct
  autoThresholdCostBufferRatio := defaultConfig.autoThresholdCostBufferRatio

lemma sampleCosts_dearer : Dearer defaultConfig sampleCosts where
  taker := getD_le_of_entries (by decide +kernel) (by decide +kernel)
  maker := getD_le_of_entries (by decide +kernel) (by decide +kernel)
  slippage := by decide +kernel
  minNetSpread := le_rfl
  minFloor := le_rfl
  bufferRatio := le_rfl

/-- In two cycles, the default configuration at twice the fees and slippage still finds a route, which
it finds at its own costs as well. -/
theorem costs_monotone_sample :
    List.Forall₂ Dominates
        ((machine defaultConfig).outs (init defaultConfig) (List.replicate 2 sampleCycle))
        ((machine (withCosts defaultConfig sampleCosts)).outs
          (init (withCosts defaultConfig sampleCosts)) (List.replicate 2 sampleCycle)) ∧
      ((machine (withCosts defaultConfig sampleCosts)).outs
          (init (withCosts defaultConfig sampleCosts)) (List.replicate 2 sampleCycle)).map
        (fun result => result.toOption.map (·.map routeOf)) =
        List.replicate 2 (some [("BTC/USDT", "binance", "bybit")]) :=
  ⟨costs_monotone rfl feesNonneg_default (by decide +kernel) sampleCosts_dearer _, by decide +kernel⟩

end ArbBot.OpportunityEngine
