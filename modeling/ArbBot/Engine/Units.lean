import ArbBot.Engine.Scan
import ArbBot.Lib.Loop
import Mathlib.Tactic.FieldSimp

/-!
# The engine in another unit of money

Count the quote currency in another unit, one old unit being `k` new ones: prices, capitals and the
smallest notional grow by the factor `k`, and sizes, percentages and times do not. The engine has no
price of its own, so it finds the same opportunities, with prices and profits in the new unit
(`findOpportunities_inUnit`), from the same averages to the same averages: in every comparison both
sides have the same unit.
-/

namespace ArbBot

/-- The configuration, with money in another unit. -/
def BotConfig.inUnit (k : ℚ) (cfg : BotConfig) : BotConfig :=
  { cfg with
    capitalPerExchangeUsdt := k * cfg.capitalPerExchangeUsdt
    capitalPerTradeUsdt := k * cfg.capitalPerTradeUsdt
    minNotionalUsdt := k * cfg.minNotionalUsdt
    orderbookImpactNotionalUsdt := k * cfg.orderbookImpactNotionalUsdt }

/-- The snapshot, with prices in another unit. -/
def TickerSnapshot.inUnit (k : ℚ) (row : TickerSnapshot) : TickerSnapshot :=
  { row with
    bid := k * row.bid
    ask := k * row.ask
    bidDepthPrice := k * row.bidDepthPrice
    askDepthPrice := k * row.askDepthPrice }

/-- The market, with prices in another unit. -/
def Market.inUnit (k : ℚ) (market : Market) : Market :=
  market.mapVal (OrdDict.mapVal (TickerSnapshot.inUnit k))

/-- The opportunity, with money in another unit. -/
def Opportunity.inUnit (k : ℚ) (opp : Opportunity) : Opportunity :=
  { opp with
    buyPrice := k * opp.buyPrice
    sellPrice := k * opp.sellPrice
    expectedProfitUsdt := k * opp.expectedProfitUsdt }

/-- The verdict, with money in another unit. -/
def Verdict.inUnit (k : ℚ) : Verdict → Verdict
  | .rejected reason netSpreadPct => .rejected reason netSpreadPct
  | .emitted opp => .emitted (opp.inUnit k)

/-- The sign of an amount is the same in both units. -/
lemma nonpos_inUnit {k : ℚ} (pos : 0 < k) {x : ℚ} : k * x ≤ 0 ↔ x ≤ 0 := by
  rw [← not_lt, ← not_lt, mul_pos_iff_of_pos_left pos]

namespace OpportunityEngine

/-- The legs, with prices in another unit. -/
def Legs.inUnit (k : ℚ) (legs : Legs) : Legs :=
  { legs with buyPrice := k * legs.buyPrice, sellPrice := k * legs.sellPrice }

/-- The scan, with money in another unit. -/
def Scan.inUnit (k : ℚ) (scan : Scan) : Scan :=
  { scan with opportunities := scan.opportunities.map (Opportunity.inUnit k) }

variable {k : ℚ} (pos : 0 < k) (cfg : BotConfig) (ewma : OrdDict String ℚ)
  (buyRow sellRow : TickerSnapshot)

include pos

/-! ## One pair -/

lemma takerBuyPrice_inUnit : takerBuyPrice (buyRow.inUnit k) = k * takerBuyPrice buyRow := by
  rw [takerBuyPrice, takerBuyPrice, apply_ite (k * ·)]
  exact if_congr (mul_pos_iff_of_pos_left pos) rfl rfl

lemma takerSellPrice_inUnit : takerSellPrice (sellRow.inUnit k) = k * takerSellPrice sellRow := by
  rw [takerSellPrice, takerSellPrice, apply_ite (k * ·)]
  exact if_congr (mul_pos_iff_of_pos_left pos) rfl rfl

lemma takerBuySource_inUnit : takerBuySource (buyRow.inUnit k) = takerBuySource buyRow :=
  if_congr (mul_pos_iff_of_pos_left pos) rfl rfl

lemma takerSellSource_inUnit : takerSellSource (sellRow.inUnit k) = takerSellSource sellRow :=
  if_congr (mul_pos_iff_of_pos_left pos) rfl rfl

/-- A slippage is a part of a price. -/
lemma dynamicBuySlippagePct_inUnit :
    dynamicBuySlippagePct (buyRow.inUnit k) = dynamicBuySlippagePct buyRow := by
  rw [dynamicBuySlippagePct, takerBuyPrice_inUnit pos]
  refine if_congr (mul_pos_iff_of_pos_left pos) ?_ rfl
  show max 0 ((k * takerBuyPrice buyRow - k * buyRow.ask) / (k * buyRow.ask) * 100) = _
  rw [← mul_sub, mul_div_mul_left _ _ pos.ne']

lemma dynamicSellSlippagePct_inUnit :
    dynamicSellSlippagePct (sellRow.inUnit k) = dynamicSellSlippagePct sellRow := by
  rw [dynamicSellSlippagePct, takerSellPrice_inUnit pos]
  refine if_congr (mul_pos_iff_of_pos_left pos) ?_ rfl
  show max 0 ((k * sellRow.bid - k * takerSellPrice sellRow) / (k * sellRow.bid) * 100) = _
  rw [← mul_sub, mul_div_mul_left _ _ pos.ne']

lemma updateSlippages_inUnit :
    updateSlippages (cfg.inUnit k) ewma (buyRow.inUnit k) (sellRow.inUnit k) =
      updateSlippages cfg ewma buyRow sellRow := by
  rw [updateSlippages, dynamicBuySlippagePct_inUnit pos, dynamicSellSlippagePct_inUnit pos]
  rfl

/-- The other price of a maker leg, where the first one is missing. -/
lemma price_or_inUnit (price other : ℚ) :
    (if 0 < k * price then k * price else k * other) = k * if 0 < price then price else other := by
  rw [apply_ite (k * ·)]
  exact if_congr (mul_pos_iff_of_pos_left pos) rfl rfl

lemma legsOf_inUnit :
    legsOf (cfg.inUnit k) ewma (buyRow.inUnit k) (sellRow.inUnit k) =
      (legsOf cfg ewma buyRow sellRow).inUnit k := by
  have taker : takerLegs (cfg.inUnit k) ewma (buyRow.inUnit k) (sellRow.inUnit k) =
      (takerLegs cfg ewma buyRow sellRow).inUnit k := by
    rw [takerLegs, takerBuyPrice_inUnit pos, takerSellPrice_inUnit pos, takerBuySource_inUnit pos,
      takerSellSource_inUnit pos, dynamicBuySlippagePct_inUnit pos, dynamicSellSlippagePct_inUnit pos]
    rfl
  have makerSell : makerSellLegs (cfg.inUnit k) ewma (buyRow.inUnit k) (sellRow.inUnit k) =
      (makerSellLegs cfg ewma buyRow sellRow).inUnit k := by
    have price := price_or_inUnit pos sellRow.ask sellRow.bid
    rw [makerSellLegs, takerBuyPrice_inUnit pos, takerBuySource_inUnit pos,
      dynamicBuySlippagePct_inUnit pos]
    rw [Legs.inUnit, makerSellLegs, ← price]
    rfl
  have makerBuy : makerBuyLegs (cfg.inUnit k) ewma (buyRow.inUnit k) (sellRow.inUnit k) =
      (makerBuyLegs cfg ewma buyRow sellRow).inUnit k := by
    have price := price_or_inUnit pos buyRow.bid buyRow.ask
    rw [makerBuyLegs, takerSellPrice_inUnit pos, takerSellSource_inUnit pos,
      dynamicSellSlippagePct_inUnit pos]
    rw [Legs.inUnit, makerBuyLegs, ← price]
    rfl
  rw [legsOf, taker, makerSell, makerBuy, legsOf, apply_ite (Legs.inUnit k), apply_ite (Legs.inUnit k)]
  rfl

omit pos in
lemma netBuy_inUnit (k : ℚ) (legs : Legs) : (legs.inUnit k).netBuy = k * legs.netBuy :=
  mul_assoc _ _ _

omit pos in
lemma netSell_inUnit (k : ℚ) (legs : Legs) : (legs.inUnit k).netSell = k * legs.netSell :=
  mul_assoc _ _ _

/-- A spread is a part of a price. -/
lemma netSpreadPct_inUnit (legs : Legs) : (legs.inUnit k).netSpreadPct = legs.netSpreadPct := by
  rw [Legs.netSpreadPct, netBuy_inUnit, netSell_inUnit, ← mul_sub, mul_div_mul_left _ _ pos.ne',
    Legs.netSpreadPct]

lemma grossSpreadPct_inUnit (legs : Legs) : (legs.inUnit k).grossSpreadPct = legs.grossSpreadPct := by
  show (k * legs.sellPrice - k * legs.buyPrice) / (k * legs.buyPrice) * 100 = _
  rw [← mul_sub, mul_div_mul_left _ _ pos.ne', Legs.grossSpreadPct]

/-- A size is an amount of money by a price. -/
lemma quantity_inUnit (legs : Legs) :
    quantity (cfg.inUnit k) (legs.inUnit k) (buyRow.inUnit k) (sellRow.inUnit k) =
      quantity cfg legs buyRow sellRow := by
  have capital : (cfg.inUnit k).capitalPerTradeUsdt / (legs.inUnit k).buyPrice =
      cfg.capitalPerTradeUsdt / legs.buyPrice := mul_div_mul_left _ _ pos.ne'
  rw [quantity, qtyConstraints, capital]
  rfl

lemma expectedProfitUsdt_inUnit (legs : Legs) :
    expectedProfitUsdt (cfg.inUnit k) (legs.inUnit k) (buyRow.inUnit k) (sellRow.inUnit k) =
      k * expectedProfitUsdt cfg legs buyRow sellRow := by
  rw [expectedProfitUsdt, quantity_inUnit pos, netBuy_inUnit, netSell_inUnit, ← mul_sub, mul_left_comm,
    expectedProfitUsdt]

lemma makerEstimates_inUnit (legs : Legs) :
    makerEstimates (cfg.inUnit k) ewma (legs.inUnit k) (buyRow.inUnit k) (sellRow.inUnit k) =
      makerEstimates cfg ewma legs buyRow sellRow := by
  rw [makerEstimates, quantity_inUnit pos, netSpreadPct_inUnit pos]
  rfl

lemma opportunityOf_inUnit (timestampMs : ℤ) (legs : Legs) :
    opportunityOf (cfg.inUnit k) ewma timestampMs (legs.inUnit k) (buyRow.inUnit k)
        (sellRow.inUnit k) =
      (opportunityOf cfg ewma timestampMs legs buyRow sellRow).inUnit k := by
  rw [opportunityOf, makerEstimates_inUnit pos, grossSpreadPct_inUnit pos, netSpreadPct_inUnit pos,
    quantity_inUnit pos, expectedProfitUsdt_inUnit pos]
  rfl

/-- No filter compares money with a number. -/
lemma assemble_inUnit (timestampMs : ℤ) :
    assemble (cfg.inUnit k) ewma timestampMs (buyRow.inUnit k) (sellRow.inUnit k) =
      (assemble cfg ewma timestampMs buyRow sellRow).map (Verdict.inUnit k) := by
  have legs := legsOf_inUnit pos cfg ewma buyRow sellRow
  have depth : depthLiquidityMissing (cfg.inUnit k) ((legsOf cfg ewma buyRow sellRow).inUnit k)
        (buyRow.inUnit k) (sellRow.inUnit k) ↔
      depthLiquidityMissing cfg (legsOf cfg ewma buyRow sellRow) buyRow sellRow := by
    have ask : (buyRow.inUnit k).askDepthPrice ≤ 0 ↔ buyRow.askDepthPrice ≤ 0 := nonpos_inUnit pos
    have bid : (sellRow.inUnit k).bidDepthPrice ≤ 0 ↔ sellRow.bidDepthPrice ≤ 0 := nonpos_inUnit pos
    rw [depthLiquidityMissing, ask, bid]
    exact Iff.rfl
  rw [assemble, legs, assemble]
  simp only [apply_ite (Except.map (Verdict.inUnit k)), netSpreadPct_inUnit pos, quantity_inUnit pos,
    expectedProfitUsdt_inUnit pos, opportunityOf_inUnit pos]
  have buy : ((legsOf cfg ewma buyRow sellRow).inUnit k).netBuy = 0 ↔
      (legsOf cfg ewma buyRow sellRow).netBuy = 0 := by
    rw [netBuy_inUnit, mul_eq_zero, or_iff_right pos.ne']
  have notional : quantity cfg (legsOf cfg ewma buyRow sellRow) buyRow sellRow *
        ((legsOf cfg ewma buyRow sellRow).inUnit k).buyPrice < (cfg.inUnit k).minNotionalUsdt ↔
      quantity cfg (legsOf cfg ewma buyRow sellRow) buyRow sellRow *
        (legsOf cfg ewma buyRow sellRow).buyPrice < cfg.minNotionalUsdt := by
    show _ * (k * _) < k * _ ↔ _
    rw [mul_left_comm, mul_lt_mul_iff_right₀ pos]
  have priced : k * (legsOf cfg ewma buyRow sellRow).buyPrice ≤ 0 ∨
        k * (legsOf cfg ewma buyRow sellRow).sellPrice ≤ 0 ↔
      (legsOf cfg ewma buyRow sellRow).buyPrice ≤ 0 ∨ (legsOf cfg ewma buyRow sellRow).sellPrice ≤ 0 :=
    or_congr (nonpos_inUnit pos) (nonpos_inUnit pos)
  exact if_congr depth rfl (if_congr priced rfl (if_congr buy rfl
    (if_congr Iff.rfl rfl (if_congr (or_congr Iff.rfl notional) rfl
      (if_congr (and_congr (nonpos_inUnit pos) Iff.rfl) rfl rfl)))))

/-! ## The loops -/

lemma scanPair_inUnit (clock : ℕ → ℚ) (scan : Scan) :
    scanPair (cfg.inUnit k) clock (buyRow.inUnit k) (scan.inUnit k) (sellRow.inUnit k) =
      (scanPair cfg clock buyRow scan sellRow).map (Scan.inUnit k) := by
  have averages := updateSlippages_inUnit pos cfg scan.ewma buyRow sellRow
  have count : (scan.inUnit k).opportunities.length = scan.opportunities.length := List.length_map ..
  unfold scanPair
  rw [apply_ite (Except.map (Scan.inUnit k))]
  refine if_congr Iff.rfl rfl ?_
  dsimp only
  rw [count, show (scan.inUnit k).ewma = scan.ewma from rfl, averages, assemble_inUnit pos]
  cases assemble cfg (updateSlippages cfg scan.ewma buyRow sellRow)
      (clockMs (clock (scan.opportunities.length + 1))) buyRow sellRow with
  | error e => rfl
  | ok verdict =>
    cases verdict with
    | rejected reason netSpreadPct => rfl
    | emitted opp =>
      show Except.ok (Scan.mk _ (scan.opportunities.map (Opportunity.inUnit k) ++ [opp.inUnit k]) _ _) =
        Except.ok (Scan.mk _ ((scan.opportunities ++ [opp]).map (Opportunity.inUnit k)) _ _)
      rw [List.map_append]
      rfl

omit pos in
/-- Freshness is a matter of time. -/
lemma gatherRows_inUnit (k : ℚ) (nowMs : ℤ) (symbol : String) (market : Market)
    (rejections : OrdDict RejectReason ℕ) :
    gatherRows (cfg.inUnit k) nowMs symbol (market.inUnit k) rejections =
      ((gatherRows cfg nowMs symbol market rejections).1.map (TickerSnapshot.inUnit k),
        (gatherRows cfg nowMs symbol market rejections).2) := by
  have row : ∀ gathered bySymbol, gatherRow (cfg.inUnit k) nowMs symbol
      (Prod.map (List.map (TickerSnapshot.inUnit k)) id gathered)
      (OrdDict.mapVal (TickerSnapshot.inUnit k) bySymbol) =
        Prod.map (List.map (TickerSnapshot.inUnit k)) id (gatherRow cfg nowMs symbol gathered bySymbol) := by
    intro gathered bySymbol
    unfold gatherRow
    rw [OrdDict.get?_mapVal]
    cases bySymbol.get? symbol with
    | none => rfl
    | some snap =>
      show ite (_ < nowMs - snap.timestampMs) _ _ = Prod.map _ id (ite (_ < _) _ _)
      rw [apply_ite (Prod.map (List.map (TickerSnapshot.inUnit k)) id)]
      refine if_congr Iff.rfl rfl ?_
      show (gathered.1.map _ ++ [snap.inUnit k], _) = ((gathered.1 ++ [snap]).map _, _)
      rw [List.map_append]
      rfl
  rw [gatherRows, Market.inUnit, OrdDict.values_mapVal, List.foldl_map]
  have rows : ∀ gathered, market.values.foldl (fun gathered bySymbol =>
        gatherRow (cfg.inUnit k) nowMs symbol gathered (bySymbol.mapVal (TickerSnapshot.inUnit k)))
        (Prod.map (List.map (TickerSnapshot.inUnit k)) id gathered) =
      Prod.map (List.map (TickerSnapshot.inUnit k)) id
        (market.values.foldl (gatherRow cfg nowMs symbol) gathered) :=
    fun _ => List.foldl_hom _ row
  exact rows ([], rejections)

lemma scanSymbol_inUnit (market : Market) (clock : ℕ → ℚ) (scan : Scan) (symbol : String) :
    scanSymbol (cfg.inUnit k) (market.inUnit k) clock (scan.inUnit k) symbol =
      (scanSymbol cfg market clock scan symbol).map (Scan.inUnit k) := by
  unfold scanSymbol
  rw [show (scan.inUnit k).rejections = scan.rejections from rfl, gatherRows_inUnit]
  dsimp only
  rw [List.length_map, apply_ite (Except.map (Scan.inUnit k))]
  refine if_congr Iff.rfl rfl ?_
  exact Loop.foldlM_hom (g := Scan.inUnit k) (h := TickerSnapshot.inUnit k)
    (fun scan buyRow _ => Loop.foldlM_hom (fun scan sellRow _ =>
      scanPair_inUnit pos cfg buyRow sellRow clock scan) scan)
    { scan with
      rejections := (gatherRows cfg (clockMs (clock 0)) symbol market scan.rejections).2 }

lemma scanMarket_inUnit (engine : OpportunityEngine) (market : Market) (clock : ℕ → ℚ) :
    scanMarket (cfg.inUnit k) engine (market.inUnit k) clock =
      (scanMarket cfg engine market clock).map (Scan.inUnit k) := by
  have symbols := Loop.foldlM_hom (h := id) (l := cfg.symbols) (fun scan symbol _ =>
    scanSymbol_inUnit pos cfg market clock scan symbol) ⟨engine.exchangeSlippageEwmaPct, [], .empty, []⟩
  rw [List.map_id] at symbols
  exact symbols

/-- Profits are ranked alike. -/
lemma rank_inUnit (opps : List Opportunity) :
    rank (opps.map (Opportunity.inUnit k)) = (rank opps).map (Opportunity.inUnit k) :=
  (List.map_insertionSort _ _ (Opportunity.inUnit k) opps fun _ _ _ _ =>
    (mul_le_mul_iff_right₀ pos).symm).symm

/-- The engine finds the same in any unit of money. -/
theorem findOpportunities_inUnit (engine : OpportunityEngine) (market : Market) (clock : ℕ → ℚ) :
    findOpportunities (cfg.inUnit k) engine (market.inUnit k) clock =
      ((findOpportunities cfg engine market clock).1.map (List.map (Opportunity.inUnit k)),
        (findOpportunities cfg engine market clock).2) := by
  unfold findOpportunities
  rw [scanMarket_inUnit pos]
  cases scanMarket cfg engine market clock with
  | error halted => rfl
  | ok scan =>
    have average : ∀ f : Opportunity → ℚ, (∀ opp, f (opp.inUnit k) = f opp) →
        (scan.inUnit k).opportunities.map f = scan.opportunities.map f := fun f same => by
      rw [Scan.inUnit, List.map_map]
      exact List.map_congr_left fun opp _ => same opp
    dsimp only [Except.map]
    rw [show (scan.inUnit k).netSpreadSamples = scan.netSpreadSamples from rfl]
    cases distribution scan.netSpreadSamples with
    | error e => rfl
    | ok dist =>
      dsimp only
      rw [average _ fun _ => rfl, average _ fun _ => rfl, average _ fun _ => rfl, ← rank_inUnit pos]
      rfl

end OpportunityEngine

end ArbBot
