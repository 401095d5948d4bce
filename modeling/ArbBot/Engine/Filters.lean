import ArbBot.Engine.Inversion
import Mathlib.Tactic.Ring

/-!
# Everything that is returned has passed every filter

`Documented` is what the filters promise about an opportunity and the two snapshots that it joins,
in terms of the fields that the opportunity carries. `opportunityFor_documented` is the promise for
one pair that passes, and `visits_route_nodup` says that a scan visits no route twice: its symbols are
distinct, and so are the exchanges of the fresh snapshots of a symbol. `findOpportunities_documented`
puts them together.
-/

namespace ArbBot.OpportunityEngine

/-- The snapshots of a market carry the exchange and the symbol that they are stored under. -/
def Keyed (market : Market) : Prop :=
  ∀ exchange symbol snap, snapshotAt market exchange symbol = some snap →
    snap.exchange = exchange ∧ snap.symbol = symbol

/-- The snapshots of a market carry the exchange that they are stored under. -/
def CarriesExchange (market : Market) : Prop :=
  ∀ exchange symbol snap, snapshotAt market exchange symbol = some snap → snap.exchange = exchange

lemma Keyed.carriesExchange {market} (keyed : Keyed market) : CarriesExchange market :=
  fun exchange symbol snap h => (keyed exchange symbol snap h).1

/-- The route of an opportunity. -/
def routeOf (opp : Opportunity) : String × String × String :=
  (opp.symbol, opp.buyExchange, opp.sellExchange)

/-- `net_buy`, from the fields of an opportunity. -/
def netBuyOf (opp : Opportunity) : ℚ :=
  opp.buyPrice * (1 + (opp.buyFeePct + opp.buySlippagePct) / 100)

/-- What the filters promise about an opportunity that joins two snapshots of a market. -/
structure Documented (cfg : BotConfig) (market : Market) (nowMs : ℤ)
    (buyRow sellRow : TickerSnapshot) (opp : Opportunity) : Prop where
  symbol : opp.symbol ∈ cfg.symbols
  exchanges : opp.buyExchange ≠ opp.sellExchange
  stored : snapshotAt market opp.buyExchange opp.symbol = some buyRow ∧
    snapshotAt market opp.sellExchange opp.symbol = some sellRow
  fresh : nowMs - buyRow.timestampMs ≤ cfg.maxDataAgeMs ∧
    nowMs - sellRow.timestampMs ≤ cfg.maxDataAgeMs
  spread : opp.dynamicThresholdPct ≤ opp.netSpreadPct
  threshold : cfg.minNetSpreadPct ≤ opp.dynamicThresholdPct
  quantity : 0 < opp.quantity
  notional : cfg.minNotionalUsdt ≤ opp.quantity * opp.buyPrice
  profit : opp.expectedProfitUsdt = opp.quantity * netBuyOf opp * opp.netSpreadPct / 100
  gain : 0 < opp.expectedProfitUsdt ↔ 0 < opp.netSpreadPct
  loss : opp.expectedProfitUsdt < 0 ↔ opp.netSpreadPct < 0
  positive : ¬(cfg.mode = .dryRun ∧ cfg.allowNegativeExpectedProfitDryrun = true) →
    0 < opp.expectedProfitUsdt ∧ 0 < opp.netSpreadPct
  buyDepth : cfg.requireDepthLiquidity = true → opp.takerSide = .both ∨ opp.takerSide = .buy →
    opp.buyPriceSource = .orderbook ∧ 0 < buyRow.askDepthPrice
  sellDepth : cfg.requireDepthLiquidity = true → opp.takerSide = .both ∨ opp.takerSide = .sell →
    opp.sellPriceSource = .orderbook ∧ 0 < sellRow.bidDepthPrice

/-! ## One pair -/

/-- What a visit says about the two snapshots of a pair. -/
structure Visit (cfg : BotConfig) (market : Market) (nowMs : ℤ) (p : Pair) : Prop where
  symbol : p.1.symbol ∈ cfg.symbols
  differ : p.1.exchange ≠ p.2.exchange
  stored : snapshotAt market p.1.exchange p.1.symbol = some p.1 ∧
    snapshotAt market p.2.exchange p.1.symbol = some p.2
  fresh : nowMs - p.1.timestampMs ≤ cfg.maxDataAgeMs ∧ nowMs - p.2.timestampMs ≤ cfg.maxDataAgeMs

lemma visits_visit {cfg nowMs market p} (keyed : Keyed market) (h : p ∈ visits cfg nowMs market) :
    Visit cfg market nowMs p := by
  obtain ⟨symbol, hsymbol, hbuy, hsell, differ⟩ := mem_visits.1 h
  obtain ⟨buyExchange, hbuyRow, buyFresh⟩ := mem_freshRows.1 hbuy
  obtain ⟨sellExchange, hsellRow, sellFresh⟩ := mem_freshRows.1 hsell
  obtain ⟨rfl, rfl⟩ := keyed _ _ _ hbuyRow
  obtain ⟨rfl, _⟩ := keyed _ _ _ hsellRow
  exact ⟨hsymbol, differ, ⟨hbuyRow, hsellRow⟩, buyFresh, sellFresh⟩

lemma minNetSpreadPct_le_thresholdPct (cfg ewma legs buyRow sellRow) :
    cfg.minNetSpreadPct ≤ thresholdPct cfg ewma legs buyRow sellRow := by
  unfold thresholdPct effectiveDynamicThreshold
  dsimp only
  split
  · exact le_max_left _ _
  · exact le_rfl

/-- The style of an opportunity, from its taker side. -/
lemma legsOf_takerSide (cfg ewma buyRow sellRow) :
    (executionStyle cfg = .takerTaker ∧ (legsOf cfg ewma buyRow sellRow).takerSide = .both) ∨
    (executionStyle cfg = .makerTaker ∧
      ((legsOf cfg ewma buyRow sellRow).takerSide = .buy ∨
        (legsOf cfg ewma buyRow sellRow).takerSide = .sell)) := by
  rcases legsOf_cases cfg ewma buyRow sellRow with ⟨style, h⟩ | ⟨style, h⟩ | ⟨style, h⟩ <;> rw [h]
  · refine .inl ⟨?_, rfl⟩
    unfold executionStyle at style ⊢
    split at style
    case isTrue maker => exact absurd rfl style
    case isFalse maker => rw [if_neg maker]
  · exact .inr ⟨style, .inl rfl⟩
  · exact .inr ⟨style, .inr rfl⟩

/-- A leg that takes on the buy side takes from the order book, if there is a depth price. -/
lemma legsOf_buySource {cfg ewma buyRow sellRow}
    (side : (legsOf cfg ewma buyRow sellRow).takerSide = .both ∨
      (legsOf cfg ewma buyRow sellRow).takerSide = .buy) (pos : 0 < buyRow.askDepthPrice) :
    (legsOf cfg ewma buyRow sellRow).buySource = .orderbook := by
  rcases legsOf_cases cfg ewma buyRow sellRow with ⟨_, h⟩ | ⟨_, h⟩ | ⟨_, h⟩ <;> rw [h] at side ⊢
  · exact if_pos pos
  · exact if_pos pos
  · rcases side with h | h <;> cases h

/-- The same on the sell side. -/
lemma legsOf_sellSource {cfg ewma buyRow sellRow}
    (side : (legsOf cfg ewma buyRow sellRow).takerSide = .both ∨
      (legsOf cfg ewma buyRow sellRow).takerSide = .sell) (pos : 0 < sellRow.bidDepthPrice) :
    (legsOf cfg ewma buyRow sellRow).sellSource = .orderbook := by
  rcases legsOf_cases cfg ewma buyRow sellRow with ⟨_, h⟩ | ⟨_, h⟩ | ⟨_, h⟩ <;> rw [h] at side ⊢
  · exact if_pos pos
  · rcases side with h | h <;> cases h
  · exact if_pos pos

/-- With `require_depth_liquidity`, a leg that takes has a depth price. -/
lemma Passes.depth_pos {cfg ewma buyRow sellRow} (p : Passes cfg ewma buyRow sellRow)
    (required : cfg.requireDepthLiquidity = true) :
    ((legsOf cfg ewma buyRow sellRow).takerSide = .both ∨
      (legsOf cfg ewma buyRow sellRow).takerSide = .buy → 0 < buyRow.askDepthPrice) ∧
    ((legsOf cfg ewma buyRow sellRow).takerSide = .both ∨
      (legsOf cfg ewma buyRow sellRow).takerSide = .sell → 0 < sellRow.bidDepthPrice) := by
  have depth := p.depth
  simp only [depthLiquidityMissing, required, true_and] at depth
  rcases legsOf_takerSide cfg ewma buyRow sellRow with ⟨style, side⟩ | ⟨style, side⟩
  · rw [if_pos style, not_or, not_le, not_le] at depth
    exact ⟨fun _ => depth.1, fun _ => depth.2⟩
  · rw [if_neg (by rw [style]; decide), not_or] at depth
    refine ⟨fun h => not_le.1 fun hle => depth.1 ⟨?_, hle⟩,
      fun h => not_le.1 fun hle => depth.2 ⟨?_, hle⟩⟩
    · rcases h with h | h
      · rcases side with h' | h' <;> rw [h] at h' <;> cases h'
      · exact h
    · rcases h with h | h
      · rcases side with h' | h' <;> rw [h] at h' <;> cases h'
      · exact h

/-- The expected profit of a pair, by its net spread. -/
lemma expectedProfitUsdt_eq (cfg) {legs : Legs} (ne : legs.netBuy ≠ 0) (buyRow sellRow) :
    expectedProfitUsdt cfg legs buyRow sellRow =
      quantity cfg legs buyRow sellRow * legs.netBuy * legs.netSpreadPct / 100 := by
  unfold expectedProfitUsdt Legs.netSpreadPct
  field_simp

lemma netBuyOf_opportunityOf (cfg ewma timestampMs legs buyRow sellRow) :
    netBuyOf (opportunityOf cfg ewma timestampMs legs buyRow sellRow) = legs.netBuy := by
  simp only [netBuyOf, opportunityOf, Legs.netBuy]
  ring

/-- A pair of snapshots of a market that passes makes an opportunity as documented. -/
lemma opportunityFor_documented {cfg} (fees : FeesNonneg cfg) {market nowMs} (keyed : Keyed market)
    {j : OrdDict String ℚ × Pair} (visit : j.2 ∈ visits cfg nowMs market)
    (p : Passes cfg j.1 j.2.1 j.2.2) (timestampMs) :
    Documented cfg market nowMs j.2.1 j.2.2 (opportunityFor cfg timestampMs j) := by
  obtain ⟨ewma, buyRow, sellRow⟩ := j
  have v := visits_visit keyed visit
  dsimp only at p v
  have hnet : 0 < (legsOf cfg ewma buyRow sellRow).netBuy := netBuy_pos fees p.buyPrice
  have hprofit := expectedProfitUsdt_eq cfg hnet.ne' buyRow sellRow
  have hfactor : 0 < quantity cfg (legsOf cfg ewma buyRow sellRow) buyRow sellRow *
      (legsOf cfg ewma buyRow sellRow).netBuy / 100 :=
    div_pos (mul_pos p.quantity hnet) (by norm_num)
  have hprofit' : expectedProfitUsdt cfg (legsOf cfg ewma buyRow sellRow) buyRow sellRow =
      quantity cfg (legsOf cfg ewma buyRow sellRow) buyRow sellRow *
        (legsOf cfg ewma buyRow sellRow).netBuy / 100 *
        (legsOf cfg ewma buyRow sellRow).netSpreadPct := by
    rw [hprofit]; ring
  have gain : 0 < expectedProfitUsdt cfg (legsOf cfg ewma buyRow sellRow) buyRow sellRow ↔
      0 < (legsOf cfg ewma buyRow sellRow).netSpreadPct := by
    rw [hprofit', mul_pos_iff_of_pos_left hfactor]
  exact
    { symbol := v.symbol
      exchanges := v.differ
      stored := v.stored
      fresh := v.fresh
      spread := p.spread
      threshold := minNetSpreadPct_le_thresholdPct ..
      quantity := p.quantity
      notional := p.notional
      profit := by
        rw [opportunityFor, netBuyOf_opportunityOf]
        exact hprofit
      gain := gain
      loss := by
        show expectedProfitUsdt cfg (legsOf cfg ewma buyRow sellRow) buyRow sellRow < 0 ↔
          (legsOf cfg ewma buyRow sellRow).netSpreadPct < 0
        rw [hprofit', mul_neg_iff, or_iff_left fun h => absurd h.1 hfactor.not_gt,
          and_iff_right hfactor]
      positive := fun live => by
        have pos := p.profit.resolve_right live
        exact ⟨pos, gain.1 pos⟩
      buyDepth := fun required side =>
        have pos := (p.depth_pos required).1 side
        ⟨legsOf_buySource side pos, pos⟩
      sellDepth := fun required side =>
        have pos := (p.depth_pos required).2 side
        ⟨legsOf_sellSource side pos, pos⟩ }

/-! ## Routes -/

/-- The route of a pair. -/
def routeOfPair (p : Pair) : String × String × String :=
  (p.1.symbol, p.1.exchange, p.2.exchange)

/-- The exchanges of the fresh rows of a symbol are distinct. -/
lemma freshRows_exchange_nodup {market} (carries : CarriesExchange market) (cfg nowMs symbol) :
    ((freshRows cfg nowMs market symbol).map (·.exchange)).Nodup := by
  suffices h : ∀ es : List (String × OrdDict String TickerSnapshot), es ⊆ market.entries →
      (((es.map Prod.snd).filterMap (freshRow cfg nowMs symbol)).map (·.exchange)).Sublist
        (es.map Prod.fst) from
    (h market.entries (List.Subset.refl _)).nodup market.nodup
  intro es
  induction es with
  | nil => intro _; exact List.Sublist.refl []
  | cons e es ih =>
    intro hes
    obtain ⟨exchange, bySymbol⟩ := e
    obtain ⟨hhead, htail⟩ := List.cons_subset.1 hes
    rw [List.map_cons, List.map_cons, List.filterMap_cons]
    cases hrow : freshRow cfg nowMs symbol bySymbol with
    | none => exact (ih htail).cons _
    | some row =>
      have hget := (Option.filter_eq_some_iff.1 hrow).1
      have hstored : snapshotAt market exchange symbol = some row := by
        rw [snapshotAt, OrdDict.get?_of_mem hhead]
        exact hget
      have hex := carries _ _ _ hstored
      dsimp only
      rw [List.map_cons, hex]
      exact (ih htail).cons_cons _

/-- A scan visits no route twice. -/
lemma visits_route_nodup {cfg} (hsymbols : cfg.symbols.Nodup) {market} (keyed : Keyed market)
    (nowMs) : ((visits cfg nowMs market).map routeOfPair).Nodup := by
  have hsymbol : ∀ symbol, ∀ p ∈ pairsOf (freshRows cfg nowMs market symbol),
      p.1.symbol = symbol := by
    intro symbol p hp
    obtain ⟨hbuy, _⟩ := List.mem_product.1 (List.mem_of_mem_filter hp)
    obtain ⟨_, hrow, _⟩ := mem_freshRows.1 hbuy
    exact (keyed _ _ _ hrow).2
  rw [visits, List.map_flatMap, List.nodup_flatMap]
  refine ⟨fun symbol _ => ?_, hsymbols.imp_of_mem fun {a b} _ _ hne => ?_⟩
  · -- within a symbol, the pairs of exchanges are distinct
    have rows := freshRows_exchange_nodup keyed.carriesExchange cfg nowMs symbol
    have inj := List.inj_on_of_nodup_map rows
    refine List.Nodup.map_on ?_ ((rows.of_map.product rows.of_map).filter _)
    intro p hp q hq e
    obtain ⟨hp₁, hp₂⟩ := List.mem_product.1 (List.mem_of_mem_filter hp)
    obtain ⟨hq₁, hq₂⟩ := List.mem_product.1 (List.mem_of_mem_filter hq)
    simp only [routeOfPair, Prod.mk.injEq] at e
    exact Prod.ext (inj hp₁ hq₁ e.2.1) (inj hp₂ hq₂ e.2.2)
  · rw [Function.onFun, List.disjoint_left]
    intro r ha hb
    obtain ⟨p, hp, rfl⟩ := List.mem_map.1 ha
    obtain ⟨q, hq, e⟩ := List.mem_map.1 hb
    have : q.1.symbol = p.1.symbol := congrArg Prod.fst e
    rw [hsymbol a p hp, hsymbol b q hq] at this
    exact hne this.symm

lemma found_sublist (cfg ewma) (visited : List Pair) :
    ((found cfg ewma visited).map Prod.snd).Sublist visited := by
  induction visited generalizing ewma with
  | nil => exact List.Sublist.refl []
  | cons p visited ih =>
    simp only [found]
    split
    · exact (ih _).cons_cons p
    · exact (ih _).cons p

lemma stamped_route (cfg clock n es) :
    (stamped cfg clock n es).map routeOf = (es.map Prod.snd).map routeOfPair := by
  rw [List.map_map]
  exact map_stamped fun _ _ => rfl

/-! ## `find_opportunities` -/

/-- Without negative fees, the scan returns; what it returns is ranked by expected profit, names no
route twice, and passes every documented filter. -/
theorem findOpportunities_documented {cfg} (fees : FeesNonneg cfg) (hsymbols : cfg.symbols.Nodup)
    {market} (keyed : Keyed market) (engine clock) :
    ∃ opps engine', findOpportunities cfg engine market clock = (.ok opps, engine') ∧
      opps.Pairwise (fun a b => b.expectedProfitUsdt ≤ a.expectedProfitUsdt) ∧
      (opps.map routeOf).Nodup ∧
      ∀ opp ∈ opps, ∃ buyRow sellRow,
        Documented cfg market (clockMs (clock 0)) buyRow sellRow opp := by
  obtain ⟨opps, engine', e⟩ := findOpportunities_total fees engine market clock
  refine ⟨opps, engine', e, ?_, ?_, fun opp hopp => ?_⟩
  · rw [(findOpportunities_ok e).2.2]
    exact rank_pairwise _
  · rw [(findOpportunities_ok e).2.2, ((rank_perm _).map routeOf).nodup_iff, stamped_route]
    exact ((found_sublist _ _ _).map routeOfPair).nodup (visits_route_nodup hsymbols keyed _)
  · obtain ⟨j, timestampMs, hfound, rfl⟩ := findOpportunities_found e hopp
    exact ⟨j.2.1, j.2.2, opportunityFor_documented fees keyed hfound.mem hfound.passes timestampMs⟩

lemma feesNonneg_of_entries {cfg} (taker : ∀ e ∈ cfg.feesTaker.entries, 0 ≤ e.2)
    (maker : ∀ e ∈ cfg.feesMaker.entries, 0 ≤ e.2) : FeesNonneg cfg where
  taker _ _ h := taker _ (OrdDict.mem_of_get? h)
  maker _ _ h := maker _ (OrdDict.mem_of_get? h)

lemma keyed_of_entries {market : Market}
    (h : ∀ e ∈ market.entries, ∀ f ∈ e.2.entries, f.2.exchange = e.1 ∧ f.2.symbol = f.1) :
    Keyed market := by
  intro exchange symbol snap hsnap
  obtain ⟨bySymbol, hex, hrow⟩ := Option.bind_eq_some_iff.1 hsnap
  exact h _ (OrdDict.mem_of_get? hex) _ (OrdDict.mem_of_get? hrow)

/-- A snapshot of BTC/USDT with full depth at both touches. -/
def sampleSnapshot (exchange : String) (bid ask : ℚ) : TickerSnapshot where
  exchange
  symbol := "BTC/USDT"
  bid
  ask
  bidVolume := 1
  askVolume := 1
  timestampMs := 1000
  bidDepthPrice := bid
  askDepthPrice := ask
  bidDepthBase := 1
  askDepthBase := 1

/-- A market in which a purchase on binance and a sale on bybit is worth it. -/
def sampleMarket : Market where
  entries := [("binance", ⟨[("BTC/USDT", sampleSnapshot "binance" 49990 50000)], by simp⟩),
    ("bybit", ⟨[("BTC/USDT", sampleSnapshot "bybit" 50500 50510)], by simp⟩)]
  nodup := by simp

/-- A cycle on the sample market. -/
def sampleCycle : Cycle := ⟨sampleMarket, fun _ => 1⟩

/-- An entry of the sample market is one of its two snapshots. -/
lemma snapshotAt_sampleMarket {exchange symbol snap}
    (h : snapshotAt sampleMarket exchange symbol = some snap) :
    (exchange = "binance" ∧ snap = sampleSnapshot "binance" 49990 50000) ∨
      (exchange = "bybit" ∧ snap = sampleSnapshot "bybit" 50500 50510) := by
  obtain ⟨bySymbol, hex, hrow⟩ := Option.bind_eq_some_iff.1 h
  have hrow := OrdDict.mem_of_get? hrow
  have hex := OrdDict.mem_of_get? hex
  simp only [sampleMarket, List.mem_cons, Prod.mk.injEq, List.not_mem_nil, or_false] at hex
  rcases hex with ⟨rfl, rfl⟩ | ⟨rfl, rfl⟩
  · simp only [List.mem_singleton, Prod.mk.injEq] at hrow
    exact .inl ⟨rfl, hrow.2⟩
  · simp only [List.mem_singleton, Prod.mk.injEq] at hrow
    exact .inr ⟨rfl, hrow.2⟩

lemma feesNonneg_default : FeesNonneg defaultConfig :=
  feesNonneg_of_entries (by decide +kernel) (by decide +kernel)

lemma keyed_sampleMarket : Keyed sampleMarket := keyed_of_entries (by decide +kernel)

/-- The default configuration finds one route in the sample market. -/
lemma routes_sampleMarket {opps engine}
    (e : findOpportunities defaultConfig (init defaultConfig) sampleMarket (fun _ => 1) =
      (.ok opps, engine)) : opps.map routeOf = [("BTC/USDT", "binance", "bybit")] := by
  have found : (findOpportunities defaultConfig (init defaultConfig) sampleMarket
      (fun _ => 1)).1.toOption.map (·.map routeOf) = some [("BTC/USDT", "binance", "bybit")] := by
    decide +kernel
  rw [e] at found
  exact Option.some.inj found

/-- The default configuration finds one documented route in the sample market. -/
theorem findOpportunities_documented_sample :
    ∃ opps engine', findOpportunities defaultConfig (init defaultConfig) sampleMarket (fun _ => 1) =
        (.ok opps, engine') ∧
      opps.map routeOf = [("BTC/USDT", "binance", "bybit")] ∧
      ∀ opp ∈ opps, ∃ buyRow sellRow,
        Documented defaultConfig sampleMarket (clockMs 1) buyRow sellRow opp := by
  obtain ⟨opps, engine', e, _, _, documented⟩ := findOpportunities_documented feesNonneg_default
    (by decide) keyed_sampleMarket (init defaultConfig) fun _ => 1
  exact ⟨opps, engine', e, routes_sampleMarket e, documented⟩

end ArbBot.OpportunityEngine
