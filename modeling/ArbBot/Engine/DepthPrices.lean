import ArbBot.Engine.Filters
import ArbBot.Exchanges.Impact

/-!
# Legs priced from the order book are priced on the safe side

A leg whose price source is `orderbook` is priced by the average price of filling a target notional.
The opportunity trades another quantity: the sizing rule takes the minimum of its positive
constraints, among them the base quantity of that fill. So the quantity is part of the fill, and on
a sorted order book a part of a fill is priced no worse on average than the whole
(`Ladder.cost_le_of_average`, `Ladder.le_cost_of_average`). `BuyCovered` and `SellCovered` say this
for a leg; `buyCovered_of_passes` and `sellCovered_of_passes` are about one pair, and
`findOpportunities_covered` is about a scan.
-/

namespace ArbBot.OpportunityEngine

open Ladder

/-- An order book as exchanges deliver it: asks by rising price, bids by falling price. -/
structure SortedBook (book : OrderBook) : Prop where
  asks : Ascending (validLevels book.asks)
  bids : Descending (validLevels book.bids)

/-- The asks hold the quantity of an opportunity, for no more than its buy price. -/
structure BuyCovered (book : OrderBook) (buyRow : TickerSnapshot) (opp : Opportunity) : Prop where
  quantity_le : opp.quantity ≤ buyRow.askDepthBase
  depth : opp.quantity ≤ depth (validLevels book.asks)
  cost : cost (validLevels book.asks) opp.quantity ≤ opp.quantity * opp.buyPrice

/-- The bids take the quantity of an opportunity, for no less than its sell price. -/
structure SellCovered (book : OrderBook) (sellRow : TickerSnapshot) (opp : Opportunity) : Prop where
  quantity_le : opp.quantity ≤ sellRow.bidDepthBase
  depth : opp.quantity ≤ depth (validLevels book.bids)
  proceeds : opp.quantity * opp.sellPrice ≤ cost (validLevels book.bids) opp.quantity

/-! ## What an order book leg is made of -/

/-- A buy leg from the order book pays the depth price, and the depth limits its quantity. -/
lemma buySource_orderbook {cfg ewma buyRow sellRow}
    (source : (legsOf cfg ewma buyRow sellRow).buySource = .orderbook) :
    0 < buyRow.askDepthPrice ∧
      (legsOf cfg ewma buyRow sellRow).buyPrice = buyRow.askDepthPrice ∧
      buyRow.askDepthBase ∈ qtyConstraints cfg (legsOf cfg ewma buyRow sellRow) buyRow sellRow := by
  have taker : takerBuySource buyRow = .orderbook → 0 < buyRow.askDepthPrice := by
    unfold takerBuySource
    split
    case isTrue pos => exact fun _ => pos
    case isFalse => exact nofun
  rcases legsOf_cases cfg ewma buyRow sellRow with ⟨style, h⟩ | ⟨style, h⟩ | ⟨style, h⟩ <;>
    rw [h] at source ⊢
  · have pos := taker source
    exact ⟨pos, if_pos pos, by simp [qtyConstraints, style]⟩
  · have pos := taker source
    exact ⟨pos, if_pos pos, by simp [qtyConstraints, style, makerSellLegs]⟩
  · cases source

/-- The same for a sell leg. -/
lemma sellSource_orderbook {cfg ewma buyRow sellRow}
    (source : (legsOf cfg ewma buyRow sellRow).sellSource = .orderbook) :
    0 < sellRow.bidDepthPrice ∧
      (legsOf cfg ewma buyRow sellRow).sellPrice = sellRow.bidDepthPrice ∧
      sellRow.bidDepthBase ∈ qtyConstraints cfg (legsOf cfg ewma buyRow sellRow) buyRow sellRow := by
  have taker : takerSellSource sellRow = .orderbook → 0 < sellRow.bidDepthPrice := by
    unfold takerSellSource
    split
    case isTrue pos => exact fun _ => pos
    case isFalse => exact nofun
  rcases legsOf_cases cfg ewma buyRow sellRow with ⟨style, h⟩ | ⟨style, h⟩ | ⟨style, h⟩ <;>
    rw [h] at source ⊢
  · have pos := taker source
    exact ⟨pos, if_pos pos, by simp [qtyConstraints, style]⟩
  · cases source
  · have pos := taker source
    exact ⟨pos, if_pos pos, by simp [qtyConstraints, style, makerBuyLegs]⟩

/-! ## One pair -/

lemma buyCovered_of_passes {cfg ewma buyRow sellRow book} (p : Passes cfg ewma buyRow sellRow)
    (depth : DepthOf book buyRow) (sorted : SortedBook book)
    (source : (legsOf cfg ewma buyRow sellRow).buySource = .orderbook) (timestampMs) :
    BuyCovered book buyRow
      (opportunityOf cfg ewma timestampMs (legsOf cfg ewma buyRow sellRow) buyRow sellRow) := by
  obtain ⟨hprice, hbuy, mem⟩ := buySource_orderbook source
  have average := depth.ask.average hprice
  have hle : quantity cfg (legsOf cfg ewma buyRow sellRow) buyRow sellRow ≤ buyRow.askDepthBase :=
    minNonzero_le mem average.base_pos
  refine ⟨hle, hle.trans average.base_le, ?_⟩
  show Ladder.cost _ (quantity cfg (legsOf cfg ewma buyRow sellRow) buyRow sellRow) ≤
    quantity cfg (legsOf cfg ewma buyRow sellRow) buyRow sellRow *
      (legsOf cfg ewma buyRow sellRow).buyPrice
  rw [hbuy]
  exact cost_le_of_average (validLevels_sized _) sorted.asks p.quantity.le hle average.base_le
    average.base_pos average.average

lemma sellCovered_of_passes {cfg ewma buyRow sellRow book} (p : Passes cfg ewma buyRow sellRow)
    (depth : DepthOf book sellRow) (sorted : SortedBook book)
    (source : (legsOf cfg ewma buyRow sellRow).sellSource = .orderbook) (timestampMs) :
    SellCovered book sellRow
      (opportunityOf cfg ewma timestampMs (legsOf cfg ewma buyRow sellRow) buyRow sellRow) := by
  obtain ⟨hprice, hsell, mem⟩ := sellSource_orderbook source
  have average := depth.bid.average hprice
  have hle : quantity cfg (legsOf cfg ewma buyRow sellRow) buyRow sellRow ≤ sellRow.bidDepthBase :=
    minNonzero_le mem average.base_pos
  refine ⟨hle, hle.trans average.base_le, ?_⟩
  show quantity cfg (legsOf cfg ewma buyRow sellRow) buyRow sellRow *
      (legsOf cfg ewma buyRow sellRow).sellPrice ≤
    Ladder.cost _ (quantity cfg (legsOf cfg ewma buyRow sellRow) buyRow sellRow)
  rw [hsell]
  exact le_cost_of_average (validLevels_sized _) sorted.bids p.quantity.le hle average.base_le
    average.base_pos average.average

/-! ## A scan -/

/-- The snapshots of a market take their depth fields from the order books of their exchanges. -/
def Delivered (books : String → String → OrderBook) (market : Market) : Prop :=
  ∀ exchange symbol snap, snapshotAt market exchange symbol = some snap →
    DepthOf (books exchange symbol) snap

/-- In a market whose snapshots come from sorted order books, every leg that is priced from the order
book is priced on the safe side. -/
theorem findOpportunities_covered {cfg engine market clock opps engine' opp books}
    (e : findOpportunities cfg engine market clock = (.ok opps, engine')) (h : opp ∈ opps)
    (keyed : Keyed market) (delivered : Delivered books market)
    (sorted : ∀ exchange symbol, SortedBook (books exchange symbol)) :
    ∃ buyRow sellRow, snapshotAt market opp.buyExchange opp.symbol = some buyRow ∧
      snapshotAt market opp.sellExchange opp.symbol = some sellRow ∧
      (opp.buyPriceSource = .orderbook →
        BuyCovered (books opp.buyExchange opp.symbol) buyRow opp) ∧
      (opp.sellPriceSource = .orderbook →
        SellCovered (books opp.sellExchange opp.symbol) sellRow opp) := by
  obtain ⟨j, timestampMs, hfound, rfl⟩ := findOpportunities_found e h
  have v := visits_visit keyed hfound.mem
  refine ⟨j.2.1, j.2.2, v.stored.1, v.stored.2, fun source => ?_, fun source => ?_⟩
  · exact buyCovered_of_passes hfound.passes (delivered _ _ _ v.stored.1) (sorted _ _) source _
  · exact sellCovered_of_passes hfound.passes (delivered _ _ _ v.stored.2) (sorted _ _) source _

/-- Order books from which the sample snapshots take their depth fields; each side has a level
without a size, and a last level that is filled in part. -/
def sampleBook (exchange : String) : OrderBook :=
  if exchange = "binance" then
    ⟨[[.num 50000], [.num 50000, .num (1 / 2)], [.num 50000, .num 2]],
      [[.num 49990, .num (1 / 2)], [.num 49990, .num 2], [.num 49900, .num 0]]⟩
  else
    ⟨[[.num 50510, .num (1 / 2)], [.num 50510, .num 2], [.num 50600, .none]],
      [[.num 50500], [.num 50500, .num (1 / 2)], [.num 50500, .num 2]]⟩

lemma sampleBook_sorted (exchange) : SortedBook (sampleBook exchange) := by
  unfold sampleBook
  split
  · exact ⟨by unfold Ascending; decide +kernel, by unfold Descending; decide +kernel⟩
  · exact ⟨by unfold Ascending; decide +kernel, by unfold Descending; decide +kernel⟩

lemma sampleBook_delivered : Delivered (fun exchange _ => sampleBook exchange) sampleMarket := by
  have binance : DepthOf (sampleBook "binance") (sampleSnapshot "binance" 49990 50000) :=
    ⟨.inl ⟨50000, by decide +kernel⟩, .inl ⟨49990, by decide +kernel⟩⟩
  have bybit : DepthOf (sampleBook "bybit") (sampleSnapshot "bybit" 50500 50510) :=
    ⟨.inl ⟨50510, by decide +kernel⟩, .inl ⟨50500, by decide +kernel⟩⟩
  intro exchange symbol snap h
  rcases snapshotAt_sampleMarket h with ⟨rfl, rfl⟩ | ⟨rfl, rfl⟩
  · exact binance
  · exact bybit

/-- In the sample market, both legs of the route found are priced from the order books. -/
theorem findOpportunities_covered_sample :
    ∃ opp opps engine', findOpportunities defaultConfig (init defaultConfig) sampleMarket
        (fun _ => 1) = (.ok opps, engine') ∧ opp ∈ opps ∧
      ∃ buyRow sellRow, BuyCovered (sampleBook opp.buyExchange) buyRow opp ∧
        SellCovered (sampleBook opp.sellExchange) sellRow opp := by
  obtain ⟨opps, engine', e⟩ := findOpportunities_total feesNonneg_default (init defaultConfig)
    sampleMarket fun _ => 1
  have one : (findOpportunities defaultConfig (init defaultConfig) sampleMarket
      (fun _ => 1)).1.toOption.map (·.map fun opp => (opp.buyPriceSource, opp.sellPriceSource)) =
      some [(.orderbook, .orderbook)] := by
    decide +kernel
  rw [e] at one
  obtain ⟨opp, rfl, sources⟩ := List.map_eq_singleton_iff.1 (Option.some.inj one)
  obtain ⟨hbuy, hsell⟩ := Prod.mk.inj sources
  have hopp : opp ∈ [opp] := List.mem_singleton_self opp
  obtain ⟨buyRow, sellRow, _, _, buy, sell⟩ := findOpportunities_covered e hopp
    keyed_sampleMarket sampleBook_delivered fun exchange _ => sampleBook_sorted exchange
  exact ⟨opp, [opp], engine', e, hopp, buyRow, sellRow, buy hbuy, sell hsell⟩

end ArbBot.OpportunityEngine
