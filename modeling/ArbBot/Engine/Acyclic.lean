import ArbBot.Engine.Filters
import ArbBot.Lib.TradeGraph

/-!
# Profitable routes never form a cycle

The price of a leg comes from the snapshot of its exchange alone, whatever the averages stand at
(`legsOf_prices`), and a pair that passes outside dry-run sells dearer than it buys, since fees and
slippages only make it worse (`Passes.gain`). So the opportunities of one symbol are trades in the
sense of `TradeGraph`. `Uncrossed` says of the market that no exchange takes a sale at more than it
asks for a purchase; then `findOpportunities_acyclic` follows.
-/

namespace ArbBot.OpportunityEngine

/-! ## Prices -/

/-- The price of a purchase on the exchange of a snapshot. -/
def buyPriceOf (cfg : BotConfig) (row : TickerSnapshot) : ℚ :=
  if executionStyle cfg = .makerTaker ∧ makerSide cfg = .buy then
    if 0 < row.bid then row.bid else row.ask
  else takerBuyPrice row

/-- The price of a sale on the exchange of a snapshot. -/
def sellPriceOf (cfg : BotConfig) (row : TickerSnapshot) : ℚ :=
  if executionStyle cfg = .makerTaker ∧ makerSide cfg = .sell then
    if 0 < row.ask then row.ask else row.bid
  else takerSellPrice row

lemma makerSide_cases (cfg) : makerSide cfg = .sell ∨ makerSide cfg = .buy := by
  unfold makerSide
  split
  · exact .inl rfl
  · exact .inr rfl

/-- The averages do not enter the prices of the legs. -/
lemma legsOf_prices (cfg ewma buyRow sellRow) :
    (legsOf cfg ewma buyRow sellRow).buyPrice = buyPriceOf cfg buyRow ∧
      (legsOf cfg ewma buyRow sellRow).sellPrice = sellPriceOf cfg sellRow := by
  unfold legsOf buyPriceOf sellPriceOf
  split
  case isTrue style =>
    rcases makerSide_cases cfg with side | side
    · simp [style, side, makerSellLegs]
    · simp [style, side, makerBuyLegs]
  case isFalse style => simp [style, takerLegs]

/-- A pair that passes outside dry-run sells dearer than it buys. -/
lemma Passes.gain {cfg ewma buyRow sellRow} (p : Passes cfg ewma buyRow sellRow)
    (fees : FeesNonneg cfg) (live : cfg.mode ≠ .dryRun) :
    (legsOf cfg ewma buyRow sellRow).buyPrice < (legsOf cfg ewma buyRow sellRow).sellPrice := by
  obtain ⟨hbuyFee, hsellFee⟩ := legsOf_fee_nonneg fees ewma buyRow sellRow
  obtain ⟨hbuySlip, hsellSlip⟩ := legsOf_slippage_nonneg cfg ewma buyRow sellRow
  have hprofit : 0 < expectedProfitUsdt cfg (legsOf cfg ewma buyRow sellRow) buyRow sellRow :=
    p.profit.resolve_right fun h => live h.1
  have hnet : (legsOf cfg ewma buyRow sellRow).netBuy < (legsOf cfg ewma buyRow sellRow).netSell :=
    sub_pos.1 ((mul_pos_iff_of_pos_left p.quantity).1 hprofit)
  have hbuy : (legsOf cfg ewma buyRow sellRow).buyPrice ≤
      (legsOf cfg ewma buyRow sellRow).netBuy :=
    le_mul_of_one_le_right p.buyPrice.le (by linarith)
  have hsell : (legsOf cfg ewma buyRow sellRow).netSell ≤
      (legsOf cfg ewma buyRow sellRow).sellPrice :=
    mul_le_of_le_one_right p.sellPrice.le (by linarith)
  exact (hbuy.trans_lt hnet).trans_le hsell

/-! ## Markets -/

/-- No exchange takes a sale of a symbol at more than it asks for a purchase, in the pairs visited. -/
def Uncrossed (cfg : BotConfig) (nowMs : ℤ) (market : Market) : Prop :=
  ∀ p ∈ visits cfg nowMs market, ∀ q ∈ visits cfg nowMs market,
    p.1.symbol = q.1.symbol → p.2.exchange = q.1.exchange →
      sellPriceOf cfg p.2 ≤ buyPriceOf cfg q.1

/-- For a market whose snapshots carry their keys, this is a condition on each snapshot. -/
lemma uncrossed_of_keyed {cfg market} (keyed : Keyed market) (nowMs)
    (h : ∀ exchange symbol snap, snapshotAt market exchange symbol = some snap →
      sellPriceOf cfg snap ≤ buyPriceOf cfg snap) : Uncrossed cfg nowMs market := by
  intro p hp q hq symbol exchange
  have hsell := (visits_visit keyed hp).stored.2
  have hbuy := (visits_visit keyed hq).stored.1
  -- the two rows are stored in one place
  rw [symbol, exchange, hbuy] at hsell
  rw [← Option.some.inj hsell]
  exact h _ _ _ hbuy

/-! ## `find_opportunities` -/

/-- The opportunities of one symbol, as directed edges from the exchange to buy on to the exchange to
sell on. -/
def Route (opps : List Opportunity) (symbol : String) : String → String → Prop :=
  TradeGraph.Edge (·.buyExchange) (·.sellExchange) {opp | opp ∈ opps ∧ opp.symbol = symbol}

/-- In an uncrossed market, what a scan returns for one symbol in paper mode has no cycle of any
length, and no two opposite routes. -/
theorem findOpportunities_acyclic {cfg} (paper : cfg.mode = .paper) (fees : FeesNonneg cfg) {market}
    (clock) (uncrossed : Uncrossed cfg (clockMs (clock 0)) market) (engine) :
    ∃ opps engine', findOpportunities cfg engine market clock = (.ok opps, engine') ∧
      ∀ symbol, (∀ exchange, ¬Relation.TransGen (Route opps symbol) exchange exchange) ∧
        ∀ a b, Route opps symbol a b → ¬Route opps symbol b a := by
  have live : cfg.mode ≠ .dryRun := by rw [paper]; exact nofun
  obtain ⟨opps, engine', e⟩ := findOpportunities_total fees engine market clock
  refine ⟨opps, engine', e, fun symbol => ?_⟩
  have gain : ∀ opp ∈ {opp | opp ∈ opps ∧ opp.symbol = symbol}, opp.buyPrice < opp.sellPrice := by
    rintro opp ⟨hopp, _⟩
    obtain ⟨j, timestampMs, hfound, rfl⟩ := findOpportunities_found e hopp
    exact hfound.passes.gain fees live
  have meet : ∀ opp ∈ {opp | opp ∈ opps ∧ opp.symbol = symbol},
      ∀ opp' ∈ {opp | opp ∈ opps ∧ opp.symbol = symbol},
        opp.sellExchange = opp'.buyExchange → opp.sellPrice ≤ opp'.buyPrice := by
    rintro opp ⟨hopp, hsymbol⟩ opp' ⟨hopp', hsymbol'⟩ meets
    obtain ⟨j, timestampMs, hfound, rfl⟩ := findOpportunities_found e hopp
    obtain ⟨j', timestampMs', hfound', rfl⟩ := findOpportunities_found e hopp'
    have hle := uncrossed _ hfound.mem _ hfound'.mem (hsymbol.trans hsymbol'.symm) meets
    rw [← (legsOf_prices cfg j.1 j.2.1 j.2.2).2, ← (legsOf_prices cfg j'.1 j'.2.1 j'.2.2).1] at hle
    exact hle
  have acyclic : ∀ exchange, ¬Relation.TransGen (Route opps symbol) exchange exchange :=
    TradeGraph.not_cycle gain meet
  refine ⟨acyclic, fun a b there back => acyclic a ?_⟩
  exact .tail (.single there) back

/-- The sample market is uncrossed, and the default configuration finds a route in it. -/
theorem findOpportunities_acyclic_sample :
    ∃ opps engine', findOpportunities defaultConfig (init defaultConfig) sampleMarket (fun _ => 1) =
        (.ok opps, engine') ∧
      opps.map routeOf = [("BTC/USDT", "binance", "bybit")] ∧
      ∀ exchange, ¬Relation.TransGen (Route opps "BTC/USDT") exchange exchange := by
  have uncrossed : Uncrossed defaultConfig (clockMs 1) sampleMarket := by
    refine uncrossed_of_keyed keyed_sampleMarket _ fun exchange symbol snap h => ?_
    rcases snapshotAt_sampleMarket h with ⟨_, rfl⟩ | ⟨_, rfl⟩
    · decide +kernel
    · decide +kernel
  obtain ⟨opps, engine', e, acyclic⟩ :=
    findOpportunities_acyclic rfl feesNonneg_default (fun _ => 1) uncrossed (init defaultConfig)
  exact ⟨opps, engine', e, routes_sampleMarket e, (acyclic "BTC/USDT").1⟩

end ArbBot.OpportunityEngine
