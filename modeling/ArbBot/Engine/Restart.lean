import ArbBot.Engine.Order
import Mathlib.Tactic.FieldSimp

/-!
# A restart is forgotten

All that the engine carries from one scan into the judgements of the next are the slippage averages. Two
engines with any two states, say one that has just been started and one that has run for long, are fed
the same cycles: in each cycle that pairs an exchange, the `gap` between its averages shrinks to 9/16 at
most (`gap_run`), since a pair is visited in both directions. The gaps of the averages bound those of the
slippages, the thresholds and the net spreads (`legs_gap`, `threshold_gap`, `netSpreadPct_sub_le`), so
that a route which clears its threshold by enough is found by both engines (`Passes.of_near`).
`restart_forgotten` puts these together.
-/

namespace ArbBot.OpportunityEngine

/-! ## The gap between two averages -/

/-- How far the averages of an exchange are apart. -/
def gap (cfg : BotConfig) (ewma ewma' : OrdDict String ℚ) (exchange : String) : ℚ :=
  |ewma.getD exchange cfg.slippagePct - ewma'.getD exchange cfg.slippagePct|

lemma gap_nonneg (cfg ewma ewma' exchange) : 0 ≤ gap cfg ewma ewma' exchange := abs_nonneg _

/-- With each observation of an exchange, the gap shrinks to three quarters. -/
lemma gap_averagesAfter (cfg ewma ewma' exchange) (v : List Pair) :
    gap cfg (averagesAfter cfg ewma v) (averagesAfter cfg ewma' v) exchange ≤
      (3 / 4) ^ (observations exchange v).length * gap cfg ewma ewma' exchange := by
  have after : ∀ ewma, (averagesAfter cfg ewma v).getD exchange cfg.slippagePct =
      smoothAll (1 / 4) (observations exchange v) (ewma.getD exchange cfg.slippagePct) := by
    intro ewma
    rw [OrdDict.getD, get?_averagesAfter]
    split
    case isTrue none => rw [none]; rfl
    case isFalse => rfl
  have quarter : (3 / 4 : ℚ) = 1 - 1 / 4 := by norm_num
  rw [gap, after, after, quarter]
  exact abs_smoothAll_sub_le (by norm_num) ..

/-- No visit widens the gap. -/
lemma gap_averagesAfter_le (cfg ewma ewma' exchange) (v : List Pair) :
    gap cfg (averagesAfter cfg ewma v) (averagesAfter cfg ewma' v) exchange ≤
      gap cfg ewma ewma' exchange := by
  refine (gap_averagesAfter ..).trans (mul_le_of_le_one_left (gap_nonneg ..) ?_)
  exact pow_le_one₀ (by norm_num) (by norm_num)

/-! ## Cycles -/

/-- The exchange has a fresh snapshot beside a fresh one of another exchange. -/
def paired (cfg : BotConfig) (exchange : String) (cycle : Cycle) : Bool :=
  (visits cfg (clockMs (cycle.clock 0)) cycle.market).any fun p => p.1.exchange = exchange

lemma swap_mem_visits {cfg nowMs market} {p : Pair} (h : p ∈ visits cfg nowMs market) :
    p.swap ∈ visits cfg nowMs market := by
  obtain ⟨symbol, mem, buy, sell, differ⟩ := mem_visits.1 h
  exact mem_visits.2 ⟨symbol, mem, sell, buy, differ.symm⟩

/-- An exchange that is paired is observed twice: as a place to buy, and as a place to sell. -/
lemma two_le_observations {cfg exchange} {cycle : Cycle} (h : paired cfg exchange cycle = true) :
    2 ≤ (observations exchange (visits cfg (clockMs (cycle.clock 0)) cycle.market)).length := by
  obtain ⟨p, mem, here⟩ := List.any_eq_true.1 h
  have here := of_decide_eq_true here
  obtain ⟨_, _, _, _, differ⟩ := mem_visits.1 mem
  have distinct : [p, p.swap].Nodup := by
    rw [List.nodup_cons, List.mem_singleton]
    refine ⟨fun same => differ ?_, List.nodup_singleton _⟩
    rw [same]
    exact congrArg (fun q : Pair => q.2.exchange) same
  have both : [p, p.swap] ⊆ visits cfg (clockMs (cycle.clock 0)) cycle.market := by
    refine List.cons_subset.2 ⟨mem, List.cons_subset.2 ⟨swap_mem_visits mem, List.nil_subset _⟩⟩
  obtain ⟨some, perm, sub⟩ := List.subperm_of_subset distinct both
  have count : (observations exchange [p, p.swap]).length = 2 := by
    have away : ¬p.2.exchange = exchange := fun e => differ (here.trans e.symm)
    simp [observations, updatesOf, here, away]
  rw [← count, ← (observations_perm exchange perm).length_eq]
  exact (((sub.flatMap _).filter _).map _).length_le

/-- One cycle of two engines. -/
lemma gap_next {cfg} (fees : FeesNonneg cfg) (a b : OpportunityEngine) (cycle : Cycle) (exchange) :
    gap cfg ((machine cfg).next a cycle).exchangeSlippageEwmaPct
        ((machine cfg).next b cycle).exchangeSlippageEwmaPct exchange ≤
      (9 / 16) ^ (if paired cfg exchange cycle then 1 else 0) *
        gap cfg a.exchangeSlippageEwmaPct b.exchangeSlippageEwmaPct exchange := by
  have after : ∀ engine : OpportunityEngine, ((machine cfg).next engine cycle).exchangeSlippageEwmaPct =
      averagesAfter cfg engine.exchangeSlippageEwmaPct
        (visits cfg (clockMs (cycle.clock 0)) cycle.market) := by
    intro engine
    obtain ⟨opps, engine', e⟩ := findOpportunities_total fees engine cycle.market cycle.clock
    have next := congrArg Prod.snd e
    rw [findOpportunities_eq] at next
    rw [show (machine cfg).next engine cycle = engine' from next]
    exact (findOpportunities_ok e).2.1
  rw [after, after]
  refine (gap_averagesAfter ..).trans (mul_le_mul_of_nonneg_right ?_ (gap_nonneg ..))
  split
  case isTrue h =>
    calc ((3 : ℚ) / 4) ^ (observations exchange (visits cfg (clockMs (cycle.clock 0)) cycle.market)).length
        ≤ (3 / 4) ^ 2 :=
          pow_le_pow_of_le_one (by norm_num) (by norm_num) (two_le_observations h)
      _ = (9 / 16) ^ 1 := by norm_num
  case isFalse =>
    rw [pow_zero]
    exact pow_le_one₀ (by norm_num) (by norm_num)

/-- Over a run, the gap shrinks geometrically with the cycles that pair the exchange. -/
lemma gap_run {cfg} (fees : FeesNonneg cfg) (a b : OpportunityEngine) (cycles : List Cycle) (exchange) :
    gap cfg ((machine cfg).run a cycles).exchangeSlippageEwmaPct
        ((machine cfg).run b cycles).exchangeSlippageEwmaPct exchange ≤
      (9 / 16) ^ cycles.countP (paired cfg exchange) *
        gap cfg a.exchangeSlippageEwmaPct b.exchangeSlippageEwmaPct exchange := by
  induction cycles generalizing a b with
  | nil =>
    rw [List.countP_nil, pow_zero, one_mul]
    exact le_rfl
  | cons cycle cycles ih =>
    refine (ih _ _).trans ?_
    rw [List.countP_cons, pow_add, mul_assoc]
    exact mul_le_mul_of_nonneg_left (gap_next fees a b cycle exchange) (by positivity)

/-! ## One pair -/

/-- Both averages of both exchanges are known, as they are after a visit of the pair. -/
structure Observed (ewma ewma' : OrdDict String ℚ) (p : Pair) : Prop where
  buy : p.1.exchange ∈ ewma.keys ∧ p.1.exchange ∈ ewma'.keys
  sell : p.2.exchange ∈ ewma.keys ∧ p.2.exchange ∈ ewma'.keys

lemma getD_of_mem {d : OrdDict String ℚ} {k} (h : k ∈ d.keys) (v w : ℚ) : d.getD k v = d.getD k w := by
  obtain ⟨x, e⟩ := OrdDict.mem_keys.1 h
  rw [OrdDict.getD, OrdDict.getD, e]
  rfl

lemma observed_averagesAfter (cfg ewma ewma') (pre : List Pair) (p : Pair) :
    Observed (averagesAfter cfg ewma (pre ++ [p])) (averagesAfter cfg ewma' (pre ++ [p])) p := by
  have known : ∀ ewma exchange, exchange = p.1.exchange ∨ exchange = p.2.exchange →
      exchange ∈ (averagesAfter cfg ewma (pre ++ [p])).keys := by
    intro ewma exchange h
    have mem : p ∈ pre ++ [p] := List.mem_append_right _ (List.mem_singleton_self p)
    have some := (get?_averagesAfter cfg ewma exchange (pre ++ [p])).trans
      (if_neg (observations_ne_nil_of_mem mem h))
    exact OrdDict.mem_keys_of_get? some
  exact ⟨⟨known _ _ (.inl rfl), known _ _ (.inl rfl)⟩, ⟨known _ _ (.inr rfl), known _ _ (.inr rfl)⟩⟩

section Gaps

variable {cfg : BotConfig} {ewma ewma' : OrdDict String ℚ} {p : Pair}

lemma select_gap {exchange} (known : exchange ∈ ewma.keys ∧ exchange ∈ ewma'.keys) (observed) :
    |selectSlippagePct cfg ewma exchange observed - selectSlippagePct cfg ewma' exchange observed| ≤
      gap cfg ewma ewma' exchange := by
  unfold selectSlippagePct
  dsimp only
  split
  · generalize max (max 0 cfg.slippagePct) observed = base
    rw [gap, getD_of_mem known.1 cfg.slippagePct 0, getD_of_mem known.2 cfg.slippagePct 0]
    refine (abs_max_sub_max_le_max ..).trans (max_le ?_ le_rfl)
    rw [sub_self, abs_zero]
    exact abs_nonneg _
  · rw [sub_self, abs_zero]
    exact gap_nonneg ..

/-- The slippages of the two legs are as far apart as the averages, at most. -/
lemma legs_gap (obs : Observed ewma ewma' p) :
    |(legsOf cfg ewma p.1 p.2).buySlippagePct - (legsOf cfg ewma' p.1 p.2).buySlippagePct| ≤
        gap cfg ewma ewma' p.1.exchange ∧
      |(legsOf cfg ewma p.1 p.2).sellSlippagePct - (legsOf cfg ewma' p.1 p.2).sellSlippagePct| ≤
        gap cfg ewma ewma' p.2.exchange := by
  have maker : ∀ exchange, |(0 : ℚ) - 0| ≤ gap cfg ewma ewma' exchange := fun exchange => by
    rw [sub_self, abs_zero]
    exact gap_nonneg ..
  unfold legsOf
  split
  case isTrue =>
    split
    case isTrue => exact ⟨select_gap obs.buy _, maker _⟩
    case isFalse => exact ⟨maker _, select_gap obs.sell _⟩
  case isFalse => exact ⟨select_gap obs.buy _, select_gap obs.sell _⟩

/-- The thresholds are apart by the buffer ratio of both gaps, at most. -/
lemma threshold_gap (obs : Observed ewma ewma' p) :
    |thresholdPct cfg ewma (legsOf cfg ewma p.1 p.2) p.1 p.2 -
        thresholdPct cfg ewma' (legsOf cfg ewma' p.1 p.2) p.1 p.2| ≤
      |cfg.autoThresholdCostBufferRatio| *
        (gap cfg ewma ewma' p.1.exchange + gap cfg ewma ewma' p.2.exchange) := by
  obtain ⟨buy, sell⟩ := @legs_gap cfg _ _ _ obs
  have fees : (legsOf cfg ewma' p.1 p.2).buyFee = (legsOf cfg ewma p.1 p.2).buyFee ∧
      (legsOf cfg ewma' p.1 p.2).sellFee = (legsOf cfg ewma p.1 p.2).sellFee := by
    rw [legsOf_slippages cfg ewma ewma']
    exact ⟨rfl, rfl⟩
  have nonneg : 0 ≤ |cfg.autoThresholdCostBufferRatio| *
      (gap cfg ewma ewma' p.1.exchange + gap cfg ewma ewma' p.2.exchange) :=
    mul_nonneg (abs_nonneg _) (add_nonneg (gap_nonneg ..) (gap_nonneg ..))
  generalize legsOf cfg ewma p.1 p.2 = legs at *
  generalize legsOf cfg ewma' p.1 p.2 = legs' at *
  unfold thresholdPct effectiveDynamicThreshold
  dsimp only
  split
  case isFalse =>
    rw [sub_self, abs_zero]
    exact nonneg
  case isTrue =>
    have buyRt := (abs_max_sub_max_le_max legs.buySlippagePct (ewma.getD p.1.exchange cfg.slippagePct)
      legs'.buySlippagePct (ewma'.getD p.1.exchange cfg.slippagePct)).trans (max_le buy le_rfl)
    have sellRt := (abs_max_sub_max_le_max legs.sellSlippagePct
      (ewma.getD p.2.exchange cfg.slippagePct) legs'.sellSlippagePct
      (ewma'.getD p.2.exchange cfg.slippagePct)).trans (max_le sell le_rfl)
    rw [fees.1, fees.2]
    generalize max legs.buySlippagePct _ = b at *
    generalize max legs'.buySlippagePct _ = b' at *
    generalize max legs.sellSlippagePct _ = s at *
    generalize max legs'.sellSlippagePct _ = s' at *
    -- the two maxima with the base threshold and the floor bring no more than the costs are apart
    refine (abs_max_sub_max_le_max ..).trans (max_le ?_ ((abs_max_sub_max_le_max ..).trans
      (max_le ?_ ?_)))
    · rw [sub_self, abs_zero]
      exact nonneg
    · rw [sub_self, abs_zero]
      exact nonneg
    · rw [← sub_mul, abs_mul, mul_comm]
      refine mul_le_mul_of_nonneg_left ?_ (abs_nonneg _)
      have apart : (legs.buyFee + legs.sellFee) * 100 + b + s -
          ((legs.buyFee + legs.sellFee) * 100 + b' + s') = b - b' + (s - s') := by ring
      rw [apart]
      exact (abs_add_le _ _).trans (add_le_add buyRt sellRt)

end Gaps

/-- A quotient whose denominator is at least one moves no more than its two parts. -/
lemma div_sub_div_le {u v u' v' : ℚ} (hu : 0 ≤ u) (hu' : u ≤ 1) (hv : 1 ≤ v) (hv' : 1 ≤ v') :
    u / v - u' / v' ≤ |u - u'| + |v - v'| := by
  have pos : 0 < v := zero_lt_one.trans_le hv
  have pos' : 0 < v' := zero_lt_one.trans_le hv'
  have split : u / v - u' / v' = (u - u') / v' + u / v * ((v' - v) / v') := by
    field_simp
    ring
  have part : u / v ≤ 1 := (div_le_one pos).2 (hu'.trans hv)
  have moved : ∀ x : ℚ, x / v' ≤ |x| := by
    intro x
    refine (div_le_iff₀ pos').2 ((le_abs_self x).trans ?_)
    exact le_mul_of_one_le_right (abs_nonneg x) hv'
  rw [split]
  refine add_le_add (moved _) ?_
  calc u / v * ((v' - v) / v') ≤ u / v * |v' - v| :=
        mul_le_mul_of_nonneg_left (moved _) (div_nonneg hu pos.le)
    _ ≤ |v' - v| := mul_le_of_le_one_left (abs_nonneg _) part
    _ = |v - v'| := abs_sub_comm _ _

/-- At other slippages, the net spread of a gainful pair is no more than so far below. -/
lemma netSpreadPct_sub_le {legs : Legs} {buySlip sellSlip : ℚ} (buyPrice : 0 < legs.buyPrice)
    (sellPrice : 0 < legs.sellPrice) (fees : 0 ≤ legs.buyFee ∧ 0 ≤ legs.sellFee)
    (slips : 0 ≤ legs.buySlippagePct ∧ 0 ≤ legs.sellSlippagePct) (hbuySlip : 0 ≤ buySlip)
    (gain : 0 ≤ legs.netSell) :
    legs.netSpreadPct -
        { legs with buySlippagePct := buySlip, sellSlippagePct := sellSlip : Legs }.netSpreadPct ≤
      legs.sellPrice / legs.buyPrice *
        (|legs.buySlippagePct - buySlip| + |legs.sellSlippagePct - sellSlip|) := by
  obtain ⟨buyFee, sellFee⟩ := fees
  obtain ⟨buySlips, sellSlips⟩ := slips
  have hv : 1 ≤ 1 + legs.buyFee + legs.buySlippagePct / 100 := by linarith
  have hv' : 1 ≤ 1 + legs.buyFee + buySlip / 100 := by linarith
  have hu' : 1 - legs.sellFee - legs.sellSlippagePct / 100 ≤ 1 := by linarith
  have hu : 0 ≤ 1 - legs.sellFee - legs.sellSlippagePct / 100 :=
    nonneg_of_mul_nonneg_right gain sellPrice
  have moved := @div_sub_div_le _ _ (1 - legs.sellFee - sellSlip / 100) _ hu hu' hv hv'
  have apart : ∀ c x y : ℚ, |c + x / 100 - (c + y / 100)| = |x - y| / 100 := by
    intro c x y
    rw [add_sub_add_left_eq_sub, ← sub_div, abs_div, abs_of_pos (by norm_num : (0 : ℚ) < 100)]
  have apart' : ∀ c x y : ℚ, |c - x / 100 - (c - y / 100)| = |x - y| / 100 := by
    intro c x y
    rw [sub_sub_sub_cancel_left, ← sub_div, abs_div, abs_of_pos (by norm_num : (0 : ℚ) < 100),
      abs_sub_comm]
  rw [apart, apart'] at moved
  -- the net spread is a multiple of what a unit brings over what it costs
  have spread : ∀ u v : ℚ, 0 < v → (legs.sellPrice * u - legs.buyPrice * v) / (legs.buyPrice * v) * 100 =
      (legs.sellPrice / legs.buyPrice * (u / v) - 1) * 100 := by
    intro u v pos
    have ne := buyPrice.ne'
    field_simp
  simp only [Legs.netSpreadPct, Legs.netSell, Legs.netBuy]
  rw [spread _ _ (zero_lt_one.trans_le hv), spread _ _ (zero_lt_one.trans_le hv')]
  generalize (1 - legs.sellFee - legs.sellSlippagePct / 100) /
    (1 + legs.buyFee + legs.buySlippagePct / 100) = r at *
  generalize (1 - legs.sellFee - sellSlip / 100) / (1 + legs.buyFee + buySlip / 100) = r' at *
  have ratio : 0 ≤ legs.sellPrice / legs.buyPrice := (div_pos sellPrice buyPrice).le
  have scaled := mul_le_mul_of_nonneg_left moved ratio
  linarith

lemma gain_of_spread {legs : Legs} (netBuy : 0 < legs.netBuy) (spread : 0 < legs.netSpreadPct) :
    0 < legs.netSell - legs.netBuy :=
  (div_pos_iff_of_pos_right netBuy).1 (pos_of_mul_pos_left spread (by norm_num))

/-- What a judgement by other averages may change of an opportunity, where these are no further away than
the two gaps. -/
structure Near (cfg : BotConfig) (buyGap sellGap : ℚ) (opp opp' : Opportunity) : Prop where
  route : routeOf opp' = routeOf opp
  quantity : opp'.quantity = opp.quantity
  prices : opp'.buyPrice = opp.buyPrice ∧ opp'.sellPrice = opp.sellPrice
  fees : opp'.buyFeePct = opp.buyFeePct ∧ opp'.sellFeePct = opp.sellFeePct
  buySlippage : |opp.buySlippagePct - opp'.buySlippagePct| ≤ buyGap
  sellSlippage : |opp.sellSlippagePct - opp'.sellSlippagePct| ≤ sellGap
  threshold : |opp.dynamicThresholdPct - opp'.dynamicThresholdPct| ≤
    |cfg.autoThresholdCostBufferRatio| * (buyGap + sellGap)
  spread : |opp.netSpreadPct - opp'.netSpreadPct| ≤
    opp.sellPrice / opp.buyPrice * (buyGap + sellGap)

/-- The opportunity clears its threshold by so much that the two gaps cannot lift the one to the other. -/
def Clear (cfg : BotConfig) (buyGap sellGap : ℚ) (opp : Opportunity) : Prop :=
  (opp.sellPrice / opp.buyPrice + |cfg.autoThresholdCostBufferRatio|) * (buyGap + sellGap) ≤
    opp.netSpreadPct - opp.dynamicThresholdPct

section Judgement

variable {cfg : BotConfig} {ewma ewma' : OrdDict String ℚ} {p : Pair} {buyGap sellGap : ℚ}

/-- By other averages, the net spread of a pair that passes is no more than so far below. -/
lemma Passes.spread_sub_le (fees : FeesNonneg cfg) (floor : 0 < cfg.minNetSpreadPct)
    (pass : Passes cfg ewma p.1 p.2)
    (buy : |(legsOf cfg ewma p.1 p.2).buySlippagePct - (legsOf cfg ewma' p.1 p.2).buySlippagePct| ≤ buyGap)
    (sell : |(legsOf cfg ewma p.1 p.2).sellSlippagePct - (legsOf cfg ewma' p.1 p.2).sellSlippagePct| ≤
      sellGap) :
    (legsOf cfg ewma p.1 p.2).netSpreadPct - (legsOf cfg ewma' p.1 p.2).netSpreadPct ≤
      (legsOf cfg ewma p.1 p.2).sellPrice / (legsOf cfg ewma p.1 p.2).buyPrice * (buyGap + sellGap) := by
  have legs := legsOf_slippages cfg ewma ewma' p.1 p.2
  have base := minNetSpreadPct_le_thresholdPct cfg ewma (legsOf cfg ewma p.1 p.2) p.1 p.2
  have gain := gain_of_spread (netBuy_pos fees pass.buyPrice) (floor.trans_le (base.trans pass.spread))
  have spread := @netSpreadPct_sub_le _ _ (legsOf cfg ewma' p.1 p.2).sellSlippagePct
    pass.buyPrice pass.sellPrice (legsOf_fee_nonneg fees ewma p.1 p.2)
    (legsOf_slippage_nonneg cfg ewma p.1 p.2) (legsOf_slippage_nonneg cfg ewma' p.1 p.2).1
    ((netBuy_pos fees pass.buyPrice).trans (sub_pos.1 gain)).le
  rw [← legs] at spread
  have ratio : 0 ≤ (legsOf cfg ewma p.1 p.2).sellPrice / (legsOf cfg ewma p.1 p.2).buyPrice :=
    (div_pos pass.sellPrice pass.buyPrice).le
  exact spread.trans (mul_le_mul_of_nonneg_left (add_le_add buy sell) ratio)

/-- A pair that passes by both averages is judged nearly alike. -/
lemma Passes.near (fees : FeesNonneg cfg) (floor : 0 < cfg.minNetSpreadPct)
    (obs : Observed ewma ewma' p) (pass : Passes cfg ewma p.1 p.2) (pass' : Passes cfg ewma' p.1 p.2)
    (buy : gap cfg ewma ewma' p.1.exchange ≤ buyGap)
    (sell : gap cfg ewma ewma' p.2.exchange ≤ sellGap) (timestampMs timestampMs') :
    Near cfg buyGap sellGap (opportunityFor cfg timestampMs (ewma, p))
      (opportunityFor cfg timestampMs' (ewma', p)) := by
  have legs := legsOf_slippages cfg ewma ewma' p.1 p.2
  have slips := @legs_gap cfg _ _ _ obs
  have hthreshold := @threshold_gap cfg _ _ _ obs
  have buySlips := slips.1.trans buy
  have sellSlips := slips.2.trans sell
  refine ⟨rfl, ?_, ?_, ?_, buySlips, sellSlips, ?_, ?_⟩
  · show OpportunityEngine.quantity cfg (legsOf cfg ewma' p.1 p.2) p.1 p.2 = _
    rw [legs]
    rfl
  · show (legsOf cfg ewma' p.1 p.2).buyPrice = _ ∧ (legsOf cfg ewma' p.1 p.2).sellPrice = _
    rw [legs]
    exact ⟨rfl, rfl⟩
  · show (legsOf cfg ewma' p.1 p.2).buyFee * 100 = _ ∧ (legsOf cfg ewma' p.1 p.2).sellFee * 100 = _
    rw [legs]
    exact ⟨rfl, rfl⟩
  · exact hthreshold.trans (mul_le_mul_of_nonneg_left (add_le_add buy sell) (abs_nonneg _))
  · -- each of the two spreads is no more than so far below the other one
    have below := pass.spread_sub_le fees floor buySlips sellSlips
    rw [abs_sub_comm] at buySlips sellSlips
    have above := pass'.spread_sub_le fees floor buySlips sellSlips
    have prices : (legsOf cfg ewma' p.1 p.2).sellPrice / (legsOf cfg ewma' p.1 p.2).buyPrice =
        (legsOf cfg ewma p.1 p.2).sellPrice / (legsOf cfg ewma p.1 p.2).buyPrice := by
      rw [legs]
    rw [prices] at above
    exact abs_sub_le_iff.2 ⟨below, above⟩

/-- A pair that clears its threshold by enough passes by the other averages, too. -/
lemma Passes.of_clear (fees : FeesNonneg cfg) (floor : 0 < cfg.minNetSpreadPct)
    (obs : Observed ewma ewma' p) (pass : Passes cfg ewma p.1 p.2)
    (buy : gap cfg ewma ewma' p.1.exchange ≤ buyGap)
    (sell : gap cfg ewma ewma' p.2.exchange ≤ sellGap) {timestampMs}
    (clear : Clear cfg buyGap sellGap (opportunityFor cfg timestampMs (ewma, p))) :
    Passes cfg ewma' p.1 p.2 := by
  have legs := legsOf_slippages cfg ewma ewma' p.1 p.2
  have slips := @legs_gap cfg _ _ _ obs
  have hthreshold := (@threshold_gap cfg _ _ _ obs).trans
    (mul_le_mul_of_nonneg_left (add_le_add buy sell) (abs_nonneg _))
  have spread : thresholdPct cfg ewma' (legsOf cfg ewma' p.1 p.2) p.1 p.2 ≤
      (legsOf cfg ewma' p.1 p.2).netSpreadPct := by
    have below := pass.spread_sub_le fees floor (slips.1.trans buy) (slips.2.trans sell)
    have above := (abs_sub_le_iff.1 hthreshold).2
    rw [Clear, add_mul] at clear
    dsimp only [opportunityFor, opportunityOf] at clear
    linarith
  have buyPrice : 0 < (legsOf cfg ewma' p.1 p.2).buyPrice := by
    rw [legs]
    exact pass.buyPrice
  have netBuy := netBuy_pos fees buyPrice
  have size : OpportunityEngine.quantity cfg (legsOf cfg ewma' p.1 p.2) p.1 p.2 =
      OpportunityEngine.quantity cfg (legsOf cfg ewma p.1 p.2) p.1 p.2 := by
    rw [legs]
    rfl
  have base := minNetSpreadPct_le_thresholdPct cfg ewma' (legsOf cfg ewma' p.1 p.2) p.1 p.2
  exact
    { depth := by
        rw [legs]
        exact pass.depth
      buyPrice
      sellPrice := by
        rw [legs]
        exact pass.sellPrice
      netBuy := netBuy.ne'
      spread
      quantity := size ▸ pass.quantity
      notional := by
        rw [size, legs]
        exact pass.notional
      profit := .inl (mul_pos (size ▸ pass.quantity)
        (gain_of_spread netBuy (floor.trans_le (base.trans spread)))) }

end Judgement

/-! ## Two engines -/

/-- What is left, after some cycles, of the gap between the averages that two engines started with. -/
def leftGap (cfg : BotConfig) (a b : OpportunityEngine) (cycles : List Cycle) (exchange : String) : ℚ :=
  (9 / 16) ^ cycles.countP (paired cfg exchange) *
    gap cfg a.exchangeSlippageEwmaPct b.exchangeSlippageEwmaPct exchange

/-- A restart is forgotten. With non-negative fees and a positive base threshold, two engines with any
two states are fed the same cycles. In each cycle that pairs an exchange, the gap between its averages
shrinks to 9/16; and what the first engine then returns and clears its threshold by enough for what is
left of the gaps, the second returns too, at the same prices, size and fees, with its slippages,
its threshold and its net spread no further away than these gaps account for. -/
theorem restart_forgotten {cfg} (fees : FeesNonneg cfg) (floor : 0 < cfg.minNetSpreadPct)
    (a b : OpportunityEngine) (cycles : List Cycle) :
    (∀ exchange, gap cfg ((machine cfg).run a cycles).exchangeSlippageEwmaPct
      ((machine cfg).run b cycles).exchangeSlippageEwmaPct exchange ≤ leftGap cfg a b cycles exchange) ∧
    ∀ cycle, ∃ opps opps', (machine cfg).out ((machine cfg).run a cycles) cycle = .ok opps ∧
      (machine cfg).out ((machine cfg).run b cycles) cycle = .ok opps' ∧
      ∀ opp ∈ opps, Clear cfg (leftGap cfg a b cycles opp.buyExchange)
          (leftGap cfg a b cycles opp.sellExchange) opp →
        ∃ opp' ∈ opps', Near cfg (leftGap cfg a b cycles opp.buyExchange)
          (leftGap cfg a b cycles opp.sellExchange) opp opp' := by
  have left : ∀ exchange, gap cfg ((machine cfg).run a cycles).exchangeSlippageEwmaPct
      ((machine cfg).run b cycles).exchangeSlippageEwmaPct exchange ≤ leftGap cfg a b cycles exchange :=
    gap_run fees a b cycles
  refine ⟨left, fun cycle => ?_⟩
  generalize (machine cfg).run a cycles = a' at left ⊢
  generalize (machine cfg).run b cycles = b' at left ⊢
  obtain ⟨opps, next, call⟩ := findOpportunities_total fees a' cycle.market cycle.clock
  obtain ⟨opps', next', call'⟩ := findOpportunities_total fees b' cycle.market cycle.clock
  refine ⟨opps, opps', congrArg Prod.fst call, congrArg Prod.fst call', fun opp mem clear => ?_⟩
  obtain ⟨⟨_, p⟩, timestampMs, ⟨⟨pre, post, visited, averages⟩, pass⟩, rfl⟩ :=
    findOpportunities_found call mem
  dsimp only at averages pass
  subst averages
  have gaps : ∀ exchange, gap cfg (averagesAfter cfg a'.exchangeSlippageEwmaPct (pre ++ [p]))
      (averagesAfter cfg b'.exchangeSlippageEwmaPct (pre ++ [p])) exchange ≤
        leftGap cfg a b cycles exchange :=
    fun exchange => (gap_averagesAfter_le ..).trans (left exchange)
  have obs := observed_averagesAfter cfg a'.exchangeSlippageEwmaPct b'.exchangeSlippageEwmaPct pre p
  have pass' := pass.of_clear fees floor obs (gaps _) (gaps _) clear
  obtain ⟨timestampMs', mem'⟩ := findOpportunities_of_found call'
    (j := (averagesAfter cfg b'.exchangeSlippageEwmaPct (pre ++ [p]), p)) ⟨⟨pre, post, visited, rfl⟩, pass'⟩
  exact ⟨_, mem', pass.near fees floor obs pass' (gaps _) (gaps _) _ _⟩

/-- An engine that has seen high impacts on both exchanges of the sample market. -/
def wornEngine : OpportunityEngine :=
  { init defaultConfig with
    exchangeSlippageEwmaPct := (OrdDict.empty.set "binance" 2).set "bybit" 2 }

/-- It finds nothing at first. After four cycles of the sample market it finds what a new engine does. -/
theorem restart_forgotten_sample :
    (machine defaultConfig).out wornEngine sampleCycle = .ok [] ∧
      ∃ opps', (machine defaultConfig).out
          ((machine defaultConfig).run wornEngine (List.replicate 4 sampleCycle)) sampleCycle =
            .ok opps' ∧
        ∃ opp' ∈ opps', routeOf opp' = ("BTC/USDT", "binance", "bybit") := by
  have silent : ((machine defaultConfig).out wornEngine sampleCycle).toOption.any (· = []) = true := by
    decide +kernel
  obtain ⟨none, e, empty⟩ := Loop.exists_ok_of_any silent
  obtain ⟨opps, opps', out, out', near⟩ := (restart_forgotten feesNonneg_default (by decide +kernel)
    (init defaultConfig) wornEngine (List.replicate 4 sampleCycle)).2 sampleCycle
  have clear : ((machine defaultConfig).out ((machine defaultConfig).run (init defaultConfig)
      (List.replicate 4 sampleCycle)) sampleCycle).toOption.any fun opps => opps.any fun opp =>
        routeOf opp = ("BTC/USDT", "binance", "bybit") ∧
        (opp.sellPrice / opp.buyPrice + |defaultConfig.autoThresholdCostBufferRatio|) *
          (leftGap defaultConfig (init defaultConfig) wornEngine (List.replicate 4 sampleCycle)
              opp.buyExchange +
            leftGap defaultConfig (init defaultConfig) wornEngine (List.replicate 4 sampleCycle)
              opp.sellExchange) ≤ opp.netSpreadPct - opp.dynamicThresholdPct := by
    decide +kernel
  rw [out] at clear
  obtain ⟨opp, mem, h⟩ := List.any_eq_true.1 clear
  obtain ⟨route, clear⟩ := of_decide_eq_true h
  obtain ⟨opp', mem', hnear⟩ := near opp mem clear
  have none_eq : none = [] := of_decide_eq_true empty
  exact ⟨none_eq ▸ e, opps', out', opp', mem', hnear.route.trans route⟩

end ArbBot.OpportunityEngine
