import ArbBot.Engine.Filters
import Mathlib.Data.List.OffDiag

/-!
# No pair is lost or counted twice

What a scan counts. A snapshot is fresh, or it is counted as missing or stale
(`gatherRows_tallied`). A pair that is visited ends as an opportunity or under one of `pairReasons`,
and leaves a net spread unless it falls at the first two of them (`PairScanned.tallied`). A symbol
with fewer than two fresh snapshots is counted once and makes no pair (`scanSymbol_tallied`).
`Accounted` is the balance of a call in these terms, and `scan_accounts` says that every call of
every run keeps it and adds its counts to the totals.
-/

namespace ArbBot.OpportunityEngine

/-! ## Counts -/

/-- The reasons for which a snapshot is left out. -/
def rowReasons : List RejectReason := [.missingSnapshot, .staleSnapshot]

/-- The reasons for which a pair is rejected once its net spread is known. -/
def spreadReasons : List RejectReason :=
  [.netSpreadBelowAutoThreshold, .insufficientTradeSize, .nonPositiveExpectedProfit]

/-- The reasons for which a pair is rejected. -/
def pairReasons : List RejectReason := [.depthLiquidityMissing, .invalidPrice] ++ spreadReasons

lemma not_mem_rowReasons : ∀ reason ∈ pairReasons, reason ∉ rowReasons := by decide

lemma not_mem_pairReasons : ∀ reason ∈ rowReasons, reason ∉ pairReasons := by decide

/-- What was counted for some reasons together. -/
def tally (rejections : OrdDict RejectReason ℕ) (reasons : List RejectReason) : ℕ :=
  (reasons.map fun reason => rejections.getD reason 0).sum

lemma getD_count (rejections reason n reason') :
    (count rejections reason n).getD reason' 0 =
      rejections.getD reason' 0 + if reason' = reason then n else 0 := by
  rw [count, OrdDict.getD_set]
  split
  case isTrue h => rw [h]
  case isFalse => rfl

/-- Counting one more adds one for each place that the reason has among those tallied. -/
lemma tally_count (rejections reason) (reasons : List RejectReason) :
    tally (count rejections reason 1) reasons = tally rejections reasons + reasons.count reason := by
  induction reasons with
  | nil => rfl
  | cons reason' reasons ih =>
    simp only [tally, List.map_cons, List.sum_cons] at ih ⊢
    rw [ih, getD_count, List.count_cons]
    simp only [beq_iff_eq]
    omega

/-- The other reasons keep their counts. -/
lemma getD_count_of_ne {rejections : OrdDict RejectReason ℕ} {reason reason' n}
    {reasons : List RejectReason} (h : reason ∈ reasons) (h' : reason' ∉ reasons) :
    (count rejections reason n).getD reason' 0 = rejections.getD reason' 0 := by
  rw [getD_count, if_neg, add_zero]
  intro same
  exact h' (same ▸ h)

lemma tally_congr {rejections rejections' : OrdDict RejectReason ℕ} {reasons : List RejectReason}
    (h : ∀ reason ∈ reasons, rejections'.getD reason 0 = rejections.getD reason 0) :
    tally rejections' reasons = tally rejections reasons :=
  congrArg List.sum (List.map_congr_left h)

/-- Adding the counts of a cycle to the totals adds, for each reason, what the cycle counted. -/
lemma getD_totals (rejections totals : OrdDict RejectReason ℕ) (reason) :
    (rejections.entries.foldl (fun total (reason, n) => count total reason n) totals).getD reason 0 =
      totals.getD reason 0 + rejections.getD reason 0 := by
  obtain ⟨es, nodup⟩ := rejections
  show (es.foldl (fun total (reason, n) => count total reason n) totals).getD reason 0 =
    totals.getD reason 0 + (es.lookup reason).getD 0
  induction es generalizing totals with
  | nil => rfl
  | cons e es ih =>
    obtain ⟨reason', n⟩ := e
    rw [List.map_cons, List.nodup_cons] at nodup
    rw [List.foldl_cons, ih _ nodup.2, getD_count, OrdDict.lookup_cons_ite]
    by_cases h : reason = reason'
    · -- the reason does not come again
      have none : es.lookup reason = none := by
        rw [List.lookup_eq_none_iff]
        intro e he
        apply bne_iff_ne.2
        intro same
        exact nodup.1 (List.mem_map.2 ⟨e, he, same.symm.trans h⟩)
      rw [if_pos h, if_pos h, none]
      rfl
    · rw [if_neg h, if_neg h, add_zero]

/-! ## The rows of a symbol -/

/-- Some exchanges are asked for a row: each of them gives one or is counted. -/
structure RowsTallied (asked : ℕ)
    (gathered gathered' : List TickerSnapshot × OrdDict RejectReason ℕ) : Prop where
  rows : gathered'.1.length + tally gathered'.2 rowReasons =
    gathered.1.length + tally gathered.2 rowReasons + asked
  others : ∀ reason ∉ rowReasons, gathered'.2.getD reason 0 = gathered.2.getD reason 0

lemma RowsTallied.trans {n m a b c} (hab : RowsTallied n a b) (hbc : RowsTallied m b c) :
    RowsTallied (n + m) a c where
  rows := by rw [hbc.rows, hab.rows, add_assoc]
  others reason h := (hbc.others reason h).trans (hab.others reason h)

lemma gatherRow_tallied (cfg nowMs symbol gathered bySymbol) :
    RowsTallied 1 gathered (gatherRow cfg nowMs symbol gathered bySymbol) := by
  have counted : ∀ reason ∈ rowReasons, rowReasons.count reason = 1 →
      RowsTallied 1 gathered (gathered.1, count gathered.2 reason 1) := by
    intro reason hreason once
    refine ⟨?_, fun reason' h => getD_count_of_ne hreason h⟩
    rw [tally_count, once, add_assoc]
  unfold gatherRow
  cases bySymbol.get? symbol with
  | none => exact counted _ (by decide) rfl
  | some snap =>
    dsimp only
    split
    case isTrue stale => exact counted _ (by decide) rfl
    case isFalse fresh =>
      refine ⟨?_, fun _ _ => rfl⟩
      rw [List.length_append, List.length_singleton, add_right_comm]

/-- All exchanges are asked. -/
lemma gatherRows_tallied (cfg nowMs symbol) (market : Market) (rejections) :
    RowsTallied market.entries.length ([], rejections)
      (gatherRows cfg nowMs symbol market rejections) := by
  suffices h : ∀ (bySymbols : List (OrdDict String TickerSnapshot)) gathered,
      RowsTallied bySymbols.length gathered (bySymbols.foldl (gatherRow cfg nowMs symbol) gathered) by
    have tallied := h market.values ([], rejections)
    rw [OrdDict.values, List.length_map] at tallied
    exact tallied
  intro bySymbols
  induction bySymbols with
  | nil => exact fun _ => ⟨rfl, fun _ _ => rfl⟩
  | cons bySymbol bySymbols ih =>
    intro gathered
    rw [List.length_cons, Nat.add_comm]
    exact (gatherRow_tallied cfg nowMs symbol gathered bySymbol).trans (ih _)

/-! ## One pair -/

/-- The pairs that ended: as an opportunity, or under one of their reasons. -/
def ended (scan : Scan) : ℕ := scan.opportunities.length + tally scan.rejections pairReasons

/-- There is a net spread for each opportunity and each rejection that comes after it. -/
def Sampled (scan : Scan) : Prop :=
  scan.netSpreadSamples.length = scan.opportunities.length + tally scan.rejections spreadReasons

/-- A pair is rejected for one of its reasons, and with the net spread if that is known. -/
lemma assemble_rejected {cfg ewma timestampMs buyRow sellRow reason netSpreadPct}
    (e : assemble cfg ewma timestampMs buyRow sellRow = .ok (.rejected reason netSpreadPct)) :
    reason ∈ pairReasons ∧ netSpreadPct.toList.length = spreadReasons.count reason := by
  unfold assemble at e
  dsimp only at e
  split_ifs at e <;> cases e <;> exact ⟨by decide, rfl⟩

/-- A part of a scan visits some pairs: each of them ends once, and nothing else is counted. -/
structure Tallied (visited : List Pair) (scan scan' : Scan) : Prop where
  ended : ended scan' = ended scan + visited.length
  sampled : Sampled scan → Sampled scan'
  others : ∀ reason ∉ pairReasons, scan'.rejections.getD reason 0 = scan.rejections.getD reason 0

lemma Tallied.refl (scan) : Tallied [] scan scan where
  ended := rfl
  sampled := id
  others _ _ := rfl

lemma Tallied.trans {v w a b c} (hab : Tallied v a b) (hbc : Tallied w b c) :
    Tallied (v ++ w) a c where
  ended := by rw [hbc.ended, hab.ended, List.length_append, add_assoc]
  sampled h := hbc.sampled (hab.sampled h)
  others reason h := (hbc.others reason h).trans (hab.others reason h)

lemma PairScanned.tallied {cfg clock buyRow scan sellRow scan'}
    (scanned : PairScanned cfg clock buyRow sellRow scan scan') :
    Tallied (if buyRow.exchange = sellRow.exchange then [] else [(buyRow, sellRow)]) scan scan' := by
  cases scanned with
  | skipped same =>
    rw [if_pos same]
    exact .refl scan
  | @rejected reason netSpreadPct differ verdict =>
    obtain ⟨hreason, hsample⟩ := assemble_rejected verdict
    have once : pairReasons.count reason = 1 := List.count_eq_one_of_mem (by decide) hreason
    rw [if_neg differ]
    refine ⟨?_, fun sampled => ?_, fun reason' h => getD_count_of_ne hreason h⟩
    · simp only [ended, tally_count, once, List.length_singleton, add_assoc]
    · simp only [Sampled, List.length_append, tally_count, hsample] at sampled ⊢
      omega
  | emitted differ verdict =>
    rw [if_neg differ]
    refine ⟨?_, fun sampled => ?_, fun _ _ => rfl⟩
    · simp only [ended, List.length_append, List.length_singleton]
      omega
    · simp only [Sampled, List.length_append, List.length_singleton] at sampled ⊢
      omega

/-! ## A symbol -/

/-- The number of fresh rows of a symbol. -/
def freshCount (cfg : BotConfig) (nowMs : ℤ) (market : Market) (symbol : String) : ℕ :=
  (freshRows cfg nowMs market symbol).length

/-- The rows of a symbol are gathered: each exchange gives one or is counted, and nothing else
changes. -/
structure Gathered (cfg : BotConfig) (nowMs : ℤ) (market : Market) (symbol : String)
    (rows : List TickerSnapshot) (scan scan' : Scan) : Prop where
  fresh : rows = freshRows cfg nowMs market symbol
  rows : rows.length + tally scan'.rejections rowReasons =
    tally scan.rejections rowReasons + market.entries.length
  others : ∀ reason ∉ rowReasons, scan'.rejections.getD reason 0 = scan.rejections.getD reason 0
  opportunities : scan'.opportunities = scan.opportunities
  samples : scan'.netSpreadSamples = scan.netSpreadSamples

lemma Gathered.ended {cfg nowMs market symbol rows scan scan'}
    (g : Gathered cfg nowMs market symbol rows scan scan') : ended scan' = ended scan := by
  have hpairs : tally scan'.rejections pairReasons = tally scan.rejections pairReasons :=
    tally_congr fun reason h => g.others reason (not_mem_rowReasons reason h)
  rw [OpportunityEngine.ended, OpportunityEngine.ended, g.opportunities, hpairs]

lemma Gathered.sampled {cfg nowMs market symbol rows scan scan'}
    (g : Gathered cfg nowMs market symbol rows scan scan') (sampled : Sampled scan) :
    Sampled scan' := by
  have hspreads : tally scan'.rejections spreadReasons = tally scan.rejections spreadReasons :=
    tally_congr fun reason h => g.others reason
      (not_mem_rowReasons reason (List.mem_append_right _ h))
  rw [Sampled, g.samples, g.opportunities, hspreads]
  exact sampled

/-- A part of a scan is done with some symbols: each of their rows is fresh or counted, each symbol
with too few of them is counted, and each of their pairs ends. -/
structure SymbolsTallied (cfg : BotConfig) (nowMs : ℤ) (market : Market) (symbols : List String)
    (scan scan' : Scan) : Prop where
  rows : tally scan'.rejections rowReasons + (symbols.map (freshCount cfg nowMs market)).sum =
    tally scan.rejections rowReasons + market.entries.length * symbols.length
  few : scan'.rejections.getD .insufficientFreshMarkets 0 =
    scan.rejections.getD .insufficientFreshMarkets 0 +
      (symbols.filter fun symbol => freshCount cfg nowMs market symbol < 2).length
  ended : ended scan' = ended scan +
    (symbols.map fun symbol => (pairsOf (freshRows cfg nowMs market symbol)).length).sum
  sampled : Sampled scan → Sampled scan'

lemma SymbolsTallied.refl (cfg nowMs market scan) :
    SymbolsTallied cfg nowMs market [] scan scan where
  rows := rfl
  few := rfl
  ended := rfl
  sampled := id

lemma SymbolsTallied.trans {cfg nowMs market v w a b c} (hab : SymbolsTallied cfg nowMs market v a b)
    (hbc : SymbolsTallied cfg nowMs market w b c) :
    SymbolsTallied cfg nowMs market (v ++ w) a c where
  rows := by
    have hab := hab.rows
    have hbc := hbc.rows
    rw [List.map_append, List.sum_append, List.length_append, Nat.mul_add]
    omega
  few := by
    rw [hbc.few, hab.few, List.filter_append, List.length_append, add_assoc]
  ended := by rw [hbc.ended, hab.ended, List.map_append, List.sum_append, add_assoc]
  sampled h := hbc.sampled (hab.sampled h)

/-- The body of the outer loop gathers the rows of the symbol, and then they are too few, or all their
pairs are tallied. -/
lemma scanSymbol_gathered {cfg market clock scan symbol scan'}
    (e : scanSymbol cfg market clock scan symbol = .ok scan') :
    ∃ rows gathered, Gathered cfg (clockMs (clock 0)) market symbol rows scan gathered ∧
      (rows.length < 2 ∧ scan' = { gathered with
        rejections := count gathered.rejections .insufficientFreshMarkets 1 } ∨
      ¬rows.length < 2 ∧ Tallied (pairsOf rows) gathered scan') := by
  obtain ⟨rows, rejections, hgather, h⟩ := scanSymbol_scanned e
  have hrows := gatherRows_fst cfg (clockMs (clock 0)) symbol market scan.rejections
  have tallied := gatherRows_tallied cfg (clockMs (clock 0)) symbol market scan.rejections
  rw [hgather] at hrows tallied
  refine ⟨rows, { scan with rejections }, ⟨hrows, ?_, tallied.others, rfl, rfl⟩, h.imp_right ?_⟩
  · exact tallied.rows.trans (congrArg (· + market.entries.length) (Nat.zero_add _))
  intro ⟨many, e⟩
  exact ⟨many, scanPairs_trace (R := Tallied) .refl .trans PairScanned.tallied e⟩

lemma scanSymbol_tallied {cfg market clock scan symbol scan'}
    (e : scanSymbol cfg market clock scan symbol = .ok scan') :
    SymbolsTallied cfg (clockMs (clock 0)) market [symbol] scan scan' := by
  obtain ⟨rows, gathered, g, h⟩ := scanSymbol_gathered e
  have hcount : freshCount cfg (clockMs (clock 0)) market symbol = rows.length := by
    rw [freshCount, g.fresh]
  have hrows := g.rows
  have hfew : gathered.rejections.getD .insufficientFreshMarkets 0 =
      scan.rejections.getD .insufficientFreshMarkets 0 := g.others _ (by decide)
  cases h with
  | inl h =>
    -- too few rows make no pair
    obtain ⟨few, rfl⟩ := h
    refine ⟨?_, ?_, ?_, fun sampled => ?_⟩
    · rw [tally_count, List.map_singleton, List.sum_singleton, List.length_singleton, hcount]
      have none : rowReasons.count .insufficientFreshMarkets = 0 := rfl
      omega
    · rw [getD_count, if_pos rfl, hfew, List.filter_singleton, hcount, decide_eq_true few]
      rfl
    · rw [List.map_singleton, List.sum_singleton, ← g.fresh, pairsOf_of_length_lt few, ← g.ended,
        ended, tally_count]
      rfl
    · have sampled := g.sampled sampled
      rw [Sampled, tally_count]
      exact sampled
  | inr h =>
    obtain ⟨many, tallied⟩ := h
    refine ⟨?_, ?_, ?_, fun sampled => tallied.sampled (g.sampled sampled)⟩
    · rw [tally_congr fun reason h => tallied.others reason (not_mem_pairReasons reason h),
        List.map_singleton, List.sum_singleton, List.length_singleton, hcount]
      omega
    · rw [tallied.others _ (by decide), hfew, List.filter_singleton, hcount, decide_eq_false many]
      rfl
    · rw [tallied.ended, g.ended, List.map_singleton, List.sum_singleton, g.fresh]

/-- On rows of different exchanges, the pairs visited are all pairs of two different rows. -/
lemma length_pairsOf {rows : List TickerSnapshot} (nodup : (rows.map (·.exchange)).Nodup) :
    (pairsOf rows).length = rows.length * (rows.length - 1) := by
  rw [← List.length_offDiag', pairsOf]
  apply List.Perm.length_eq
  rw [List.perm_ext_iff_of_nodup ((nodup.of_map.product nodup.of_map).filter _) nodup.of_map.offDiag]
  intro p
  rw [List.mem_filter, List.mem_product, decide_eq_true_eq, nodup.of_map.mem_offDiag, and_assoc]
  apply and_congr_right
  intro hbuy
  apply and_congr_right
  intro hsell
  exact not_congr ⟨fun same => List.inj_on_of_nodup_map nodup hbuy hsell same, congrArg _⟩

/-- A symbol with fewer than two fresh rows has no pair. -/
lemma sum_pairCounts (counts : List ℕ) :
    ((counts.filter (2 ≤ ·)).map fun n => n * (n - 1)).sum =
      (counts.map fun n => n * (n - 1)).sum := by
  induction counts with
  | nil => rfl
  | cons n counts ih =>
    rw [List.filter_cons, List.map_cons, List.sum_cons, ← ih]
    by_cases h : 2 ≤ n
    · rw [if_pos (decide_eq_true h), List.map_cons, List.sum_cons]
    · have none : n * (n - 1) = 0 := by
        rcases (by omega : n = 0 ∨ n = 1) with rfl | rfl <;> rfl
      rw [if_neg (by simpa using h), none, zero_add]

/-! ## A call -/

/-- The balance of a call: each snapshot is fresh or counted, each pair of fresh rows ends once, each
symbol with too few rows is counted, and the distribution is over the net spreads that are known. -/
structure Accounted (cfg : BotConfig) (cycle : Cycle) (opps : List Opportunity)
    (engine : OpportunityEngine) : Prop where
  rows : tally engine.rejectionCountsLastCycle rowReasons +
      (cfg.symbols.map (freshCount cfg (clockMs (cycle.clock 0)) cycle.market)).sum =
    cycle.market.entries.length * cfg.symbols.length
  pairs : opps.length + tally engine.rejectionCountsLastCycle pairReasons =
    (((cfg.symbols.map (freshCount cfg (clockMs (cycle.clock 0)) cycle.market)).filter
      (2 ≤ ·)).map fun n => n * (n - 1)).sum
  few : engine.rejectionCountsLastCycle.getD .insufficientFreshMarkets 0 =
    (cfg.symbols.filter fun symbol =>
      freshCount cfg (clockMs (cycle.clock 0)) cycle.market symbol < 2).length
  samples : ∃ dist, engine.netSpreadDistributionLastCycle = some dist ∧
    dist.count = opps.length + tally engine.rejectionCountsLastCycle spreadReasons

lemma distribution_count {samples dist} (e : distribution samples = .ok dist) :
    dist.count = samples.length := by
  unfold distribution at e
  split at e
  case isTrue none =>
    cases e
    rw [none]
    rfl
  case isFalse =>
    simp only [Loop.bind_eq_ok] at e
    obtain ⟨_, _, _, _, _, _, _, _, h⟩ := e
    cases h
    show ((samples.insertionSort (· ≤ ·)).length : ℚ) = samples.length
    rw [List.length_insertionSort]

/-- A call that returns keeps the balance, -/
lemma findOpportunities_accounted {cfg engine opps engine'} {cycle : Cycle}
    (carries : CarriesExchange cycle.market)
    (e : findOpportunities cfg engine cycle.market cycle.clock = (.ok opps, engine')) :
    Accounted cfg cycle opps engine' := by
  obtain ⟨scan, dist, hscan, hdist, hopps, _, hlast, hcounts, _⟩ := findOpportunities_scan e
  have tallied := Loop.foldlM_trace
    (R := SymbolsTallied cfg (clockMs (cycle.clock 0)) cycle.market) (.refl _ _ _) .trans
    (fun scan symbol scan' _ e => scanSymbol_tallied e) hscan
  rw [List.flatMap_singleton'] at tallied
  have hlength : opps.length = scan.opportunities.length := hopps ▸ (rank_perm _).length_eq
  have hpairs : ∀ symbol, (pairsOf (freshRows cfg (clockMs (cycle.clock 0)) cycle.market
      symbol)).length = freshCount cfg (clockMs (cycle.clock 0)) cycle.market symbol *
        (freshCount cfg (clockMs (cycle.clock 0)) cycle.market symbol - 1) :=
    fun symbol => length_pairsOf (freshRows_exchange_nodup carries cfg _ symbol)
  have zero : ∀ reasons, tally .empty reasons = 0 := fun reasons => by
    induction reasons with
    | nil => rfl
    | cons reason reasons ih => exact (Nat.zero_add _).trans ih
  refine ⟨?_, ?_, ?_, dist, hlast, ?_⟩
  · rw [hcounts, tallied.rows, zero, zero_add]
  · have hended := tallied.ended
    simp only [ended, zero, List.length_nil, zero_add, hpairs] at hended
    rw [hlength, hcounts, hended, sum_pairCounts, List.map_map]
    rfl
  · rw [hcounts, tallied.few]
    exact zero_add _
  · have sampled : Sampled scan := tallied.sampled (zero spreadReasons).symm
    rw [distribution_count hdist, sampled, hlength, hcounts, Nat.cast_add]

/-- and adds its counts to the totals. -/
lemma findOpportunities_totals {cfg engine market clock opps engine'}
    (e : findOpportunities cfg engine market clock = (.ok opps, engine')) (reason) :
    engine'.rejectionCountsTotal.getD reason 0 = engine.rejectionCountsTotal.getD reason 0 +
      engine'.rejectionCountsLastCycle.getD reason 0 := by
  obtain ⟨scan, dist, _, _, _, _, _, hcounts, htotals⟩ := findOpportunities_scan e
  rw [htotals, hcounts, getD_totals]

/-- No pair is lost or counted twice. In every run from a fresh engine, a call returns and keeps the
balance, and the totals are, reason by reason, the sums of the counts of all calls so far. -/
theorem scan_accounts {cfg} (fees : FeesNonneg cfg) (cycles : List Cycle) (cycle : Cycle)
    (carries : CarriesExchange cycle.market) :
    ∃ opps engine, findOpportunities cfg ((machine cfg).run (init cfg) cycles) cycle.market
        cycle.clock = (.ok opps, engine) ∧
      Accounted cfg cycle opps engine ∧
      ∀ reason, engine.rejectionCountsTotal.getD reason 0 =
        (((machine cfg).states (init cfg) (cycles ++ [cycle])).map fun engine =>
          engine.rejectionCountsLastCycle.getD reason 0).sum := by
  obtain ⟨opps, engine, e⟩ := findOpportunities_total fees ((machine cfg).run (init cfg) cycles)
    cycle.market cycle.clock
  refine ⟨opps, engine, e, findOpportunities_accounted carries e, fun reason => ?_⟩
  have hrun : (machine cfg).run (init cfg) (cycles ++ [cycle]) = engine := by
    rw [Machine.run_concat]
    exact congrArg Prod.snd e
  rw [← hrun, Machine.run_sum_states (M := machine cfg)
    (φ := fun engine : OpportunityEngine => engine.rejectionCountsTotal.getD reason 0)
    (δ := fun engine : OpportunityEngine => engine.rejectionCountsLastCycle.getD reason 0)]
  · exact Nat.zero_add _
  · intro engine cycle
    obtain ⟨opps, engine', e⟩ := findOpportunities_total fees engine cycle.market cycle.clock
    have hnext : (machine cfg).next engine cycle = engine' := congrArg Prod.snd e
    rw [hnext, findOpportunities_totals e]

/-- Two cycles on the sample market, which has no snapshot of the second symbol: the only pair of
exchanges makes an opportunity one way and is rejected the other way. -/
theorem scan_accounts_sample :
    ∃ opps engine, findOpportunities defaultConfig
        ((machine defaultConfig).run (init defaultConfig) [sampleCycle]) sampleMarket (fun _ => 1) =
        (.ok opps, engine) ∧
      Accounted defaultConfig sampleCycle opps engine ∧ opps.length = 1 ∧
      engine.rejectionCountsLastCycle.entries = [(.netSpreadBelowAutoThreshold, 1),
        (.missingSnapshot, 2), (.insufficientFreshMarkets, 1)] ∧
      engine.rejectionCountsTotal.getD .missingSnapshot 0 =
        (((machine defaultConfig).states (init defaultConfig) [sampleCycle, sampleCycle]).map
          fun engine => engine.rejectionCountsLastCycle.getD .missingSnapshot 0).sum := by
  obtain ⟨opps, engine, e, accounted, totals⟩ :=
    scan_accounts feesNonneg_default [sampleCycle] sampleCycle keyed_sampleMarket.carriesExchange
  have hcall : (findOpportunities defaultConfig ((machine defaultConfig).run (init defaultConfig)
      [sampleCycle]) sampleMarket fun _ => 1).1.toOption.map List.length = some 1 ∧
    (findOpportunities defaultConfig ((machine defaultConfig).run (init defaultConfig)
      [sampleCycle]) sampleMarket fun _ => 1).2.rejectionCountsLastCycle.entries =
      [(.netSpreadBelowAutoThreshold, 1), (.missingSnapshot, 2), (.insufficientFreshMarkets, 1)] := by
    decide +kernel
  rw [show findOpportunities defaultConfig ((machine defaultConfig).run (init defaultConfig)
    [sampleCycle]) sampleMarket (fun _ => 1) = (.ok opps, engine) from e] at hcall
  exact ⟨opps, engine, e, accounted, Option.some.inj hcall.1, hcall.2, totals _⟩

end ArbBot.OpportunityEngine
