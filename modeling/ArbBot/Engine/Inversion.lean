import ArbBot.Engine.Statistics
import ArbBot.Lib.Loop
import ArbBot.Lib.Machine
import Mathlib.Data.List.ProdSigma
import Mathlib.Tactic.Linarith

/-!
# Inversion of the scan

What the scan does, said once. `Passes` is the conjunction of all filters, and `assemble_emitted_iff`
says that `assemble` emits exactly on a pair that passes. `visits` is the list of the ordered pairs
that the loops visit, in order; `averagesAfter` are the slippage averages after some visits, which no
verdict influences; `found` lists the pairs that pass, each with the averages it was judged by.
`scanMarket_found` says that the scan is `averagesAfter` and `found` over `visits`, and
`findOpportunities_found` turns this into a property of each opportunity returned. `machine` is the
engine as a machine whose inputs are the market and the clock of one call.
-/

namespace ArbBot.OpportunityEngine

/-! ## One pair -/

/-- A pair passes all filters of `_build_opportunity`, judged by the averages `ewma`. -/
structure Passes (cfg : BotConfig) (ewma : OrdDict String ℚ) (buyRow sellRow : TickerSnapshot) :
    Prop where
  depth : ¬depthLiquidityMissing cfg (legsOf cfg ewma buyRow sellRow) buyRow sellRow
  buyPrice : 0 < (legsOf cfg ewma buyRow sellRow).buyPrice
  sellPrice : 0 < (legsOf cfg ewma buyRow sellRow).sellPrice
  netBuy : (legsOf cfg ewma buyRow sellRow).netBuy ≠ 0
  spread : thresholdPct cfg ewma (legsOf cfg ewma buyRow sellRow) buyRow sellRow ≤
    (legsOf cfg ewma buyRow sellRow).netSpreadPct
  quantity : 0 < quantity cfg (legsOf cfg ewma buyRow sellRow) buyRow sellRow
  notional : cfg.minNotionalUsdt ≤ OpportunityEngine.quantity cfg (legsOf cfg ewma buyRow sellRow)
    buyRow sellRow * (legsOf cfg ewma buyRow sellRow).buyPrice
  profit : 0 < expectedProfitUsdt cfg (legsOf cfg ewma buyRow sellRow) buyRow sellRow ∨
    cfg.mode = .dryRun ∧ cfg.allowNegativeExpectedProfitDryrun = true

/-- `assemble` emits exactly the opportunities of pairs that pass. -/
lemma assemble_emitted_iff {cfg ewma timestampMs buyRow sellRow opp} :
    assemble cfg ewma timestampMs buyRow sellRow = .ok (.emitted opp) ↔
      Passes cfg ewma buyRow sellRow ∧
      opp = opportunityOf cfg ewma timestampMs (legsOf cfg ewma buyRow sellRow) buyRow sellRow := by
  unfold assemble
  dsimp only
  constructor
  · intro e
    split at e
    case isTrue => cases e
    case isFalse depth =>
      split at e
      case isTrue => cases e
      case isFalse prices =>
        split at e
        case isTrue => cases e
        case isFalse netBuy =>
          split at e
          case isTrue => cases e
          case isFalse spread =>
            split at e
            case isTrue => cases e
            case isFalse size =>
              split at e
              case isTrue => cases e
              case isFalse profit =>
                cases e
                refine ⟨⟨depth, ?_, ?_, netBuy, not_lt.1 spread, ?_, ?_, ?_⟩, rfl⟩
                · exact not_le.1 fun h => prices (.inl h)
                · exact not_le.1 fun h => prices (.inr h)
                · exact not_le.1 fun h => size (.inl h)
                · exact not_lt.1 fun h => size (.inr h)
                · rcases not_and_or.1 profit with h | h
                  · exact .inl (not_le.1 h)
                  · exact .inr (not_not.1 h)
  · -- a pair that passes gets past every guard
    rintro ⟨p, rfl⟩
    rw [if_neg p.depth, if_neg (not_or.2 ⟨not_le.2 p.buyPrice, not_le.2 p.sellPrice⟩),
      if_neg p.netBuy, if_neg (not_lt.2 p.spread),
      if_neg (not_or.2 ⟨not_le.2 p.quantity, not_lt.2 p.notional⟩), if_neg]
    rintro ⟨loss, live⟩
    exact p.profit.elim (fun gain => absurd gain (not_lt.2 loss)) live

/-- The taker and maker fees are not negative. -/
structure FeesNonneg (cfg : BotConfig) : Prop where
  taker : ∀ exchange fee, cfg.feesTaker.get? exchange = some fee → 0 ≤ fee
  maker : ∀ exchange fee, cfg.feesMaker.get? exchange = some fee → 0 ≤ fee

lemma getD_nonneg {d : OrdDict String ℚ} {k : String} {v : ℚ}
    (h : ∀ k v, d.get? k = some v → 0 ≤ v) (hv : 0 ≤ v) : 0 ≤ d.getD k v := by
  unfold OrdDict.getD
  cases e : d.get? k with
  | none => exact hv
  | some w => exact h k w e

lemma takerFee_nonneg {cfg} (fees : FeesNonneg cfg) (exchange) : 0 ≤ takerFee cfg exchange :=
  getD_nonneg fees.taker (by norm_num)

lemma makerFee_nonneg {cfg} (fees : FeesNonneg cfg) (exchange) : 0 ≤ makerFee cfg exchange :=
  getD_nonneg fees.maker (by norm_num)

lemma le_selectSlippagePct (cfg ewma exchange observed) :
    max 0 cfg.slippagePct ≤ selectSlippagePct cfg ewma exchange observed := by
  unfold selectSlippagePct
  dsimp only
  split
  · exact (le_max_left _ _).trans (le_max_left _ _)
  · exact le_rfl

lemma selectSlippagePct_nonneg (cfg ewma exchange observed) :
    0 ≤ selectSlippagePct cfg ewma exchange observed :=
  (le_max_left _ _).trans (le_selectSlippagePct cfg ewma exchange observed)

/-- The three ways in which the legs are settled. -/
lemma legsOf_cases (cfg ewma buyRow sellRow) :
    (executionStyle cfg ≠ .makerTaker ∧
      legsOf cfg ewma buyRow sellRow = takerLegs cfg ewma buyRow sellRow) ∨
    (executionStyle cfg = .makerTaker ∧
      legsOf cfg ewma buyRow sellRow = makerSellLegs cfg ewma buyRow sellRow) ∨
    (executionStyle cfg = .makerTaker ∧
      legsOf cfg ewma buyRow sellRow = makerBuyLegs cfg ewma buyRow sellRow) := by
  unfold legsOf
  split
  case isTrue style =>
    split
    · exact .inr (.inl ⟨style, rfl⟩)
    · exact .inr (.inr ⟨style, rfl⟩)
  case isFalse style => exact .inl ⟨style, rfl⟩

lemma legsOf_slippage_nonneg (cfg ewma buyRow sellRow) :
    0 ≤ (legsOf cfg ewma buyRow sellRow).buySlippagePct ∧
      0 ≤ (legsOf cfg ewma buyRow sellRow).sellSlippagePct := by
  rcases legsOf_cases cfg ewma buyRow sellRow with ⟨_, h⟩ | ⟨_, h⟩ | ⟨_, h⟩ <;> rw [h]
  · exact ⟨selectSlippagePct_nonneg .., selectSlippagePct_nonneg ..⟩
  · exact ⟨selectSlippagePct_nonneg .., le_rfl⟩
  · exact ⟨le_rfl, selectSlippagePct_nonneg ..⟩

lemma legsOf_fee_nonneg {cfg} (fees : FeesNonneg cfg) (ewma buyRow sellRow) :
    0 ≤ (legsOf cfg ewma buyRow sellRow).buyFee ∧
      0 ≤ (legsOf cfg ewma buyRow sellRow).sellFee := by
  rcases legsOf_cases cfg ewma buyRow sellRow with ⟨_, h⟩ | ⟨_, h⟩ | ⟨_, h⟩ <;> rw [h]
  · exact ⟨takerFee_nonneg fees _, takerFee_nonneg fees _⟩
  · exact ⟨takerFee_nonneg fees _, makerFee_nonneg fees _⟩
  · exact ⟨makerFee_nonneg fees _, takerFee_nonneg fees _⟩

/-- Without negative fees, `net_buy` is positive. -/
lemma netBuy_pos {cfg} (fees : FeesNonneg cfg) {ewma buyRow sellRow}
    (hprice : 0 < (legsOf cfg ewma buyRow sellRow).buyPrice) :
    0 < (legsOf cfg ewma buyRow sellRow).netBuy := by
  have hfee := (legsOf_fee_nonneg fees ewma buyRow sellRow).1
  have hslip := (legsOf_slippage_nonneg cfg ewma buyRow sellRow).1
  exact mul_pos hprice (by positivity)

/-- Without negative fees, `assemble` returns. -/
lemma assemble_total {cfg} (fees : FeesNonneg cfg) (ewma timestampMs buyRow sellRow) :
    ∃ verdict, assemble cfg ewma timestampMs buyRow sellRow = .ok verdict := by
  unfold assemble
  dsimp only
  split
  · exact ⟨_, rfl⟩
  · split
    · exact ⟨_, rfl⟩
    case isFalse prices =>
      rw [if_neg (netBuy_pos fees (not_le.1 fun h => prices (.inl h))).ne']
      split_ifs <;> exact ⟨_, rfl⟩

instance (cfg : BotConfig) (ewma : OrdDict String ℚ) (buyRow sellRow : TickerSnapshot) :
    Decidable (Passes cfg ewma buyRow sellRow) :=
  match e : assemble cfg ewma 0 buyRow sellRow with
  | .ok (.emitted _) => isTrue (assemble_emitted_iff.1 e).1
  | .ok (.rejected _ _) => isFalse fun p => by
    rw [assemble_emitted_iff.2 ⟨p, rfl⟩] at e; cases e
  | .error _ => isFalse fun p => by rw [assemble_emitted_iff.2 ⟨p, rfl⟩] at e; cases e

/-! ## The pairs that the loops visit -/

/-- An ordered pair of snapshots: to buy from the first and to sell to the second. -/
abbrev Pair := TickerSnapshot × TickerSnapshot

/-- The snapshot that a market stores for an exchange and a symbol. -/
def snapshotAt (market : Market) (exchange symbol : String) : Option TickerSnapshot :=
  (market.get? exchange).bind fun bySymbol => bySymbol.get? symbol

/-- The snapshot of a symbol on one exchange, if it is fresh. -/
def freshRow (cfg : BotConfig) (nowMs : ℤ) (symbol : String)
    (bySymbol : OrdDict String TickerSnapshot) : Option TickerSnapshot :=
  (bySymbol.get? symbol).filter fun snap => nowMs - snap.timestampMs ≤ cfg.maxDataAgeMs

/-- The fresh snapshots of a symbol. -/
def freshRows (cfg : BotConfig) (nowMs : ℤ) (market : Market) (symbol : String) :
    List TickerSnapshot :=
  market.values.filterMap (freshRow cfg nowMs symbol)

/-- The ordered pairs of rows that join two exchanges. -/
def pairsOf (rows : List TickerSnapshot) : List Pair :=
  (rows ×ˢ rows).filter fun p => p.1.exchange ≠ p.2.exchange

/-- All pairs that a scan visits. -/
def visits (cfg : BotConfig) (nowMs : ℤ) (market : Market) : List Pair :=
  cfg.symbols.flatMap fun symbol => pairsOf (freshRows cfg nowMs market symbol)

/-- The slippage averages after some visits. -/
def averagesAfter (cfg : BotConfig) (ewma : OrdDict String ℚ) (visited : List Pair) :
    OrdDict String ℚ :=
  visited.foldl (fun ewma p => updateSlippages cfg ewma p.1 p.2) ewma

/-- The pairs that pass, each with the averages it is judged by. -/
def found (cfg : BotConfig) : OrdDict String ℚ → List Pair → List (OrdDict String ℚ × Pair)
  | _, [] => []
  | ewma, p :: ps =>
    let ewma' := updateSlippages cfg ewma p.1 p.2
    if Passes cfg ewma' p.1 p.2 then (ewma', p) :: found cfg ewma' ps else found cfg ewma' ps

/-- No visit raises. -/
def Returns (cfg : BotConfig) : OrdDict String ℚ → List Pair → Prop
  | _, [] => True
  | ewma, p :: ps =>
    (∀ timestampMs, ∃ verdict,
      assemble cfg (updateSlippages cfg ewma p.1 p.2) timestampMs p.1 p.2 = .ok verdict) ∧
    Returns cfg (updateSlippages cfg ewma p.1 p.2) ps

/-- The opportunity of a pair, judged by given averages. -/
def opportunityFor (cfg : BotConfig) (timestampMs : ℤ) (e : OrdDict String ℚ × Pair) :
    Opportunity :=
  opportunityOf cfg e.1 timestampMs (legsOf cfg e.1 e.2.1 e.2.2) e.2.1 e.2.2

/-- The opportunities of the pairs found, stamped with the clock readings after the `n`-th. -/
def stamped (cfg : BotConfig) (clock : ℕ → ℚ) (n : ℕ) (es : List (OrdDict String ℚ × Pair)) :
    List Opportunity :=
  es.mapIdx fun k e => opportunityFor cfg (clockMs (clock (n + k + 1))) e

lemma gatherRow_fst (cfg nowMs symbol gathered bySymbol) :
    (gatherRow cfg nowMs symbol gathered bySymbol).1 =
      gathered.1 ++ (freshRow cfg nowMs symbol bySymbol).toList := by
  unfold gatherRow freshRow
  cases bySymbol.get? symbol with
  | none => simp
  | some snap =>
    dsimp only
    split
    case isTrue stale => simp [Option.filter, not_le.2 stale]
    case isFalse fresh => simp [Option.filter, not_lt.1 fresh]

lemma gatherRows_fst (cfg nowMs symbol) (market : Market) (rejections) :
    (gatherRows cfg nowMs symbol market rejections).1 = freshRows cfg nowMs market symbol := by
  unfold gatherRows freshRows
  suffices h : ∀ (bySymbols : List (OrdDict String TickerSnapshot)) gathered,
      (bySymbols.foldl (gatherRow cfg nowMs symbol) gathered).1 =
        gathered.1 ++ bySymbols.filterMap (freshRow cfg nowMs symbol) from
    (h market.values ([], rejections)).trans (List.nil_append _)
  intro bySymbols
  induction bySymbols with
  | nil => simp
  | cons bySymbol bySymbols ih =>
    intro gathered
    rw [List.foldl_cons, ih, gatherRow_fst, List.append_assoc, List.filterMap_cons]
    cases freshRow cfg nowMs symbol bySymbol <;> rfl

lemma mem_freshRows {cfg nowMs market symbol snap} :
    snap ∈ freshRows cfg nowMs market symbol ↔
      ∃ exchange, snapshotAt market exchange symbol = some snap ∧
        nowMs - snap.timestampMs ≤ cfg.maxDataAgeMs := by
  simp only [freshRows, freshRow, OrdDict.values, snapshotAt, List.mem_filterMap, List.mem_map,
    Option.filter_eq_some_iff, Option.bind_eq_some_iff, decide_eq_true_eq, Prod.exists,
    OrdDict.mem_entries]
  constructor
  · rintro ⟨bySymbol, ⟨exchange, _, hget, rfl⟩, hsnap, fresh⟩
    exact ⟨exchange, ⟨_, hget, hsnap⟩, fresh⟩
  · rintro ⟨exchange, ⟨bySymbol, hget, hsnap⟩, fresh⟩
    exact ⟨bySymbol, ⟨exchange, bySymbol, hget, rfl⟩, hsnap, fresh⟩

lemma mem_visits {cfg nowMs market} {p : Pair} :
    p ∈ visits cfg nowMs market ↔ ∃ symbol ∈ cfg.symbols,
      p.1 ∈ freshRows cfg nowMs market symbol ∧ p.2 ∈ freshRows cfg nowMs market symbol ∧
      p.1.exchange ≠ p.2.exchange := by
  obtain ⟨buyRow, sellRow⟩ := p
  simp only [visits, pairsOf, List.mem_flatMap, List.mem_filter, List.mem_product,
    decide_eq_true_eq, and_assoc]

/-- The pairs in the order of the two nested loops. -/
lemma flatMap_pairs (rows : List TickerSnapshot) :
    (rows.flatMap fun buyRow => rows.flatMap fun sellRow =>
      if buyRow.exchange = sellRow.exchange then [] else [(buyRow, sellRow)]) = pairsOf rows := by
  have inner : ∀ (buyRow : TickerSnapshot) (sellRows : List TickerSnapshot),
      (sellRows.flatMap fun sellRow =>
        if buyRow.exchange = sellRow.exchange then [] else [(buyRow, sellRow)]) =
      (sellRows.map (Prod.mk buyRow)).filter
        fun p : Pair => p.1.exchange ≠ p.2.exchange := by
    intro buyRow sellRows
    induction sellRows with
    | nil => rfl
    | cons sellRow sellRows ih =>
      rw [List.flatMap_cons, ih, List.map_cons, List.filter_cons]
      split <;> simp_all
  have product : rows ×ˢ rows = rows.flatMap fun buyRow => rows.map (Prod.mk buyRow) := rfl
  rw [pairsOf, product, List.filter_flatMap]
  exact congrArg (rows.flatMap ·) (funext fun buyRow => inner buyRow rows)

lemma pairsOf_of_length_lt {rows : List TickerSnapshot} (h : rows.length < 2) :
    pairsOf rows = [] := by
  rcases rows with _ | ⟨row, _ | ⟨row', rows⟩⟩
  · rfl
  · have self : [row] ×ˢ [row] = [(row, row)] := rfl
    rw [pairsOf, self]
    simp
  · simp only [List.length_cons] at h; omega

/-! ## The loops -/

lemma averagesAfter_append (cfg ewma) (v w : List Pair) :
    averagesAfter cfg ewma (v ++ w) = averagesAfter cfg (averagesAfter cfg ewma v) w :=
  List.foldl_append

lemma found_append (cfg ewma) (v w : List Pair) :
    found cfg ewma (v ++ w) = found cfg ewma v ++ found cfg (averagesAfter cfg ewma v) w := by
  induction v generalizing ewma with
  | nil => rfl
  | cons p v ih =>
    have ih' := ih (updateSlippages cfg ewma p.1 p.2)
    simp only [List.cons_append, found, averagesAfter, List.foldl_cons] at ih' ⊢
    rw [ih']
    split <;> rfl

lemma returns_append (cfg ewma) (v w : List Pair) :
    Returns cfg ewma (v ++ w) ↔ Returns cfg ewma v ∧ Returns cfg (averagesAfter cfg ewma v) w := by
  induction v generalizing ewma with
  | nil => exact (iff_of_eq (true_and _)).symm
  | cons p v ih => exact (and_congr_right fun _ => ih _).trans and_assoc.symm

lemma returns_of_fees {cfg} (fees : FeesNonneg cfg) (ewma) (v : List Pair) :
    Returns cfg ewma v := by
  induction v generalizing ewma with
  | nil => trivial
  | cons p v ih => exact ⟨fun timestampMs => assemble_total fees _ timestampMs _ _, ih _⟩

lemma stamped_append (cfg clock n) (es fs : List (OrdDict String ℚ × Pair)) :
    stamped cfg clock n (es ++ fs) =
      stamped cfg clock n es ++ stamped cfg clock (n + es.length) fs := by
  simp only [stamped, List.mapIdx_append]
  congr 2
  funext k e
  rw [show n + (k + es.length) + 1 = n + es.length + k + 1 from by omega]

/-- What does not read the timestamp is a property of the pairs found. -/
lemma map_stamped {α} {cfg} {f : Opportunity → α} {g : OrdDict String ℚ × Pair → α}
    (h : ∀ timestampMs e, f (opportunityFor cfg timestampMs e) = g e) {clock n es} :
    (stamped cfg clock n es).map f = es.map g := by
  induction es generalizing n with
  | nil => rfl
  | cons e es ih =>
    have split := stamped_append cfg clock n [e] es
    rw [List.singleton_append] at split
    rw [split, List.map_append, ih]
    exact congrArg (· :: es.map g) (h _ e)

/-- A part of the scan visits some pairs: none raises, the averages move on, and the opportunities of
the pairs found are appended. -/
structure Grows (cfg : BotConfig) (clock : ℕ → ℚ) (visited : List Pair) (scan scan' : Scan) :
    Prop where
  returns : Returns cfg scan.ewma visited
  ewma : scan'.ewma = averagesAfter cfg scan.ewma visited
  opportunities : scan'.opportunities = scan.opportunities ++
    stamped cfg clock scan.opportunities.length (found cfg scan.ewma visited)

lemma Grows.refl (cfg clock scan) : Grows cfg clock [] scan scan where
  returns := trivial
  ewma := rfl
  opportunities := (List.append_nil _).symm

lemma Grows.trans {cfg clock v w a b c} (hab : Grows cfg clock v a b)
    (hbc : Grows cfg clock w b c) : Grows cfg clock (v ++ w) a c where
  returns := (returns_append ..).2 ⟨hab.returns, hab.ewma ▸ hbc.returns⟩
  ewma := by rw [hbc.ewma, hab.ewma, averagesAfter_append]
  opportunities := by
    have hlen : (stamped cfg clock a.opportunities.length (found cfg a.ewma v)).length =
        (found cfg a.ewma v).length := List.length_mapIdx
    rw [hbc.opportunities, hab.opportunities, hab.ewma, found_append, stamped_append,
      List.append_assoc, List.length_append, hlen]

/-- Whether `assemble` raises does not depend on the timestamp. -/
lemma assemble_returns {cfg ewma timestampMs buyRow sellRow verdict}
    (e : assemble cfg ewma timestampMs buyRow sellRow = .ok verdict) (timestampMs') :
    ∃ verdict', assemble cfg ewma timestampMs' buyRow sellRow = .ok verdict' := by
  unfold assemble at e ⊢
  dsimp only at e ⊢
  split at e
  case isTrue h => rw [if_pos h]; exact ⟨_, rfl⟩
  case isFalse h =>
    rw [if_neg h]
    split at e
    case isTrue h => rw [if_pos h]; exact ⟨_, rfl⟩
    case isFalse h =>
      rw [if_neg h]
      split at e
      case isTrue => cases e
      case isFalse h => rw [if_neg h]; split_ifs <;> exact ⟨_, rfl⟩

/-- What the body of the inner loop does: it skips a pair on one exchange, and else it updates the
averages and files the verdict. -/
inductive PairScanned (cfg : BotConfig) (clock : ℕ → ℚ) (buyRow sellRow : TickerSnapshot)
    (scan : Scan) : Scan → Prop where
  | skipped (same : buyRow.exchange = sellRow.exchange) :
      PairScanned cfg clock buyRow sellRow scan scan
  | rejected {reason netSpreadPct} (differ : buyRow.exchange ≠ sellRow.exchange)
      (verdict : assemble cfg (updateSlippages cfg scan.ewma buyRow sellRow)
        (clockMs (clock (scan.opportunities.length + 1))) buyRow sellRow =
          .ok (.rejected reason netSpreadPct)) :
      PairScanned cfg clock buyRow sellRow scan
        { scan with
          ewma := updateSlippages cfg scan.ewma buyRow sellRow
          rejections := count scan.rejections reason 1
          netSpreadSamples := scan.netSpreadSamples ++ netSpreadPct.toList }
  | emitted {opp} (differ : buyRow.exchange ≠ sellRow.exchange)
      (verdict : assemble cfg (updateSlippages cfg scan.ewma buyRow sellRow)
        (clockMs (clock (scan.opportunities.length + 1))) buyRow sellRow = .ok (.emitted opp)) :
      PairScanned cfg clock buyRow sellRow scan
        { scan with
          ewma := updateSlippages cfg scan.ewma buyRow sellRow
          opportunities := scan.opportunities ++ [opp]
          netSpreadSamples := scan.netSpreadSamples ++ [opp.netSpreadPct] }

/-- Inversion of the body of the inner loop. -/
lemma scanPair_scanned {cfg clock buyRow scan sellRow scan'}
    (e : scanPair cfg clock buyRow scan sellRow = .ok scan') :
    PairScanned cfg clock buyRow sellRow scan scan' := by
  unfold scanPair at e
  split at e
  case isTrue same => cases e; exact .skipped same
  case isFalse differ =>
    dsimp only at e
    split at e
    case h_1 => cases e
    case h_2 verdict => cases e; exact .rejected differ verdict
    case h_3 verdict => cases e; exact .emitted differ verdict

/-- What each pair adds, the two inner loops add up over all pairs of the rows. -/
lemma scanPairs_trace {cfg clock} {R : List Pair → Scan → Scan → Prop}
    (hrefl : ∀ scan, R [] scan scan) (htrans : ∀ {v w a b c}, R v a b → R w b c → R (v ++ w) a c)
    (hpair : ∀ {buyRow scan sellRow scan'}, PairScanned cfg clock buyRow sellRow scan scan' →
      R (if buyRow.exchange = sellRow.exchange then [] else [(buyRow, sellRow)]) scan scan')
    {rows scan scan'}
    (e : rows.foldlM (fun scan buyRow => rows.foldlM (scanPair cfg clock buyRow) scan) scan =
      .ok scan') : R (pairsOf rows) scan scan' := by
  rw [← flatMap_pairs]
  refine Loop.foldlM_trace (R := R) hrefl htrans (fun scan buyRow scan' _ e => ?_) e
  exact Loop.foldlM_trace (R := R) hrefl htrans
    (fun scan sellRow scan' _ e => hpair (scanPair_scanned e)) e

/-- Inversion of the body of the outer loop: the rows of the symbol are gathered, and then they are
too few, or all their pairs are scanned. -/
lemma scanSymbol_scanned {cfg market clock scan symbol scan'}
    (e : scanSymbol cfg market clock scan symbol = .ok scan') :
    ∃ rows rejections,
      gatherRows cfg (clockMs (clock 0)) symbol market scan.rejections = (rows, rejections) ∧
      (rows.length < 2 ∧ scan' =
          { scan with rejections := count rejections .insufficientFreshMarkets 1 } ∨
        ¬rows.length < 2 ∧
          rows.foldlM (fun scan buyRow => rows.foldlM (scanPair cfg clock buyRow) scan)
            { scan with rejections } = .ok scan') := by
  refine ⟨_, _, rfl, ?_⟩
  unfold scanSymbol at e
  dsimp only at e
  split at e
  case isTrue few => cases e; exact .inl ⟨few, rfl⟩
  case isFalse many => exact .inr ⟨many, e⟩

lemma PairScanned.grows {cfg clock buyRow scan sellRow scan'}
    (scanned : PairScanned cfg clock buyRow sellRow scan scan') :
    Grows cfg clock (if buyRow.exchange = sellRow.exchange then [] else [(buyRow, sellRow)])
      scan scan' := by
  cases scanned with
  | skipped same =>
    rw [if_pos same]
    exact .refl cfg clock scan
  | rejected differ verdict =>
    -- the averages have moved all the same
    have hfail : ¬Passes cfg (updateSlippages cfg scan.ewma buyRow sellRow) buyRow sellRow := by
      intro p
      rw [assemble_emitted_iff.2 ⟨p, rfl⟩] at verdict
      cases verdict
    rw [if_neg differ]
    exact ⟨⟨assemble_returns verdict, trivial⟩, rfl, by simp [found, hfail, stamped]⟩
  | emitted differ verdict =>
    obtain ⟨pass, rfl⟩ := assemble_emitted_iff.1 verdict
    rw [if_neg differ]
    exact ⟨⟨assemble_returns verdict, trivial⟩, rfl,
      by simp [found, pass, stamped, opportunityFor]⟩

lemma scanSymbol_grows {cfg market clock scan symbol scan'}
    (e : scanSymbol cfg market clock scan symbol = .ok scan') :
    Grows cfg clock (pairsOf (freshRows cfg (clockMs (clock 0)) market symbol)) scan scan' := by
  obtain ⟨rows, rejections, gathered, h⟩ := scanSymbol_scanned e
  rw [← gatherRows_fst cfg (clockMs (clock 0)) symbol market scan.rejections, gathered]
  rcases h with ⟨few, rfl⟩ | ⟨_, e⟩
  · -- fewer than two rows make no pair
    rw [pairsOf_of_length_lt few]
    exact ⟨trivial, rfl, (List.append_nil _).symm⟩
  · have grows := scanPairs_trace (R := Grows cfg clock) (.refl cfg clock) .trans
      PairScanned.grows e
    exact ⟨grows.returns, grows.ewma, grows.opportunities⟩

/-- A pair that does not raise is scanned, and the visits that could follow it still can. -/
lemma scanPair_follow {cfg clock buyRow scan sellRow w}
    (h : Returns cfg scan.ewma
      ((if buyRow.exchange = sellRow.exchange then [] else [(buyRow, sellRow)]) ++ w)) :
    ∃ scan', scanPair cfg clock buyRow scan sellRow = .ok scan' ∧ Returns cfg scan'.ewma w := by
  unfold scanPair
  split at h
  case isTrue same => rw [if_pos same]; exact ⟨scan, rfl, h⟩
  case isFalse differ =>
    rw [if_neg differ]
    obtain ⟨returns, rest⟩ := h
    obtain ⟨verdict, e⟩ := returns (clockMs (clock (scan.opportunities.length + 1)))
    dsimp only
    rw [e]
    cases verdict with
    | rejected reason netSpreadPct => exact ⟨_, rfl, rest⟩
    | emitted opp => exact ⟨_, rfl, rest⟩

lemma scanSymbol_follow {cfg market clock scan symbol w}
    (h : Returns cfg scan.ewma
      (pairsOf (freshRows cfg (clockMs (clock 0)) market symbol) ++ w)) :
    ∃ scan', scanSymbol cfg market clock scan symbol = .ok scan' ∧ Returns cfg scan'.ewma w := by
  have hrows := gatherRows_fst cfg (clockMs (clock 0)) symbol market scan.rejections
  unfold scanSymbol
  rw [← hrows] at h
  generalize gatherRows cfg (clockMs (clock 0)) symbol market scan.rejections = gathered at h ⊢
  obtain ⟨rows, rejections⟩ := gathered
  dsimp only at h ⊢
  split
  case isTrue few =>
    rw [pairsOf_of_length_lt few] at h
    exact ⟨_, rfl, h⟩
  case isFalse =>
    rw [← flatMap_pairs] at h
    exact Loop.foldlM_follow (R := fun w (scan : Scan) => Returns cfg scan.ewma w)
      (fun scan buyRow w _ h => Loop.foldlM_follow
        (R := fun w (scan : Scan) => Returns cfg scan.ewma w)
        (fun scan sellRow w _ h => scanPair_follow h) h) h

/-- The scan visits `visits`. -/
theorem scanMarket_found {cfg engine market clock scan}
    (e : scanMarket cfg engine market clock = .ok scan) :
    Returns cfg engine.exchangeSlippageEwmaPct (visits cfg (clockMs (clock 0)) market) ∧
      scan.ewma = averagesAfter cfg engine.exchangeSlippageEwmaPct
        (visits cfg (clockMs (clock 0)) market) ∧
      scan.opportunities = stamped cfg clock 0 (found cfg engine.exchangeSlippageEwmaPct
        (visits cfg (clockMs (clock 0)) market)) := by
  have grows := Loop.foldlM_trace (R := Grows cfg clock) (.refl cfg clock) .trans
    (fun scan symbol scan' _ e => scanSymbol_grows e) e
  exact ⟨grows.returns, grows.ewma, grows.opportunities.trans (List.nil_append _)⟩

/-! ## `find_opportunities` -/

lemma rank_perm (opportunities : List Opportunity) : (rank opportunities).Perm opportunities :=
  List.perm_insertionSort _ _

lemma rank_pairwise (opportunities : List Opportunity) :
    (rank opportunities).Pairwise fun a b => b.expectedProfitUsdt ≤ a.expectedProfitUsdt := by
  have total : Std.Total fun a b : Opportunity => b.expectedProfitUsdt ≤ a.expectedProfitUsdt :=
    ⟨fun a b => le_total b.expectedProfitUsdt a.expectedProfitUsdt⟩
  have trans : IsTrans Opportunity fun a b => b.expectedProfitUsdt ≤ a.expectedProfitUsdt :=
    ⟨fun _ _ _ hab hbc => hbc.trans hab⟩
  exact List.pairwise_insertionSort _ _

/-- A call that returns has scanned the market, and kept the statistics of the scan. -/
lemma findOpportunities_scan {cfg engine market clock opps engine'}
    (e : findOpportunities cfg engine market clock = (.ok opps, engine')) :
    ∃ scan dist, scanMarket cfg engine market clock = .ok scan ∧
      distribution scan.netSpreadSamples = .ok dist ∧ opps = rank scan.opportunities ∧
      engine'.exchangeSlippageEwmaPct = scan.ewma ∧
      engine'.netSpreadDistributionLastCycle = some dist ∧
      engine'.rejectionCountsLastCycle = scan.rejections ∧
      engine'.rejectionCountsTotal = scan.rejections.entries.foldl
        (fun total (reason, n) => count total reason n) engine.rejectionCountsTotal := by
  unfold findOpportunities at e
  split at e
  case h_1 => cases e
  case h_2 scan hscan =>
    dsimp only at e
    split at e
    case h_1 => cases e
    case h_2 dist hdist =>
      cases e
      exact ⟨scan, dist, hscan, hdist, rfl, rfl, rfl, rfl, rfl⟩

/-- Inversion of `find_opportunities`. -/
theorem findOpportunities_ok {cfg engine market clock opps engine'}
    (e : findOpportunities cfg engine market clock = (.ok opps, engine')) :
    Returns cfg engine.exchangeSlippageEwmaPct (visits cfg (clockMs (clock 0)) market) ∧
      engine'.exchangeSlippageEwmaPct = averagesAfter cfg engine.exchangeSlippageEwmaPct
        (visits cfg (clockMs (clock 0)) market) ∧
      opps = rank (stamped cfg clock 0 (found cfg engine.exchangeSlippageEwmaPct
        (visits cfg (clockMs (clock 0)) market))) := by
  obtain ⟨scan, _, hscan, _, hrank, hewma, _⟩ := findOpportunities_scan e
  obtain ⟨returns, averages, hopps⟩ := scanMarket_found hscan
  exact ⟨returns, hewma.trans averages, hrank.trans (congrArg rank hopps)⟩

/-- The scan returns if no visit raises. -/
theorem findOpportunities_returns {cfg engine market clock}
    (returns : Returns cfg engine.exchangeSlippageEwmaPct (visits cfg (clockMs (clock 0)) market)) :
    ∃ opps engine', findOpportunities cfg engine market clock = (.ok opps, engine') := by
  obtain ⟨scan, hscan, _⟩ := Loop.foldlM_follow (f := scanSymbol cfg market clock) (l := cfg.symbols)
    (b := (⟨engine.exchangeSlippageEwmaPct, [], .empty, []⟩ : Scan)) (w := [])
    (R := fun w scan => Returns cfg scan.ewma w) (fun _ _ _ _ h => scanSymbol_follow h)
    (by rw [List.append_nil]; exact returns)
  obtain ⟨dist, hdist⟩ := distribution_total scan.netSpreadSamples
  unfold findOpportunities scanMarket
  rw [hscan]
  dsimp only
  rw [hdist]
  exact ⟨_, _, rfl⟩

/-- Without negative fees, `find_opportunities` returns. -/
theorem findOpportunities_total {cfg} (fees : FeesNonneg cfg) (engine market clock) :
    ∃ opps engine', findOpportunities cfg engine market clock = (.ok opps, engine') :=
  findOpportunities_returns (returns_of_fees fees _ _)

/-! ## The opportunities returned -/

/-- An entry of `found`: it is the judgement of a pair that is visited and passes. -/
structure Found (cfg : BotConfig) (ewma : OrdDict String ℚ) (visited : List Pair)
    (e : OrdDict String ℚ × Pair) : Prop where
  visit : ∃ pre post, visited = pre ++ e.2 :: post ∧ e.1 = averagesAfter cfg ewma (pre ++ [e.2])
  passes : Passes cfg e.1 e.2.1 e.2.2

lemma Found.mem {cfg ewma visited e} (f : Found cfg ewma visited e) : e.2 ∈ visited := by
  obtain ⟨pre, post, h, _⟩ := f.visit
  rw [h]
  simp

lemma averagesAfter_concat (cfg ewma) (v : List Pair) (p : Pair) :
    averagesAfter cfg ewma (v ++ [p]) = updateSlippages cfg (averagesAfter cfg ewma v) p.1 p.2 := by
  rw [averagesAfter_append]
  rfl

/-- `found` lists the judgements of the visits that pass. -/
lemma mem_found {cfg ewma visited} {e : OrdDict String ℚ × Pair} :
    e ∈ found cfg ewma visited ↔ Found cfg ewma visited e := by
  constructor
  · intro h
    induction visited generalizing ewma with
    | nil => cases h
    | cons p visited ih =>
      have later : e ∈ found cfg (updateSlippages cfg ewma p.1 p.2) visited →
          Found cfg ewma (p :: visited) e := fun h => by
        obtain ⟨⟨pre, post, hv, hewma⟩, passes⟩ := ih h
        exact ⟨⟨p :: pre, post, by rw [hv]; rfl, hewma⟩, passes⟩
      simp only [found] at h
      split at h
      case isTrue passes =>
        cases h with
        | head => exact ⟨⟨[], visited, rfl, rfl⟩, passes⟩
        | tail _ h => exact later h
      case isFalse => exact later h
  · rintro ⟨⟨pre, post, hv, hewma⟩, passes⟩
    obtain ⟨ewma', p⟩ := e
    dsimp only at hv hewma passes
    rw [averagesAfter_concat] at hewma
    subst hv hewma
    rw [found_append]
    refine List.mem_append_right _ ?_
    simp only [found, if_pos passes]
    exact List.mem_cons_self

lemma mem_stamped {cfg clock n es opp} (h : opp ∈ stamped cfg clock n es) :
    ∃ e ∈ es, ∃ timestampMs, opp = opportunityFor cfg timestampMs e := by
  obtain ⟨k, hk, rfl⟩ := List.mem_mapIdx.1 h
  exact ⟨es[k], List.getElem_mem hk, _, rfl⟩

/-- An opportunity returned is the judgement of a visited pair that passes. -/
theorem findOpportunities_found {cfg engine market clock opps engine' opp}
    (e : findOpportunities cfg engine market clock = (.ok opps, engine')) (h : opp ∈ opps) :
    ∃ j timestampMs, Found cfg engine.exchangeSlippageEwmaPct
        (visits cfg (clockMs (clock 0)) market) j ∧
      opp = opportunityFor cfg timestampMs j := by
  rw [(findOpportunities_ok e).2.2, (rank_perm _).mem_iff] at h
  obtain ⟨j, hj, timestampMs, built⟩ := mem_stamped h
  exact ⟨j, timestampMs, mem_found.1 hj, built⟩

/-- The judgement of a visited pair that passes is returned. -/
lemma findOpportunities_of_found {cfg engine market clock opps engine' j}
    (e : findOpportunities cfg engine market clock = (.ok opps, engine'))
    (f : Found cfg engine.exchangeSlippageEwmaPct (visits cfg (clockMs (clock 0)) market) j) :
    ∃ timestampMs, opportunityFor cfg timestampMs j ∈ opps := by
  obtain ⟨k, hk, hj⟩ := List.mem_iff_getElem.1 (mem_found.2 f)
  refine ⟨clockMs (clock (0 + k + 1)), ?_⟩
  rw [(findOpportunities_ok e).2.2, (rank_perm _).mem_iff, stamped, List.mem_mapIdx]
  exact ⟨k, hk, by rw [hj]⟩

/-! ## Calls as the steps of a machine -/

/-- What a call of `find_opportunities` is given: a market, and the readings of its clock. -/
structure Cycle where
  market : Market
  clock : ℕ → ℚ

/-- The engine with a fixed configuration. -/
def machine (cfg : BotConfig) :
    Machine OpportunityEngine Cycle (Except PyError (List Opportunity)) where
  step engine cycle :=
    let (result, engine') := findOpportunities cfg engine cycle.market cycle.clock
    (engine', result)

/-- One step of the machine is one call. -/
lemma findOpportunities_eq (cfg engine) (cycle : Cycle) :
    findOpportunities cfg engine cycle.market cycle.clock =
      ((machine cfg).out engine cycle, (machine cfg).next engine cycle) := rfl

end ArbBot.OpportunityEngine
