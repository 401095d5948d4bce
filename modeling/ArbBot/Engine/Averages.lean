import ArbBot.Engine.Inversion
import ArbBot.Lib.Smoothing

/-!
# The slippage averages of a scan

What the visits of a scan do to `exchange_slippage_ewma_pct`. Each visit observes the impact of one
exchange as the place to buy and of another as the place to sell (`updatesOf`); `observations` lists
what is observed of one exchange, in order. `get?_averagesAfter` says that the averages after some
visits are the smoothed observations, so that they stay in range: `InRange` says that the average of
an exchange lies between the least and the greatest of the average at the start and the impacts
observed, and `averagesAfter_inRange` that this is so at every point of a scan.
-/

namespace ArbBot.OpportunityEngine

/-- The updates of the averages that a visit makes. -/
def updatesOf (p : Pair) : List (String × ℚ) :=
  [(p.1.exchange, dynamicBuySlippagePct p.1), (p.2.exchange, dynamicSellSlippagePct p.2)]

/-- The impacts that some visits observe of an exchange. -/
def observations (exchange : String) (visited : List Pair) : List ℚ :=
  ((visited.flatMap updatesOf).filter fun u => u.1 = exchange).map Prod.snd

lemma mem_observations {exchange visited x} :
    x ∈ observations exchange visited ↔ ∃ p ∈ visited, (exchange, x) ∈ updatesOf p := by
  simp only [observations, List.mem_map, List.mem_filter, List.mem_flatMap, decide_eq_true_eq,
    Prod.exists, exists_eq_right]

lemma observations_append (exchange) (v w : List Pair) :
    observations exchange (v ++ w) = observations exchange v ++ observations exchange w := by
  simp only [observations, List.flatMap_append, List.filter_append, List.map_append]

lemma observations_flatMap {α} (exchange) (l : List α) (g : α → List Pair) :
    observations exchange (l.flatMap g) = l.flatMap fun a => observations exchange (g a) := by
  induction l with
  | nil => rfl
  | cons a l ih => rw [List.flatMap_cons, List.flatMap_cons, observations_append, ih]

lemma observations_perm (exchange) {v w : List Pair} (h : v.Perm w) :
    (observations exchange v).Perm (observations exchange w) :=
  ((h.flatMap_right _).filter _).map _

lemma dynamicBuySlippagePct_nonneg (buyRow) : 0 ≤ dynamicBuySlippagePct buyRow := by
  unfold dynamicBuySlippagePct
  split
  · exact le_max_left _ _
  · exact le_rfl

lemma dynamicSellSlippagePct_nonneg (sellRow) : 0 ≤ dynamicSellSlippagePct sellRow := by
  unfold dynamicSellSlippagePct
  split
  · exact le_max_left _ _
  · exact le_rfl

lemma observations_nonneg {exchange visited x} (h : x ∈ observations exchange visited) : 0 ≤ x := by
  obtain ⟨p, _, hp⟩ := mem_observations.1 h
  simp only [updatesOf, List.mem_cons, Prod.mk.injEq, List.not_mem_nil, or_false] at hp
  rcases hp with ⟨_, rfl⟩ | ⟨_, rfl⟩
  · exact dynamicBuySlippagePct_nonneg _
  · exact dynamicSellSlippagePct_nonneg _

/-! ## The averages of a new engine -/

/-- Every configured exchange starts with the configured slippage. -/
lemma init_get? (cfg exchange) :
    (init cfg).exchangeSlippageEwmaPct.get? exchange =
      if exchange ∈ cfg.exchanges then some (max 0 cfg.slippagePct) else none := by
  suffices h : ∀ (exchanges : List String) (ewma : OrdDict String ℚ),
      (exchanges.foldl (fun ewma ex => ewma.set ex (max 0 cfg.slippagePct)) ewma).get? exchange =
        if exchange ∈ exchanges then some (max 0 cfg.slippagePct) else ewma.get? exchange from
    h cfg.exchanges .empty
  intro exchanges
  induction exchanges with
  | nil => exact fun _ => rfl
  | cons ex exchanges ih =>
    intro ewma
    rw [List.foldl_cons, ih, OrdDict.get?_set]
    simp only [List.mem_cons]
    by_cases later : exchange ∈ exchanges
    · rw [if_pos later, if_pos (.inr later)]
    · by_cases here : exchange = ex
      · rw [if_neg later, if_pos here, if_pos (.inl here)]
      · rw [if_neg later, if_neg here, if_neg (not_or.2 ⟨here, later⟩)]

/-! ## The averages after some visits -/

/-- The averages after some updates. -/
def updateAll (cfg : BotConfig) (ewma : OrdDict String ℚ) (updates : List (String × ℚ)) :
    OrdDict String ℚ :=
  updates.foldl (fun ewma u => updateExchangeSlippage cfg ewma u.1 u.2) ewma

lemma averagesAfter_eq (cfg ewma) (v : List Pair) :
    averagesAfter cfg ewma v = updateAll cfg ewma (v.flatMap updatesOf) := by
  induction v generalizing ewma with
  | nil => rfl
  | cons p v ih => exact ih _

/-- One update is one step of the average of its exchange. -/
lemma get?_updateExchangeSlippage (cfg ewma ex observed exchange) :
    (updateExchangeSlippage cfg ewma ex observed).get? exchange =
      if exchange = ex then some (smooth (1 / 4) observed (ewma.getD ex cfg.slippagePct))
      else ewma.get? exchange :=
  OrdDict.get?_set ..

/-- The average of an exchange after some updates: the updates of that exchange, smoothed. -/
lemma get?_updateAll (cfg ewma exchange) (updates : List (String × ℚ)) :
    (updateAll cfg ewma updates).get? exchange =
      if (updates.filter fun u => u.1 = exchange) = [] then ewma.get? exchange
      else some (smoothAll (1 / 4) ((updates.filter fun u => u.1 = exchange).map Prod.snd)
        (ewma.getD exchange cfg.slippagePct)) := by
  induction updates generalizing ewma with
  | nil => rfl
  | cons u updates ih =>
    obtain ⟨ex, observed⟩ := u
    have step := ih (updateExchangeSlippage cfg ewma ex observed)
    rw [OrdDict.getD, get?_updateExchangeSlippage] at step
    by_cases h : exchange = ex
    · -- an update of this exchange starts the average of the rest
      subst h
      rw [if_pos rfl] at step
      have keep : ((exchange, observed) :: updates).filter (fun u => u.1 = exchange) =
          (exchange, observed) :: updates.filter fun u => u.1 = exchange :=
        List.filter_cons_of_pos (by simp)
      rw [keep, if_neg (List.cons_ne_nil _ _)]
      refine step.trans ?_
      split
      case isTrue none => rw [none]; rfl
      case isFalse => rfl
    · rw [if_neg h] at step
      rw [List.filter_cons_of_neg (by simpa using fun e => h e.symm)]
      exact step

lemma get?_averagesAfter (cfg ewma exchange) (v : List Pair) :
    (averagesAfter cfg ewma v).get? exchange =
      if observations exchange v = [] then ewma.get? exchange
      else some (smoothAll (1 / 4) (observations exchange v)
        (ewma.getD exchange cfg.slippagePct)) := by
  rw [averagesAfter_eq, get?_updateAll]
  simp only [observations, List.map_eq_nil_iff]

/-! ## The range of an average -/

/-- The average of an exchange at the start, and the impacts that some visits observe of it. -/
def rangeOf (cfg : BotConfig) (ewma : OrdDict String ℚ) (visited : List Pair) (exchange : String) :
    Set ℚ :=
  {x | x = ewma.getD exchange cfg.slippagePct ∨ x ∈ observations exchange visited}

/-- The average of an exchange lies between the least and the greatest of the average at the start
and the impacts observed. -/
def InRange (cfg : BotConfig) (ewma : OrdDict String ℚ) (visited : List Pair) (exchange : String)
    (ewma' : OrdDict String ℚ) : Prop :=
  ∃ x, ewma'.get? exchange = some x ∧ Spanned (rangeOf cfg ewma visited exchange) x

/-- An exchange that was observed has an average in range. -/
lemma averagesAfter_inRange {cfg ewma exchange} {pre visited : List Pair} (hpre : pre ⊆ visited)
    (observed : observations exchange pre ≠ []) :
    InRange cfg ewma visited exchange (averagesAfter cfg ewma pre) := by
  refine ⟨_, (get?_averagesAfter ..).trans (if_neg observed), ?_⟩
  refine spanned_smoothAll (by norm_num) (by norm_num) (.inl rfl) fun x hx => ?_
  obtain ⟨p, hp, hup⟩ := mem_observations.1 hx
  exact ⟨.inr (mem_observations.2 ⟨p, hpre hp, hup⟩), observations_nonneg hx⟩

lemma observations_ne_nil_of_mem {exchange visited} {p : Pair} (hp : p ∈ visited)
    (h : exchange = p.1.exchange ∨ exchange = p.2.exchange) :
    observations exchange visited ≠ [] := by
  refine List.ne_nil_of_mem (a := if exchange = p.1.exchange then dynamicBuySlippagePct p.1
    else dynamicSellSlippagePct p.2) (mem_observations.2 ⟨p, hp, ?_⟩)
  by_cases e : exchange = p.1.exchange
  · rw [if_pos e, e]; exact List.mem_cons_self
  · rw [if_neg e, h.resolve_left e]; exact List.mem_cons_of_mem _ List.mem_cons_self

end ArbBot.OpportunityEngine
