import ArbBot.Executor.Answers
import ArbBot.Executor.RiskGate
import ArbBot.Lib.Spacing

/-!
# The route cooldown

`last_trade_at` is a dictionary from route keys to time stamps, and a route key is a string put
together of three names. `routeKey_eq_iff` says that the key is injective as long as no exchange name
contains one of the separators. Then the dictionary holds the time of the last success of each route
(`CooldownInv.stamp`), the successes of each route are spaced (`CooldownInv.spaced`, by `Lib/Spacing`), and
`cooldown_exact` follows: two successes of a route are at least `trade_cooldown_sec` apart, in call order,
and the cooldown answers exactly on the routes that have succeeded too recently.

A call that meets the cooldown counts as a failed one, so that it feeds the circuit breaker.
`cooldown_breaker` says what that comes to on a bot that otherwise only succeeds: it is blocked as
soon as there have been `max_consecutive_failures` such calls in a row.
-/

namespace ArbBot.PaperExecutor

/-! ## Route keys -/

/-- The name contains neither of the two separators of a route key. -/
def PlainName (exchange : String) : Prop :=
  ':' ∉ exchange.toList ∧ ¬['-', '>'] <:+: exchange.toList

/-- Both exchanges of the opportunity have plain names. -/
def Plain (opp : Opportunity) : Prop := PlainName opp.buyExchange ∧ PlainName opp.sellExchange

instance (exchange : String) : Decidable (PlainName exchange) := inferInstanceAs (Decidable (_ ∧ _))

instance (opp : Opportunity) : Decidable (Plain opp) := inferInstanceAs (Decidable (_ ∧ _))

/-- The opportunities are for the same symbol and exchanges. -/
def SameRoute (a b : Opportunity) : Prop :=
  a.symbol = b.symbol ∧ a.buyExchange = b.buyExchange ∧ a.sellExchange = b.sellExchange

instance (a b : Opportunity) : Decidable (SameRoute a b) := inferInstanceAs (Decidable (_ ∧ _))

/-- A text is cut in one way at a separator that does not occur behind it. -/
lemma append_cons_inj {α : Type*} {c : α} {x x' y y' : List α} (hy : c ∉ y) (hy' : c ∉ y')
    (e : x ++ c :: y = x' ++ c :: y') : x = x' ∧ y = y' := by
  rcases List.append_eq_append_iff.1 e with ⟨a, rfl, ha⟩ | ⟨a, rfl, ha⟩
  · cases a with
    | nil => exact ⟨(List.append_nil x).symm, List.tail_eq_of_cons_eq ha⟩
    | cons d a =>
      refine absurd ?_ hy
      rw [List.tail_eq_of_cons_eq ha]
      simp
  · cases a with
    | nil => exact ⟨List.append_nil x', (List.tail_eq_of_cons_eq ha).symm⟩
    | cons d a =>
      refine absurd ?_ hy'
      rw [List.tail_eq_of_cons_eq ha]
      simp

/-- A text is cut in one way at a separator of two different characters that does not occur before
it. -/
lemma append_cons_cons_inj {α : Type*} {c d : α} {x x' y y' : List α} (hcd : c ≠ d)
    (hx : ¬[c, d] <:+: x) (hx' : ¬[c, d] <:+: x') (e : x ++ c :: d :: y = x' ++ c :: d :: y') :
    x = x' ∧ y = y' := by
  -- the longer one of the two texts before the cut would contain the separator
  have longer : ∀ {x a y y' : List α}, ¬[c, d] <:+: x ++ a → c :: d :: y = a ++ c :: d :: y' →
      a = [] ∧ y = y' := by
    intro x a y y' hx ha
    match a with
    | [] => exact ⟨rfl, by simpa using ha⟩
    | [b] =>
      simp only [List.cons_append, List.nil_append, List.cons.injEq] at ha
      exact absurd ha.2.1.symm hcd
    | b :: b' :: a =>
      simp only [List.cons_append, List.cons.injEq] at ha
      obtain ⟨rfl, rfl, _⟩ := ha
      exact absurd ⟨x, a, by simp⟩ hx
  rcases List.append_eq_append_iff.1 e with ⟨a, rfl, ha⟩ | ⟨a, rfl, ha⟩
  · obtain ⟨rfl, rfl⟩ := longer hx' ha
    exact ⟨(List.append_nil x).symm, rfl⟩
  · obtain ⟨rfl, rfl⟩ := longer hx ha
    exact ⟨List.append_nil x', rfl⟩

lemma toList_routeKey (opp : Opportunity) : (routeKey opp).toList =
    opp.symbol.toList ++ ':' :: (opp.buyExchange.toList ++ '-' :: '>' :: opp.sellExchange.toList) := by
  simp [routeKey, String.toList_append]

lemma Plain.not_mem {opp} (plain : Plain opp) :
    ':' ∉ opp.buyExchange.toList ++ '-' :: '>' :: opp.sellExchange.toList := by
  simp [plain.1.1, plain.2.1]

/-- On plain names the route key is injective. -/
theorem routeKey_eq_iff {a b : Opportunity} (ha : Plain a) (hb : Plain b) :
    routeKey a = routeKey b ↔ SameRoute a b := by
  constructor
  · intro e
    have h := congrArg String.toList e
    rw [toList_routeKey, toList_routeKey] at h
    obtain ⟨hsymbol, h⟩ := append_cons_inj ha.not_mem hb.not_mem h
    obtain ⟨hbuy, hsell⟩ := append_cons_cons_inj (by decide) ha.1.2 hb.1.2 h
    exact ⟨String.toList_inj.1 hsymbol, String.toList_inj.1 hbuy, String.toList_inj.1 hsell⟩
  · rintro ⟨hsymbol, hbuy, hsell⟩
    rw [routeKey, routeKey, hsymbol, hbuy, hsell]

/-! ## Histories -/

/-- A call that succeeded, with its clock reading. -/
def successOf : Op × Event → Option (ℚ × Opportunity)
  | (.execute nowTs opp, .traded _ r) => if r.success then some (nowTs, opp) else none
  | _ => none

/-- The successful calls of a run, in order. -/
def successes (cfg : BotConfig) (s₀ : PaperExecutor) (ops : List Op) : List (ℚ × Opportunity) :=
  ((machine cfg).trace s₀ ops).filterMap successOf

/-- The clock reading of the last success of a route in a history. -/
def lastSuccess (history : List (ℚ × Opportunity)) (opp : Opportunity) : Option ℚ :=
  ((history.filter fun h => SameRoute h.2 opp).getLast?).map Prod.fst

/-- The exchange names of the opportunity of a call are plain. -/
def Op.Plain : Op → Prop
  | .execute _ opp => PaperExecutor.Plain opp
  | .rebalance _ _ => True

lemma lastSuccess_concat (history nowTs) (opp opp' : Opportunity) :
    lastSuccess (history ++ [(nowTs, opp)]) opp' =
      if SameRoute opp opp' then some nowTs else lastSuccess history opp' := by
  unfold lastSuccess
  rw [List.filter_append]
  split
  case isTrue h => simp [h]
  case isFalse h => simp [h]

/-- A step is no success and leaves the time stamps alone, or it is one, past its cooldown, and stamps
its route. -/
lemma Step.stamps {cfg s op ev s'} (st : Step cfg s op ev s') :
    (successOf (op, ev) = none ∧ s'.lastTradeAt = s.lastTradeAt) ∨
    ∃ nowTs opp, op = .execute nowTs opp ∧ successOf (op, ev) = some (nowTs, opp) ∧
      ¬cooldownActive cfg s opp nowTs ∧
      s'.lastTradeAt = s.lastTradeAt.set (routeKey opp) nowTs := by
  cases st with
  | executeRaised => exact .inl ⟨rfl, rfl⟩
  | rebalanceRaised => exact .inl ⟨rfl, rfl⟩
  | idle => exact .inl ⟨rfl, rfl⟩
  | shipped => exact .inl ⟨rfl, rfl⟩
  | called call =>
    cases call with
    | refused => exact .inl ⟨rfl, rfl⟩
    | rehearsed _ adm => exact .inr ⟨_, _, rfl, rfl, adm.cooled, rfl⟩
    | booked _ adm => exact .inr ⟨_, _, rfl, rfl, adm.cooled, rfl⟩

/-! ## Runs -/

/-- What the time stamps say after a run. -/
structure CooldownInv (cfg : BotConfig) (s : PaperExecutor) (history : List (ℚ × Opportunity)) :
    Prop where
  plain : ∀ h ∈ history, Plain h.2
  stamp : ∀ opp, Plain opp → s.lastTradeAt.get? (routeKey opp) = lastSuccess history opp
  spaced : ∀ opp, Spaced Prod.fst cfg.tradeCooldownSec (history.filter fun h => SameRoute h.2 opp)

lemma SameRoute.trans {a b c : Opportunity} (hab : SameRoute a b) (hbc : SameRoute b c) :
    SameRoute a c :=
  ⟨hab.1.trans hbc.1, hab.2.1.trans hbc.2.1, hab.2.2.trans hbc.2.2⟩

lemma SameRoute.symm {a b : Opportunity} (hab : SameRoute a b) : SameRoute b a :=
  ⟨hab.1.symm, hab.2.1.symm, hab.2.2.symm⟩

lemma CooldownInv.concat {cfg s history nowTs opp s'} (inv : CooldownInv cfg s history)
    (cooldown : 0 ≤ cfg.tradeCooldownSec) (plain : Plain opp)
    (cooled : ¬cooldownActive cfg s opp nowTs)
    (stamped : s'.lastTradeAt = s.lastTradeAt.set (routeKey opp) nowTs) :
    CooldownInv cfg s' (history ++ [(nowTs, opp)]) where
  plain h hh := by
    rw [List.mem_append, List.mem_singleton] at hh
    rcases hh with hh | rfl
    · exact inv.plain h hh
    · exact plain
  stamp opp' plain' := by
    rw [stamped, OrdDict.get?_set, lastSuccess_concat, inv.stamp opp' plain']
    by_cases h : SameRoute opp opp'
    · rw [if_pos h, if_pos ((routeKey_eq_iff plain' plain).2 h.symm)]
    · rw [if_neg h, if_neg fun e => h ((routeKey_eq_iff plain' plain).1 e).symm]
  spaced opp' := by
    rw [List.filter_append]
    by_cases route : SameRoute opp opp'
    · have same : (history.filter fun h => SameRoute h.2 opp') = history.filter fun h => SameRoute h.2 opp :=
        List.filter_congr fun h _ => decide_eq_decide.2 ⟨fun r => r.trans route.symm, fun r => r.trans route⟩
      rw [List.filter_singleton, decide_eq_true route, same]
      refine (inv.spaced opp).concat cooldown fun last mem => not_lt.1 fun hot => cooled ⟨last.1, ?_, hot⟩
      rw [inv.stamp opp plain]
      exact Option.mem_map_of_mem Prod.fst mem
    · rw [List.filter_singleton, decide_eq_false route]
      exact (List.append_nil _).symm ▸ inv.spaced opp'

/-- The successes of a route are apart. -/
lemma CooldownInv.apart {cfg s history} (inv : CooldownInv cfg s history) :
    history.Pairwise fun a b => SameRoute a.2 b.2 → cfg.tradeCooldownSec ≤ b.1 - a.1 := by
  refine List.pairwise_iff_forall_sublist.2 fun {a b} sub route => ?_
  have self : SameRoute b.2 b.2 := ⟨rfl, rfl, rfl⟩
  have pair : [a, b].Sublist (history.filter fun h => SameRoute h.2 b.2) := by
    have kept := sub.filter fun h => SameRoute h.2 b.2
    simpa [route, self] using kept
  exact (List.pairwise_cons.1 ((inv.spaced b.2).sublist pair)).1 b List.mem_cons_self

/-- The time stamps after a run are those of the last successes. -/
lemma cooldownInv {cfg s₀} (fresh : Fresh cfg s₀) (cooldown : 0 ≤ cfg.tradeCooldownSec)
    {ops : List Op} (plain : ∀ op ∈ ops, op.Plain) :
    CooldownInv cfg ((machine cfg).run s₀ ops) (successes cfg s₀ ops) := by
  induction ops using List.reverseRecOn with
  | nil =>
    have hnone : successes cfg s₀ [] = [] := rfl
    rw [hnone, Machine.run_nil]
    refine ⟨fun _ h => absurd h List.not_mem_nil, fun opp _ => ?_, fun opp => .nil⟩
    rw [fresh.lastTradeAt, OrdDict.get?_empty]
    rfl
  | append_singleton ops op ih =>
    have inv := ih fun op hop => plain op (List.mem_append_left _ hop)
    rw [successes, Machine.trace_concat, List.filterMap_append, ← successes, Machine.run_concat]
    rcases (next_step cfg ((machine cfg).run s₀ ops) op).stamps with
      ⟨silent, stamped⟩ | ⟨nowTs, opp, rfl, success, cooled, stamped⟩
    · rw [List.filterMap_cons_none silent, List.filterMap_nil, List.append_nil]
      exact ⟨inv.plain, by rw [stamped]; exact inv.stamp, inv.spaced⟩
    · rw [List.filterMap_cons_some success, List.filterMap_nil]
      exact inv.concat cooldown (plain (.execute nowTs opp) (by simp)) cooled stamped

/-- An executor that is not blocked answers `cooldown_active` exactly while the route cools down. -/
lemma cooldown_answers {cfg s nowTs opp} (free : s.risk.blocked = false) :
    (∃ r s', execute cfg s nowTs opp = .ok (r, s') ∧ r.reason = .cooldownActive) ↔
      cooldownActive cfg s opp nowTs := by
  constructor
  · rintro ⟨r, s', e, reason⟩
    cases execute_answer e with
    | blocked hb => rw [free] at hb; cases hb
    | cooling _ hot => exact hot
    | rejected _ _ other => exact absurd reason other
    | cancelled => cases reason
    | accepted _ _ other => exact absurd reason other
  · intro hot
    refine ⟨tradeResult opp false .cooldownActive 0, { s with risk := countFailure cfg s.risk }, ?_,
      rfl⟩
    rw [execute, if_neg (by rw [free]; exact Bool.false_ne_true), if_pos hot]
    rfl

/-- The cooldown is enforced exactly. In a run from a fresh executor with plain exchange names, two
successes of one route are at least `trade_cooldown_sec` apart, and an executor that is not blocked
answers `cooldown_active` exactly when less than that has passed since the last success of the route. -/
theorem cooldown_exact {cfg s₀} (hinit : init cfg = .ok s₀) (cooldown : 0 ≤ cfg.tradeCooldownSec)
    {ops : List Op} (plain : ∀ op ∈ ops, op.Plain) :
    (successes cfg s₀ ops).Pairwise
      (fun a b => SameRoute a.2 b.2 → cfg.tradeCooldownSec ≤ b.1 - a.1) ∧
    (((machine cfg).run s₀ ops).risk.blocked = false → ∀ nowTs opp, Plain opp →
      ((∃ r s', execute cfg ((machine cfg).run s₀ ops) nowTs opp = .ok (r, s') ∧
          r.reason = .cooldownActive) ↔
        ∃ lastTs ∈ lastSuccess (successes cfg s₀ ops) opp, nowTs - lastTs < cfg.tradeCooldownSec)) := by
  have inv := cooldownInv (init_fresh hinit) cooldown plain
  refine ⟨inv.apart, fun free nowTs opp hopp => (cooldown_answers free).trans ?_⟩
  rw [cooldownActive, inv.stamp opp hopp]

/-- The sample route at a size that two trades can afford. -/
def smallRoute : Opportunity := { sampleRoute with quantity := 1 / 200 }

/-- Two trades of one route, nine seconds apart, with the default cooldown of eight. -/
theorem cooldown_exact_sample :
    ∃ s₀, init defaultConfig = .ok s₀ ∧
      (successes defaultConfig s₀ [.execute 0 smallRoute, .execute 9 smallRoute]).length = 2 ∧
      (successes defaultConfig s₀ [.execute 0 smallRoute, .execute 9 smallRoute]).Pairwise
        fun a b => SameRoute a.2 b.2 → defaultConfig.tradeCooldownSec ≤ b.1 - a.1 := by
  obtain ⟨s₀, hinit, htwo⟩ := Loop.exists_ok_of_any (x := init defaultConfig)
    (p := fun s₀ => (successes defaultConfig s₀
      [.execute 0 smallRoute, .execute 9 smallRoute]).length = 2) (by decide +kernel)
  have plain : ∀ op ∈ [Op.execute 0 smallRoute, Op.execute 9 smallRoute], op.Plain := by
    have h : Plain smallRoute := by decide +kernel
    simpa [Op.Plain] using h
  exact ⟨s₀, hinit, of_decide_eq_true htwo, (cooldown_exact hinit (by decide +kernel) plain).1⟩

/-! ## The cooldown and the circuit breaker -/

/-- The call succeeded, or it was refused because its route is cooling down. -/
def Healthy : Event → Prop
  | .traded _ r => r.success = true ∨ r.reason = .cooldownActive
  | .rebalanced _ _ => False
  | .raised _ => False

instance : DecidablePred Healthy
  | .traded _ r => inferInstanceAs (Decidable (r.success = true ∨ r.reason = .cooldownActive))
  | .rebalanced _ _ => inferInstanceAs (Decidable False)
  | .raised _ => inferInstanceAs (Decidable False)

/-- A healthy step is a call of `execute` that returns. -/
lemma healthy_answer {cfg s op} (healthy : Healthy ((machine cfg).out s op)) :
    ∃ nowTs opp r, (machine cfg).out s op = .traded opp r ∧
      Answer cfg s nowTs opp r ((machine cfg).next s op) ∧
      (r.success = true ∨ r.reason = .cooldownActive) := by
  cases op with
  | execute nowTs opp =>
    simp only [Machine.next, Machine.out, machine, step] at healthy ⊢
    cases e : execute cfg s nowTs opp with
    | error _ => rw [e] at healthy; cases healthy
    | ok p => rw [e] at healthy; exact ⟨nowTs, opp, p.1, rfl, execute_answer e, healthy⟩
  | rebalance nowTs symbol =>
    simp only [Machine.out, machine, step] at healthy
    cases e : rebalanceSymbolInventory cfg s nowTs symbol with
    | error _ => rw [e] at healthy; cases healthy
    | ok p => rw [e] at healthy; cases healthy

/-- On healthy calls above the loss limit, the breaker counts the refusals in a row. -/
lemma breaker_counts {cfg s₀} (fresh : Fresh cfg s₀) (hmax : 1 ≤ cfg.maxConsecutiveFailures)
    {ops : List Op} (healthy : ∀ ev ∈ (machine cfg).outs s₀ ops, Healthy ev)
    (above : ∀ pre, pre <+: ops →
      -maxLoss cfg < ((machine cfg).run s₀ pre).risk.realizedPnlUsdt) :
    ((machine cfg).run s₀ ops).risk.consecutiveFailures = streak ((machine cfg).outs s₀ ops) ∧
    (((machine cfg).run s₀ ops).risk.blocked = true ↔
      cfg.maxConsecutiveFailures ≤ streak ((machine cfg).outs s₀ ops)) := by
  induction ops using List.reverseRecOn with
  | nil =>
    have hzero : streak ((machine cfg).outs s₀ []) = 0 := rfl
    rw [hzero, Machine.run_nil, fresh.risk]
    exact ⟨rfl, iff_of_false Bool.false_ne_true (by push_cast; omega)⟩
  | append_singleton ops op ih =>
    have houts : (machine cfg).outs s₀ (ops ++ [op]) =
        (machine cfg).outs s₀ ops ++ [(machine cfg).out ((machine cfg).run s₀ ops) op] :=
      Machine.outs_append ops [op]
    rw [houts] at healthy ⊢
    obtain ⟨count, block⟩ := ih (fun ev hev => healthy ev (List.mem_append_left _ hev))
      fun pre hpre => above pre (hpre.trans (List.prefix_append _ _))
    have habove := above (ops ++ [op]) List.prefix_rfl
    obtain ⟨nowTs, opp, r, hout, answer, hr⟩ :=
      healthy_answer (healthy _ (List.mem_append_right _ List.mem_cons_self))
    rw [Machine.run_concat] at habove ⊢
    rw [hout]
    generalize (machine cfg).next ((machine cfg).run s₀ ops) op = s' at habove answer ⊢
    cases answer with
    | cooling free =>
      rw [streak_concat_failure rfl rfl, countFailure_consecutiveFailures, countFailure_blocked,
        count, free]
      exact ⟨rfl, or_iff_right Bool.false_ne_true⟩
    | accepted _ _ _ counted =>
      rw [streak_concat_success rfl rfl]
      refine ⟨counted.consecutiveFailures, iff_of_false (fun hb => ?_) (by push_cast; omega)⟩
      exact absurd (counted.blocked hb) (not_le.2 habove)
    -- the other exits answer neither
    | blocked =>
      cases hreason : ((machine cfg).run s₀ ops).risk.blockedReason <;>
        simp [tradeResult, hreason] at hr
    | rejected _ _ other => exact absurd (hr.resolve_left Bool.false_ne_true) other
    | cancelled => cases hr.resolve_left Bool.false_ne_true

/-- The cooldown does trip the circuit breaker. In a run from a fresh executor whose calls succeed or
meet the cooldown, and whose PnL stays above the loss limit, the executor is blocked in a state
exactly when the run up to it ends with `max_consecutive_failures` refusals in a row. -/
theorem cooldown_breaker {cfg s₀} (hinit : init cfg = .ok s₀) (hmax : 1 ≤ cfg.maxConsecutiveFailures)
    {ops : List Op} (healthy : ∀ ev ∈ (machine cfg).outs s₀ ops, Healthy ev)
    (above : ∀ pre, pre <+: ops →
      -maxLoss cfg < ((machine cfg).run s₀ pre).risk.realizedPnlUsdt) :
    ∀ pre, pre <+: ops → (((machine cfg).run s₀ pre).risk.blocked = true ↔
      cfg.maxConsecutiveFailures ≤ streak ((machine cfg).outs s₀ pre)) := by
  rintro pre ⟨post, rfl⟩
  rw [Machine.outs_append] at healthy
  exact (breaker_counts (init_fresh hinit) hmax
    (fun ev hev => healthy ev (List.mem_append_left _ hev))
    fun pre' hpre => above pre' (hpre.trans (List.prefix_append pre post))).2

/-- A trade, and then the same route again and again while it cools down. -/
def pollingRun (n : ℕ) : List Op :=
  .execute 0 sampleRoute :: List.replicate n (.execute 1 sampleRoute)

/-- The run of `n` polls is healthy and above the loss limit. -/
def pollsHealthily (n : ℕ) (s₀ : PaperExecutor) : Bool :=
  ((machine defaultConfig).outs s₀ (pollingRun n)).all (Healthy ·) &&
    (pollingRun n).inits.all fun pre =>
      -maxLoss defaultConfig < ((machine defaultConfig).run s₀ pre).risk.realizedPnlUsdt

lemma pollsHealthily_spec {n s₀} (h : pollsHealthily n s₀ = true) :
    (∀ ev ∈ (machine defaultConfig).outs s₀ (pollingRun n), Healthy ev) ∧
      ∀ pre, pre <+: pollingRun n →
        -maxLoss defaultConfig < ((machine defaultConfig).run s₀ pre).risk.realizedPnlUsdt := by
  obtain ⟨healthy, above⟩ := (Bool.and_eq_true_iff).1 h
  exact ⟨fun ev hev => of_decide_eq_true (List.all_eq_true.1 healthy ev hev), fun pre hpre =>
    of_decide_eq_true (List.all_eq_true.1 above pre ((List.mem_inits _ _).2 hpre))⟩

/-- Seven polls do not trip the default breaker. -/
theorem cooldown_breaker_sample :
    ∃ s₀, init defaultConfig = .ok s₀ ∧
      (((machine defaultConfig).run s₀ (pollingRun 7)).risk.blocked = true ↔
        defaultConfig.maxConsecutiveFailures ≤
          streak ((machine defaultConfig).outs s₀ (pollingRun 7))) := by
  obtain ⟨s₀, hinit, h⟩ := Loop.exists_ok_of_any (x := init defaultConfig) (p := pollsHealthily 7)
    (by decide +kernel)
  obtain ⟨healthy, above⟩ := pollsHealthily_spec h
  exact ⟨s₀, hinit, cooldown_breaker hinit (by decide) healthy above _ List.prefix_rfl⟩

/-- Eight do: the route is cooling down, and nothing else is wrong. -/
theorem cooldown_trips_breaker :
    ∃ s₀ ops, init defaultConfig = .ok s₀ ∧ 1 ≤ defaultConfig.maxConsecutiveFailures ∧
      (∀ ev ∈ (machine defaultConfig).outs s₀ ops, Healthy ev) ∧
      (∀ pre, pre <+: ops →
        -maxLoss defaultConfig < ((machine defaultConfig).run s₀ pre).risk.realizedPnlUsdt) ∧
      ((machine defaultConfig).run s₀ ops).risk.blocked = true := by
  obtain ⟨s₀, hinit, h⟩ := Loop.exists_ok_of_any (x := init defaultConfig)
    (p := fun s₀ => pollsHealthily 8 s₀ &&
      ((machine defaultConfig).run s₀ (pollingRun 8)).risk.blocked) (by decide +kernel)
  obtain ⟨h, blocked⟩ := (Bool.and_eq_true_iff).1 h
  obtain ⟨healthy, above⟩ := pollsHealthily_spec h
  exact ⟨s₀, pollingRun 8, hinit, by decide, healthy, above, blocked⟩

end ArbBot.PaperExecutor
