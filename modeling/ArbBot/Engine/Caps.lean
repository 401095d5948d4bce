import ArbBot.Engine.Filters

/-!
# The caps of a trade

`min_nonzero` takes the least positive one of the sizes that a trade is limited to. For the sizes that
the market reports zero means unknown; the two caps of the operator go through the same minimum, where
a cap of zero is dropped like an unknown size. `caps_respected_iff` says that a positive cap holds,
and that a cap of zero never does.
-/

namespace ArbBot.OpportunityEngine

/-- The opportunity respects both caps. -/
def WithinCaps (cfg : BotConfig) (opp : Opportunity) : Prop :=
  opp.quantity * opp.buyPrice ≤ cfg.capitalPerTradeUsdt ∧ opp.quantity ≤ cfg.maxPositionPerSymbol

instance (cfg : BotConfig) (opp : Opportunity) : Decidable (WithinCaps cfg opp) :=
  inferInstanceAs (Decidable (_ ∧ _))

/-- A positive capital cap limits the quantity. -/
lemma quantity_mul_le_capital {cfg} {legs : Legs} (price : 0 < legs.buyPrice)
    (capital : 0 < cfg.capitalPerTradeUsdt) (buyRow sellRow) :
    quantity cfg legs buyRow sellRow * legs.buyPrice ≤ cfg.capitalPerTradeUsdt := by
  rw [← le_div_iff₀ price]
  exact minNonzero_le (by simp [qtyConstraints]) (div_pos capital price)

/-- A positive position cap limits the quantity. -/
lemma quantity_le_position {cfg} (position : 0 < cfg.maxPositionPerSymbol) (legs buyRow sellRow) :
    quantity cfg legs buyRow sellRow ≤ cfg.maxPositionPerSymbol :=
  minNonzero_le (by simp [qtyConstraints]) position

/-- An opportunity respects the caps exactly when both are positive. -/
theorem caps_respected_iff {cfg engine market clock opps engine'}
    (e : findOpportunities cfg engine market clock = (.ok opps, engine')) :
    ∀ opp ∈ opps, WithinCaps cfg opp ↔
      0 < cfg.capitalPerTradeUsdt ∧ 0 < cfg.maxPositionPerSymbol := by
  intro opp hopp
  obtain ⟨j, timestampMs, hfound, rfl⟩ := findOpportunities_found e hopp
  have hquantity : 0 < (opportunityFor cfg timestampMs j).quantity := hfound.passes.quantity
  have hprice : 0 < (opportunityFor cfg timestampMs j).buyPrice := hfound.passes.buyPrice
  constructor
  · -- an opportunity has a positive size, which no zero cap allows
    rintro ⟨hcapital, hposition⟩
    exact ⟨(mul_pos hquantity hprice).trans_le hcapital, hquantity.trans_le hposition⟩
  · rintro ⟨capital, position⟩
    exact ⟨quantity_mul_le_capital hprice capital _ _, quantity_le_position position _ _ _⟩

/-- The default caps on the sample market. -/
theorem caps_respected_sample :
    ∃ opps engine', findOpportunities defaultConfig (init defaultConfig) sampleMarket (fun _ => 1) =
        (.ok opps, engine') ∧ opps ≠ [] ∧ ∀ opp ∈ opps, WithinCaps defaultConfig opp := by
  have hsome : (findOpportunities defaultConfig (init defaultConfig) sampleMarket
      fun _ => 1).1.toOption.any (· ≠ []) = true := by decide +kernel
  obtain ⟨opps, e, hne⟩ := Loop.exists_ok_of_any hsome
  refine ⟨opps, _, Prod.ext e rfl, of_decide_eq_true hne, fun opp hopp => ?_⟩
  exact (caps_respected_iff (Prod.ext e rfl) opp hopp).2 (by decide +kernel)

/-- With a capital cap of zero, the sample market yields an order that costs 1000. -/
theorem zero_cap_ignored :
    ∃ opps engine', findOpportunities { defaultConfig with capitalPerTradeUsdt := 0 }
        (init { defaultConfig with capitalPerTradeUsdt := 0 }) sampleMarket (fun _ => 1) =
        (.ok opps, engine') ∧
      ∃ opp ∈ opps, ¬WithinCaps { defaultConfig with capitalPerTradeUsdt := 0 } opp := by
  have hsome : (findOpportunities { defaultConfig with capitalPerTradeUsdt := 0 }
      (init { defaultConfig with capitalPerTradeUsdt := 0 }) sampleMarket
      fun _ => 1).1.toOption.any (fun opps => opps.any fun opp =>
        ¬WithinCaps { defaultConfig with capitalPerTradeUsdt := 0 } opp) = true := by decide +kernel
  obtain ⟨opps, e, hany⟩ := Loop.exists_ok_of_any hsome
  obtain ⟨opp, hopp, hcap⟩ := List.any_eq_true.1 hany
  exact ⟨opps, _, Prod.ext e rfl, opp, hopp, of_decide_eq_true hcap⟩

end ArbBot.OpportunityEngine
