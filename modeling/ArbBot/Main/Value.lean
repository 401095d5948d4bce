import ArbBot.Executor.Ledger
import ArbBot.Main.Audit

/-!
# What the holdings are worth

A profit in USDT could be bought by holding less of something else. `bot_keeps_value` says that it is
not: marked at any prices of the base assets, what the bot holds is worth what it held at the start, and
the booked PnL on top, less the fees of the rebalances at these prices. So the bot takes no side: its
result does not depend on where the prices go.

A trade moves a quantity from one exchange to another, so only its cash counts, and the cash moves with
the PnL up to the requote penalty (`Step.gap_cases`).
-/

namespace ArbBot

open OpportunityEngine PaperExecutor

namespace PaperExecutor

/-- What the executor holds on all exchanges is worth, at some prices of some base assets. -/
def worth (s : PaperExecutor) (assets : Finset String) (price : String → ℚ) : ℚ :=
  s.quoteTotal + ∑ c ∈ assets, price c * s.baseTotal c

/-- What the holdings are worth beside the booked PnL. -/
def beside (s : PaperExecutor) (assets : Finset String) (price : String → ℚ) : ℚ :=
  s.gap + ∑ c ∈ assets, price c * s.baseTotal c

lemma worth_eq (s : PaperExecutor) (assets price) :
    s.worth assets price = s.beside assets price + s.risk.realizedPnlUsdt := by
  rw [worth, beside, gap]
  ring

/-- In paper mode a step widens the gap between cash and PnL by the penalty of the trade that it books,
if any. -/
lemma Step.gap_cases {cfg s op ev s'} (st : Step cfg s op ev s') (live : cfg.mode ≠ .dryRun) :
    s'.gap = s.gap ∨ ∃ nowTs opp k, op = .execute nowTs opp ∧ FillsAfter cfg opp k ∧
      s'.gap = s.gap + requotePenalty cfg opp k := by
  have hquote := st.books.quoteTotal
  unfold PaperExecutor.gap
  rw [hquote]
  cases st with
  | executeRaised => exact .inl (by simp [moveOf])
  | rebalanceRaised => exact .inl (by simp [moveOf])
  | idle => exact .inl (by simp [moveOf])
  | shipped split => exact .inl (by simp [moveOf, split, Move.income])
  | called call =>
    cases call with
    | refused => exact .inl (by simp [moveOf, tradeResult])
    | rehearsed dry => exact absurd dry live
    | booked _ adm fill =>
      obtain ⟨_, split⟩ := adm.split
      refine .inr ⟨_, _, _, rfl, fill, ?_⟩
      simp only [moveOf, tradeResult, live, ne_eq, not_false_eq_true, and_self, if_true, split,
        Option.elim_some, Move.income, evaluateDrawdownGuard_realizedPnlUsdt, countSuccess, pnlAfter]
      ring

end PaperExecutor

/-- What an event on the dashboard costs at some prices: the fee of a rebalance. -/
def LastEvent.upkeep (assets : Finset String) (price : String → ℚ) (event : LastEvent) : ℚ :=
  ∑ c ∈ assets, price c * event.baseFee c

namespace System

variable {cfg : BotConfig} {sys : System}

/-- The penalty of what the engine proposes is not negative, unless the requote step is; without maker
orders there is none. -/
lemma requotePenalty_of_emitted {opp k} (emitted : Emitted cfg opp) (fill : FillsAfter cfg opp k) :
    (0 ≤ cfg.makerRequoteStepBps → 0 ≤ requotePenalty cfg opp k) ∧
      (cfg.executionStyle ≠ .makerTaker → requotePenalty cfg opp k = 0) := by
  obtain ⟨ewma, buyRow, sellRow, timestampMs, passes, rfl⟩ := emitted
  refine ⟨fun stepBps => ?_, fun taker => ?_⟩
  · refine mul_nonneg (mul_nonneg (mul_nonneg passes.quantity.le passes.buyPrice.le) ?_)
      (Nat.cast_nonneg k)
    exact div_nonneg stepBps (by norm_num)
  · cases fill with
    | taker => simp [requotePenalty]
    | maker style =>
      have style : executionStyle cfg = .makerTaker := style
      unfold executionStyle at style
      rw [if_neg taker] at style
      cases style

/-- A step never lets the cash fall behind the PnL; without maker orders they move together. -/
lemma next_gap {op : SystemOp} (live : cfg.mode ≠ .dryRun) (sound : Sound cfg sys)
    (from_scan : FromScan sys op) :
    (0 ≤ cfg.makerRequoteStepBps → sys.executor.gap ≤ ((machine cfg).next sys op).executor.gap) ∧
      (cfg.executionStyle ≠ .makerTaker →
        ((machine cfg).next sys op).executor.gap = sys.executor.gap) := by
  cases op with
  | scan => exact ⟨fun _ => le_rfl, fun _ => rfl⟩
  | call op =>
    obtain ⟨ev, s', _, after, st⟩ := @next_call cfg sys op
    rw [after]
    rcases st.gap_cases live with same | ⟨nowTs, opp, k, rfl, fill, moved⟩
    · exact ⟨fun _ => same.ge, fun _ => same⟩
    · obtain ⟨nonneg, none⟩ := requotePenalty_of_emitted (sound opp from_scan) fill
      rw [moved]
      exact ⟨fun stepBps => le_add_of_nonneg_right (nonneg stepBps), fun taker => by rw [none taker, add_zero]⟩

/-- The inventories, marked at some prices, lose the upkeep that the step shows. -/
lemma next_marked (op : SystemOp) (assets : Finset String) (price : String → ℚ) :
    ∑ c ∈ assets, price c * ((machine cfg).next sys op).executor.baseTotal c =
      ∑ c ∈ assets, price c * sys.executor.baseTotal c +
        ((machine cfg).out sys op).shown.elim 0 fun event => -event.upkeep assets price := by
  simp only [next_baseTotal, mul_add, Finset.sum_add_distrib, add_right_inj]
  cases ((machine cfg).out sys op).shown with
  | none => simp
  | some event => simp [LastEvent.upkeep]

/-- A step keeps what the holdings are worth beside the PnL, less the upkeep that it shows. -/
lemma next_beside {op : SystemOp} (live : cfg.mode ≠ .dryRun) (sound : Sound cfg sys)
    (from_scan : FromScan sys op) (assets : Finset String) (price : String → ℚ) :
    (0 ≤ cfg.makerRequoteStepBps →
      sys.executor.beside assets price +
          ((machine cfg).out sys op).shown.elim 0 (fun event => -event.upkeep assets price) ≤
        ((machine cfg).next sys op).executor.beside assets price) ∧
      (cfg.executionStyle ≠ .makerTaker →
        ((machine cfg).next sys op).executor.beside assets price = sys.executor.beside assets price +
          ((machine cfg).out sys op).shown.elim 0 fun event => -event.upkeep assets price) := by
  obtain ⟨grown, kept⟩ := next_gap live sound from_scan
  rw [beside, beside, next_marked, ← add_assoc]
  exact ⟨fun stepBps => add_le_add_left (add_le_add_left (grown stepBps) _) _,
    fun taker => by rw [kept taker]⟩

end System

/-- The bot takes no side. In paper mode, however the run goes and whatever the prices of the base assets
are, the holdings are worth at least what they were at the start, plus the realized PnL, less the fees of
the rebalances that the dashboard has shown, as long as a requote does not earn anything; and with
taker-taker orders, exactly that. -/
theorem bot_keeps_value {settings world session} (e : start settings world = .ok session)
    (paper : session.cfg.mode = .paper)
    (inputs : List (CycleInput session.clients session.cfg.symbols)) (assets : Finset String)
    (price : String → ℚ) :
    let out := session.run inputs
    let upkeep := ((out.emitted.filterMap Effect.shown).map (LastEvent.upkeep assets price)).sum
    (0 ≤ session.cfg.makerRequoteStepBps →
      session.bot.executor.worth assets price + out.state.executor.risk.realizedPnlUsdt - upkeep ≤
        out.state.executor.worth assets price) ∧
      (session.cfg.executionStyle ≠ .makerTaker →
        out.state.executor.worth assets price = session.bot.executor.worth assets price +
          out.state.executor.risk.realizedPnlUsdt - upkeep) := by
  obtain ⟨turns, issued, sim, _⟩ := run_simulated e inputs
  have fresh := init_fresh (start_started e).executor
  have live : session.cfg.mode ≠ .dryRun := by rw [paper]; decide
  have sound : System.Sound session.cfg.toBotConfig (session.bot.system []) :=
    fun _ h => absurd h List.not_mem_nil
  have pnl₀ : session.bot.executor.risk.realizedPnlUsdt = 0 := by rw [fresh.risk]
  have upkeep : ((((System.machine session.cfg.toBotConfig).outs (session.bot.system []) turns.flatten).map
      fun ev => ev.shown.elim 0 fun event => -event.upkeep assets price)).sum =
      -(((session.run inputs).emitted.filterMap Effect.shown).map
        (LastEvent.upkeep assets price)).sum := by
    rw [sim.shown, ← sum_map_filterMap, List.sum_neg, List.map_map]
    rfl
  dsimp only
  rw [worth_eq, worth_eq, pnl₀]
  refine ⟨fun stepBps => ?_, fun taker => ?_⟩
  · have grown := Machine.sum_le_run (I := System.Sound session.cfg.toBotConfig)
      (φ := fun sys : System => sys.executor.beside assets price)
      (δ := fun ev => ev.shown.elim 0 fun event => -event.upkeep assets price) sound
      (fun sys op hs hop =>
        ⟨hs.next op, (System.next_beside live hs hop assets price).1 stepBps⟩) sim.from_scan
    rw [sim.run, upkeep] at grown
    dsimp only [Bot.system] at grown
    linarith
  · have summed := Machine.run_sum (I := System.Sound session.cfg.toBotConfig)
      (φ := fun sys : System => sys.executor.beside assets price)
      (δ := fun ev => ev.shown.elim 0 fun event => -event.upkeep assets price) sound
      (fun sys op hs hop =>
        ⟨hs.next op, (System.next_beside live hs hop assets price).2 taker⟩) sim.from_scan
    rw [sim.run, upkeep] at summed
    dsimp only [Bot.system] at summed
    linarith

/-- The sample has traded at a profit, and holds as much more, at whatever price of BTC. -/
theorem bot_keeps_value_sample :
    1 < (sampleSession.run [sampleInput, sampleInput]).state.executor.risk.realizedPnlUsdt ∧
      ∀ btc : ℚ, (sampleSession.run [sampleInput, sampleInput]).state.executor.worth {"BTC"}
        (fun _ => btc) = sampleSession.bot.executor.worth {"BTC"} (fun _ => btc) +
          (sampleSession.run [sampleInput, sampleInput]).state.executor.risk.realizedPnlUsdt := by
  refine ⟨by decide +kernel, fun btc => ?_⟩
  have kept := (bot_keeps_value sampleSession_started (by decide +kernel) [sampleInput, sampleInput] {"BTC"}
    fun _ => btc).2 (by decide +kernel)
  have shown : (sampleSession.run [sampleInput, sampleInput]).emitted.filterMap Effect.shown =
      [.executed .ok] := by decide +kernel
  rw [shown] at kept
  simpa [LastEvent.upkeep, LastEvent.baseFee] using kept

end ArbBot
