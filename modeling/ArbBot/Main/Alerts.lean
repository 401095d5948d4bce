import ArbBot.Executor.BlockReason
import ArbBot.Executor.RiskGate
import ArbBot.Main.Refinement

/-!
# The alert about a block

The risk guard blocks the executor for good, and the main loop tells the operator of it once:
`blocked_alert_sent` remembers that it has. `Alerts` says what this comes to for a stretch of the loop.
The flag counts the alerts; it is set only when the executor is blocked, and a blocked executor makes no
trade; so that no trade follows an alert. `Act.alerts` is the proof for one act, and `cycle_told` says
that the alert does not wait for the next cycle.
-/

namespace ArbBot

open OpportunityEngine PaperExecutor Script

/-- The alert that the risk guard has blocked the bot. -/
def Effect.isAlert : Effect → Bool
  | .send (.blocked _) => true
  | _ => false

/-- A trade, on the dashboard or in a message. -/
def Effect.isTrade : Effect → Bool
  | .update (.executed _ _) => true
  | .send (.traded _ _ _ _ _) => true
  | _ => false

namespace PaperExecutor

/-- A call does not unblock the executor. -/
lemma execute_latched {cfg s nowTs opp r s'} (e : execute cfg s nowTs opp = .ok (r, s'))
    (hb : s.risk.blocked = true) : s'.risk.blocked = true := by
  cases execute_call e with
  | refused => exact (countFailure_blocked _ _).2 (.inl hb)
  | rehearsed _ adm => rw [adm.notBlocked] at hb; cases hb
  | booked _ adm => rw [adm.notBlocked] at hb; cases hb

/-- A rebalance does not touch the risk state. -/
lemma rebalance_risk {cfg s nowTs symbol message s'}
    (e : rebalanceSymbolInventory cfg s nowTs symbol = .ok (message, s')) : s'.risk = s.risk := by
  have st := next_step cfg s (.rebalance nowTs symbol)
  simp only [Machine.next, Machine.out, machine, step, e] at st
  exact st.risk_of_rebalance

end PaperExecutor

namespace Bot

/-- What a stretch of the loop tells of a block. -/
structure Alerts (cfg : Settings) (bot : Bot) (v : List Effect) (bot' : Bot) : Prop where
  counted : bot.blockedAlertSent.toNat + v.countP Effect.isAlert = bot'.blockedAlertSent.toNat
  grounded : bot'.blockedAlertSent = true → bot.blockedAlertSent = true ∨
    cfg.notifies = true ∧ bot'.executor.risk.blocked = true
  latched : bot.executor.risk.blocked = true → bot'.executor.risk.blocked = true
  silent : bot.executor.risk.blocked = true → ∀ x ∈ v, x.isTrade = false
  last : v.Pairwise fun x y => x.isAlert = true → y.isTrade = false

variable {cfg : Settings} {bot bot' bot'' : Bot} {v w : List Effect}

/-- A stretch that sends an alert ends blocked. -/
lemma Alerts.blocked (alerts : Alerts cfg bot v bot') {x} (mem : x ∈ v) (alert : x.isAlert = true) :
    bot'.executor.risk.blocked = true := by
  have counted := alerts.counted
  have pos : 0 < v.countP Effect.isAlert := List.countP_pos_iff.2 ⟨x, mem, alert⟩
  have le := Bool.toNat_le bot'.blockedAlertSent
  cases sent : bot.blockedAlertSent with
  | true => rw [sent, Bool.toNat_true] at counted; omega
  | false =>
    cases sent' : bot'.blockedAlertSent with
    | false => rw [sent', Bool.toNat_false] at counted; omega
    | true =>
      rcases alerts.grounded sent' with h | h
      · rw [sent] at h
        cases h
      · exact h.2

/-- A stretch that tells nothing. -/
lemma Alerts.mute (sent : bot'.blockedAlertSent = bot.blockedAlertSent)
    (latched : bot.executor.risk.blocked = true → bot'.executor.risk.blocked = true) :
    Alerts cfg bot [] bot' where
  counted := by rw [sent]; rfl
  grounded h := .inl (sent ▸ h)
  latched := latched
  silent _ _ h := absurd h List.not_mem_nil
  last := .nil

/-- A stretch without alerts, that makes no trade when it starts blocked. -/
lemma Alerts.quiet (sent : bot'.blockedAlertSent = bot.blockedAlertSent)
    (latched : bot.executor.risk.blocked = true → bot'.executor.risk.blocked = true)
    (alerts : ∀ x ∈ v, x.isAlert = false)
    (silent : bot.executor.risk.blocked = true → ∀ x ∈ v, x.isTrade = false) :
    Alerts cfg bot v bot' where
  counted := by
    rw [sent, List.countP_eq_zero.2 fun x hx => Bool.eq_false_iff.1 (alerts x hx), Nat.add_zero]
  grounded h := .inl (sent ▸ h)
  latched := latched
  silent := silent
  last := List.pairwise_of_forall_mem_list fun x hx y _ h =>
    absurd h (Bool.eq_false_iff.1 (alerts x hx))

lemma Alerts.trans (first : Alerts cfg bot v bot') (second : Alerts cfg bot' w bot'') :
    Alerts cfg bot (v ++ w) bot'' where
  counted := by rw [List.countP_append, ← Nat.add_assoc, first.counted, second.counted]
  grounded h := by
    rcases second.grounded h with h | h
    · exact (first.grounded h).imp_right (And.imp_right second.latched)
    · exact .inr h
  latched h := second.latched (first.latched h)
  silent h x hx := by
    rcases List.mem_append.1 hx with hx | hx
    · exact first.silent h x hx
    · exact second.silent (first.latched h) x hx
  last := List.pairwise_append.2
    ⟨first.last, second.last, fun x hx y hy h => second.silent (first.blocked hx h) y hy⟩

/-- Only one message is an alert. -/
lemma isAlert_messages {m : Message} (h : Effect.isAlert (.send m) = false) :
    ∀ x ∈ cfg.messages m, x.isAlert = false := by
  intro x hx
  unfold Settings.messages at hx
  split at hx
  · rw [List.mem_singleton.1 hx]
    exact h
  · cases hx

/-- Only one message is about a trade. -/
lemma isTrade_messages {m : Message} (h : Effect.isTrade (.send m) = false) :
    ∀ x ∈ cfg.messages m, x.isTrade = false := by
  intro x hx
  unfold Settings.messages at hx
  split at hx
  · rw [List.mem_singleton.1 hx]
    exact h
  · cases hx

variable {clients symbols : List String} {input : CycleInput clients symbols} {opps : List Opportunity}

/-- What one act tells of a block. -/
lemma Act.alerts (act : Act cfg input opps bot v bot') : Alerts cfg bot v bot' := by
  cases act with
  | @published u plain =>
    refine .quiet rfl id ?_ ?_
    · intro x hx
      rw [List.mem_singleton.1 hx]
      rfl
    · intro _ x hx
      rw [List.mem_singleton.1 hx]
      cases u with
      | executed => cases plain
      | _ => rfl
  | refused tried young call fails =>
    exact .mute rfl (execute_latched call)
  | executed tried young call succeeds =>
    refine .quiet rfl (execute_latched call) ?_ ?_
    · intro x hx
      rcases List.mem_cons.1 hx with rfl | hx
      · rfl
      · exact isAlert_messages rfl x hx
    · -- a blocked executor refuses
      intro hb
      rw [(execute_of_blocked hb call).1] at succeeds
      cases succeeds
  | idle mem call => exact .mute rfl fun hb => by rw [rebalance_risk call]; exact hb
  | rebalanced mem call =>
    refine .quiet rfl (fun hb => by rw [rebalance_risk call]; exact hb) ?_ ?_
    · intro x hx
      rcases List.mem_append.1 hx with hx | hx
      · exact isAlert_messages rfl x hx
      · rw [List.mem_singleton.1 hx]
        rfl
    · intro _ x hx
      rcases List.mem_append.1 hx with hx | hx
      · exact isTrade_messages rfl x hx
      · rw [List.mem_singleton.1 hx]
        rfl
  | alerted blocked enabled first =>
    exact {
      counted := by rw [first]; rfl
      grounded := fun _ => .inr ⟨enabled, blocked⟩
      latched := id
      silent := fun _ x hx => by rw [List.mem_singleton.1 hx]; rfl
      last := List.pairwise_singleton _ _ }
  | reported due =>
    refine .quiet rfl id ?_ ?_
    · intro x hx
      rw [List.mem_singleton.1 hx]
      rfl
    · intro _ x hx
      rw [List.mem_singleton.1 hx]
      rfl

/-- What a cycle tells of a block. -/
lemma cycle_alerts (cfg : Settings) (input : CycleInput clients symbols) (bot : Bot) :
    Alerts cfg bot (cycle cfg input bot).emitted (cycle cfg input bot).state := by
  have cycled := cycle_cases cfg input bot
  generalize cycle cfg input bot = out at cycled
  cases cycled with
  | raised => exact .mute rfl id
  | @scanned opps engine v bot' error scan acts =>
    have published : Alerts cfg bot [.update (.scanCompleted (scanReport cfg (bot.market cfg input) opps
        { bot.fetch cfg input with engine })), .update (headline opps)]
        (bot.scanned cfg input opps engine) := by
      refine .quiet rfl id ?_ ?_
      · intro x hx
        rcases List.mem_pair.1 hx with rfl | rfl <;> rfl
      · intro _ x hx
        rcases List.mem_pair.1 hx with rfl | rfl
        · rfl
        · cases opps <;> rfl
    exact published.trans (acts.rel (fun _ => .mute rfl id) Alerts.trans Act.alerts)

/-- The operator has been told of a block. -/
def Told (cfg : Settings) (bot : Bot) : Prop :=
  cfg.notifies = true → bot.executor.risk.blocked = true → bot.blockedAlertSent = true

/-- A cycle that comes to its end has told the operator of a block. -/
lemma cycle_told (cfg : Settings) (input : CycleInput clients symbols) (bot : Bot)
    (returned : (cycle cfg input bot).error = none) : Told cfg (cycle cfg input bot).state := by
  have reported : ∀ bot : Bot, Told cfg bot → Told cfg (reportStatus cfg input.statusTime bot).state := by
    intro bot told
    unfold reportStatus
    split
    · exact told
    · exact told
  have alerted : ∀ bot : Bot, Told cfg (alertBlocked cfg bot).state := by
    intro bot enabled blocked
    unfold alertBlocked at *
    split
    case isTrue => rfl
    case isFalse sent =>
      rw [if_neg sent] at blocked
      exact by_contra fun h => sent ⟨blocked, enabled, h⟩
  unfold cycle at *
  dsimp only at *
  split at returned
  case h_1 => cases returned
  case h_2 opps engine scan =>
    -- the alert is looked at after the rebalances, and the status report comes last
    refine Outcome.andThen_post (P := Told cfg) (fun bot returned => ?_) returned
    refine Outcome.andThen_post (P := Told cfg) (fun bot returned => ?_) returned
    refine Outcome.andThen_post (P := Told cfg) (fun bot returned => ?_) returned
    have alertReturned : (alertBlocked cfg bot).error = none := by
      unfold alertBlocked
      split <;> rfl
    rw [Outcome.andThen_of_returned alertReturned]
    exact reported _ (alerted bot)

end Bot

/-- What a run tells of a block, from its start to its end. -/
lemma run_alerts {settings world session} (e : start settings world = .ok session)
    (inputs : List (CycleInput session.clients session.cfg.symbols)) :
    Bot.Alerts session.cfg session.bot (session.run inputs).emitted (session.run inputs).state := by
  obtain ⟨_, _, _, _, opening⟩ := (start_started e).cfg
  have before : Bot.Alerts session.cfg session.bot session.opening session.bot := by
    rw [opening]
    refine .quiet rfl id ?_ ?_
    · intro x hx
      rcases List.mem_cons.1 hx with rfl | hx
      · rfl
      · exact Bot.isAlert_messages rfl x hx
    · intro _ x hx
      rcases List.mem_cons.1 hx with rfl | hx
      · rfl
      · exact Bot.isTrade_messages rfl x hx
  have cycles := forEach_rel (R := Bot.Alerts session.cfg) (fun _ => .mute rfl id) Bot.Alerts.trans
    (fun input _ bot => by
      rw [Bot.turn_state, Bot.turn_emitted]
      exact Bot.cycle_alerts session.cfg input bot) (l := inputs) (s := session.bot)
  have after : Bot.Alerts session.cfg (session.cycles inputs).state
      (session.cfg.messages .stopped) (session.cycles inputs).state :=
    .quiet rfl id (Bot.isAlert_messages rfl) fun _ => Bot.isTrade_messages rfl
  exact (before.trans cycles).trans after

/-- The operator is told of a block once, in time, and for good. When a run comes to its end, one alert
has been sent if the executor is blocked and the notifier enabled, and none otherwise; a run that an
exception ends has sent at most one; and an alert is sent only when the executor is blocked, and no
trade is shown or told after it. -/
theorem bot_alerts {settings world session} (e : start settings world = .ok session)
    (inputs : List (CycleInput session.clients session.cfg.symbols)) :
    let out := session.run inputs
    (out.error = none → out.emitted.countP Effect.isAlert =
      if session.cfg.notifies = true ∧ out.state.executor.risk.blocked = true then 1 else 0) ∧
      out.emitted.countP Effect.isAlert ≤ 1 ∧
      ∀ pre alert post, out.emitted = pre ++ alert :: post → alert.isAlert = true →
        out.state.executor.risk.blocked = true ∧ ∀ x ∈ post, x.isTrade = false := by
  have unsent := (start_started e).blockedAlertSent
  have alerts := run_alerts e inputs
  have counted := alerts.counted
  rw [unsent, Bool.toNat_false, Nat.zero_add] at counted
  refine ⟨fun returned => ?_, counted ▸ Bool.toNat_le _, fun pre alert post split h => ⟨?_, ?_⟩⟩
  · have fresh := init_fresh (start_started e).executor
    have told : Bot.Told session.cfg (session.run inputs).state :=
      forEach_post (fun _ blocked => by rw [fresh.risk] at blocked; cases blocked)
        (fun input _ bot returned => by
          rw [Bot.turn_state]
          exact Bot.cycle_told session.cfg input bot (Bot.turn_error.1 returned).1) returned
    rw [counted]
    cases sent : (session.run inputs).state.blockedAlertSent with
    | true =>
      rcases alerts.grounded sent with h | h
      · rw [unsent] at h
        cases h
      · rw [if_pos h]
        rfl
    | false =>
      refine (if_neg fun h => ?_).symm
      rw [told h.1 h.2] at sent
      cases sent
  · exact alerts.blocked (by rw [split]; simp) h
  · have last := alerts.last
    rw [split] at last
    exact fun x hx => (List.pairwise_cons.1 (List.pairwise_append.1 last).2.1).1 x hx h

/-- The sample trades once and then meets its cooldown until the failures block it: it sends one alert. -/
theorem bot_alerts_sample :
    (sampleSession.run (List.replicate 9 sampleInput)).emitted.countP Effect.isAlert = 1 := by
  have counted := (bot_alerts sampleSession_started (List.replicate 9 sampleInput)).1 (by decide +kernel)
  exact counted.trans (by decide +kernel)

end ArbBot
