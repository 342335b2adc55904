/-
No event is falsely marked published. `HostInv` ties what a process believes of each message it has sent to what the
broker has done with it: as long as the channel can still ack the message, the publisher hears its return.
`published_acknowledged` carries this over to the table.
-/
import PaymentOrchestration.Delivery

namespace PaymentOrchestration

open Lib

namespace Delivery

open OutboxPublisherWorker (WorkerConfig WorkerId History)
open RabbitMqPublisher (PublishId Publish Message message messageId Move StepCase)
open RabbitMqConnectionManager (CallerId Alone Grows)

/-! ## A call and its message -/

/-- What a call of `publish` has to do with the message it has sent. -/
structure Tracked (h : Host) (c : PublishId) (p : Publish) : Prop where
  inFlight : p.timeout = true → ∃ x y, h.sent c = some x ∧ p.channel = some x.channel ∧ x.message = message p.event ∧
    x.answer = none ∧ h.manager.channels x.channel = some y ∧ y.listening = true ∧
    (x.returned = true → p.returnedError.isSome ∨ h.manager.Dead y)
  confirmed : none ∈ p.settlements → ∃ x, h.sent c = some x ∧ x.message = message p.event ∧ x.answer = some none ∧
    x.returned = false

theorem Tracked.grows {h h' : Host} {c : PublishId} {p : Publish} (ht : Tracked h c p) (hg : Grows h.manager h'.manager)
    (hsent : h'.sent c = h.sent c) : Tracked h' c p := by
  refine ⟨fun htimeout => ?_, fun hn => ?_⟩
  · obtain ⟨x, y, hx, hch, hm, ha, hy, hl, hr⟩ := ht.inFlight htimeout
    obtain ⟨y', hy', -, hl', -⟩ := hg.channels _ y hy
    refine ⟨x, y', hsent.trans hx, hch, hm, ha, hy', hl' hl, fun hret => (hr hret).imp_right fun hd => ?_⟩
    obtain ⟨y'', hy'', hd'⟩ := hd.grows hy hg
    rwa [Option.some.inj (hy'.symm.trans hy'')]
  · obtain ⟨x, hx, hrest⟩ := ht.confirmed hn
    exact ⟨x, hsent.trans hx, hrest⟩

/-- A call that is not in flight and was not confirmed. -/
theorem Tracked.idle {h : Host} {c : PublishId} {p : Publish} (ht : p.timeout = false) (hn : none ∉ p.settlements) :
    Tracked h c p :=
  ⟨fun h' => by (rw [ht] at h'; cases h'), fun h' => absurd h' hn⟩

/-! ## A process -/

/-- What holds of the process `h` of the worker `w` in every run. -/
structure HostInv (workers : OutboxPublisherWorker.State) (w : WorkerId) (h : Host) : Prop where
  manager : Alone h.manager h.caller
  publisher : RabbitMqPublisher.Inv h.publisher
  unsettled : ∀ c p, h.publisher.publishes c = some p → p.settlements = [] → h.call = some c
  called : ∀ c, h.call = some c → ∃ p, h.publisher.publishes c = some p ∧
    ((∃ x events, workers.workers w = .publish x p.event events) ∨ workers.workers w = .crashed)
  asking : ∀ c p, h.call = some c → h.caller.isSome → h.publisher.publishes c = some p →
    p.settlements = [] ∧ p.channel = none
  waiting : h.caller = none ∨ workers.workers w = .getConfirmChannel ∨ h.call.isSome ∨ workers.workers w = .crashed
  tracked : ∀ c p, h.publisher.publishes c = some p → Tracked h c p
  sent : ∀ c x, h.sent c = some x → ∃ p, h.publisher.publishes c = some p ∧ p.channel = some x.channel ∧
    x.message = message p.event
  events : ∀ c p, h.publisher.publishes c = some p → workers.Stored p.event

/-- An answered message stays as it is. -/
def Kept (h h' : Host) : Prop := ∀ c x, h.sent c = some x → x.answer.isSome → h'.sent c = some x

namespace HostInv

variable {workers workers' : OutboxPublisherWorker.State} {w : WorkerId} {h h' : Host} {c : PublishId}

theorem init : HostInv .initial w .initial where
  manager := Alone.init
  publisher := RabbitMqPublisher.Inv.init
  unsettled := fun _ _ h => by cases h
  called := fun _ h => by cases h
  asking := fun _ _ h => by cases h
  waiting := .inl rfl
  tracked := fun _ _ h => by cases h
  sent := fun _ _ h => by cases h
  events := fun _ _ h => by cases h

/-! ### Only the worker goes on -/

/-- The worker waits for the broker, or does not go on at all. -/
def waits : OutboxPublisherWorker.Await → Bool
  | .getConfirmChannel | .publish _ _ _ | .crashed => true
  | _ => false

/-- Where a worker is after a step of the database: where it was, or dead, or it was not waiting for the broker. -/
def Stays (await await' : OutboxPublisherWorker.Await) : Prop :=
  await' = await ∨ await' = .crashed ∨ waits await = false

/-- A worker that is not in `publish` waits for no call of `publish`. -/
theorem call_none (hi : HostInv workers w h) (hcrash : workers.workers w ≠ .crashed)
    (hpublish : ∀ x event events, workers.workers w ≠ .publish x event events) : h.call = none := by
  by_contra hsome
  obtain ⟨c, hc⟩ := Option.ne_none_iff_exists'.1 hsome
  obtain ⟨p, -, ⟨x, events, hw⟩ | hw⟩ := hi.called c hc
  · exact hpublish x p.event events hw
  · exact hcrash hw

/-- A worker that waits for neither a channel nor a call waits for no call of `getConfirmChannel`. -/
theorem caller_none (hi : HostInv workers w h) (hcrash : workers.workers w ≠ .crashed)
    (hchannel : workers.workers w ≠ .getConfirmChannel) (hcall : h.call = none) : h.caller = none := by
  rcases hi.waiting with hnone | hw | hsome | hw
  · exact hnone
  · exact absurd hw hchannel
  · rw [hcall] at hsome; cases hsome
  · exact absurd hw hcrash

/-- A worker that does not wait for the broker has no call in progress. -/
theorem calls_none (hi : HostInv workers w h) (hw : waits (workers.workers w) = false) :
    h.call = none ∧ h.caller = none := by
  have hcrash : workers.workers w ≠ .crashed := fun he => by rw [he] at hw; cases hw
  have hcall := hi.call_none hcrash fun x event events he => by rw [he] at hw; cases hw
  exact ⟨hcall, hi.caller_none hcrash (fun he => by rw [he] at hw; cases hw) hcall⟩

/-- Only the worker and the database act. -/
theorem of_workers (hi : HostInv workers w h) (hstored : ∀ e, workers.Stored e → workers'.Stored e)
    (hstays : Stays (workers.workers w) (workers'.workers w)) : HostInv workers' w h := by
  refine ⟨hi.manager, hi.publisher, hi.unsettled, fun c hc => ?_, hi.asking, ?_, hi.tracked, hi.sent,
    fun c p hp => hstored _ (hi.events c p hp)⟩
  · obtain ⟨p, hp, hw⟩ := hi.called c hc
    refine ⟨p, hp, ?_⟩
    rcases hstays with hsame | hdead | hfree
    · rw [hsame]; exact hw
    · exact .inr hdead
    · rw [(hi.calls_none hfree).1] at hc; cases hc
  · rcases hstays with hsame | hdead | hfree
    · rw [hsame]; exact hi.waiting
    · exact .inr (.inr (.inr hdead))
    · exact .inl (hi.calls_none hfree).2

/-- The worker has its answer, and waits for no call any more. -/
theorem of_answered (hi : HostInv workers w h) (ha : Alone h.manager none)
    (hsettled : ∀ c p, h.publisher.publishes c = some p → p.settlements ≠ [])
    (hstored : ∀ e, workers.Stored e → workers'.Stored e) {caller : Option CallerId} {call : Option PublishId}
    (hcaller : caller = none) (hcall : call = none) : HostInv workers' w { h with caller := caller, call := call } := by
  subst hcaller hcall
  exact ⟨ha, hi.publisher, fun c p hp hs => absurd hs (hsettled c p hp), fun c hc => (by cases hc),
    fun c p hc => (by cases hc),
    .inl rfl, fun c p hp => (hi.tracked c p hp).grows (.refl _) rfl, hi.sent,
    fun c p hp => hstored _ (hi.events c p hp)⟩

/-! ### Only the manager goes on -/

theorem of_manager (hi : HostInv workers w h) {manager : RabbitMqConnectionManager.State} (ha : Alone manager h.caller)
    (hg : Grows h.manager manager) : HostInv workers w { h with manager := manager } :=
  ⟨ha, hi.publisher, hi.unsettled, hi.called, hi.asking, hi.waiting, fun c p hp => (hi.tracked c p hp).grows hg rfl,
    hi.sent, hi.events⟩

/-- `pollOnce` asks for a channel. -/
theorem of_poll (hi : HostInv workers w h) (hw : workers.workers w = .idle) {k : CallerId}
    {a : RabbitMqConnectionManager.AttemptId} (hs : h.getConfirmChannel k a = some h')
    (hstored : ∀ e, workers.Stored e → workers'.Stored e) (hw' : workers'.workers w = .getConfirmChannel) :
    HostInv workers' w h' := by
  obtain ⟨manager, hm, rfl⟩ := Option.map_eq_some_iff.1 hs
  obtain ⟨hcall, hcaller⟩ := hi.calls_none (by rw [hw]; rfl)
  have hg : Grows h.manager manager := (RabbitMqConnectionManager.calls_of_step hm).grows
  refine ⟨hi.manager.step hm fun _ _ _ => hcaller, hi.publisher, hi.unsettled, fun c hc => ?_, fun c p hc => ?_,
    .inr (.inl hw'), fun c p hp => (hi.tracked c p hp).grows hg rfl, hi.sent,
    fun c p hp => hstored _ (hi.events c p hp)⟩
  · rw [hcall] at hc; cases hc
  · rw [hcall] at hc; cases hc

/-! ### A call of `publish` -/

/-- `publish` is called, and asks for a channel. -/
theorem of_publish (hi : HostInv workers w h) {x : OutboxPublisherWorker.Tx} {event : OutboxEventRecord}
    {events : List OutboxEventRecord} (hw : workers.workers w = .publish x event events) (hcall : h.call = none)
    (hstored : workers.Stored event) {publisher : RabbitMqPublisher.State}
    (hp : h.publisher.step (.publish c event) = some publisher) {k : CallerId}
    {a : RabbitMqConnectionManager.AttemptId}
    (hs : { h with publisher := publisher, call := some c }.getConfirmChannel k a = some h') :
    HostInv workers w h' := by
  obtain ⟨manager, hm, rfl⟩ := Option.map_eq_some_iff.1 hs
  have hcaller : h.caller = none := hi.caller_none (by rw [hw]; nofun) (by rw [hw]; nofun) hcall
  have hsettled : ∀ c p, h.publisher.publishes c = some p → p.settlements ≠ [] := by
    intro c p hq he
    have := hi.unsettled c p hq he
    rw [hcall] at this; cases this
  have hnewId : RabbitMqPublisher.newId h.publisher (.publish c event) :=
    fun c' q hq hq0 => absurd hq0 (hsettled c' q hq)
  have hg : Grows h.manager manager := (RabbitMqConnectionManager.calls_of_step hm).grows
  have hcase := RabbitMqPublisher.step_cases hi.publisher hp
  -- the calls are the ones there were, which have all settled, and the new one
  have hcalls : ∀ {c' q}, publisher.publishes c' = some q →
      h.publisher.publishes c' = some q ∨ c' = c ∧ q = ⟨event, none, none, false, false, []⟩ := by
    intro c' q hq
    rcases hcase.before hq with hq | ⟨p, hp, hm⟩ | ⟨e, he, rfl⟩
    · exact .inl hq
    · exact absurd hm.unsettled (hsettled c' p hp)
    · cases he; exact .inr ⟨rfl, rfl⟩
  have hnew : publisher.publishes c = some ⟨event, none, none, false, false, []⟩ := by
    rw [RabbitMqPublisher.publishes_of_publish hp, Function.update_self]
  refine ⟨hi.manager.step hm fun _ _ _ => hcaller, hi.publisher.step hnewId hp, fun c' q hq hq0 => ?_, fun c' hc' => ?_,
    fun c' q hc' _ hq => ?_, .inr (.inr (.inl rfl)), fun c' q hq => ?_, fun c' y hy => ?_, fun c' q hq => ?_⟩
  · rcases hcalls hq with hq | ⟨rfl, -⟩
    · exact absurd hq0 (hsettled c' q hq)
    · rfl
  · obtain rfl := Option.some.inj hc'
    exact ⟨_, hnew, .inl ⟨x, events, hw⟩⟩
  · obtain rfl := Option.some.inj hc'
    obtain rfl := Option.some.inj (hnew.symm.trans hq)
    exact ⟨rfl, rfl⟩
  · rcases hcalls hq with hq | ⟨-, rfl⟩
    · exact (hi.tracked c' q hq).grows hg rfl
    · exact .idle rfl List.not_mem_nil
  · obtain ⟨q, hq, hrest⟩ := hi.sent c' y hy
    exact ⟨q, hcase.settled hq (hsettled c' q hq), hrest⟩
  · rcases hcalls hq with hq | ⟨-, rfl⟩
    · exact hi.events c' q hq
    · exact hstored

/-- A call moves, and what has become of its message changes. -/
structure MovesTo (h h' : Host) (c : PublishId) (p p' : Publish) : Prop where
  before : h.publisher.publishes c = some p
  event : p'.event = p.event
  publishes : h'.publisher.publishes = Function.update h.publisher.publishes c (some p')
  call : h'.call = h.call
  caller : h'.caller = none ∨ h'.caller = h.caller ∧ p.channel.isSome
  unsettled : p'.settlements = [] → p.settlements = []
  elsewhere : ∀ c', c' ≠ c → h'.sent c' = h.sent c'
  sent : ∀ x, h'.sent c = some x → p'.channel = some x.channel ∧ x.message = message p.event

theorem of_movesTo (hi : HostInv workers w h) {p p' : Publish} (hm : MovesTo h h' c p p')
    (hpublisher : RabbitMqPublisher.Inv h'.publisher) (ha : Alone h'.manager h'.caller)
    (hg : Grows h.manager h'.manager) (ht : Tracked h' c p') : HostInv workers w h' := by
  have hself : h'.publisher.publishes c = some p' := by rw [hm.publishes, Function.update_self]
  have hother : ∀ {c'}, c' ≠ c → h'.publisher.publishes c' = h.publisher.publishes c' := by
    intro c' hne
    rw [hm.publishes, Function.update_of_ne hne]
  refine ⟨ha, hpublisher, fun c' q hq hq0 => ?_, fun c' hc' => ?_, fun c' q hc' hcaller hq => ?_, ?_, fun c' q hq => ?_,
    fun c' y hy => ?_, fun c' q hq => ?_⟩
  · rw [hm.call]
    by_cases hne : c' = c
    · subst hne
      obtain rfl := Option.some.inj (hself.symm.trans hq)
      exact hi.unsettled c' p hm.before (hm.unsettled hq0)
    · rw [hother hne] at hq
      exact hi.unsettled c' q hq hq0
  · rw [hm.call] at hc'
    obtain ⟨q, hq, hw⟩ := hi.called c' hc'
    by_cases hne : c' = c
    · subst hne
      obtain rfl := Option.some.inj (hm.before.symm.trans hq)
      exact ⟨p', hself, by rw [hm.event]; exact hw⟩
    · exact ⟨q, (hother hne).trans hq, hw⟩
  · rw [hm.call] at hc'
    rcases hm.caller with hnone | ⟨hsame, hch⟩
    · rw [hnone] at hcaller; cases hcaller
    · rw [hsame] at hcaller
      by_cases hne : c' = c
      · subst hne
        have hnone := (hi.asking c' p hc' hcaller hm.before).2
        rw [hnone] at hch; cases hch
      · rw [hother hne] at hq
        exact hi.asking c' q hc' hcaller hq
  · rcases hm.caller with hnone | ⟨hsame, -⟩
    · exact .inl hnone
    · rw [hsame, hm.call]; exact hi.waiting
  · by_cases hne : c' = c
    · subst hne
      obtain rfl := Option.some.inj (hself.symm.trans hq)
      exact ht
    · rw [hother hne] at hq
      exact (hi.tracked c' q hq).grows hg (hm.elsewhere c' hne)
  · by_cases hne : c' = c
    · subst hne
      obtain ⟨hch, hmsg⟩ := hm.sent y hy
      exact ⟨p', hself, hch, by rw [hm.event]; exact hmsg⟩
    · rw [hm.elsewhere c' hne] at hy
      obtain ⟨q, hq, hrest⟩ := hi.sent c' y hy
      exact ⟨q, (hother hne).trans hq, hrest⟩
  · by_cases hne : c' = c
    · subst hne
      obtain rfl := Option.some.inj (hself.symm.trans hq)
      rw [hm.event]
      exact hi.events c' p hm.before
    · rw [hother hne] at hq
      exact hi.events c' q hq

/-! ### What becomes of a message -/

/-- `getConfirmChannel` has rejected, and with it `publish`. -/
theorem of_rejected (hi : HostInv workers w h) (ha : Alone h.manager none) {error : String}
    {publisher : RabbitMqPublisher.State} (hs : h.publisher.step (.channelRejected c error) = some publisher) :
    HostInv workers w { h with publisher := publisher, caller := none } := by
  obtain ⟨p, p', hp, hpublishes, hmove⟩ := (RabbitMqPublisher.step_cases hi.publisher hs).answered rfl
  have hinv := hi.publisher.step (show RabbitMqPublisher.newId _ (.channelRejected c error) from trivial) hs
  have hp' : p'.event = p.event ∧ p'.channel = p.channel ∧ p'.settlements ≠ [] ∧ p'.timeout = false ∧
      (none ∈ p'.settlements → none ∈ p.settlements) := by
    rcases hmove with hmove | ⟨hsettled, rfl⟩
    · cases hmove
      exact ⟨rfl, rfl, nofun, rfl, fun hn => (by simp at hn)⟩
    · cases hi.publisher.phase c p' hp with
      | waiting | refused | inFlight => cases hsettled
      | settled => exact ⟨rfl, rfl, nofun, rfl, fun hn => hn⟩
  obtain ⟨hevent, hch, hne, htimeout, hconfirmed⟩ := hp'
  refine hi.of_movesTo ⟨hp, hevent, hpublishes, rfl, .inl rfl, fun h0 => absurd h0 hne, fun _ _ => rfl, fun x hx => ?_⟩
    hinv ha (.refl _) ⟨fun ht => ?_, fun hn => ?_⟩
  · obtain ⟨q, hq, hchannel, hmsg⟩ := hi.sent c x hx
    obtain rfl := Option.some.inj (hp.symm.trans hq)
    exact ⟨hch.trans hchannel, hmsg⟩
  · rw [htimeout] at ht; cases ht
  · rw [hevent]; exact (hi.tracked c p hp).confirmed (hconfirmed hn)

/-- `channel.publish` is called. -/
theorem of_send (hi : HostInv workers w h) (hcall : h.call = some c) {k : CallerId} (hk : h.caller = some k)
    {channel : ChannelId} (hreturned : h.manager.callers k = some (.returned channel)) {thrown : Option String}
    (hs : h.send c channel thrown = some h') : HostInv workers w h' ∧ Kept h h' := by
  have halone : Alone h.manager none := by
    have ha := hi.manager
    rw [hk] at ha
    exact ha.release fun b hb => by rw [hreturned] at hb; cases hb
  obtain ⟨y, hy, hlistening⟩ := hi.manager.returned k channel hreturned
  obtain ⟨p, hp, -⟩ := hi.called c hcall
  have hasking := hi.asking c p hcall (by rw [hk]; rfl) hp
  have hnosent : h.sent c = none := by
    by_contra hsome
    obtain ⟨x, hx⟩ := Option.ne_none_iff_exists'.1 hsome
    obtain ⟨q, hq, hch, -⟩ := hi.sent c x hx
    obtain rfl := Option.some.inj (hp.symm.trans hq)
    rw [hasking.2] at hch; cases hch
  simp only [Host.send, hp] at hs
  obtain ⟨publisher, hpublisher, rfl⟩ := Option.map_eq_some_iff.1 hs
  obtain ⟨q, p', hq, hpublishes, hmove⟩ := (RabbitMqPublisher.step_cases hi.publisher hpublisher).answered rfl
  have hinv := hi.publisher.step
      (show RabbitMqPublisher.newId _ (.channelObtained c channel thrown) from trivial) hpublisher
  obtain rfl := Option.some.inj (hp.symm.trans hq)
  have hm : Move c (.channelObtained c channel thrown) p p' := by
    rcases hmove with hm | ⟨hsettled, -⟩
    · exact hm
    · cases hi.publisher.phase c p hp with
      | waiting | refused | inFlight => cases hsettled
      | settled => cases hasking.2
  cases hm with
  | @sent event _ =>
    have hmoves : MovesTo h { h with
        publisher := publisher
        caller := none
        sent := Function.update h.sent c (some { channel := channel, message := message event }) } c
        ⟨event, none, none, false, false, []⟩ ⟨event, some channel, none, false, true, []⟩ :=
      ⟨hp, rfl, hpublishes, rfl, .inl rfl, fun _ => rfl, fun c' hne => Function.update_of_ne hne _ _, fun x hx => by
        simp only [Function.update_self, Option.some.injEq] at hx
        subst hx; exact ⟨rfl, rfl⟩⟩
    refine ⟨hi.of_movesTo hmoves hinv halone (.refl _) ⟨fun _ => ?_, fun hn => (by cases hn)⟩, fun c' x hx _ => ?_⟩
    · exact ⟨_, y, Function.update_self .., rfl, rfl, rfl, hy, hlistening, fun hret => (by cases hret)⟩
    · refine (Function.update_of_ne ?_ _ _).trans hx
      rintro rfl; rw [hnosent] at hx; cases hx
  | @threw event _ error =>
    -- the channel is given up, and the message was not sent
    have hstep : h.manager.step (.invalidateChannel channel) = some (h.manager.invalidateChannel channel) := rfl
    have hmoves : MovesTo h { h with
        publisher := publisher
        caller := none
        manager := h.manager.invalidateChannel channel } c ⟨event, none, none, false, false, []⟩
        ⟨event, some channel, none, true, false, [some (RabbitMqPublisher.notAttempted error)]⟩ :=
      ⟨hp, rfl, hpublishes, rfl, .inl rfl, fun h0 => (by cases h0), fun _ _ => rfl, fun x hx => by
        have hx' : h.sent c = some x := hx
        rw [hnosent] at hx'; cases hx'⟩
    exact ⟨hi.of_movesTo hmoves hinv (halone.step hstep nofun) (RabbitMqConnectionManager.calls_of_step hstep).grows
      (.idle rfl (by simp)), fun c' x hx _ => hx⟩

/-- A message on whose channel something is delivered is returned to the publisher. -/
theorem dead_of_silent (hi : HostInv workers w h) {channel : ChannelId} {y : RabbitMqConnectionManager.Channel}
    (hy : h.manager.channels channel = some y) (hl : y.listening = true) (hsilent : y.forwarders = 0) :
    h.manager.Dead y := by
  rcases hi.manager.stored_or_dead hy hl with ⟨-, hone⟩ | hdead
  · omega
  · exact hdead

/-- The publisher hears of a returned message: the call in flight that has its id is marked. -/
theorem of_heard (hi : HostInv workers w h) (id : String) (replyText : Option String) :
    HostInv workers w { h with publisher := h.publisher.handleReturnedMessage (some id) replyText } ∧
      ∀ c p, (h.publisher.handleReturnedMessage (some id) replyText).publishes c = some p → p.timeout = true →
        messageId p.event = id → p.returnedError.isSome := by
  have hs : h.publisher.step (.returned (some id) replyText) =
      some (h.publisher.handleReturnedMessage (some id) replyText) :=
    rfl
  have hinv := hi.publisher.step (show RabbitMqPublisher.newId _ (.returned (some id) replyText) from trivial) hs
  have hcase := RabbitMqPublisher.step_cases hi.publisher hs
  generalize h.publisher.handleReturnedMessage (some id) replyText = publisher at hs hinv hcase
  refine ⟨?_, fun c p hp htimeout hid => ?_⟩
  · cases hcase with
    | nothing => exact hi
    | begun ha => cases ha
    | @moved c p p' hp hm =>
      have hmoves : MovesTo h { h with publisher := ⟨Function.update h.publisher.publishes c (some p'),
          h.publisher.pendingAfter c p'⟩ } c p p' := by
        refine ⟨hp, hm.event, rfl, rfl, ?_, fun _ => hm.unsettled, fun _ _ => rfl, fun x hx => ?_⟩
        · cases hm; exact .inr ⟨rfl, rfl⟩
        · obtain ⟨q, hq, hch, hmsg⟩ := hi.sent c x hx
          obtain rfl := Option.some.inj (hp.symm.trans hq)
          cases hm; exact ⟨hch, hmsg⟩
      refine hi.of_movesTo hmoves hinv hi.manager (.refl _) ?_
      have ht := hi.tracked c p hp
      cases hm with
      | returned =>
        refine ⟨fun _ => ?_, fun hn => (by cases hn)⟩
        obtain ⟨x, y, hx, hch, hmsg, ha, hy, hl, -⟩ := ht.inFlight rfl
        exact ⟨x, y, hx, hch, hmsg, ha, hy, hl, fun _ => .inl rfl⟩
  · rcases hcase.before hp with hq | ⟨q, -, hm⟩ | ⟨e, he, -⟩
    · cases hr : p.returnedError with
      | some text => rfl
      | none =>
        -- the call was in flight, and a message with its id was returned
        have hdisturbed : ¬ RabbitMqPublisher.Undisturbed c (messageId p.event) (.returned (some id) replyText) :=
          fun hne => hne (by rw [hid])
        obtain ⟨p', hp', hne⟩ := RabbitMqPublisher.moves_of_disturbed hi.publisher hs hq htimeout hr hdisturbed
        exact absurd (Option.some.inj (hp'.symm.trans hp)) hne
    · cases hm; rfl
    · cases he

/-- The broker returns a message that it has not answered. -/
theorem of_returned (hi : HostInv workers w h) {x : Sent} (hx : h.sent c = some x) (hanswer : x.answer = none)
    (replyText : Option String) : HostInv workers w (h.returned c x replyText) ∧ Kept h (h.returned c x replyText) := by
  refine ⟨?_, fun c' x' hx' hanswered => ?_⟩
  swap
  · refine (Function.update_of_ne ?_ _ _).trans hx'
    rintro rfl
    obtain rfl := Option.some.inj (hx.symm.trans hx')
    rw [hanswer] at hanswered; cases hanswered
  obtain ⟨hheard, hmarked⟩ := hi.of_heard x.message.messageId replyText
  simp only [Host.returned]
  -- the publisher has heard of the message, or nothing is delivered on the channel any more
  generalize hpublisher : (if (h.manager.channels x.channel).any (fun y => decide (0 < y.forwarders)) then
    h.publisher.handleReturnedMessage (some x.message.messageId) replyText else h.publisher) = publisher
  have hi₁ : HostInv workers w { h with publisher := publisher } := by
    rw [← hpublisher]
    split
    · exact hheard
    · exact hi
  obtain ⟨p, hp, hch, hmsg⟩ := hi₁.sent c x hx
  have ht := hi₁.tracked c p hp
  have hmoves : MovesTo { h with publisher := publisher } { h with
      sent := Function.update h.sent c (some { x with returned := true })
      publisher := publisher } c p p := by
    refine ⟨hp, rfl, (by rw [← hp, Function.update_eq_self]), rfl, .inr ⟨rfl, by rw [hch]; rfl⟩, fun h => h,
      fun c' hne => Function.update_of_ne hne _ _, fun z hz => ?_⟩
    simp only [Function.update_self, Option.some.injEq] at hz
    subst hz; exact ⟨hch, hmsg⟩
  refine hi₁.of_movesTo hmoves hi₁.publisher hi.manager (.refl _) ⟨fun htimeout => ?_, fun hn => ?_⟩
  · obtain ⟨z, y, hz, -, -, ha, hy, hl, -⟩ := ht.inFlight htimeout
    obtain rfl := Option.some.inj (hx.symm.trans hz)
    refine ⟨_, y, Function.update_self .., hch, hmsg, ha, hy, hl, fun _ => ?_⟩
    by_cases hsilent : y.forwarders = 0
    · exact .inr (hi.dead_of_silent hy hl hsilent)
    · have hany : (h.manager.channels x.channel).any (fun y => decide (0 < y.forwarders)) = true := by
        have hy' : h.manager.channels x.channel = some y := hy
        rw [hy']; simpa using Nat.pos_of_ne_zero hsilent
      rw [if_pos hany] at hpublisher
      subst hpublisher
      exact .inl (hmarked c p hp htimeout (by rw [hmsg]; rfl))
  · obtain ⟨z, hz, -, ha, -⟩ := ht.confirmed hn
    obtain rfl := Option.some.inj (hx.symm.trans hz)
    rw [hanswer] at ha; cases ha

theorem not_dead_of_delivers {channel : ChannelId} {y : RabbitMqConnectionManager.Channel}
    (hy : h.manager.channels channel = some y) (hd : h.delivers channel = true) : ¬ h.manager.Dead y := by
  simp only [Host.delivers, hy, Bool.and_eq_true, Bool.not_eq_true'] at hd
  obtain ⟨⟨hclose, hended⟩, hall⟩ := hd
  rintro (hc | he | ⟨x, hx, hx'⟩)
  · rw [hclose] at hc; cases hc
  · rw [hended] at he; cases he
  · rw [hx] at hall
    simp only [Option.all_some, Bool.and_eq_true, Bool.not_eq_true'] at hall
    rcases hx' with h1 | h1 <;> simp [hall] at h1

/-- The broker answers a message; an ack comes only on a channel on which something is delivered. -/
theorem of_confirm (hi : HostInv workers w h) {x : Sent} (hx : h.sent c = some x) (hanswer : x.answer = none)
    {error : Option String} (hdelivers : error = none → h.delivers x.channel = true)
    {publisher : RabbitMqPublisher.State} (hs : h.publisher.step (.confirm c error) = some publisher) :
    HostInv workers w { h with
      publisher := publisher
      sent := Function.update h.sent c (some { x with answer := some error }) } ∧
    Kept h { h with
      publisher := publisher
      sent := Function.update h.sent c (some { x with answer := some error }) } := by
  refine ⟨?_, fun c' x' hx' hanswered => ?_⟩
  swap
  · refine (Function.update_of_ne ?_ _ _).trans hx'
    rintro rfl
    obtain rfl := Option.some.inj (hx.symm.trans hx')
    rw [hanswer] at hanswered; cases hanswered
  obtain ⟨p, p', hp, hpublishes, hmove⟩ := (RabbitMqPublisher.step_cases hi.publisher hs).answered rfl
  have hinv := hi.publisher.step (show RabbitMqPublisher.newId _ (.confirm c error) from trivial) hs
  obtain ⟨q, hq, hch, hmsg⟩ := hi.sent c x hx
  obtain rfl := Option.some.inj (hp.symm.trans hq)
  have ht := hi.tracked c p hp
  have hmoves : p'.event = p.event → p'.channel = p.channel → (p'.settlements = [] → p.settlements = []) →
      MovesTo h { h with
        publisher := publisher
        sent := Function.update h.sent c (some { x with answer := some error }) } c p p' := by
    intro hevent hchannel hunsettled
    refine ⟨hp, hevent, hpublishes, rfl, .inr ⟨rfl, by rw [hch]; rfl⟩, hunsettled,
      fun c' hne => Function.update_of_ne hne _ _, fun z hz => ?_⟩
    simp only [Function.update_self, Option.some.injEq] at hz
    subst hz; exact ⟨hchannel.trans hch, hmsg⟩
  rcases hmove with hm | ⟨hsettled, rfl⟩
  · cases hm with
    | acked =>
      refine hi.of_movesTo (hmoves rfl rfl fun _ => rfl) hinv hi.manager (.refl _) ⟨nofun, fun hn => ?_⟩
      obtain ⟨z, y, hz, -, -, -, hy, -, hreturned⟩ := ht.inFlight rfl
      obtain rfl := Option.some.inj (hx.symm.trans hz)
      refine ⟨_, Function.update_self .., hmsg, rfl, ?_⟩
      -- a message that was returned has marked the call, which then rejects
      cases hret : x.returned with
      | false => rfl
      | true =>
        rcases hreturned hret with hsome | hdead
        · obtain ⟨text, rfl⟩ := Option.isSome_iff_exists.1 hsome
          simp at hn
        · exact absurd hdead (not_dead_of_delivers hy (hdelivers rfl))
    | nacked =>
      exact hi.of_movesTo (hmoves rfl rfl fun _ => rfl) hinv hi.manager (.refl _) (.idle rfl (by simp))
  · refine hi.of_movesTo (hmoves rfl rfl fun h => h) hinv hi.manager (.refl _) ⟨fun htimeout => ?_, fun hn => ?_⟩
    · cases hi.publisher.phase c p' hp with
      | waiting | refused | settled => cases htimeout
      | inFlight => cases hsettled
    · obtain ⟨z, hz, -, ha, -⟩ := ht.confirmed hn
      obtain rfl := Option.some.inj (hx.symm.trans hz)
      rw [hanswer] at ha; cases ha

/-- The confirm timer of a call fires, and its channel is given up. -/
theorem of_timeout (hi : HostInv workers w h) {channel : ChannelId} {publisher : RabbitMqPublisher.State}
    (hs : h.publisher.step (.timeout c) = some publisher) :
    HostInv workers w { h with publisher := publisher, manager := h.manager.invalidateChannel channel } := by
  have hstep : h.manager.step (.invalidateChannel channel) = some (h.manager.invalidateChannel channel) := rfl
  have hgrows := (RabbitMqConnectionManager.calls_of_step hstep).grows
  obtain ⟨p, p', hp, hpublishes, hmove⟩ := (RabbitMqPublisher.step_cases hi.publisher hs).answered rfl
  have hinv := hi.publisher.step (show RabbitMqPublisher.newId _ (.timeout c) from trivial) hs
  rcases hmove with hm | ⟨hsettled, rfl⟩
  · have hch : p.channel.isSome ∧ p'.channel = p.channel := by cases hm; exact ⟨rfl, rfl⟩
    refine hi.of_movesTo ⟨hp, hm.event, hpublishes, rfl, .inr ⟨rfl, hch.1⟩, fun _ => hm.unsettled, fun _ _ => rfl,
      fun x hx => ?_⟩ hinv (hi.manager.step hstep nofun) hgrows ?_
    · obtain ⟨q, hq, hchannel, hmsg⟩ := hi.sent c x hx
      obtain rfl := Option.some.inj (hp.symm.trans hq)
      exact ⟨hch.2.trans hchannel, hmsg⟩
    · cases hm; exact .idle rfl (by simp)
  · have hsame : publisher.publishes = h.publisher.publishes := by rw [hpublishes, ← hp, Function.update_eq_self]
    refine hi.of_movesTo ⟨hp, rfl, hpublishes, rfl, .inr ⟨rfl, ?_⟩, fun h => h, fun _ _ => rfl, fun x hx => ?_⟩ hinv
      (hi.manager.step hstep nofun) hgrows ((hi.tracked c p' hp).grows hgrows rfl)
    · cases hi.publisher.phase c p' hp with
      | waiting | refused | inFlight => cases hsettled
      | settled => rfl
    · obtain ⟨q, hq, hrest⟩ := hi.sent c x hx
      obtain rfl := Option.some.inj (hp.symm.trans hq)
      exact hrest

end HostInv

end Delivery

end PaymentOrchestration
