/-
No event is falsely marked published: what `HostInv` says of each process and `History` of the table, over all
processes and their runs.
-/
import PaymentOrchestration.DeliveryInvariant

namespace PaymentOrchestration

open Lib

namespace Delivery

open OutboxPublisherWorker (WorkerConfig WorkerId History)
open RabbitMqPublisher (PublishId Message message messageId)

variable {cfg : WorkerConfig}

/-! ## The workers' part of a step -/

section Workers

variable {workers workers' : OutboxPublisherWorker.State} {a : OutboxPublisherWorker.Action} {w v : WorkerId}

/-- The database and the workers' own steps hand over no event, and interrupt no wait for the broker. -/
theorem stays_of_step (hs : workers.step cfg a = some workers') (ha : isDatabase a = true) :
    workers'.handed = workers.handed ∧ ∀ v, HostInv.Stays (workers.workers v) (workers'.workers v) := by
  -- only the worker that acts goes on
  have hgoes : ∀ {w await}, HostInv.Stays (workers.workers w) await →
      ∀ v, HostInv.Stays (workers.workers v) ((workers.goOn w await).workers v) := by
    intro w await hstays v
    by_cases hv : v = w
    · subst hv; rw [OutboxPublisherWorker.goOn_self]; exact hstays
    · rw [OutboxPublisherWorker.goOn_of_ne hv]; exact .inl rfl
  have hfree : ∀ {w await await'}, workers.workers w = await → HostInv.waits await = false →
      HostInv.Stays (workers.workers w) await' := by
    rintro w _ await' rfl hwaits
    exact .inr (.inr hwaits)
  cases OutboxPublisherWorker.step_cases hs with
  | inserted => exact ⟨rfl, fun _ => .inl rfl⟩
  | @moved w _ await _ hw hm =>
    refine ⟨rfl, hgoes ?_⟩
    cases hm with
    | polled | channelObtained | channelRejected | notAttempted => cases ha
    | notBegun | rollbackLost => exact hfree hw rfl
    | queryError htx hpublish =>
      refine hfree hw ?_
      cases await with
      | publish x event events => exact absurd rfl (hpublish x event events)
      | idle | getConfirmChannel | transaction | crashed => cases htx
      | fetchPendingBatch | markPublished | markPublishFailed | commit | rollback => rfl
    | refused hstatement =>
      refine hfree hw ?_
      cases await <;> first | rfl | cases hstatement
    | crashed => exact .inr (.inl rfl)
  | begun hw | fetched hw | committed hw => exact ⟨rfl, hgoes (hfree hw rfl)⟩
  | marked hw hm => exact ⟨rfl, hgoes (hfree hw (by cases hm <;> rfl))⟩
  | published | failed => cases ha
  | rolledBack _ hends =>
    refine ⟨rfl, hgoes ?_⟩
    rcases hends with hw | hw <;> exact hfree hw rfl
  | inDoubt hw hcase =>
    refine ⟨rfl, hgoes ?_⟩
    rcases hcase with ⟨-, rfl⟩ | ⟨-, rfl⟩ <;> exact hfree hw rfl
  | lateCommitted | sessionLost => exact ⟨rfl, fun _ => .inl rfl⟩

theorem of_poll (hs : workers.step cfg (.poll w) = some workers') :
    workers.workers w = .idle ∧ workers' = workers.goOn w .getConfirmChannel := by
  simp only [OutboxPublisherWorker.State.step] at hs
  split at hs
  · rename_i hw; cases hs; exact ⟨hw, rfl⟩
  · cases hs

theorem of_channelObtained (hs : workers.step cfg (.channelObtained w) = some workers') :
    workers.workers w = .getConfirmChannel ∧ workers' = workers.goOn w .transaction := by
  simp only [OutboxPublisherWorker.State.step] at hs
  split at hs
  · rename_i hw; cases hs; exact ⟨hw, rfl⟩
  · cases hs

theorem of_channelRejected (hs : workers.step cfg (.channelRejected w) = some workers') :
    workers.workers w = .getConfirmChannel ∧ workers' = workers.goOn w .idle := by
  simp only [OutboxPublisherWorker.State.step] at hs
  split at hs
  · rename_i hw; cases hs; exact ⟨hw, rfl⟩
  · cases hs

theorem of_published {now : Millis} {outcome : Option PublishError}
    (hs : workers.step cfg (.published w now outcome) = some workers') : ∃ x event events,
    workers.workers w = .publish x event events ∧ workers' = workers.afterPublish cfg w x event events now outcome := by
  simp only [OutboxPublisherWorker.State.step] at hs
  split at hs
  · rename_i x event events hw; cases hs; exact ⟨x, event, events, hw, rfl⟩
  · cases hs

end Workers

/-! ## The whole system -/

/-- The broker has acked the message, and has not returned it. -/
def State.Acknowledged (s : State) (m : Message) : Prop :=
  ∃ w c x, (s.hosts w).sent c = some x ∧ x.message = m ∧ x.answer = some none ∧ x.returned = false

variable (cfg) in
/-- What holds in every run. -/
structure Inv (s : State) : Prop where
  workers : OutboxPublisherWorker.Inv cfg s.workers
  history : History s.workers
  hosts : ∀ w, HostInv s.workers w (s.hosts w)
  handed : ∀ y ∈ s.workers.handed, y.2 = none → s.Acknowledged (message y.1)

variable (cfg) in
/-- A step of the process `w`, after which it is `h`. -/
structure Advance (s s' : State) (w : WorkerId) (h : Host) : Prop where
  hosts : s'.hosts = Function.update s.hosts w h
  workers : s'.workers = s.workers ∨ ∃ a, s.workers.step cfg a = some s'.workers
  elsewhere : ∀ v, v ≠ w → s'.workers.workers v = s.workers.workers v
  host : HostInv s'.workers w h
  kept : Kept (s.hosts w) h
  handed : ∀ y ∈ s'.workers.handed, y.2 = none →
    y ∈ s.workers.handed ∨ ∃ c x, h.sent c = some x ∧ x.message = message y.1 ∧
    x.answer = some none ∧ x.returned = false

section Steps

variable {s s' : State} {w : WorkerId} {h : Host}

theorem Inv.init : Inv cfg State.initial where
  workers := .init
  history := .init
  hosts := fun _ => .init
  handed := List.forall_mem_nil _

/-- A worker's event stays stored. -/
theorem stored_of_step (hi : OutboxPublisherWorker.Inv cfg s.workers) {a : OutboxPublisherWorker.Action}
    {workers' : OutboxPublisherWorker.State} (hs : s.workers.step cfg a = some workers') :
    ∀ e, s.workers.Stored e → workers'.Stored e :=
  fun _ => History.stored_of_evolves (hi.step hs).2

theorem Advance.inv (ha : Advance cfg s s' w h) (hi : Inv cfg s) : Inv cfg s' := by
  have hself : s'.hosts w = h := by rw [ha.hosts, Function.update_self]
  have hother : ∀ {v}, v ≠ w → s'.hosts v = s.hosts v := fun hv => by rw [ha.hosts, Function.update_of_ne hv]
  have hworkers : OutboxPublisherWorker.Inv cfg s'.workers ∧ History s'.workers ∧
      ∀ e, s.workers.Stored e → s'.workers.Stored e := by
    rcases ha.workers with hsame | ⟨a, hs⟩
    · rw [hsame]; exact ⟨hi.workers, hi.history, fun _ h => h⟩
    · exact ⟨(hi.workers.step hs).1, hi.history.step hi.workers hs, stored_of_step hi.workers hs⟩
  obtain ⟨hinv, hhistory, hstored⟩ := hworkers
  refine ⟨hinv, hhistory, fun v => ?_, fun y hy hconfirmed => ?_⟩
  · by_cases hv : v = w
    · subst hv; rw [hself]; exact ha.host
    · rw [hother hv]
      exact (hi.hosts v).of_workers hstored (.inl (ha.elsewhere v hv))
  · rcases ha.handed y hy hconfirmed with hold | ⟨c, x, hx⟩
    · obtain ⟨v, c, x, hx, hmsg, hanswer, hreturned⟩ := hi.handed y hold hconfirmed
      refine ⟨v, c, x, ?_, hmsg, hanswer, hreturned⟩
      by_cases hv : v = w
      · subst hv; rw [hself]
        exact ha.kept c x hx (by rw [hanswer]; rfl)
      · rw [hother hv]; exact hx
    · exact ⟨w, c, x, by rw [hself]; exact hx⟩

/-- A step in which the worker does not go on. -/
theorem advance_of_host (hh : HostInv s.workers w h) (hk : Kept (s.hosts w) h) : Advance cfg s (s.setHost w h) w h :=
  ⟨rfl, .inl rfl, fun _ _ => rfl, hh, hk, fun _ hy _ => .inl hy⟩

/-- A step in which the worker goes on, and hands over no event. -/
theorem advance_of_goOn {await : OutboxPublisherWorker.Await} {a : OutboxPublisherWorker.Action}
    (hs : s.workers.step cfg a = some (s.workers.goOn w await)) (hh : HostInv (s.workers.goOn w await) w h)
    (hsent : h.sent = (s.hosts w).sent) : Advance cfg s { s.setHost w h with workers := s.workers.goOn w await } w h :=
  ⟨rfl, .inr ⟨a, hs⟩, fun _ hv => OutboxPublisherWorker.goOn_of_ne hv, hh, fun c x hx _ => by rw [hsent]; exact hx,
    fun _ hy _ => .inl hy⟩

theorem Inv.advance (hi : Inv cfg s) {a : Action} (hdoc : asDocumented s a = true) (hs : s.step cfg a = some s')
    (hworker : ∀ b, a ≠ .worker b) : ∃ w h, Advance cfg s s' w h := by
  cases a with
  | worker b => exact absurd rfl (hworker b)
  | poll w k a =>
    simp only [State.step] at hs
    obtain ⟨workers, hw, hs⟩ := Option.bind_eq_some_iff.1 hs
    obtain ⟨host, hh, hs⟩ := Option.bind_eq_some_iff.1 hs
    cases hs
    obtain ⟨hidle, rfl⟩ := of_poll hw
    refine ⟨w, host, advance_of_goOn hw ?_ ?_⟩
    · exact (hi.hosts w).of_poll hidle hh (stored_of_step hi.workers hw) (OutboxPublisherWorker.goOn_self ..)
    · obtain ⟨manager, -, rfl⟩ := Option.map_eq_some_iff.1 hh
      rfl
  | polled w =>
    simp only [State.step] at hs
    split at hs
    · cases hs
    rename_i hcall
    have hcall : (s.hosts w).call = none := by simpa using hcall
    obtain ⟨k, hk, hs⟩ := Option.bind_eq_some_iff.1 hs
    -- the call of `getConfirmChannel` has settled, and nothing is being published
    have hanswered : ∀ {workers' : OutboxPublisherWorker.State},
        (∀ b, (s.hosts w).manager.callers k ≠ some (.awaiting b)) →
        (∀ e, s.workers.Stored e → workers'.Stored e) → HostInv workers' w { s.hosts w with caller := none } := by
      intro workers' hsettled hstored
      have ha := (hi.hosts w).manager
      rw [hk] at ha
      refine (hi.hosts w).of_answered (ha.release hsettled) (fun c p hp h0 => ?_) hstored rfl hcall
      have := (hi.hosts w).unsettled c p hp h0
      rw [hcall] at this; cases this
    split at hs
    · rename_i channel hreturned
      obtain ⟨workers, hw, hs⟩ := Option.bind_eq_some_iff.1 hs
      cases hs
      obtain ⟨-, rfl⟩ := of_channelObtained hw
      exact ⟨w, _, advance_of_goOn hw
        (hanswered (fun b he => by rw [hreturned] at he; cases he) (stored_of_step hi.workers hw)) rfl⟩
    · rename_i error hthrew
      obtain ⟨workers, hw, hs⟩ := Option.bind_eq_some_iff.1 hs
      cases hs
      obtain ⟨-, rfl⟩ := of_channelRejected hw
      exact ⟨w, _, advance_of_goOn hw
        (hanswered (fun b he => by rw [hthrew] at he; cases he) (stored_of_step hi.workers hw)) rfl⟩
    · cases hs
  | publish w c k a =>
    simp only [State.step] at hs
    split at hs
    · rename_i x event events hw
      split at hs
      · cases hs
      rename_i hcall
      obtain ⟨publisher, hp, hs⟩ := Option.bind_eq_some_iff.1 hs
      obtain ⟨host, hh, hs⟩ := Option.bind_eq_some_iff.1 hs
      cases hs
      have hstored : s.workers.Stored event := hi.history.batch w event (by rw [hw]; exact List.mem_cons_self)
      refine ⟨w, host, advance_of_host ((hi.hosts w).of_publish hw (by simpa using hcall) hstored hp hh) ?_⟩
      obtain ⟨manager, -, rfl⟩ := Option.map_eq_some_iff.1 hh
      exact fun _ _ hx _ => hx
    · cases hs
  | send w thrown =>
    simp only [State.step] at hs
    obtain ⟨c, hc, hs⟩ := Option.bind_eq_some_iff.1 hs
    obtain ⟨k, hk, hs⟩ := Option.bind_eq_some_iff.1 hs
    split at hs
    · rename_i channel hreturned
      obtain ⟨host, hh, rfl⟩ := Option.map_eq_some_iff.1 hs
      obtain ⟨hh, hkept⟩ := (hi.hosts w).of_send hc hk hreturned hh
      exact ⟨w, host, advance_of_host hh hkept⟩
    · rename_i error hthrew
      obtain ⟨publisher, hp, hs⟩ := Option.bind_eq_some_iff.1 hs
      cases hs
      have ha := (hi.hosts w).manager
      rw [hk] at ha
      have halone := ha.release fun b he => by rw [hthrew] at he; cases he
      exact ⟨w, _, advance_of_host ((hi.hosts w).of_rejected halone hp) fun _ _ hx _ => hx⟩
    · cases hs
  | settled w now =>
    simp only [State.step] at hs
    obtain ⟨c, hc, hs⟩ := Option.bind_eq_some_iff.1 hs
    obtain ⟨p, hp, hs⟩ := Option.bind_eq_some_iff.1 hs
    split at hs
    · rename_i outcome hsettled
      obtain ⟨workers, hw, hs⟩ := Option.bind_eq_some_iff.1 hs
      cases hs
      have hhost := hi.hosts w
      obtain ⟨x, event, events, hawait, rfl⟩ := of_published hw
      -- the call is that for the event in hand
      obtain ⟨q, hq, ⟨x', events', hawait'⟩ | hcrash⟩ := hhost.called c hc
      swap
      · rw [hawait] at hcrash; cases hcrash
      obtain rfl := Option.some.inj (hp.symm.trans hq)
      rw [hawait] at hawait'
      cases hawait'
      have hcaller : (s.hosts w).caller = none := by
        by_contra hsome
        have hnone := (hhost.asking c p hc (Option.isSome_iff_ne_none.2 hsome) hp).1
        rw [hsettled] at hnone; cases hnone
      have halone : RabbitMqConnectionManager.Alone (s.hosts w).manager none := hcaller ▸ hhost.manager
      have hnone : ∀ c' q, (s.hosts w).publisher.publishes c' = some q → q.settlements ≠ [] := by
        intro c' q hq h0
        obtain rfl := Option.some.inj (hc.symm.trans (hhost.unsettled c' q hq h0))
        obtain rfl := Option.some.inj (hp.symm.trans hq)
        rw [hsettled] at h0; cases h0
      have hh := hhost.of_answered halone hnone (stored_of_step hi.workers hw) hcaller
          (rfl : (none : Option PublishId) = none)
      refine ⟨w, _, rfl, .inr ⟨_, hw⟩, fun v hv => ?_, hh, fun _ _ hx _ => hx, fun y hy hconfirmed => ?_⟩
      · cases outcome with
        | none => exact OutboxPublisherWorker.goOn_of_ne hv
        | some error => cases error <;> exact OutboxPublisherWorker.goOn_of_ne hv
      · cases outcome with
        | none =>
          rcases List.mem_append.1 hy with hy | hy
          · exact .inl hy
          · obtain rfl := List.mem_singleton.1 hy
            obtain ⟨z, hz, hrest⟩ :=
              (hhost.tracked c p hp).confirmed (by rw [hsettled]; exact List.mem_singleton_self _)
            exact .inr ⟨c, z, hz, hrest⟩
        | some error =>
          cases error with
          | notAttempted => exact .inl hy
          | other error =>
            rcases List.mem_append.1 hy with hy | hy
            · exact .inl hy
            · obtain rfl := List.mem_singleton.1 hy
              cases hconfirmed
    · cases hs
  | manager w a =>
    simp only [State.step] at hs
    split at hs
    · rename_i ha
      obtain ⟨manager, hm, hs⟩ := Option.bind_eq_some_iff.1 hs
      cases hs
      have hcur : RabbitMqConnectionManager.currentAfter (s.hosts w).caller a = (s.hosts w).caller := by
        cases a <;> first | rfl | cases ha
      have halone := (hi.hosts w).manager.step hm fun k b he => by rw [he] at ha; cases ha
      rw [hcur] at halone
      have hgrows := (RabbitMqConnectionManager.calls_of_step hm).grows
      exact ⟨w, _, advance_of_host ((hi.hosts w).of_manager halone hgrows) fun _ _ hx _ => hx⟩
    · cases hs
  | returned w c replyText =>
    simp only [State.step] at hs
    obtain ⟨x, hx, hs⟩ := Option.bind_eq_some_iff.1 hs
    cases hs
    simp only [asDocumented, hx, Option.all_some, Option.isNone_iff_eq_none] at hdoc
    obtain ⟨hh, hk⟩ := (hi.hosts w).of_returned hx hdoc replyText
    exact ⟨w, _, advance_of_host hh hk⟩
  | confirm w c error =>
    simp only [State.step] at hs
    obtain ⟨x, hx, hs⟩ := Option.bind_eq_some_iff.1 hs
    obtain ⟨publisher, hp, hs⟩ := Option.bind_eq_some_iff.1 hs
    split at hs
    · cases hs
    rename_i hanswer
    cases hs
    have hdelivers : error = none → (s.hosts w).delivers x.channel = true := by
      rintro rfl
      simpa only [asDocumented, hx, Option.all_some] using hdoc
    obtain ⟨hh, hk⟩ := (hi.hosts w).of_confirm hx (by simpa using hanswer) hdelivers hp
    exact ⟨w, _, advance_of_host hh hk⟩
  | timeout w c =>
    simp only [State.step] at hs
    obtain ⟨p, -, hs⟩ := Option.bind_eq_some_iff.1 hs
    obtain ⟨channel, -, hs⟩ := Option.bind_eq_some_iff.1 hs
    obtain ⟨publisher, hp, hs⟩ := Option.bind_eq_some_iff.1 hs
    cases hs
    exact ⟨w, _, advance_of_host ((hi.hosts w).of_timeout hp) fun _ _ hx _ => hx⟩

end Steps

/-! ## Every run -/

section Runs

variable {s s' : State}

/-- The worker's action that a step of the processes is made of keeps the events, and the invariant holds after it. -/
theorem Inv.step (hi : Inv cfg s) {a : Action} (hdoc : asDocumented s a = true) (hs : s.step cfg a = some s') :
    Inv cfg s' ∧ (s'.workers = s.workers ∨ ∃ b, s.workers.step cfg b = some s'.workers) := by
  by_cases hworker : ∃ b, a = .worker b
  · obtain ⟨b, rfl⟩ := hworker
    simp only [State.step] at hs
    split at hs
    · rename_i hb
      obtain ⟨workers, hw, rfl⟩ := Option.map_eq_some_iff.1 hs
      obtain ⟨hhanded, hstays⟩ := stays_of_step hw hb
      refine ⟨⟨(hi.workers.step hw).1, hi.history.step hi.workers hw, fun v => ?_, fun y hy => ?_⟩, .inr ⟨b, hw⟩⟩
      · exact (hi.hosts v).of_workers (stored_of_step hi.workers hw) (hstays v)
      · exact hi.handed y (hhanded ▸ hy)
    · cases hs
  · obtain ⟨w, h, ha⟩ := hi.advance hdoc hs fun b hb => hworker ⟨b, hb⟩
    exact ⟨ha.inv hi, ha.workers⟩

theorem Inv.of_reach (h : (system cfg).Reach (fun s a => asDocumented s a = true) s) : Inv cfg s :=
  h.invariant .init fun _ _ _ hi hdoc hs => (hi.step hdoc hs).1

/-- A row keeps its event through every run. -/
theorem sameEvent_of_steps (hi : Inv cfg s) (h : (system cfg).Steps (fun s a => asDocumented s a = true) s s')
    {r : OutboxEventRecord} (hr : r ∈ s.table.rows) : ∃ r' ∈ s'.table.rows, r.SameEvent r' := by
  refine h.invariant_of (I := Inv cfg) (P := fun s' => ∃ r' ∈ s'.table.rows, r.SameEvent r') hi
    (fun _ _ _ hi hdoc hs => (hi.step hdoc hs).1) ⟨r, hr, .refl r⟩ ?_
  rintro s a s' hi ⟨r', hr', hsame⟩ hdoc hs
  rcases (hi.step hdoc hs).2 with heq | ⟨b, hb⟩
  · exact ⟨r', by rw [State.table, heq]; exact hr', hsame⟩
  · obtain ⟨r'', hr'', hfollows⟩ := OutboxPublisherWorker.follows_of_step hi.workers hb hr'
    exact ⟨r'', hr'', hsame.trans hfollows.same⟩

end Runs

/-! ## Published rows -/

/-- The arguments of `channel.publish` are those for the event of the row. -/
structure Carries (m : Message) (r : OutboxEventRecord) : Prop where
  exchange : m.exchange = "payments.events"
  messageId : m.messageId = r.id.uuidOut
  routingKey : m.routingKey = r.routingKey
  content : m.content = Json.stringify r.payload.inUtf16
  correlationId : m.correlationId = r.payload.member "correlationId"
  type : m.type = r.eventType

theorem carries_message {e r : OutboxEventRecord} (h : e.SameEvent r) : Carries (message e) r where
  exchange := rfl
  messageId := by rw [h.id]; rfl
  routingKey := h.routingKey.symm
  content := by rw [h.payload]; rfl
  correlationId := by rw [h.payload]; rfl
  type := h.eventType.symm

/-- A message is determined by the row that it carries. -/
theorem Inv.carries {s : State} (hi : Inv cfg s) {w : WorkerId} {c : PublishId} {x : Sent}
    (hx : (s.hosts w).sent c = some x) : ∃ e r, r ∈ s.table.rows ∧ e.SameEvent r ∧ x.message = message e := by
  obtain ⟨p, hp, -, hmsg⟩ := (hi.hosts w).sent c x hx
  obtain ⟨r, hr, hsame⟩ := (hi.hosts w).events c p hp
  exact ⟨p.event, r, Table.mem_of_get? hr, hsame, hmsg⟩

theorem message_congr {e e' : OutboxEventRecord} (h : e.SameEvent e') : message e = message e' := by
  unfold message messageId
  rw [h.routingKey, h.payload, h.id, h.eventType]

variable (cfg) in
/-- What the broker has seen of the published rows. -/
structure Honest (s : State) : Prop where
  acknowledged : ∀ r ∈ s.table.rows, r.status = .published → ∃ w c x, (s.hosts w).sent c = some x ∧
    Carries x.message r ∧ x.answer = some none ∧ x.returned = false
  sent : ∀ w c x, (s.hosts w).sent c = some x → ∃ r ∈ s.table.rows, Carries x.message r
  republished : ∀ w c x w' c' x', (s.hosts w).sent c = some x → (s.hosts w').sent c' = some x' →
    x.message.messageId = x'.message.messageId → x.message = x'.message
  kept : ∀ s', (system cfg).Steps (fun s a => asDocumented s a = true) s s' → ∀ r ∈ s.table.rows,
    ∃ r' ∈ s'.table.rows, r.SameEvent r'

/-- In every reachable state the broker has acked the message of each published row without returning it, what is sent
twice with one id is the same message, and the events of the rows stay for good. -/
theorem published_acknowledged {s : State} (h : (system cfg).Reach (fun s a => asDocumented s a = true) s) :
    Honest cfg s := by
  have hi := Inv.of_reach h
  refine ⟨fun r hr hpublished => ?_, fun w c x hx => ?_, fun w c x w' c' x' hx hx' hid => ?_,
    fun s' hsteps r hr => sameEvent_of_steps hi hsteps hr⟩
  · have hr' := Table.mem_iff.1 hr
    obtain ⟨y, hy, hid, hconfirmed⟩ := hi.history.published r.id r hr' hpublished
    obtain ⟨w, c, x, hx, hmsg, hanswer, hreturned⟩ := hi.handed y hy hconfirmed
    obtain ⟨r', hr'', hsame⟩ := hi.history.handed y hy
    rw [hid] at hr''
    obtain rfl := Option.some.inj (hr'.symm.trans hr'')
    exact ⟨w, c, x, hx, by rw [hmsg]; exact carries_message hsame, hanswer, hreturned⟩
  · obtain ⟨e, r, hr, hsame, hmsg⟩ := hi.carries hx
    exact ⟨r, hr, by rw [hmsg]; exact carries_message hsame⟩
  · obtain ⟨e, r, hr, hsame, hmsg⟩ := hi.carries hx
    obtain ⟨e', r', hr', hsame', hmsg'⟩ := hi.carries hx'
    have hids : e.id = e'.id := by
      rw [hmsg, hmsg'] at hid
      exact Uuid.uuidOut_inj hid
    have hrow : r.id = r'.id := hsame.id.trans (hids.trans hsame'.id.symm)
    have hget := Table.mem_iff.1 hr
    change s.table.get? r.id = some r at hget
    rw [hrow] at hget
    obtain rfl := Option.some.inj (hget.symm.trans (Table.mem_iff.1 hr'))
    rw [hmsg, hmsg', message_congr hsame, message_congr hsame']

/-! ## A run -/

namespace Sample

/-- Process 0 connects, polls and publishes an event, which the broker acks. -/
def deliveredRun : List Action :=
  [.worker (.insertPending OutboxPublisherWorker.Sample.authorized 10), .poll 0 0 0, .manager 0 (.connected 0 0),
    .manager 0 (.channelCreated 0 0), .manager 0 (.exchangeAsserted 0), .manager 0 (.resumed 0), .polled 0,
    .worker (.begun 0 ⟨0, 1000000⟩), .worker (.query 0), .publish 0 0 1 1, .send 0 none,
    .confirm 0 0 none, .settled 0 1000, .worker (.query 0), .worker (.query 0)]

def delivered : State :=
  ((system OutboxPublisherWorker.Sample.config).runWhile asDocumented (system OutboxPublisherWorker.Sample.config).init
    deliveredRun).get (by decide +kernel)

end Sample

example : Sample.delivered.table.rows.map (·.status) = [.published] := by decide +kernel

theorem published_acknowledged_delivered : Honest OutboxPublisherWorker.Sample.config Sample.delivered :=
  published_acknowledged (System.reach_of_runWhile (Option.some_get _).symm)

end Delivery

end PaymentOrchestration
