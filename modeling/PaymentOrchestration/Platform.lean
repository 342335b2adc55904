/-
The platform: the calls of the payment service and the processes that publish its events. The service only adds rows to
outbox_events and the workers only change them, so each side is modelled with the table as it keeps it; a transaction of
the service that commits an event adds it to both. `one_outbox` says that the two are one table: they hold the same
events, a statement of the service finds the same on either, and no worker's lock holds up a payment.
-/
import PaymentOrchestration.Projection
import PaymentOrchestration.Publication

namespace PaymentOrchestration

open Lib

/-! ## The rows that the service adds -/

/-- What a row was inserted with. -/
def OutboxEventRecord.event (r : OutboxEventRecord) : InsertPendingOutboxEvent where
  id := r.id
  aggregateType := r.aggregateType
  aggregateId := r.aggregateId
  eventType := r.eventType
  eventVersion := r.eventVersion
  routingKey := r.routingKey
  payload := r.payload

/-- The row is as `insertPending` stores it, and would be stored so again. -/
def OutboxEventRecord.AsInserted (r : OutboxEventRecord) : Prop :=
  OutboxEventsDataAccess.insertPending Db.empty r.event r.createdAt = .ok ⟨r, [.insertOutbox r]⟩

section Insertion

variable {db db' : Db} {event : InsertPendingOutboxEvent} {now : Timestamp} {a : Answer OutboxEventRecord}
  {r : OutboxEventRecord}

theorem jsonbColumn_stored {v w : Json String} (h : jsonbColumn v = .ok w) : jsonbColumn w = .ok w := by
  unfold jsonbColumn at h ⊢
  split at h
  · rename_i hv
    cases h
    rw [Json.allStrings_jsonb, if_pos hv, Json.jsonb_jsonb]
  · cases h

/-- What is stored is what the columns have made of the parameters. -/
theorem asInserted (h : OutboxEventsDataAccess.insertPending db event now = .ok a) :
    a.returned.AsInserted ∧ a.writes = [.insertOutbox a.returned] := by
  unfold OutboxEventsDataAccess.insertPending at h
  obtain ⟨aggregateType, h1, h⟩ := ok_of_bind h
  obtain ⟨eventType, h2, h⟩ := ok_of_bind h
  obtain ⟨routingKey, h3, h⟩ := ok_of_bind h
  obtain ⟨payload, h4, h⟩ := ok_of_bind h
  obtain ⟨_, h5, h⟩ := ok_of_bind h
  split at h
  · cases h
  · cases h
    refine ⟨?_, rfl⟩
    simp only [OutboxEventRecord.AsInserted, OutboxEventsDataAccess.insertPending, OutboxEventRecord.event,
      varcharIn_stored h1, varcharIn_stored h2, varcharIn_stored h3, jsonbColumn_stored h4]
    change (check "outbox_events_event_version_check" (0 < event.eventVersion) >>= _) = _
    rw [h5]
    rfl

/-- An insert depends on the table only in whether the id is taken. -/
theorem OutboxEventRecord.AsInserted.insert (h : r.AsInserted) (hn : db.outbox.get? r.id = none) :
    OutboxEventsDataAccess.insertPending db r.event r.createdAt = .ok ⟨r, [.insertOutbox r]⟩ := by
  have hid : (db.outbox.get? r.event.id).isSome = (Db.empty.outbox.get? r.event.id).isSome := congrArg Option.isSome hn
  unfold OutboxEventRecord.AsInserted OutboxEventsDataAccess.insertPending at h
  unfold OutboxEventsDataAccess.insertPending
  simp only [hid]
  exact h

end Insertion

/-- A write that adds an event adds one as `insertPending` stores it. -/
def Write.AsInserted : Write → Prop
  | .insertOutbox r => r.AsInserted
  | _ => True

section Writes

variable {cfg : Config} {env : Env} {db : Db} {call : Call} {o : Outcome} {s s' : State} {a : Action}

theorem asInserted_of_run (h : call.run cfg env db = .ok o) : ∀ w ∈ o.writes, w.AsInserted := by
  intro w hw
  cases hawait : call.await with
  | recordEvent d payment recording =>
    simp only [Call.run, hawait] at h
    obtain ⟨a, ha, rfl⟩ := map_eq_ok h
    obtain ⟨members, -, ha⟩ := ok_of_bind ha
    obtain ⟨hr, hws⟩ := asInserted ha
    rw [hws, List.mem_singleton] at hw
    rw [hw]; exact hr
  | _ =>
    have hran := ran_of_run h
    rw [hawait] at hran
    cases hran <;> first
      | (rw [List.mem_singleton] at hw; rw [hw]; trivial)
      | cases hw

theorem asInserted_of_reach (h : (service cfg).Reach System.anyStep s) : s.server.Holds Write.AsInserted :=
  h.invariant (.start _) fun _ _ _ hh _ hs => (step_cases hs).holds hh fun _ _ _ _ _ _ hrun => asInserted_of_run hrun

/-- A step of the service adds one event at most. -/
theorem outbox_of_step (h : (service cfg).Reach System.anyStep s) (hs : s.step cfg a = some s') :
    s'.db.outbox = s.db.outbox ∨
      ∃ e, e.AsInserted ∧ s.db.outbox.get? e.id = none ∧ s'.db.outbox = s.db.outbox.insert e := by
  have hl := ledger_step (inv_of_reach h) (step_cases hs)
  have hholds := asInserted_of_reach (h.step trivial hs)
  rcases hl.change with ⟨hdb, -⟩ | ⟨t, ws, htr, hdb, hlog, -⟩
  · exact .inl (congrArg Db.outbox hdb)
  · have hdb : s'.db = schema.applyAll s.db ws := hdb
    rw [hdb]
    cases htr with
    | begun | acquired | failed => exact .inl rfl
    | @settled _ _ _ _ w _ e _ _ _ hc _ hn =>
      refine .inr ⟨e, hholds.log (t, .insertOutbox e) ?_, hn, ?_⟩
      · have hlog : s'.server.log = s.server.log ++ _ := hlog
        rw [hlog]
        exact List.mem_append_right _ (List.mem_cons_of_mem _ List.mem_cons_self)
      · exact congrArg (·.insert e) hc.outbox

end Writes

namespace Platform

open OutboxPublisherWorker (WorkerConfig WorkerId)
open RabbitMqPublisher (PublishId)

/-! ## The state -/

/-- The service with its calls and tables, and the publishing processes with outbox_events as they keep it. -/
structure State where
  service : PaymentOrchestration.State
  delivery : Delivery.State

inductive Action
  | service (a : PaymentOrchestration.Action)
  | delivery (a : Delivery.Action)

/-- The events a step of the service has added. -/
def added (s s' : PaymentOrchestration.State) : List OutboxEventRecord := s'.db.outbox.rows.drop s.db.outbox.rows.length

/-- What the commit of an event is on the other side. -/
def insertion (r : OutboxEventRecord) : Delivery.Action := .worker (.insertPending r.event r.createdAt)

def isInsertion : Delivery.Action → Bool
  | .worker (.insertPending _ _) => true
  | _ => false

variable (cfg : Config) (wcfg : WorkerConfig)

def State.step (s : State) : Action → Option State
  | .service a => do
    let service ← s.service.step cfg a
    let delivery ← (Delivery.system wcfg).runFrom s.delivery ((added s.service service).map insertion)
    return ⟨service, delivery⟩
  | .delivery a =>
    if isInsertion a then none else (s.delivery.step wcfg a).map fun delivery => { s with delivery := delivery }

/-- The platform as a transition system. -/
def system : System State Action := ⟨⟨.initial, .initial⟩, State.step cfg wcfg⟩

/-- What is assumed of RabbitMQ and amqplib. -/
def asDocumented (s : State) : Action → Bool
  | .service _ => true
  | .delivery a => Delivery.asDocumented s.delivery a

variable {cfg wcfg} {s s' : State} {a : Action}

/-! ## Each side on its own -/

theorem step_service {a : PaymentOrchestration.Action} {service : PaymentOrchestration.State}
    {delivery : Delivery.State} (hservice : s.service.step cfg a = some service)
    (hdelivery : (Delivery.system wcfg).runFrom s.delivery ((added s.service service).map insertion) = some delivery) :
    s.step cfg wcfg (.service a) = some ⟨service, delivery⟩ := by
  simp only [State.step, hservice, Option.bind_eq_bind, Option.bind_some, hdelivery]
  rfl

/-- What a step does on each side. -/
theorem step_cases (hs : s.step cfg wcfg a = some s') :
    (∃ b, a = .service b ∧ s.service.step cfg b = some s'.service ∧
      (Delivery.system wcfg).runFrom s.delivery ((added s.service s'.service).map insertion) = some s'.delivery) ∨
    ∃ b, a = .delivery b ∧ ¬ isInsertion b = true ∧ s.delivery.step wcfg b = some s'.delivery ∧
    s'.service = s.service := by
  cases a with
  | service b =>
    obtain ⟨service, hservice, hs⟩ := Option.bind_eq_some_iff.1 hs
    obtain ⟨delivery, hdelivery, hs⟩ := Option.bind_eq_some_iff.1 hs
    cases hs
    exact .inl ⟨b, rfl, hservice, hdelivery⟩
  | delivery b =>
    simp only [State.step] at hs
    split at hs
    · cases hs
    · rename_i hb
      obtain ⟨delivery, hdelivery, rfl⟩ := Option.map_eq_some_iff.1 hs
      exact .inr ⟨b, rfl, hb, hdelivery, rfl⟩

theorem service_of_step {ok : PaymentOrchestration.State → PaymentOrchestration.Action → Prop}
    (hok : ∀ b, a = .service b → ok s.service b) (hs : s.step cfg wcfg a = some s') :
    (service cfg).Steps ok s.service s'.service := by
  obtain ⟨b, ha, hservice, -⟩ | ⟨b, -, -, -, hsame⟩ := step_cases hs
  · exact .single (hok b ha) hservice
  · rw [hsame]; exact .refl

theorem delivery_of_step (hdoc : asDocumented s a = true) (hs : s.step cfg wcfg a = some s') :
    (Delivery.system wcfg).Steps (fun s a => Delivery.asDocumented s a = true) s.delivery s'.delivery := by
  obtain ⟨b, rfl, -, hdelivery⟩ | ⟨b, rfl, -, hdelivery, -⟩ := step_cases hs
  · refine System.steps_of_runFrom _ (fun a ha s => ?_) hdelivery
    obtain ⟨r, -, rfl⟩ := List.mem_map.1 ha
    rfl
  · exact .single hdoc hdelivery

theorem service_of_reach (h : (system cfg wcfg).Reach (fun s a => asDocumented s a = true) s) :
    (service cfg).Reach System.anyStep s.service :=
  System.Steps.map (f := State.service) h fun _ _ _ _ hs => service_of_step (fun _ _ => trivial) hs

theorem delivery_of_reach (h : (system cfg wcfg).Reach (fun s a => asDocumented s a = true) s) :
    (Delivery.system wcfg).Reach (fun s a => Delivery.asDocumented s a = true) s.delivery :=
  System.Steps.map (f := State.delivery) h fun _ _ _ hdoc hs => delivery_of_step hdoc hs

/-! ## The two sides of outbox_events -/

/-- A step of the processes leaves the table alone, unless it is one of the database and its workers. -/
theorem workers_of_step {d d' : Delivery.State} {a : Delivery.Action} (hs : d.step wcfg a = some d') :
    d'.workers.server = d.workers.server ∨ ∃ b, a = .worker b ∧ d.workers.step wcfg b = some d'.workers := by
  cases a with
  | worker b =>
    simp only [Delivery.State.step] at hs
    split at hs
    · obtain ⟨workers, hw, rfl⟩ := Option.map_eq_some_iff.1 hs
      exact .inr ⟨b, rfl, hw⟩
    · cases hs
  | poll w k a =>
    simp only [Delivery.State.step] at hs
    obtain ⟨workers, hw, hs⟩ := Option.bind_eq_some_iff.1 hs
    obtain ⟨host, -, hs⟩ := Option.bind_eq_some_iff.1 hs
    cases hs
    obtain ⟨-, rfl⟩ := Delivery.of_poll hw
    exact .inl rfl
  | polled w =>
    simp only [Delivery.State.step] at hs
    split at hs
    · cases hs
    obtain ⟨k, -, hs⟩ := Option.bind_eq_some_iff.1 hs
    split at hs
    · obtain ⟨workers, hw, hs⟩ := Option.bind_eq_some_iff.1 hs
      cases hs
      obtain ⟨-, rfl⟩ := Delivery.of_channelObtained hw
      exact .inl rfl
    · obtain ⟨workers, hw, hs⟩ := Option.bind_eq_some_iff.1 hs
      cases hs
      obtain ⟨-, rfl⟩ := Delivery.of_channelRejected hw
      exact .inl rfl
    · cases hs
  | publish w c k a =>
    simp only [Delivery.State.step] at hs
    split at hs
    · split at hs
      · cases hs
      obtain ⟨publisher, -, hs⟩ := Option.bind_eq_some_iff.1 hs
      obtain ⟨host, -, hs⟩ := Option.bind_eq_some_iff.1 hs
      cases hs
      exact .inl rfl
    · cases hs
  | send w thrown =>
    simp only [Delivery.State.step] at hs
    obtain ⟨c, -, hs⟩ := Option.bind_eq_some_iff.1 hs
    obtain ⟨k, -, hs⟩ := Option.bind_eq_some_iff.1 hs
    split at hs
    · obtain ⟨host, -, rfl⟩ := Option.map_eq_some_iff.1 hs
      exact .inl rfl
    · obtain ⟨publisher, -, hs⟩ := Option.bind_eq_some_iff.1 hs
      cases hs
      exact .inl rfl
    · cases hs
  | settled w now =>
    simp only [Delivery.State.step] at hs
    obtain ⟨c, -, hs⟩ := Option.bind_eq_some_iff.1 hs
    obtain ⟨p, -, hs⟩ := Option.bind_eq_some_iff.1 hs
    split at hs
    · rename_i outcome _
      obtain ⟨workers, hw, hs⟩ := Option.bind_eq_some_iff.1 hs
      cases hs
      obtain ⟨x, event, events, -, rfl⟩ := Delivery.of_published hw
      cases outcome with
      | none => exact .inl rfl
      | some error => cases error <;> exact .inl rfl
    · cases hs
  | manager w a =>
    simp only [Delivery.State.step] at hs
    split at hs
    · obtain ⟨manager, -, hs⟩ := Option.bind_eq_some_iff.1 hs
      cases hs
      exact .inl rfl
    · cases hs
  | returned w c replyText =>
    simp only [Delivery.State.step] at hs
    obtain ⟨x, -, hs⟩ := Option.bind_eq_some_iff.1 hs
    cases hs
    exact .inl rfl
  | confirm w c error =>
    simp only [Delivery.State.step] at hs
    obtain ⟨x, -, hs⟩ := Option.bind_eq_some_iff.1 hs
    obtain ⟨publisher, -, hs⟩ := Option.bind_eq_some_iff.1 hs
    split at hs
    · cases hs
    · cases hs
      exact .inl rfl
  | timeout w c =>
    simp only [Delivery.State.step] at hs
    obtain ⟨p, -, hs⟩ := Option.bind_eq_some_iff.1 hs
    obtain ⟨channel, -, hs⟩ := Option.bind_eq_some_iff.1 hs
    obtain ⟨publisher, -, hs⟩ := Option.bind_eq_some_iff.1 hs
    cases hs
    exact .inl rfl

/-- Each row on one side is a row on the other that carries the same event. -/
def Agree (s : State) : Prop :=
  ∀ id, Option.Rel OutboxEventRecord.SameEvent (s.service.db.outbox.get? id) (s.delivery.table.get? id)

theorem same_row : ∀ x : Option OutboxEventRecord, Option.Rel OutboxEventRecord.SameEvent x x
  | none => .none
  | some r => .some (.refl r)

theorem Agree.init : Agree ⟨.initial, .initial⟩ := fun _ => .none

/-- The rows of a table after a step of the workers that adds none. -/
theorem rows_of_workers {workers workers' : OutboxPublisherWorker.State} {b : OutboxPublisherWorker.Action}
    (hi : OutboxPublisherWorker.Inv wcfg workers) (hs : workers.step wcfg b = some workers')
    (hb : ∀ event now, b ≠ .insertPending event now) (id : Uuid) :
    Option.Rel OutboxEventRecord.SameEvent (workers.table.get? id) (workers'.table.get? id) := by
  have hevolves := (hi.step hs).2
  cases hr : workers.table.get? id with
  | some r =>
    obtain ⟨r', hr', hfollows⟩ := hevolves.follows id r hr
    rw [hr']; exact .some hfollows.same
  | none =>
    have hcommit : ∀ {t : OutboxPublisherWorker.TxId}, workers.isOpen t →
        (workers.server.commit (.poll t)).committed.get? id = none := by
      intro t hopen
      obtain ⟨ws, hws⟩ := Option.isSome_iff_exists.1 hopen
      rw [Server.commit_committed hws]
      by_contra hsome
      obtain ⟨r', hr'⟩ := Option.ne_none_iff_exists'.1 hsome
      obtain ⟨r, hr'⟩ := (hi.tables.outcomes t ws hws).row_new hr'
      rw [hr] at hr'; cases hr'
    have hnone : workers'.table.get? id = none := by
      cases OutboxPublisherWorker.step_cases hs with
      | inserted => exact absurd rfl (hb _ _)
      | begun => simp only [OutboxPublisherWorker.State.table, Server.begin_committed]; exact hr
      | fetched _ _ hserver | marked _ _ hserver =>
        obtain ⟨-, -, -, hc, -⟩ := Server.stage_eq_some hserver
        simp only [OutboxPublisherWorker.State.table, hc]
        exact hr
      | committed _ hopen => exact hcommit hopen
      | lateCommitted _ hopen => exact hcommit hopen
      | moved | published | failed | rolledBack | inDoubt | sessionLost => exact hr
    rw [hnone]; exact .none

/-- An id that is new on one side is new on the other. -/
theorem Agree.none_of_none {s : State} (h : Agree s) {id : Uuid} (hn : s.service.db.outbox.get? id = none) :
    s.delivery.table.get? id = none := by
  have hid := h id
  rw [hn] at hid
  generalize s.delivery.table.get? id = y at hid
  cases hid
  rfl

theorem Agree.trans_right {s s' : State} (h : Agree s) (hservice : s'.service.db.outbox = s.service.db.outbox)
    (hrows : ∀ id, Option.Rel OutboxEventRecord.SameEvent (s.delivery.table.get? id) (s'.delivery.table.get? id)) :
    Agree s' := by
  intro id
  rw [hservice]
  have hleft := h id
  have hright := hrows id
  generalize s.service.db.outbox.get? id = x, s.delivery.table.get? id = y,
    s'.delivery.table.get? id = z at hleft hright
  cases hleft with
  | none => cases hright; exact .none
  | some hxy => cases hright with | some hyz => exact .some (hxy.trans hyz)

/-- The insert of a new event on the side of the workers. -/
theorem insertion_step {d d' : Delivery.State} {e : OutboxEventRecord} (he : e.AsInserted)
    (hn : d.table.get? e.id = none) (hs : d.step wcfg (insertion e) = some d') : d'.table = d.table.insert e := by
  simp only [insertion, Delivery.State.step] at hs
  obtain ⟨workers, hw, rfl⟩ := Option.map_eq_some_iff.1 hs
  have hinsert : OutboxEventsDataAccess.insertPending { Db.empty with outbox := d.workers.table } e.event e.createdAt =
    .ok ⟨e, [.insertOutbox e]⟩ := he.insert hn
  simp only [OutboxPublisherWorker.State.step, hinsert] at hw
  obtain ⟨server, hserver, rfl⟩ := Option.map_eq_some_iff.1 hw
  obtain ⟨-, hc, -⟩ := Server.autocommit_eq_some hserver
  exact hc

theorem Agree.step (h : Agree s) (hr : (service cfg).Reach System.anyStep s.service) (hi : Delivery.Inv wcfg s.delivery)
    (hs : s.step cfg wcfg a = some s') : Agree s' := by
  obtain ⟨b, rfl, hservice, hdelivery⟩ | ⟨b, rfl, hb, hdelivery, hsame⟩ := step_cases hs
  · rcases outbox_of_step hr hservice with hsame | ⟨e, he, hn, hinsert⟩
    · have hadded : added s.service s'.service = [] := by rw [added, hsame, List.drop_length]
      rw [hadded] at hdelivery
      have hkept := Option.some.inj hdelivery
      exact h.trans_right hsame fun id => by rw [← hkept]; exact same_row _
    · have hadded : added s.service s'.service = [e] := by
        rw [added, hinsert, Table.rows_insert hn, List.drop_left]
      rw [hadded] at hdelivery
      obtain ⟨d, hd, hrest⟩ := Option.bind_eq_some_iff.1 hdelivery
      obtain rfl : d = s'.delivery := Option.some.inj hrest
      have hn' := h.none_of_none hn
      have htable := insertion_step he hn' hd
      intro id
      simp only [hinsert, htable]
      by_cases hid : e.id = id
      · subst hid
        rw [Table.get?_insert_self hn, Table.get?_insert_self hn']
        exact .some (.refl e)
      · rw [Table.get?_insert_of_ne hid, Table.get?_insert_of_ne hid]
        exact h id
  · refine h.trans_right (by rw [hsame]) fun id => ?_
    rcases workers_of_step hdelivery with hserver | ⟨b, rfl, hworkers⟩
    · have htable : s'.delivery.table = s.delivery.table := congrArg Server.committed hserver
      rw [htable]
      exact same_row _
    · refine rows_of_workers hi.workers hworkers ?_ id
      rintro event now rfl
      exact hb rfl

theorem agree_of_reach (h : (system cfg wcfg).Reach (fun s a => asDocumented s a = true) s) : Agree s := by
  induction h with
  | refl => exact .init
  | tail hpre hdoc hs ih => exact ih.step (service_of_reach hpre) (.of_reach (delivery_of_reach hpre)) hs

/-! ## No lock of a worker holds up the service -/

/-- Only stored rows are locked. -/
def LocksRows (workers : OutboxPublisherWorker.State) : Prop :=
  ∀ id t, workers.server.locks id = some t → workers.table.get? id ≠ none

theorem LocksRows.step {workers workers' : OutboxPublisherWorker.State} {b : OutboxPublisherWorker.Action}
    (h : LocksRows workers) (hi : OutboxPublisherWorker.Inv wcfg workers) (hs : workers.step wcfg b = some workers') :
    LocksRows workers' := by
  have hevolves := (hi.step hs).2
  -- a row that was stored is stored
  have hkept : ∀ {id}, workers.table.get? id ≠ none → workers'.table.get? id ≠ none := by
    intro id hne hnone
    obtain ⟨r, hr⟩ := Option.ne_none_iff_exists'.1 hne
    obtain ⟨r', hr', -⟩ := hevolves.follows id r hr
    rw [hnone] at hr'; cases hr'
  have hsub : (∀ id t, workers'.server.locks id = some t → workers.server.locks id = some t) → LocksRows workers' :=
    fun hsub id t hl => hkept (h id t (hsub id t hl))
  have hended : ∀ {t : OutboxPublisherWorker.TxId} {id u},
      (if workers.server.locks id = some (.poll t) then none else workers.server.locks id) = some u →
        workers.server.locks id = some u := by
    intro t id u hl
    split at hl
    · cases hl
    · exact hl
  cases OutboxPublisherWorker.step_cases hs with
  | inserted _ hserver =>
    obtain ⟨-, -, -, hl, -⟩ := Server.autocommit_eq_some hserver
    exact hsub fun id t hlock => hl ▸ hlock
  | moved | published | failed | inDoubt => exact hsub fun _ _ hl => hl
  | begun => exact hsub fun id t hl => by rwa [Server.begin_locks] at hl
  | @fetched w x events server hw hf hserver =>
    obtain ⟨ws₀, hp₀, -, hc, -, -, hl⟩ := Server.stage_eq_some hserver
    have hview : workers.view x.id = workers.table := by
      rw [OutboxPublisherWorker.State.view, hi.fetching w x hw (by rw [OutboxPublisherWorker.State.isOpen, hp₀]; rfl)]
      rfl
    rw [hview] at hf
    intro id t hlock
    simp only [hl, List.map_nil, List.nil_append] at hlock
    split at hlock
    · rename_i hmem
      obtain ⟨e, he, rfl⟩ := List.mem_map.1 hmem
      simp only [OutboxPublisherWorker.State.table, hc]
      rw [Table.mem_iff.1 (hf.mem e he).1]
      exact Option.some_ne_none e
    · exact hkept (h id t hlock)
  | @marked w x event events await ws server hw hm hserver =>
    obtain ⟨ws₀, hp₀, -, hc, -, -, hl⟩ := Server.stage_eq_some hserver
    obtain ⟨v, rfl, hid, -, hrow⟩ := hi.marks hw (by rw [OutboxPublisherWorker.State.isOpen, hp₀]; rfl) hm
    intro id t hlock
    simp only [hl, List.map_cons, List.map_nil, List.append_nil, List.mem_singleton] at hlock
    split at hlock
    · rename_i heq
      refine hkept ?_
      have hkey : id = event.id := heq.trans hid
      rw [hkey, hrow]
      exact Option.some_ne_none event
    · exact hkept (h id t hlock)
  | committed | lateCommitted => exact hsub fun id t hl => hended hl
  | rolledBack | sessionLost => exact hsub fun id t hl => hended hl

theorem locksRows_of_reach {d : Delivery.State}
    (h : (Delivery.system wcfg).Reach (fun s a => Delivery.asDocumented s a = true) d) :
    LocksRows d.workers := by
  induction h with
  | refl => exact fun _ _ hl => by cases hl
  | tail hpre hdoc hs ih =>
    have hi := Delivery.Inv.of_reach hpre
    rcases (hi.step hdoc hs).2 with hsame | ⟨b, hb⟩
    · rw [hsame]; exact ih
    · exact ih.step hi.workers hb

/-- A new event is added on the side of the workers at once. -/
theorem insertion_enabled {d : Delivery.State} {e : OutboxEventRecord} (hl : LocksRows d.workers) (he : e.AsInserted)
    (hn : d.table.get? e.id = none) : ∃ d', d.step wcfg (insertion e) = some d' := by
  have hfree : ∀ w ∈ [OutboxWrite.insert e], d.workers.server.free .service (outboxSchema.key w) = true := by
    intro w hw
    rw [List.mem_singleton.1 hw]
    refine Server.free_iff.2 (.inl ?_)
    by_contra hlock
    obtain ⟨t, ht⟩ := Option.ne_none_iff_exists'.1 hlock
    exact hl e.id t ht hn
  obtain ⟨server, hserver⟩ : ∃ server, d.workers.server.autocommit .service [.insert e] = some server :=
    ⟨_, Server.autocommit_of_free hfree⟩
  have hinsert : OutboxEventsDataAccess.insertPending { Db.empty with outbox := d.workers.table } e.event e.createdAt =
    .ok ⟨e, [.insertOutbox e]⟩ := he.insert hn
  refine ⟨{ d with workers := { d.workers with server := server } }, ?_⟩
  simp only [insertion, Delivery.State.step, Delivery.isDatabase, if_true, OutboxPublisherWorker.State.step,
    hinsert, hserver, Option.map_some]

/-! ## One table -/

variable (cfg wcfg) in
/-- What makes the two sides of outbox_events one table. -/
structure OneOutbox (s : State) : Prop where
  events : Agree s
  sees : ∀ env (call : Call), call.run cfg env { s.service.db with outbox := s.delivery.table } =
    call.run cfg env s.service.db
  unblocked : ∀ a service, s.service.step cfg a = some service →
    ∃ s', s.step cfg wcfg (.service a) = some s' ∧ s'.service = service

/-- A statement of the service reads of outbox_events only whether an id is taken. -/
theorem run_of_ids {env : Env} {db : Db} {outbox : Table OutboxEventRecord.id} (call : Call)
    (h : ∀ id, (outbox.get? id).isSome = (db.outbox.get? id).isSome) :
    call.run cfg env { db with outbox := outbox } = call.run cfg env db := by
  unfold Call.run
  split <;> first
    | rfl
    | simp only [OutboxService.record, OutboxService.recordEvent, OutboxEventsDataAccess.insertPending, h]

/-- In every reachable state the service and the workers hold the same events, a statement of the service finds the
same on either side, and every step of the service can be taken, whatever rows the workers have locked. -/
theorem one_outbox (h : (system cfg wcfg).Reach (fun s a => asDocumented s a = true) s) : OneOutbox cfg wcfg s := by
  have hagree := agree_of_reach h
  refine ⟨hagree, fun env call => run_of_ids call fun id => ?_, fun a service hservice => ?_⟩
  · have hid := hagree id
    generalize s.service.db.outbox.get? id = x, s.delivery.table.get? id = y at hid
    cases hid <;> rfl
  · rcases outbox_of_step (service_of_reach h) hservice with hsame | ⟨e, he, hn, hinsert⟩
    · have hadded : added s.service service = [] := by rw [added, hsame, List.drop_length]
      exact ⟨_, step_service hservice (by rw [hadded]; rfl), rfl⟩
    · have hadded : added s.service service = [e] := by
        rw [added, hinsert, Table.rows_insert hn, List.drop_left]
      obtain ⟨d, hd⟩ := insertion_enabled (locksRows_of_reach (delivery_of_reach h)) he (hagree.none_of_none hn)
      have hinsertions : (Delivery.system wcfg).runFrom s.delivery
          ((added s.service service).map insertion) = some d := by
        rw [hadded]
        exact Option.bind_eq_some_iff.2 ⟨d, hd, rfl⟩
      exact ⟨_, step_service hservice hinsertions, rfl⟩

/-! ## A run -/

namespace Sample

/-- The call 0 creates a payment, and process 0 publishes its event, which the broker acks. -/
def deliveredRun : List Action :=
  PaymentOrchestration.Sample.createRun.map .service ++
    [.poll 0 0 0, .manager 0 (.connected 0 0), .manager 0 (.channelCreated 0 0), .manager 0 (.exchangeAsserted 0),
      .manager 0 (.resumed 0), .polled 0, .worker (.begun 0 ⟨0, 1000000⟩), .worker (.query 0),
      .publish 0 0 1 1, .send 0 none,
      .confirm 0 0 none, .settled 0 1000, .worker (.query 0), .worker (.query 0)].map .delivery

abbrev platform : System State Action := system PaymentOrchestration.Sample.cfg OutboxPublisherWorker.Sample.config

theorem deliveredRun_ends : (platform.runWhile asDocumented platform.init deliveredRun).any (fun s =>
    s.delivery.table.rows.map (·.status) = [.published] ∧
      (s.service.db.payments.get? PaymentOrchestration.Sample.paymentId).map PaymentRecord.status =
        some .authorized) = true := by
  decide +kernel

/-- The state after `deliveredRun`. -/
def delivered : State :=
  (platform.runWhile asDocumented platform.init deliveredRun).get (Option.isSome_of_any deliveredRun_ends)

theorem delivered_eq : platform.runWhile asDocumented platform.init deliveredRun = some delivered :=
  (Option.some_get _).symm

theorem delivered_run : delivered.delivery.table.rows.map (·.status) = [.published] ∧
    (delivered.service.db.payments.get? PaymentOrchestration.Sample.paymentId).map PaymentRecord.status =
      some .authorized := by
  have hends := System.of_ends delivered_eq deliveredRun_ends
  exact of_decide_eq_true hends

theorem delivered_reach : platform.Reach (fun s a => asDocumented s a = true) delivered :=
  System.reach_of_runWhile delivered_eq

end Sample

theorem one_outbox_delivered :
    OneOutbox PaymentOrchestration.Sample.cfg OutboxPublisherWorker.Sample.config Sample.delivered :=
  one_outbox Sample.delivered_reach

end Platform

end PaymentOrchestration
