/-
The two sides on which the platform is observed: clients ask through the gateway, consumers read the
messages. What a consumer is told never conflicts with what a client was told before it, and it catches up;
and whoever asks for a payment of which a message has told finds it, as the message has told of it or as
what it has become.
-/
import PaymentOrchestration.Clients
import PaymentOrchestration.Consumers

namespace PaymentOrchestration.Platform

open Lib PaymentsService
open OutboxPublisherWorker (WorkerConfig)
open RabbitMqPublisher (Message message)

/-! ## Runs of a deployment -/

/-- A step of the platform in a deployment, with RabbitMQ and amqplib as they are documented. -/
def steady (s : State) (a : Action) : Prop :=
  asDocumented s a = true ∧ ∀ b, a = .service b → Deployment.steady s.service b

section Runs

variable {cfg : Config} {wcfg : WorkerConfig} {s s' : State} {P : Uuid} {ms : List Message}
  {read : List OutboxEventRecord} {view : PaymentView}

theorem service_of_steps (h : (system cfg wcfg).Steps steady s s') :
    (service cfg).Steps Deployment.steady s.service s'.service :=
  System.Steps.map (f := State.service) h fun _ _ _ hok hs => service_of_step hok.2 hs

theorem documented_of_steady (h : (system cfg wcfg).Reach steady s) :
    (system cfg wcfg).Reach (fun s a => asDocumented s a = true) s :=
  h.mono fun _ _ hok => hok.1

/-- A payment stays, or what it becomes takes its place. -/
theorem follows_of_steps {p : PaymentRecord} (h : (system cfg wcfg).Reach steady s)
    (hsteps : (system cfg wcfg).Steps steady s s')
    (hp : s.service.db.payments.get? P = some p) : ∃ p', s'.service.db.payments.get? P = some p' ∧ p.Follows p' :=
  Ledger.follows_of_steps (ledger_of_steps (inv_of_reach (service_of_steps h)) (service_of_steps hsteps)) hp

/-- What messages tell of a payment is how its row once was. -/
theorem row_of_told (h : (system cfg wcfg).Reach (fun s a => asDocumented s a = true) s) (hms : ∀ m ∈ ms, s.Sent m)
    (hread : List.Forall₂ Reads ms read) (hview : told P read = some view) :
    ∃ p p' : PaymentRecord, view = p.view ∧ p.Shape ∧ s.service.db.payments.get? P = some p' ∧ p.Follows p' := by
  have hshape : ∀ {p : PaymentRecord}, s.service.db.payments.get? P = some p → p.Shape := fun hp =>
    Ledger.shapes (ledger_of_reach (service_of_reach h)) _ (Table.mem_of_get? hp)
  have hbehind := behind_of_read h P hms hread
  rw [hview] at hbehind
  generalize hrow : s.service.db.payments.get? P = row at hbehind
  rcases hbehind with hnone | hfirst | hcurrent
  · cases hnone
  · cases hfirst with
    | @current p => exact ⟨p, p, rfl, hshape hrow, rfl, .refl p⟩
    | @earlier p p' hp _ hf => exact ⟨p, p', rfl, hp, rfl, hf⟩
  · obtain ⟨p, rfl, rfl⟩ := Option.map_eq_some_iff.1 hcurrent.symm
    exact ⟨p, p, rfl, hshape hrow, rfl, .refl p⟩

end Runs

/-! ## A client and a consumer -/

section Observers

variable {d : Deployment} {wcfg : WorkerConfig} {s s' : State} {ms : List Message} {read : List OutboxEventRecord}

/-- A consumer that reads on after a client was told of a payment is told the same of it, or what became of
it, or what it was before; and nothing older than what the client was told, once the payment's events are
published and what was accepted is read. -/
theorem consumer_after_client (hreach : (system d.cfg wcfg).Reach steady s)
    (hsteps : (system d.cfg wcfg).Steps steady s s')
    {op : PaymentServer.Operation} {data : Json JsString} (h : d.Gives s.service op data) (hms : ∀ m ∈ ms, s'.Sent m)
    (hread : List.Forall₂ Reads ms read) :
    ∃ body p, data = body.inUtf16 ∧ Deployment.Tells s.service op body p ∧
      (∀ view, told p.id read = some view → ∃ p', view = p'.view ∧ (toDto p = toDto p' ∨ p.Follows p' ∨ p'.Follows p)) ∧
      ((∀ r ∈ s'.delivery.table.rows, r.aggregateId = p.id → r.status = .published) →
        (∀ m, s'.delivery.Acknowledged m → m ∈ ms) → ∃ p', told p.id read = some p'.view ∧ p.Follows p') := by
  have hservice := service_of_steps hreach
  have hdoc := documented_of_steady (hreach.trans hsteps)
  obtain ⟨body, hsource, rfl⟩ := h.source hservice
  obtain ⟨p, htells⟩ := Deployment.tells_of_source (inv_of_reach hservice) hsource
  obtain ⟨p₁, hp₁, hf₁⟩ := htells.row
  obtain ⟨q, hq, hf⟩ := follows_of_steps hreach hsteps hp₁
  refine ⟨body, p, rfl, htells, fun view hview => ?_, fun hpublished hall => ?_⟩
  · obtain ⟨p', q', rfl, hshape, hq', hf'⟩ := row_of_told hdoc hms hread hview
    obtain rfl := Option.some.inj (hq.symm.trans hq')
    exact ⟨p', rfl, Deployment.agree_of_follows htells.shape hshape (hf₁.trans hf) hf'⟩
  · refine ⟨q, ?_, hf₁.trans hf⟩
    rw [caughtUp_of_read hdoc p.id hms hread hpublished hall, hq]
    rfl

/-- Whoever asks for a payment of which messages have told is given it, as the messages have told of it or
as what it has become. -/
theorem client_after_consumer (hreach : (system d.cfg wcfg).Reach steady s)
    (hsteps : (system d.cfg wcfg).Steps steady s s')
    (hms : ∀ m ∈ ms, s.Sent m) (hread : List.Forall₂ Reads ms read) {P : Uuid} {view : PaymentView}
    (hview : told P read = some view) :
    ∃ p p' : PaymentRecord, view = p.view ∧ p.Follows p' ∧ ∀ query : GetPaymentQuery,
      uuidColumn query.paymentId = .ok P → getById s'.service.db query = .ok (toDto p') ∧
        ∀ data, d.Gives s'.service (.getById query) data → data = (toDto p').inUtf16 := by
  obtain ⟨p, q, rfl, -, hq, hf⟩ := row_of_told (documented_of_steady hreach) hms hread hview
  obtain ⟨p', hp', hf'⟩ := follows_of_steps hreach hsteps hq
  refine ⟨p, p', rfl, hf.trans hf', fun query hid => ?_⟩
  have hfound := getById_of_row hid hp'
  refine ⟨hfound, fun data hgives => ?_⟩
  obtain ⟨body, hsource, rfl⟩ := hgives.source (service_of_steps (hreach.trans hsteps))
  cases hsource with
  | read hread =>
    rw [hfound] at hread
    rw [Except.ok.inj hread]

end Observers

/-! ## A run -/

/-- In a run of calls that are followed by the publishing of their events, the service is where its calls have led. -/
theorem service_of_runWhile {cfg : Config} {wcfg : WorkerConfig} {ok : State → Action → Bool} {s' : State}
    (bs : List Delivery.Action) : ∀ (as : List PaymentOrchestration.Action) {s : State},
      (system cfg wcfg).runWhile ok s (as.map .service ++ bs.map .delivery) = some s' →
      (service cfg).runFrom s.service as = some s'.service
  | [], s, h => by
    have hkept : s'.service = s.service := by
      have htrace := System.trace_of_runWhile _ h
      refine @System.Trace.invariant _ _ _ _ (fun t => t.service = s.service) _ _ _ htrace rfl
        fun t a t' ha ht _ hs => ?_
      obtain ⟨b, rfl, -⟩ | ⟨b, rfl, -, -, hsame⟩ := step_cases hs
      · obtain ⟨b', -, heq⟩ := List.mem_map.1 ha
        cases heq
      · exact hsame.trans ht
    rw [hkept]
    rfl
  | a :: as, s, h => by
    rw [List.map_cons, List.cons_append] at h
    unfold System.runWhile at h
    split at h
    swap
    · cases h
    obtain ⟨t, hs, h⟩ := Option.bind_eq_some_iff.1 h
    change s.step cfg wcfg (.service a) = some t at hs
    obtain ⟨b, heq, hservice, -⟩ | ⟨b, heq, -⟩ := step_cases hs
    · cases heq
      exact Option.bind_eq_some_iff.2 ⟨t.service, hservice, service_of_runWhile bs as h⟩
    · cases heq

namespace Sample

theorem delivered_service : delivered.service = PaymentOrchestration.Sample.created := by
  have hservice := service_of_runWhile _ _ delivered_eq
  have hcreated : (service PaymentOrchestration.Sample.cfg).runFrom (service PaymentOrchestration.Sample.cfg).init
      PaymentOrchestration.Sample.createRun = some PaymentOrchestration.Sample.created := (Option.some_get _).symm
  exact Option.some.inj (hservice.symm.trans hcreated)

theorem delivered_steady : platform.Reach steady delivered := by
  refine ((System.trace_of_runWhile _ delivered_eq).restrict fun a ha s hdoc => ⟨hdoc, ?_⟩).steps
  rintro b rfl
  have hb : b ∈ PaymentOrchestration.Sample.createRun := by
    rcases List.mem_append.1 ha with ha | ha
    · obtain ⟨b', hb', heq⟩ := List.mem_map.1 ha
      cases heq
      exact hb'
    · obtain ⟨b', -, heq⟩ := List.mem_map.1 ha
      cases heq
  exact PaymentOrchestration.Sample.createRun_timely b hb s.service

theorem read_told : ∃ view, told PaymentOrchestration.Sample.paymentId read = some view := by
  have hends : (platform.runWhile asDocumented platform.init deliveredRun).any (fun s =>
      (told PaymentOrchestration.Sample.paymentId s.delivery.table.rows).isSome) = true := by
    decide +kernel
  have htold := System.of_ends delivered_eq hends
  exact Option.isSome_iff_exists.1 htold

end Sample

/-- The client is told of the payment that it has created, and the consumer of the same. -/
theorem consumer_after_client_delivered : ∃ body p,
    Deployment.Tells Sample.delivered.service (.command PaymentOrchestration.Sample.create) body p ∧
      ∀ view, told p.id Sample.read = some view → ∃ p', view = p'.view ∧
      (toDto p = toDto p' ∨ p.Follows p' ∨ p'.Follows p) := by
  obtain ⟨data, hgives⟩ := PaymentOrchestration.Sample.created_given
  rw [← Sample.delivered_service] at hgives
  have hreach : (system PaymentOrchestration.Sample.deployment.cfg OutboxPublisherWorker.Sample.config).Reach steady
      Sample.delivered := Sample.delivered_steady
  obtain ⟨body, p, -, htells, htold, -⟩ := consumer_after_client hreach .refl hgives Sample.read_sent
    (Sample.reads_message Sample.read)
  exact ⟨body, p, htells, htold⟩

/-- Who has read of the payment finds it. -/
theorem client_after_consumer_delivered :
    ∃ p p' : PaymentRecord, told PaymentOrchestration.Sample.paymentId Sample.read = some p.view ∧
    p.Follows p' ∧ getById Sample.delivered.service.db PaymentOrchestration.Sample.query = .ok (toDto p') := by
  obtain ⟨view, hview⟩ := Sample.read_told
  have hreach : (system PaymentOrchestration.Sample.deployment.cfg OutboxPublisherWorker.Sample.config).Reach steady
      Sample.delivered := Sample.delivered_steady
  obtain ⟨p, p', rfl, hf, hread⟩ := client_after_consumer hreach .refl Sample.read_sent
    (Sample.reads_message Sample.read) hview
  exact ⟨p, p', hview, hf, (hread _ PaymentOrchestration.Sample.query_id.1).1⟩

end PaymentOrchestration.Platform
