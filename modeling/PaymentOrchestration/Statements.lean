/-
What each statement does, one lemma a data-access function, and from them `ran_of_run`: everything a
call's next statement can do, with the guard under which it does it. Later proofs take the cases of
`Ran` and never unfold the code.
-/
import PaymentOrchestration.Payments

namespace PaymentOrchestration

open Lib IdempotencyService OutboxService PaymentsService

/-! ## Rows after an update -/

namespace IdempotencyRecord

/-- The record in the hands of a new owner. -/
def acquired (r : IdempotencyRecord) (lease : Timestamp) (token : Uuid) (now : Timestamp) : IdempotencyRecord :=
  { r with status := .processing, processingExpiresAt := some lease, processingToken := token, updatedAt := now }

def markedCompleted (r : IdempotencyRecord) (statusCode : Int) (body : Json String) (resourceId : Uuid)
    (expiresAt now : Timestamp) : IdempotencyRecord :=
  { r with
    status := .completed
    responseStatusCode := some statusCode
    responseBody := some body
    resourceType := some "payment"
    resourceId := some resourceId
    expiresAt := some expiresAt
    updatedAt := now }

def markedFailed (r : IdempotencyRecord) (expiresAt now : Timestamp) : IdempotencyRecord :=
  { r with status := .failed, expiresAt := some expiresAt, updatedAt := now }

end IdempotencyRecord

/-- What no statement changes of a payment: who it is for, what was authorized, and with whom. -/
structure PaymentRecord.SameAuthorization (p p' : PaymentRecord) : Prop where
  id : p'.id = p.id
  merchantId : p'.merchantId = p.merchantId
  amountMinor : p'.amountMinor = p.amountMinor
  currency : p'.currency = p.currency
  provider : p'.provider = p.provider
  providerPaymentId : p'.providerPaymentId = p.providerPaymentId
  authorizedAt : p'.authorizedAt = p.authorizedAt
  createdAt : p'.createdAt = p.createdAt

@[refl] theorem PaymentRecord.SameAuthorization.refl (p : PaymentRecord) : p.SameAuthorization p :=
  ⟨rfl, rfl, rfl, rfl, rfl, rfl, rfl, rfl⟩

theorem PaymentRecord.SameAuthorization.trans {p p' p'' : PaymentRecord} (h : p.SameAuthorization p')
    (h' : p'.SameAuthorization p'') : p.SameAuthorization p'' :=
  ⟨h'.id.trans h.id, h'.merchantId.trans h.merchantId, h'.amountMinor.trans h.amountMinor,
    h'.currency.trans h.currency, h'.provider.trans h.provider, h'.providerPaymentId.trans h.providerPaymentId,
    h'.authorizedAt.trans h.authorizedAt, h'.createdAt.trans h.createdAt⟩

/-- The payment `p` after the conditional update `input`. -/
structure PaymentsDataAccess.UpdateStatusInput.Updated (input : PaymentsDataAccess.UpdateStatusInput)
    (p p' : PaymentRecord) : Prop where
  same : p.SameAuthorization p'
  status : p'.status = input.status
  capturedAt : p'.capturedAt = input.capturedAt.map ofDate
  failedAt : p'.failedAt = input.failedAt.map ofDate
  failureCode : nullable (varcharIn 80) input.failureCode = .ok p'.failureCode
  failureMessage : nullable textIn input.failureMessage = .ok p'.failureMessage

/-! ## The statements -/

theorem map_eq_ok {ε α β : Type} {x : Except ε α} {f : α → β} {b : β} (h : x.map f = .ok b) :
    ∃ a, x = .ok a ∧ f a = b := by
  cases x with
  | error e => cases h
  | ok a => cases h; exact ⟨a, rfl, rfl⟩

namespace IdempotencyDataAccess

variable {db : Db} {id : Uuid} {a : Answer (Option IdempotencyRecord)}

theorem findByScopeAndKey_some {scope key : String} {r : IdempotencyRecord}
    (h : findByScopeAndKey db scope key = some r) :
    r ∈ db.idempotency.rows ∧ r.scope = scope ∧ r.idempotencyKey = key := by
  have hp := List.find?_some h
  simp only [decide_eq_true_eq] at hp
  exact ⟨List.mem_of_find?_eq_some h, hp.1, hp.2⟩

theorem findByScopeAndKey_none {scope key : String} (h : findByScopeAndKey db scope key = none) :
    ∀ r ∈ db.idempotency.rows, ¬ (r.scope = scope ∧ r.idempotencyKey = key) := by
  intro r hr hc
  simpa [hc] using List.find?_eq_none.1 h r hr

theorem tryInsertProcessing_ok {input : TryInsertProcessingInput} {now : Timestamp}
    (h : tryInsertProcessing db input id now = .ok a) :
    a = ⟨none, []⟩ ∨ ∃ r, input.Admitted id r ∧ findByScopeAndKey db r.scope r.idempotencyKey = none ∧
      db.idempotency.get? r.id = none ∧ a = ⟨some r, [.insertIdempotency r]⟩ := by
  unfold tryInsertProcessing at h
  obtain ⟨r, hr, h⟩ := ok_of_bind h
  have hadm := TryInsertProcessingInput.accept_ok hr
  split at h
  · cases h; exact .inl rfl
  split at h
  · cases h
  · rename_i h1 h2
    cases h
    refine .inr ⟨r, hadm, by simpa using h1, ?_, rfl⟩
    rw [hadm.id]; simpa using h2

theorem updateWhere_cases {cond : IdempotencyRecord → Bool} {set : IdempotencyRecord → IdempotencyRecord}
    {write : IdempotencyRecord → Write} (h : updateWhere db id cond set write = a) :
    a = ⟨none, []⟩ ∨ ∃ r, db.idempotency.get? id = some r ∧ cond r = true ∧ a = ⟨some (set r), [write (set r)]⟩ := by
  unfold updateWhere at h
  split at h
  · rename_i r hr
    split at h
    · rename_i hc; exact .inr ⟨r, hr, hc, h.symm⟩
    · exact .inl h.symm
  · exact .inl h.symm

theorem reactivateFailed_ok {requestHash : String} {lease : Option Millis} {token : Uuid} {now : Timestamp}
    (h : reactivateFailed db id requestHash lease token now = .ok a) :
    a = ⟨none, []⟩ ∨ ∃ r lease', db.idempotency.get? id = some r ∧ r.requestHash = requestHash ∧ r.status = .failed ∧
      a = ⟨some (r.acquired lease' token now), [.acquireIdempotency (r.acquired lease' token now)]⟩ := by
  unfold reactivateFailed at h
  obtain ⟨lease', -, h⟩ := ok_of_bind h
  rcases updateWhere_cases (Except.ok.inj h) with h | ⟨r, hr, hc, h⟩
  · exact .inl h
  · simp only [decide_eq_true_eq] at hc
    exact .inr ⟨r, lease', hr, hc.1, hc.2, h⟩

theorem takeoverExpiredProcessing_ok {requestHash : String} {lease : Option Millis} {token : Uuid} {now : Timestamp}
    (h : takeoverExpiredProcessing db id requestHash lease token now = .ok a) :
    a = ⟨none, []⟩ ∨ ∃ r lease', db.idempotency.get? id = some r ∧ r.requestHash = requestHash ∧
      r.status = .processing ∧
      a = ⟨some (r.acquired lease' token now), [.acquireIdempotency (r.acquired lease' token now)]⟩ := by
  unfold takeoverExpiredProcessing at h
  obtain ⟨lease', -, h⟩ := ok_of_bind h
  rcases updateWhere_cases (Except.ok.inj h) with h | ⟨r, hr, hc, h⟩
  · exact .inl h
  · simp only [decide_eq_true_eq] at hc
    refine .inr ⟨r, lease', hr, hc.1, hc.2.1, ?_⟩
    rw [h, IdempotencyRecord.acquired, ← hc.2.1]

end IdempotencyDataAccess

theorem jsonbColumn_ok {v w : Json String} (h : jsonbColumn v = .ok w) : w = v.jsonb := by
  unfold jsonbColumn at h
  split at h
  · cases h; rfl
  · cases h

theorem requireOwned_ok {s : Except Err (Answer (Option IdempotencyRecord))} {a : Answer IdempotencyRecord}
    (h : requireOwned s = .ok a) : s = .ok ⟨some a.returned, a.writes⟩ := by
  unfold requireOwned at h
  split at h
  · cases h
  · cases h; rfl
  · cases h

theorem markCompleted_ok {cfg : Config} {env : Env} {db : Db} {id resourceId token : Uuid} {statusCode : Int}
    {body : Json String} {a : Answer IdempotencyRecord}
    (h : IdempotencyService.markCompleted cfg env db id statusCode body "payment" resourceId token = .ok a) :
    ∃ r expiresAt, db.idempotency.get? id = some r ∧ r.status = .processing ∧ r.processingToken = token ∧
      a.writes = [.completeIdempotency (r.markedCompleted statusCode body.jsonb resourceId expiresAt env.dbNow)] := by
  have h := requireOwned_ok h
  unfold IdempotencyDataAccess.markCompleted at h
  obtain ⟨body', hb, h⟩ := ok_of_bind h
  obtain ⟨type', ht, h⟩ := ok_of_bind h
  obtain ⟨expiresAt, -, h⟩ := ok_of_bind h
  obtain rfl := jsonbColumn_ok hb
  obtain rfl : type' = "payment" := varcharIn_eq ht (by decide)
  rcases IdempotencyDataAccess.updateWhere_cases (Except.ok.inj h) with h | ⟨r, hr, hc, h⟩
  · cases h
  · simp only [decide_eq_true_eq] at hc
    rw [Answer.mk.injEq] at h
    exact ⟨r, expiresAt, hr, hc.1, hc.2, h.2⟩

theorem markFailed_ok {cfg : Config} {env : Env} {db : Db} {id token : Uuid} {a : Answer IdempotencyRecord}
    (h : IdempotencyService.markFailed cfg env db id token = .ok a) :
    ∃ r expiresAt, db.idempotency.get? id = some r ∧ r.status = .processing ∧ r.processingToken = token ∧
      a.writes = [.failIdempotency (r.markedFailed expiresAt env.dbNow)] := by
  have h := requireOwned_ok h
  unfold IdempotencyDataAccess.markFailed at h
  obtain ⟨expiresAt, -, h⟩ := ok_of_bind h
  rcases IdempotencyDataAccess.updateWhere_cases (Except.ok.inj h) with h | ⟨r, hr, hc, h⟩
  · cases h
  · simp only [decide_eq_true_eq] at hc
    rw [Answer.mk.injEq] at h
    exact ⟨r, expiresAt, hr, hc.1, hc.2, h.2⟩

namespace PaymentsDataAccess

theorem insert_ok {db : Db} {record : InsertPaymentRecord} {now : Timestamp} {a : Answer PaymentRecord}
    (h : insert db record now = .ok a) :
    ∃ p, record.Admitted now p ∧ db.payments.get? p.id = none ∧ a = ⟨p, [.insertPayment p]⟩ := by
  unfold insert at h
  obtain ⟨p, hp, h⟩ := ok_of_bind h
  split at h
  · cases h
  · rename_i hn
    cases h
    exact ⟨p, InsertPaymentRecord.accept_ok hp, by simpa using hn, rfl⟩

theorem updateStatusIfAuthorized_ok {db : Db} {input : UpdateStatusInput} {now : Timestamp}
    {a : Answer (Option PaymentRecord)} (h : updateStatusIfAuthorized db input now = .ok a) :
    a = ⟨none, []⟩ ∨ ∃ p p', db.payments.get? input.id = some p ∧ p.status = .authorized ∧
      input.Updated p p' ∧ a = ⟨some p', [.updatePayment p']⟩ := by
  unfold updateStatusIfAuthorized at h
  obtain ⟨failureCode, h1, h⟩ := ok_of_bind h
  obtain ⟨failureMessage, h2, h⟩ := ok_of_bind h
  split at h
  · cases h; exact .inl rfl
  · rename_i p hp
    split at h
    · rename_i hs
      refine .inr ⟨p, _, hp, hs, ⟨⟨?_, ?_, ?_, ?_, ?_, ?_, ?_, ?_⟩, ?_, ?_, ?_, h1, h2⟩, (Except.ok.inj h).symm⟩
      all_goals rfl
    · cases h; exact .inl rfl

end PaymentsDataAccess

/-- The outbox row of an event: what a transaction records of the payment. -/
structure OutboxService.Recorded (recording : Recording) (env : Env) (correlationId : String) (payment : PaymentRecord)
    (e : OutboxEventRecord) : Prop where
  id : e.id = env.uuid
  aggregateId : e.aggregateId = payment.id
  eventType : e.eventType = recording.eventType
  routingKey : e.routingKey = recording.eventType
  payload : ∃ members, recording.payload payment = .ok members ∧
    e.payload = (envelope env.uuid recording.eventType correlationId env.now payment members).jsonb

theorem Recording.eventType_length (recording : Recording) : recording.eventType.toList.length ≤ 120 := by
  cases recording with
  | paymentAuthorized => decide
  | paymentCaptured => decide
  | paymentFailed operation => change "payment.failed.v1".toList.length ≤ 120; decide

theorem OutboxService.record_ok {recording : Recording} {env : Env} {db : Db} {correlationId : String}
    {payment : PaymentRecord} {a : Answer OutboxEventRecord}
    (h : OutboxService.record recording env db correlationId payment = .ok a) :
    ∃ e, Recorded recording env correlationId payment e ∧ db.outbox.get? e.id = none ∧
      a = ⟨e, [.insertOutbox e]⟩ := by
  unfold OutboxService.record at h
  obtain ⟨members, hm, h⟩ := ok_of_bind h
  unfold recordEvent OutboxEventsDataAccess.insertPending at h
  obtain ⟨aggregateType, -, h⟩ := ok_of_bind h
  obtain ⟨eventType, h1, h⟩ := ok_of_bind h
  obtain ⟨routingKey, h2, h⟩ := ok_of_bind h
  obtain ⟨payload, h3, h⟩ := ok_of_bind h
  obtain ⟨_, -, h⟩ := ok_of_bind h
  split at h
  · cases h
  · rename_i hn
    cases h
    have hlen := Recording.eventType_length recording
    exact ⟨_, ⟨rfl, rfl, varcharIn_eq h1 hlen, varcharIn_eq h2 (Nat.le_trans hlen (by decide)),
      ⟨members, hm, jsonbColumn_ok h3⟩⟩, by simpa using hn, rfl⟩

/-! ## The checks of `capture` -/

/-- What the provider's `capture` is called with, once the checks have passed. -/
theorem beforeCapture_ok {cfg : Config} {p : PaymentRecord} {provider : String} {input : CapturePaymentInput}
    (h : beforeCapture cfg p = .ok (provider, input)) : p.status = .authorized ∧ provider = p.provider ∧
      ∃ reference, p.providerPaymentId = some reference ∧ reference.toList ≠ [] ∧ input = captureInput p reference := by
  unfold beforeCapture at h
  obtain ⟨_, hstatus, h⟩ := ok_of_bind h
  obtain ⟨name, hprovider, h⟩ := ok_of_bind h
  have hauthorized : p.status = .authorized := by
    unfold ensureCanCapture at hstatus
    split at hstatus
    · assumption
    · cases hstatus
  have hname : name = p.provider := by
    unfold getProvider at hprovider
    split at hprovider
    · rename_i heq; cases hprovider; exact heq.symm
    · cases hprovider
  split at h
  · cases h
  · rename_i reference hreference
    split at h
    · cases h
    · rename_i hne
      cases h
      exact ⟨hauthorized, hname, reference, hreference, hne, rfl⟩

theorem beforeCapture_of_ne {cfg : Config} {p : PaymentRecord} (h : p.status ≠ .authorized) :
    beforeCapture cfg p = .error paymentNotCapturable := by
  simp only [beforeCapture, ensureCanCapture, h, if_false]
  rfl

/-! ## A call's next statement -/

/-- The await of one of the two reads by scope and key. -/
def Await.Finds (a : Await) : Prop := a = .findByScopeAndKey ∨ a = .findAfterConflict

/-- What `tryInsertProcessing` is given by a call. -/
def Call.insertInput (cfg : Config) (env : Env) (call : Call) : TryInsertProcessingInput where
  scope := call.command.scope
  idempotencyKey := call.command.idempotencyKey
  requestHash := call.command.requestHash cfg
  resourceType := "payment"
  resourceId := call.resourceId
  processingExpiresAt := buildExpiresAt cfg.processingLeaseMs env.now
  processingToken := env.uuid

/-- What the statement a call awaits can do: from an await, an outcome, given the committed rows. -/
inductive Ran (cfg : Config) (env : Env) (db : Db) (call : Call) : Await → Outcome → Prop
  | replayed {a r} : a.Finds →
      IdempotencyDataAccess.findByScopeAndKey db call.command.scope call.command.idempotencyKey = some r →
      r.requestHash = call.command.requestHash cfg → r.status = .completed →
      Ran cfg env db call a
        ⟨[], [], .returned (r.responseStatusCode.getD 0) (normalizeResponseBody cfg r.responseBody)⟩
  | refused {a e} : a.mode = .pool → a.started? = none → Ran cfg env db call a ⟨[], [], .refused e⟩
  | toInsert : IdempotencyDataAccess.findByScopeAndKey db call.command.scope call.command.idempotencyKey = none →
      Ran cfg env db call .findByScopeAndKey ⟨[], [], .tryInsertProcessing⟩
  | toReactivate {a r} : a.Finds →
      IdempotencyDataAccess.findByScopeAndKey db call.command.scope call.command.idempotencyKey = some r →
      r.requestHash = call.command.requestHash cfg → Ran cfg env db call a ⟨[], [], .reactivateFailed r.id⟩
  | toTakeover {a r} : a.Finds →
      IdempotencyDataAccess.findByScopeAndKey db call.command.scope call.command.idempotencyKey = some r →
      r.requestHash = call.command.requestHash cfg → Ran cfg env db call a ⟨[], [], .takeoverExpiredProcessing r.id⟩
  | conflict : Ran cfg env db call .tryInsertProcessing ⟨[], [], .findAfterConflict⟩
  | inserted {r resourceId} : (call.insertInput cfg env).Admitted env.uuid' r →
      IdempotencyDataAccess.findByScopeAndKey db r.scope r.idempotencyKey = none → db.idempotency.get? r.id = none →
      r.resourceId = some resourceId →
      Ran cfg env db call .tryInsertProcessing
        ⟨[.insertIdempotency r], [], call.afterStarted ⟨r.id, resourceId, r.processingToken⟩⟩
  | acquired {a id r lease} : a = .reactivateFailed id ∧ r.status = .failed ∨
        a = .takeoverExpiredProcessing id ∧ r.status = .processing →
      db.idempotency.get? id = some r → r.requestHash = call.command.requestHash cfg →
      Ran cfg env db call a ⟨[.acquireIdempotency (r.acquired lease env.uuid env.dbNow)], [],
        call.afterAcquired (buildStartedDecision (r.acquired lease env.uuid env.dbNow))⟩
  | insertedPayment {d record recording p} : record.Admitted env.dbNow p → db.payments.get? p.id = none →
      Ran cfg env db call (.insertPayment d record recording) ⟨[.insertPayment p], [], .recordEvent d p recording⟩
  | noPayment {d paymentId id} : Uuid.uuidIn paymentId = some id → db.payments.get? id = none →
      Ran cfg env db call (.findByIdForUpdate d paymentId) ⟨[], [], .rollback d paymentNotFound⟩
  | lockedPayment {d paymentId id p} : Uuid.uuidIn paymentId = some id → db.payments.get? id = some p →
      Ran cfg env db call (.findByIdForUpdate d paymentId) ⟨[], [.payment id], Call.afterLock cfg d (some p)⟩
  | updatedPayment {d input recording p p'} : db.payments.get? input.id = some p → p.status = .authorized →
      input.Updated p p' →
      Ran cfg env db call (.updateStatusIfAuthorized d input recording)
        ⟨[.updatePayment p'], [], .recordEvent d p' recording⟩
  | notUpdated {d input recording} : PaymentsDataAccess.updateStatusIfAuthorized db input env.dbNow = .ok ⟨none, []⟩ →
      Ran cfg env db call (.updateStatusIfAuthorized d input recording) ⟨[], [], .rollback d paymentNotCapturable⟩
  | recorded {d payment recording e} : Recorded recording env call.command.correlationId payment e →
      db.outbox.get? e.id = none →
      Ran cfg env db call (.recordEvent d payment recording) ⟨[.insertOutbox e], [], .markCompleted d payment⟩
  | completed {d payment r expiresAt} : db.idempotency.get? d.recordId = some r → r.status = .processing →
      r.processingToken = d.processingToken →
      Ran cfg env db call (.markCompleted d payment)
        ⟨[.completeIdempotency
            (r.markedCompleted call.command.statusCode (toDto payment).jsonb payment.id expiresAt env.dbNow)], [],
          .commit d (toDto payment)⟩
  | committed {d body} : Ran cfg env db call (.commit d body) ⟨[], [], .returned call.command.statusCode body⟩
  | rolledBack {d error} : Ran cfg env db call (.rollback d error) ⟨[], [], .markFailed d error⟩
  | markedFailed {d error r expiresAt} : db.idempotency.get? d.recordId = some r → r.status = .processing →
      r.processingToken = d.processingToken →
      Ran cfg env db call (.markFailed d error)
        ⟨[.failIdempotency (r.markedFailed expiresAt env.dbNow)], [], .failed d error error⟩
  | idle {a} : a.mode = .idle → Ran cfg env db call a ⟨[], [], a⟩

theorem ran_of_existing {cfg : Config} {env : Env} {db : Db} {call : Call} {a : Await} {r : IdempotencyRecord}
    (ha : a.Finds)
    (hr : IdempotencyDataAccess.findByScopeAndKey db call.command.scope call.command.idempotencyKey = some r) :
    Ran cfg env db call a
      ⟨[], [], call.afterDeciding (decideFromExisting cfg env.now r (call.command.requestHash cfg))⟩ := by
  have hmode : a.mode = .pool := by rcases ha with rfl | rfl <;> rfl
  have hstart : a.started? = none := by rcases ha with rfl | rfl <;> rfl
  unfold decideFromExisting
  split
  · exact .refused hmode hstart
  · rename_i hh
    have hh : r.requestHash = call.command.requestHash cfg := not_not.1 hh
    split
    · rename_i hs; exact .replayed ha hr hh hs
    · exact .toReactivate ha hr hh
    · split
      · exact .toTakeover ha hr hh
      · exact .refused hmode hstart

/-- What a call's next statement does is one of the cases of `Ran`. -/
theorem ran_of_run {cfg : Config} {env : Env} {db : Db} {call : Call} {o : Outcome}
    (h : call.run cfg env db = .ok o) : Ran cfg env db call call.await o := by
  unfold Call.run at h
  split at h
  · rename_i ha
    rw [ha]
    split at h
    · rename_i r hr; cases h; exact ran_of_existing (.inl rfl) hr
    · rename_i hn; cases h; exact .toInsert hn
  · rename_i ha
    rw [ha]
    obtain ⟨ans, hans, rfl⟩ := map_eq_ok h
    rcases IdempotencyDataAccess.tryInsertProcessing_ok hans with rfl | ⟨r, hadm, hf, hg, rfl⟩
    · exact .conflict
    · obtain ⟨u, -, hu⟩ := hadm.resourceId
      have : buildStartedDecision r = .ok ⟨r.id, u, r.processingToken⟩ := by simp [buildStartedDecision, hu]
      simp only [this, Call.afterAcquired]
      exact .inserted hadm hf hg hu
  · rename_i ha
    rw [ha]
    split at h
    · rename_i r hr; cases h; exact ran_of_existing (.inr rfl) hr
    · cases h; exact .refused rfl rfl
  · rename_i id ha
    rw [ha]
    obtain ⟨ans, hans, rfl⟩ := map_eq_ok h
    rcases IdempotencyDataAccess.reactivateFailed_ok hans with rfl | ⟨r, lease, hr, hh, hs, rfl⟩
    · exact .refused rfl rfl
    · exact .acquired (.inl ⟨rfl, hs⟩) hr hh
  · rename_i id ha
    rw [ha]
    obtain ⟨ans, hans, rfl⟩ := map_eq_ok h
    rcases IdempotencyDataAccess.takeoverExpiredProcessing_ok hans with rfl | ⟨r, lease, hr, hh, hs, rfl⟩
    · exact .refused rfl rfl
    · exact .acquired (.inr ⟨rfl, hs⟩) hr hh
  · rename_i d record recording ha
    rw [ha]
    obtain ⟨ans, hans, rfl⟩ := map_eq_ok h
    obtain ⟨p, hp, hn, rfl⟩ := PaymentsDataAccess.insert_ok hans
    exact .insertedPayment hp hn
  · rename_i d paymentId ha
    rw [ha]
    obtain ⟨id, hid, h⟩ := map_eq_ok h
    have hid := uuidColumn_ok hid
    split at h
    · rename_i hn; cases h; exact .noPayment hid hn
    · rename_i p hp; cases h; exact .lockedPayment hid hp
  · rename_i d input recording ha
    rw [ha]
    obtain ⟨ans, hans, rfl⟩ := map_eq_ok h
    rcases PaymentsDataAccess.updateStatusIfAuthorized_ok hans with rfl | ⟨p, p', hp, hs, hu, rfl⟩
    · exact .notUpdated hans
    · exact .updatedPayment hp hs hu
  · rename_i d payment recording ha
    rw [ha]
    obtain ⟨ans, hans, rfl⟩ := map_eq_ok h
    obtain ⟨e, he, hn, rfl⟩ := OutboxService.record_ok hans
    exact .recorded he hn
  · rename_i d payment ha
    rw [ha]
    obtain ⟨ans, hans, rfl⟩ := map_eq_ok h
    obtain ⟨r, expiresAt, hr, hs, ht, hw⟩ := markCompleted_ok hans
    rw [hw]
    exact .completed hr hs ht
  · rename_i d body ha
    rw [ha]; cases h; exact .committed
  · rename_i d error ha
    rw [ha]; cases h; exact .rolledBack
  · rename_i d error ha
    rw [ha]
    obtain ⟨ans, hans, rfl⟩ := map_eq_ok h
    obtain ⟨r, expiresAt, hr, hs, ht, hw⟩ := markFailed_ok hans
    rw [hw]
    exact .markedFailed hr hs ht
  all_goals
    rename_i ha
    cases h
    exact .idle (by rw [ha]; rfl)

/-- A statement outside a transaction writes no payment and no event. -/
theorem Ran.pool_writes {cfg : Config} {env : Env} {db : Db} {call : Call} {aw : Await} {o : Outcome}
    (h : Ran cfg env db call aw o) (hmode : aw.mode = .pool) : ∀ w ∈ o.writes, w.isBusiness = false := by
  intro w hw
  cases h with
  | replayed | refused | toInsert | toReactivate | toTakeover | conflict | idle | noPayment | lockedPayment | notUpdated
  | committed | rolledBack => cases hw
  | insertedPayment | updatedPayment | recorded | completed => simp [Await.mode] at hmode
  | inserted | acquired | markedFailed =>
    rw [List.mem_singleton] at hw
    rw [hw]; rfl

theorem payments_of_not_business {ws : List Write} (h : ∀ w ∈ ws, w.isBusiness = false) (db : Db) :
    (schema.applyAll db ws).payments = db.payments ∧ (schema.applyAll db ws).outbox = db.outbox := by
  induction ws generalizing db with
  | nil => exact ⟨rfl, rfl⟩
  | cons w ws ih =>
    have hw : (w.apply db).payments = db.payments ∧ (w.apply db).outbox = db.outbox := by
      have hb := h w List.mem_cons_self
      cases w with
      | insertPayment | updatePayment | insertOutbox => cases hb
      | insertIdempotency | acquireIdempotency | completeIdempotency | failIdempotency => exact ⟨rfl, rfl⟩
    obtain ⟨h1, h2⟩ := ih (fun w hw => h w (List.mem_cons_of_mem _ hw)) (w.apply db)
    exact ⟨h1.trans hw.1, h2.trans hw.2⟩

end PaymentOrchestration
