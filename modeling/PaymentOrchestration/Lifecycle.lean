/-
What the three tables hold for one payment, as counts: its completed create and capture records and
the events of each kind. The counts are determined by the status of the payment's row, in every
reachable ledger (`Ledger.facets_eq`): the tables tell one story about every payment.
-/
import PaymentOrchestration.Ledger

namespace PaymentOrchestration

open Lib IdempotencyService OutboxService PaymentsService

/-! ## Reading an event back -/

/-- The operation a stored event is about. -/
def OutboxEventRecord.operation? (e : OutboxEventRecord) : Option Operation :=
  match (e.payload.member "payload").bind (Json.member "operation") with
  | some (.str s) => if s = Operation.authorize.text then some .authorize
    else if s = Operation.capture.text then some .capture else none
  | _ => none

/-- Which event a stored row is. -/
def OutboxEventRecord.recording? (e : OutboxEventRecord) : Option Recording :=
  if e.eventType = "payment.authorized.v1" then some .paymentAuthorized
  else if e.eventType = "payment.captured.v1" then some .paymentCaptured
  else if e.eventType = "payment.failed.v1" then e.operation?.map .paymentFailed
  else none

theorem envelope_nodup {eventId : Uuid} {eventType correlationId : String} {occurredAt : Millis}
    {payment : PaymentRecord} {members ms : List (String × Json String)}
    (h : envelope eventId eventType correlationId occurredAt payment members = .obj ms) : (ms.map Prod.fst).Nodup := by
  cases h
  change ["eventId", "eventType", "eventVersion", "source", "correlationId", "occurredAt", "aggregateType",
    "aggregateId", "payload"].Nodup
  decide

theorem envelope_payload (eventId : Uuid) (eventType correlationId : String) (occurredAt : Millis)
    (payment : PaymentRecord) (members : List (String × Json String)) :
    (envelope eventId eventType correlationId occurredAt payment members).jsonb.member "payload" =
      some (Json.obj members).jsonb :=
  (Json.member_jsonb (envelope_nodup rfl) "payload").trans rfl

theorem failedPayload_ok {operation : Operation} {payment : PaymentRecord} {members : List (String × Json String)}
    (h : failedPayload operation payment = .ok members) : ∃ failureCode failureMessage failedAt,
      requireNonEmptyString payment.failureCode "failureCode" = .ok failureCode ∧
      requireNonEmptyString payment.failureMessage "failureMessage" = .ok failureMessage ∧
      toIsoTimestamp payment.failedAt = .ok failedAt ∧
      members = buildPaymentPayload payment ++ [("providerPaymentId", nullableText payment.providerPaymentId),
        ("operation", .str operation.text), ("status", .str operation.status), ("failureCode", .str failureCode),
        ("failureMessage", .str failureMessage), ("failedAt", .str failedAt)] := by
  unfold failedPayload at h
  obtain ⟨failureCode, h1, h⟩ := ok_of_bind h
  obtain ⟨failureMessage, h2, h⟩ := ok_of_bind h
  obtain ⟨failedAt, h3, h⟩ := ok_of_bind h
  exact ⟨failureCode, failureMessage, failedAt, h1, h2, h3, (Except.ok.inj h).symm⟩

theorem authorizedPayload_ok {payment : PaymentRecord} {members : List (String × Json String)}
    (h : authorizedPayload payment = .ok members) : ∃ reference authorizedAt,
      requireNonEmptyString payment.providerPaymentId "providerPaymentId" = .ok reference ∧
      toIsoTimestamp payment.authorizedAt = .ok authorizedAt ∧
      members = buildPaymentPayload payment ++
        [("providerPaymentId", .str reference), ("authorizedAt", .str authorizedAt)] := by
  unfold authorizedPayload at h
  obtain ⟨reference, h1, h⟩ := ok_of_bind h
  obtain ⟨authorizedAt, h2, h⟩ := ok_of_bind h
  exact ⟨reference, authorizedAt, h1, h2, (Except.ok.inj h).symm⟩

theorem capturedPayload_ok {payment : PaymentRecord} {members : List (String × Json String)}
    (h : capturedPayload payment = .ok members) : ∃ reference capturedAt,
      requireNonEmptyString payment.providerPaymentId "providerPaymentId" = .ok reference ∧
      toIsoTimestamp payment.capturedAt = .ok capturedAt ∧
      members = buildPaymentPayload payment ++
        [("providerPaymentId", .str reference), ("capturedAt", .str capturedAt)] := by
  unfold capturedPayload at h
  obtain ⟨reference, h1, h⟩ := ok_of_bind h
  obtain ⟨capturedAt, h2, h⟩ := ok_of_bind h
  exact ⟨reference, capturedAt, h1, h2, (Except.ok.inj h).symm⟩

/-- The members of a payload have different names. -/
theorem Recording.payload_nodup {recording : Recording} {payment : PaymentRecord}
    {members : List (String × Json String)}
    (h : recording.payload payment = .ok members) : (members.map Prod.fst).Nodup := by
  cases recording with
  | paymentAuthorized =>
    obtain ⟨reference, authorizedAt, -, -, rfl⟩ := authorizedPayload_ok h
    change ["paymentId", "merchantId", "amountMinor", "currency", "provider", "providerPaymentId", "authorizedAt"].Nodup
    decide
  | paymentCaptured =>
    obtain ⟨reference, capturedAt, -, -, rfl⟩ := capturedPayload_ok h
    change ["paymentId", "merchantId", "amountMinor", "currency", "provider", "providerPaymentId", "capturedAt"].Nodup
    decide
  | paymentFailed operation =>
    obtain ⟨code, message, failedAt, -, -, -, rfl⟩ := failedPayload_ok h
    change ["paymentId", "merchantId", "amountMinor", "currency", "provider", "providerPaymentId", "operation",
      "status", "failureCode", "failureMessage", "failedAt"].Nodup
    decide

/-- A stored event is the one that was recorded. -/
theorem OutboxService.Recorded.recording {recording : Recording} {env : Env} {correlationId : String}
    {payment : PaymentRecord} {e : OutboxEventRecord} (h : Recorded recording env correlationId payment e) :
    e.recording? = some recording := by
  unfold OutboxEventRecord.recording?
  rw [h.eventType]
  cases recording with
  | paymentAuthorized => rfl
  | paymentCaptured => rfl
  | paymentFailed operation =>
    obtain ⟨members, hm, hp⟩ := h.payload
    have hnd := Recording.payload_nodup hm
    obtain ⟨code, message, failedAt, -, -, -, rfl⟩ := failedPayload_ok hm
    have hop : e.operation? = some operation := by
      unfold OutboxEventRecord.operation?
      rw [hp, envelope_payload, Option.bind_some, Json.member_jsonb hnd]
      cases operation <;> rfl
    rw [hop]; rfl

/-! ## Counting -/

/-- The record has completed the operation `k` on the payment `P`. -/
def IdempotencyRecord.settles (k : Kind) (P : Uuid) (r : IdempotencyRecord) : Bool :=
  r.isOf k ∧ r.resourceId = some P ∧ r.status = .completed

/-- The event announces `recording` of the payment `P`. -/
def OutboxEventRecord.announces (recording : Recording) (P : Uuid) (e : OutboxEventRecord) : Bool :=
  e.aggregateId = P ∧ e.recording? = some recording

/-- What the tables hold for a payment: its completed records and its events, by kind. -/
structure Facets where
  records : Kind → Nat
  events : Recording → Nat

def Db.facets (db : Db) (P : Uuid) : Facets where
  records k := db.idempotency.count (IdempotencyRecord.settles k P)
  events recording := db.outbox.count (OutboxEventRecord.announces recording P)

/-- The event that announced a payment's creation, by the payment's present status. -/
def PaymentStatus.creation : PaymentStatus → Option Recording
  | .authorized | .captured | .captureFailed => some .paymentAuthorized
  | .failed => some (.paymentFailed .authorize)
  | .created => none

/-- The event that announced the outcome of a payment's capture. -/
def PaymentStatus.outcome : PaymentStatus → Option Recording
  | .captured => some .paymentCaptured
  | .captureFailed => some (.paymentFailed .capture)
  | .created | .authorized | .failed => none

/-- The counts that go with a payment's status. -/
def Facets.of (status : Option PaymentStatus) : Facets where
  records
    | .create => if (status.bind PaymentStatus.creation).isSome then 1 else 0
    | .capture => if (status.bind PaymentStatus.outcome).isSome then 1 else 0
  events recording :=
    if status.bind PaymentStatus.creation = some recording ∨ status.bind PaymentStatus.outcome = some recording then 1
    else 0

def Db.status? (db : Db) (P : Uuid) : Option PaymentStatus := (db.payments.get? P).map PaymentRecord.status

theorem Facets.ext {a b : Facets} (hr : ∀ k, a.records k = b.records k)
    (he : ∀ recording, a.events recording = b.events recording) :
    a = b := by
  cases a; cases b
  simp only [Facets.mk.injEq]
  exact ⟨funext hr, funext he⟩

/-! ## What a transition adds -/

section Change

variable {db : Db} {command : Command} {d : Started} {p : PaymentRecord} {recording : Recording} {w : Write}

theorem Change.get?_self (h : Change db command d p recording w) : (w.apply db).payments.get? p.id = some p := by
  cases h with
  | create _ _ hn => exact Table.get?_insert_self hn
  | @capture _ _ _ p₀ _ _ hg _ hu =>
    have hid := Table.key_of_get? hg
    exact Table.get?_put_self (x := p₀) (by rw [hu.same.id, hid]; exact hg)

theorem Change.get?_of_ne (h : Change db command d p recording w) {P : Uuid} (hP : p.id ≠ P) :
    (w.apply db).payments.get? P = db.payments.get? P := by
  cases h with
  | create => exact Table.get?_insert_of_ne hP
  | capture => exact Table.get?_put_of_ne hP

theorem Change.status? (h : Change db command d p recording w) (P : Uuid) :
    (w.apply db).status? P = if p.id = P then some p.status else db.status? P := by
  unfold Db.status?
  split
  · rename_i hP; rw [← hP, h.get?_self]; rfl
  · rename_i hP; rw [h.get?_of_ne hP]

/-- The step of a payment's life that a change is: the status before and after, with the operation and
the event. -/
inductive LifeStep : Option PaymentStatus → Kind → Recording → PaymentStatus → Prop
  | authorized : LifeStep none .create .paymentAuthorized .authorized
  | declined : LifeStep none .create (.paymentFailed .authorize) .failed
  | captured : LifeStep (some .authorized) .capture .paymentCaptured .captured
  | captureFailed : LifeStep (some .authorized) .capture (.paymentFailed .capture) .captureFailed

theorem Change.life (h : Change db command d p recording w) :
    LifeStep (db.status? p.id) command.kind recording p.status := by
  cases h with
  | @create _ _ _ authorization _ hcmd hadm hn =>
    rw [hcmd, Db.status?, hn, hadm.status]
    cases authorization
    · exact .authorized
    · exact .declined
  | @capture _ _ captureResult p₀ _ hcmd hg hs hu =>
    have hid := Table.key_of_get? hg
    rw [hcmd, Db.status?, hu.same.id, hid, hg, Option.map_some, hs, hu.status]
    cases captureResult
    · exact .captured
    · exact .captureFailed

theorem LifeStep.records {before : Option PaymentStatus} {k : Kind} {after : PaymentStatus}
    (h : LifeStep before k recording after) (k' : Kind) :
    (Facets.of (some after)).records k' = (Facets.of before).records k' + (decide (k = k')).toNat := by
  cases h <;> cases k' <;> rfl

theorem LifeStep.events {before : Option PaymentStatus} {k : Kind} {after : PaymentStatus}
    (h : LifeStep before k recording after) (recording' : Recording) :
    (Facets.of (some after)).events recording' = (Facets.of before).events recording' +
      (decide (recording = recording')).toNat := by
  cases h <;> rcases recording' with _ | _ | operation <;> first
    | rfl
    | (cases operation <;> rfl)

end Change

theorem IdempotencyRecord.settles_of_ne {k : Kind} {P : Uuid} {r : IdempotencyRecord} (h : r.status ≠ .completed) :
    r.settles k P = false := by
  simp [settles, h]

/-- In every reachable ledger the tables agree about each payment: its row's status determines how many
records have completed it and which events announce it. -/
theorem Ledger.facets_eq {cfg : Config} {l : Ledger} (h : Ledger.Reachable cfg l) (P : Uuid) :
    l.db.facets P = Facets.of (l.db.status? P) := by
  induction h with
  | refl => exact Facets.ext (fun k => by cases k <;> rfl) fun _ => rfl
  | @tail l l' _ hs ih =>
    rcases hs.change with ⟨hdb, -⟩ | ⟨t, ws, htr, hdb, -, -⟩
    · rw [hdb]; exact ih
    rw [hdb]
    cases htr with
    | @begun call env r hadm _ hn =>
      rw [show (schema.applyAll l.db [Write.insertIdempotency r]).status? P = l.db.status? P from rfl, ← ih]
      refine Facets.ext (fun k => ?_) fun _ => rfl
      change (l.db.idempotency.insert r).count _ = _
      rw [Table.count_insert hn, IdempotencyRecord.settles_of_ne (by rw [hadm.status]; decide)]
      rfl
    | @acquired r lease token now hg hs =>
      rw [show (schema.applyAll l.db [Write.acquireIdempotency (r.acquired lease token now)]).status? P =
        l.db.status? P from rfl, ← ih]
      refine Facets.ext (fun k => ?_) fun _ => rfl
      have hput := Table.count_put (r := r.acquired lease token now) hg (IdempotencyRecord.settles k P)
      rw [IdempotencyRecord.settles_of_ne hs,
        IdempotencyRecord.settles_of_ne (r := r.acquired lease token now) nofun] at hput
      exact hput
    | @failed r expiresAt now hg hs =>
      rw [show (schema.applyAll l.db [Write.failIdempotency (r.markedFailed expiresAt now)]).status? P =
        l.db.status? P from rfl, ← ih]
      refine Facets.ext (fun k => ?_) fun _ => rfl
      have hput := Table.count_put (r := r.markedFailed expiresAt now) hg (IdempotencyRecord.settles k P)
      rw [IdempotencyRecord.settles_of_ne (by rw [hs]; decide),
        IdempotencyRecord.settles_of_ne (r := r.markedFailed expiresAt now) nofun] at hput
      exact hput
    | @settled command d p recording w env e r expiresAt now hc hrec hn hg hm hres hs _ _ =>
      have hstatus : (schema.applyAll l.db [w, .insertOutbox e, .completeIdempotency
          (r.markedCompleted command.statusCode (toDto p).jsonb p.id expiresAt now)]).status? P =
          (w.apply l.db).status? P := rfl
      rw [hstatus, hc.status?]
      have hrecords : ∀ k, ((w.apply l.db).idempotency.put
          (r.markedCompleted command.statusCode (toDto p).jsonb p.id expiresAt now)).count
          (IdempotencyRecord.settles k P) =
          (l.db.facets P).records k + (decide (command.kind = k ∧ p.id = P)).toNat := by
        intro k
        have hput := Table.count_put (r := r.markedCompleted command.statusCode (toDto p).jsonb p.id expiresAt now) hg
          (IdempotencyRecord.settles k P)
        rw [hc.idempotency]
        rw [IdempotencyRecord.settles_of_ne (by rw [hs]; decide)] at hput
        refine hput.trans ?_
        congr 2
        have hk : r.isOf k = true ↔ command.kind = k :=
          ⟨fun h => IdempotencyRecord.kind_unique hm.isOf h, fun h => h ▸ hm.isOf⟩
        have hsame := (IdempotencyRecord.SameIdentity.markedCompleted hres command.statusCode
            (toDto p).jsonb expiresAt now).isOf k
        simp only [IdempotencyRecord.settles, hsame, hk]
        simp [IdempotencyRecord.markedCompleted]
      have hevents : ∀ recording', ((w.apply l.db).outbox.insert e).count (OutboxEventRecord.announces recording' P) =
          (l.db.facets P).events recording' + (decide (recording = recording' ∧ p.id = P)).toNat := by
        intro recording'
        rw [hc.outbox, Table.count_insert hn]
        refine congrArg (_ + Bool.toNat ·) ?_
        simp only [OutboxEventRecord.announces, hrec.aggregateId, hrec.recording, Option.some.injEq]
        simp [and_comm]
      refine Facets.ext (fun k => (hrecords k).trans ?_) fun recording' => (hevents recording').trans ?_
      · rw [ih]
        by_cases hP : p.id = P
        · rw [if_pos hP, ← hP, hc.life.records]; simp
        · simp [hP]
      · rw [ih]
        by_cases hP : p.id = P
        · rw [if_pos hP, ← hP, hc.life.events]; simp
        · simp [hP]

end PaymentOrchestration
