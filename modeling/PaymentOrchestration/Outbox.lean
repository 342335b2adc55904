/-
`OutboxService` and the insert of `OutboxEventsDataAccess`: the event a payment transaction records.
-/
import PaymentOrchestration.Idempotency

namespace PaymentOrchestration

open Lib

/-- The operation a payment.failed.v1 event is about. -/
inductive Operation
  | authorize
  | capture
deriving DecidableEq

def Operation.text : Operation → String
  | .authorize => "AUTHORIZE"
  | .capture => "CAPTURE"

/-- The status a payment.failed.v1 event reports. -/
def Operation.status : Operation → String
  | .authorize => "FAILED"
  | .capture => "CAPTURE_FAILED"

/-- `InsertPendingOutboxEvent`. -/
structure InsertPendingOutboxEvent where
  id : Uuid
  aggregateType : String
  aggregateId : Uuid
  eventType : String
  eventVersion : Int
  routingKey : String
  payload : Json String

/-- `OutboxEventsDataAccess.insertPending`. -/
def OutboxEventsDataAccess.insertPending (db : Db) (event : InsertPendingOutboxEvent) (now : Timestamp) :
    Except Err (Answer OutboxEventRecord) := do
  let aggregateType ← varcharIn 80 event.aggregateType
  let eventType ← varcharIn 120 event.eventType
  let routingKey ← varcharIn 160 event.routingKey
  let payload ← jsonbColumn event.payload
  check "outbox_events_event_version_check" (0 < event.eventVersion)
  if (db.outbox.get? event.id).isSome then
    throw (.other "duplicate key value violates unique constraint outbox_events_pkey")
  else
    let record : OutboxEventRecord := {
      id := event.id
      aggregateType := aggregateType
      aggregateId := event.aggregateId
      eventType := eventType
      eventVersion := event.eventVersion
      routingKey := routingKey
      payload := payload
      status := .pending
      attempts := 0
      nextRetryAt := none
      lastError := none
      createdAt := now
      publishedAt := none }
    return ⟨record, [.insertOutbox record]⟩

namespace OutboxService

def requireNonEmptyString (value : Option String) (fieldName : String) : Except Err String :=
  match value with
  | none => .error (.other s!"Cannot record outbox event without {fieldName}")
  | some value =>
    if value.toList = [] then .error (.other s!"Cannot record outbox event without {fieldName}") else .ok value

/-- A missing timestamp becomes an invalid `Date`, of which `toISOString` throws. -/
def toIsoTimestamp (value : Option Timestamp) : Except Err String :=
  match value with
  | none => .error (.other "Invalid time value")
  | some t => .ok (Date.toISOString (toDate t))

def nullableText : Option String → Json String
  | none => .null
  | some s => .str s

def buildPaymentPayload (payment : PaymentRecord) : List (String × Json String) :=
  [("paymentId", .str payment.id.uuidOut), ("merchantId", .str payment.merchantId.uuidOut),
    ("amountMinor", .num (Number.ofInt payment.amountMinor)), ("currency", .str payment.currency),
    ("provider", .str payment.provider)]

/-- `PaymentEventEnvelope`. -/
def envelope (eventId : Uuid) (eventType correlationId : String) (occurredAt : Millis) (payment : PaymentRecord)
    (payload : List (String × Json String)) : Json String :=
  .obj [("eventId", .str eventId.uuidOut), ("eventType", .str eventType), ("eventVersion", .num (Number.ofInt 1)),
    ("source", .str "payment-service"), ("correlationId", .str correlationId),
    ("occurredAt", .str (Date.toISOString occurredAt)), ("aggregateType", .str "payment"),
    ("aggregateId", .str payment.id.uuidOut), ("payload", .obj payload)]

def recordEvent (env : Env) (db : Db) (eventType correlationId : String) (payment : PaymentRecord)
    (payload : List (String × Json String)) : Except Err (Answer OutboxEventRecord) :=
  OutboxEventsDataAccess.insertPending db {
    id := env.uuid
    aggregateType := "payment"
    aggregateId := payment.id
    eventType := eventType
    eventVersion := 1
    routingKey := eventType
    payload := envelope env.uuid eventType correlationId env.now payment payload } env.dbNow

def authorizedPayload (payment : PaymentRecord) : Except Err (List (String × Json String)) := do
  let providerPaymentId ← requireNonEmptyString payment.providerPaymentId "providerPaymentId"
  let authorizedAt ← toIsoTimestamp payment.authorizedAt
  return buildPaymentPayload payment ++
    [("providerPaymentId", .str providerPaymentId), ("authorizedAt", .str authorizedAt)]

def capturedPayload (payment : PaymentRecord) : Except Err (List (String × Json String)) := do
  let providerPaymentId ← requireNonEmptyString payment.providerPaymentId "providerPaymentId"
  let capturedAt ← toIsoTimestamp payment.capturedAt
  return buildPaymentPayload payment ++ [("providerPaymentId", .str providerPaymentId), ("capturedAt", .str capturedAt)]

def failedPayload (operation : Operation) (payment : PaymentRecord) : Except Err (List (String × Json String)) := do
  let failureCode ← requireNonEmptyString payment.failureCode "failureCode"
  let failureMessage ← requireNonEmptyString payment.failureMessage "failureMessage"
  let failedAt ← toIsoTimestamp payment.failedAt
  return buildPaymentPayload payment ++ [("providerPaymentId", nullableText payment.providerPaymentId),
    ("operation", .str operation.text), ("status", .str operation.status), ("failureCode", .str failureCode),
    ("failureMessage", .str failureMessage), ("failedAt", .str failedAt)]

/-- Which of the three record functions a transaction calls. -/
inductive Recording
  | paymentAuthorized
  | paymentCaptured
  | paymentFailed (operation : Operation)
deriving DecidableEq

def Recording.eventType : Recording → String
  | .paymentAuthorized => "payment.authorized.v1"
  | .paymentCaptured => "payment.captured.v1"
  | .paymentFailed _ => "payment.failed.v1"

def Recording.payload : Recording → PaymentRecord → Except Err (List (String × Json String))
  | .paymentAuthorized => authorizedPayload
  | .paymentCaptured => capturedPayload
  | .paymentFailed operation => failedPayload operation

/-- `recordPaymentAuthorized`, `recordPaymentCaptured`, `recordPaymentFailed`. -/
def record (recording : Recording) (env : Env) (db : Db) (correlationId : String) (payment : PaymentRecord) :
    Except Err (Answer OutboxEventRecord) := do
  let payload ← recording.payload payment
  recordEvent env db recording.eventType correlationId payment payload

end OutboxService

end PaymentOrchestration
