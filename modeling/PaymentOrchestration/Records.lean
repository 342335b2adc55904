/-
The rows of the three tables the payment service writes in one transaction (payments, outbox_events,
idempotency_keys), the errors its code throws, and the database as a `Schema` of the library's server:
each write concerns one row, named by its table and primary key.

An id that comes from a uuid column or from `randomUUID()` is the identifier itself: its text is
canonical. Ids that arrive in a request stay the text they arrived as.
-/
import PaymentOrchestration.Lib.Table
import PaymentOrchestration.Lib.Server
import PaymentOrchestration.Lib.Uuid
import PaymentOrchestration.Lib.Json
import PaymentOrchestration.Lib.Date

namespace PaymentOrchestration

open Lib

/-! ## Errors -/

/-- `ApiError`. -/
structure ApiError where
  code : String
  message : String
  statusCode : Nat
  isOperational : Bool := true
deriving DecidableEq

/-- What a promise of the service rejects with: one of its own errors, or an error of the database, of
a provider or of the runtime. -/
inductive Err
  | api (e : ApiError)
  | other (message : String)
deriving DecidableEq

/-! ## payments -/

/-- `PaymentStatus`. -/
inductive PaymentStatus
  | created
  | authorized
  | failed
  | captured
  | captureFailed
deriving DecidableEq

def PaymentStatus.text : PaymentStatus → String
  | .created => "CREATED"
  | .authorized => "AUTHORIZED"
  | .failed => "FAILED"
  | .captured => "CAPTURED"
  | .captureFailed => "CAPTURE_FAILED"

/-- A `timestamptz` value, in microseconds since the epoch. -/
abbrev Timestamp := Int

/-- The `timestamptz` of a JavaScript `Date`. -/
def ofDate (t : Millis) : Timestamp := t * 1000

/-- The `Date` of a `timestamptz`: the driver drops the microseconds. -/
def toDate (t : Timestamp) : Millis := t / 1000

@[simp] theorem toDate_ofDate (t : Millis) : toDate (ofDate t) = t :=
  Int.mul_ediv_cancel t (by decide)

/-- A row of payments. -/
structure PaymentRecord where
  id : Uuid
  merchantId : Uuid
  amountMinor : Int
  currency : String
  status : PaymentStatus
  provider : String
  providerPaymentId : Option String
  failureCode : Option String
  failureMessage : Option String
  authorizedAt : Option Timestamp
  capturedAt : Option Timestamp
  failedAt : Option Timestamp
  createdAt : Timestamp
  updatedAt : Timestamp

/-! ## outbox_events -/

inductive OutboxEventStatus
  | pending
  | published
  | failed
deriving DecidableEq

/-- A row of outbox_events. -/
structure OutboxEventRecord where
  id : Uuid
  aggregateType : String
  aggregateId : Uuid
  eventType : String
  eventVersion : Int
  routingKey : String
  payload : Json String
  status : OutboxEventStatus
  attempts : Nat
  nextRetryAt : Option Timestamp
  lastError : Option String
  createdAt : Timestamp
  publishedAt : Option Timestamp

/-! ## idempotency_keys -/

/-- `IdempotencyStatus`. -/
inductive IdempotencyStatus
  | processing
  | completed
  | failed
deriving DecidableEq

/-- A row of idempotency_keys. -/
structure IdempotencyRecord where
  id : Uuid
  scope : String
  idempotencyKey : String
  requestHash : String
  status : IdempotencyStatus
  resourceType : Option String
  resourceId : Option Uuid
  responseStatusCode : Option Int
  responseBody : Option (Json String)
  createdAt : Timestamp
  updatedAt : Timestamp
  expiresAt : Option Timestamp
  processingExpiresAt : Option Timestamp
  processingToken : Uuid

/-! ## The database -/

/-- The three tables. -/
structure Db where
  payments : Table PaymentRecord.id
  outbox : Table OutboxEventRecord.id
  idempotency : Table IdempotencyRecord.id

/-- Empty tables. -/
def Db.empty : Db := ⟨.empty, .empty, .empty⟩

/-- A row, by its table and primary key. -/
inductive RowKey
  | payment (id : Uuid)
  | outbox (id : Uuid)
  | idempotency (id : Uuid)
deriving DecidableEq

/-- The row a statement has written, by the statement that wrote it. -/
inductive Write
  | insertPayment (p : PaymentRecord)
  | updatePayment (p : PaymentRecord)
  | insertOutbox (e : OutboxEventRecord)
  | insertIdempotency (r : IdempotencyRecord)
  | acquireIdempotency (r : IdempotencyRecord)
  | completeIdempotency (r : IdempotencyRecord)
  | failIdempotency (r : IdempotencyRecord)

namespace Write

def key : Write → RowKey
  | insertPayment p | updatePayment p => .payment p.id
  | insertOutbox e => .outbox e.id
  | insertIdempotency r | acquireIdempotency r | completeIdempotency r | failIdempotency r => .idempotency r.id

def apply (db : Db) : Write → Db
  | insertPayment p => { db with payments := db.payments.insert p }
  | updatePayment p => { db with payments := db.payments.put p }
  | insertOutbox e => { db with outbox := db.outbox.insert e }
  | insertIdempotency r => { db with idempotency := db.idempotency.insert r }
  | acquireIdempotency r | completeIdempotency r | failIdempotency r =>
    { db with idempotency := db.idempotency.put r }

/-- The write concerns payments or outbox_events. -/
def isBusiness : Write → Bool
  | insertPayment _ | updatePayment _ | insertOutbox _ => true
  | _ => false

end Write

/-- The database as data changed row by row. -/
def schema : Schema Db Write RowKey where
  Row
    | .payment _ => PaymentRecord
    | .outbox _ => OutboxEventRecord
    | .idempotency _ => IdempotencyRecord
  row
    | .payment id, db => db.payments.get? id
    | .outbox id, db => db.outbox.get? id
    | .idempotency id, db => db.idempotency.get? id
  key := Write.key
  apply := Write.apply
  row_apply := by
    intro k w db h
    cases w <;> cases k <;> simp only [Write.key, ne_eq, RowKey.payment.injEq, RowKey.outbox.injEq,
      RowKey.idempotency.injEq] at h <;> first
      | rfl
      | exact Table.get?_insert_of_ne h
      | exact Table.get?_put_of_ne h

end PaymentOrchestration
