/-
`IdempotencyDataAccess` and `IdempotencyService`. A data-access function is one SQL statement: it
reads the committed rows and says which row it returns and what it writes. `getExistingOrStart` awaits
up to three statements; the code between two of them is a function of its own, and `Deciding` says how
that code goes on.
-/
import PaymentOrchestration.Constraints
import PaymentOrchestration.Lib.Stringify

namespace PaymentOrchestration

open Lib

/-! ## Configuration -/

/-- A SHA-256 value, as 64 hexadecimal digits. -/
structure Digest where
  digits : List (Fin 16)
  length_eq : digits.length = 64

/-- `digest('hex')`. -/
def Digest.hex (d : Digest) : String := String.ofList (d.digits.map Uuid.hexChar)

/-- What the service is configured with, and the runtime functions the code calls: `createHash('sha256')`
and `JSON.parse`. The durations are positive. -/
structure Config where
  sha256 : JsString → Digest
  jsonParse : String → Option (Json String)
  providerName : String
  processingLeaseMs : Rat
  completedTtlMs : Rat
  failedTtlMs : Rat
  processingLeaseMs_pos : 0 < processingLeaseMs
  completedTtlMs_pos : 0 < completedTtlMs
  failedTtlMs_pos : 0 < failedTtlMs

/-- The clock readings and random identifiers one step of the code uses: the application's clock, the
database's, and two values of `randomUUID()`. -/
structure Env where
  now : Millis
  dbNow : Timestamp
  uuid : Uuid
  uuid' : Uuid

/-- What a SQL statement that did not fail returned and wrote. -/
structure Answer (α : Type) where
  returned : α
  writes : List Write

/-! ## IdempotencyDataAccess -/

namespace IdempotencyDataAccess

def findByScopeAndKey (db : Db) (scope idempotencyKey : String) : Option IdempotencyRecord :=
  db.idempotency.rows.find? fun r => r.scope = scope ∧ r.idempotencyKey = idempotencyKey

/-- An insert that does nothing when the scope and key are taken. -/
def tryInsertProcessing (db : Db) (input : TryInsertProcessingInput) (id : Uuid) (now : Timestamp) :
    Except Err (Answer (Option IdempotencyRecord)) := do
  let record ← input.accept id now
  if (findByScopeAndKey db record.scope record.idempotencyKey).isSome then return ⟨none, []⟩
  else if (db.idempotency.get? id).isSome then
    throw (.other "duplicate key value violates unique constraint idempotency_keys_pkey")
  else return ⟨some record, [.insertIdempotency record]⟩

/-- A conditional update of the record `id`, by what it sets and the write it is. -/
def updateWhere (db : Db) (id : Uuid) (cond : IdempotencyRecord → Bool)
    (set : IdempotencyRecord → IdempotencyRecord) (write : IdempotencyRecord → Write) :
    Answer (Option IdempotencyRecord) :=
  match db.idempotency.get? id with
  | some r => if cond r then ⟨some (set r), [write (set r)]⟩ else ⟨none, []⟩
  | none => ⟨none, []⟩

def reactivateFailed (db : Db) (id : Uuid) (requestHash : String) (processingExpiresAt : Option Millis)
    (processingToken : Uuid) (now : Timestamp) : Except Err (Answer (Option IdempotencyRecord)) := do
  let processingExpiresAt ← dateColumn processingExpiresAt
  return updateWhere db id (fun r => r.requestHash = requestHash ∧ r.status = .failed)
    (fun r => { r with
      status := .processing
      processingExpiresAt := some processingExpiresAt
      processingToken := processingToken
      updatedAt := now })
    .acquireIdempotency

def takeoverExpiredProcessing (db : Db) (id : Uuid) (requestHash : String) (processingExpiresAt : Option Millis)
    (processingToken : Uuid) (now : Timestamp) : Except Err (Answer (Option IdempotencyRecord)) := do
  let processingExpiresAt ← dateColumn processingExpiresAt
  return updateWhere db id
    (fun r => r.requestHash = requestHash ∧ r.status = .processing ∧ r.processingExpiresAt.any (· < now))
    (fun r => { r with
      processingExpiresAt := some processingExpiresAt
      processingToken := processingToken
      updatedAt := now })
    .acquireIdempotency

def markCompleted (db : Db) (id : Uuid) (responseStatusCode : Int) (responseBody : Json String)
    (resourceType : String) (resourceId : Uuid) (expiresAt : Option Millis) (processingToken : Uuid)
    (now : Timestamp) : Except Err (Answer (Option IdempotencyRecord)) := do
  let responseBody ← jsonbColumn responseBody
  let resourceType ← varcharIn 80 resourceType
  let expiresAt ← dateColumn expiresAt
  return updateWhere db id (fun r => r.status = .processing ∧ r.processingToken = processingToken)
    (fun r => { r with
      status := .completed
      responseStatusCode := some responseStatusCode
      responseBody := some responseBody
      resourceType := some resourceType
      resourceId := some resourceId
      expiresAt := some expiresAt
      updatedAt := now })
    .completeIdempotency

def markFailed (db : Db) (id : Uuid) (expiresAt : Option Millis) (processingToken : Uuid) (now : Timestamp) :
    Except Err (Answer (Option IdempotencyRecord)) := do
  let expiresAt ← dateColumn expiresAt
  return updateWhere db id (fun r => r.status = .processing ∧ r.processingToken = processingToken)
    (fun r => { r with status := .failed, expiresAt := some expiresAt, updatedAt := now })
    .failIdempotency

end IdempotencyDataAccess

/-! ## IdempotencyService -/

namespace IdempotencyService

/-- `new Date(value)`: the value's integral part, unless it is out of a `Date`'s range. -/
def newDate (value : Rat) : Option Millis :=
  if -8640000000000000 ≤ value ∧ value ≤ 8640000000000000 then some (value.num.tdiv value.den) else none

def buildExpiresAt (ttlMs : Rat) (now : Millis) : Option Millis := newDate (now + ttlMs)

def isProcessingExpired (record : IdempotencyRecord) (now : Millis) : Bool :=
  record.processingExpiresAt.any fun t => toDate t ≤ now

/-- The names `'0'`, `'1'`, … that JavaScript orders before the other members of an object. -/
def arrayIndex? (name : JsString) : Option Nat :=
  if name = [] ∨ name.any (fun u => u < 48 ∨ 57 < u) ∨ (name.head? = some 48 ∧ name ≠ [48]) then none
  else
    let n := name.foldl (fun n u => 10 * n + (u.toNat - 48)) 0
    if n < 2 ^ 32 - 1 then some n else none

section Canonicalize

variable {ν : Type}

/-- The order in which an object that was built in the order of `members` enumerates them. -/
def ownOrder (members : List (JsString × Json JsString ν)) : List (JsString × Json JsString ν) :=
  (members.filter fun m => (arrayIndex? m.1).isSome).insertionSort
      (fun a b => (arrayIndex? a.1).getD 0 ≤ (arrayIndex? b.1).getD 0) ++
    members.filter fun m => (arrayIndex? m.1).isNone

/-- The members a sorted copy by assignment gets: assigning `__proto__` adds no member. -/
def copySorted (members : List (JsString × Json JsString ν)) : List (JsString × Json JsString ν) :=
  ownOrder ((Json.sortMembers (· ≤ ·) members).filter fun m => m.1 ≠ JsString.units "__proto__".toList)

def canonicalize (value : Json JsString ν) : Json JsString ν := value.reorder copySorted

end Canonicalize

def buildRequestHash (cfg : Config) (body : Json JsString) : String :=
  (cfg.sha256 (Json.stringify (canonicalize body))).hex

/-- The `STARTED` decision. -/
structure Started where
  recordId : Uuid
  resourceId : Uuid
  processingToken : Uuid
deriving DecidableEq

/-- `IdempotencyDecision`. -/
inductive IdempotencyDecision
  | started (d : Started)
  | completed (responseStatusCode : Int) (responseBody : Json String)

/-- How `decideFromExisting` goes on: with a decision, or with a statement that may acquire the record. -/
inductive Deciding
  | decided (d : IdempotencyDecision)
  | reactivateFailed (id : Uuid)
  | takeoverExpiredProcessing (id : Uuid)

def keyReused : Err := .api {
  code := "IDEMPOTENCY_KEY_REUSED_WITH_DIFFERENT_REQUEST"
  message := "Idempotency key was reused with a different request"
  statusCode := 409 }

def requestInProgress : Err := .api {
  code := "IDEMPOTENCY_REQUEST_IN_PROGRESS"
  message := "An idempotent request with the same key is already in progress"
  statusCode := 409 }

def stateNotFound : Err := .api {
  code := "IDEMPOTENCY_STATE_NOT_FOUND"
  message := "Idempotency state could not be resolved"
  statusCode := 500
  isOperational := false }

def resourceMissing : Err := .api {
  code := "IDEMPOTENCY_RESOURCE_MISSING"
  message := "Idempotency resource reference is missing"
  statusCode := 500
  isOperational := false }

/-- `buildOwnershipLostError`. -/
def ownershipLost : Err := .api {
  code := "IDEMPOTENCY_OWNERSHIP_LOST"
  message := "Idempotency ownership was lost"
  statusCode := 409 }

/-- A stored body that is a JSON string is parsed; every other body is returned as it is. -/
def normalizeResponseBody (cfg : Config) : Option (Json String) → Json String
  | none => .null
  | some (.str s) => (cfg.jsonParse s).getD (.str s)
  | some v => v

/-- The processing token needs no check: its column is NOT NULL. -/
def buildStartedDecision (record : IdempotencyRecord) : Except Err Started :=
  match record.resourceId with
  | none => .error resourceMissing
  | some resourceId => .ok ⟨record.id, resourceId, record.processingToken⟩

def decideFromExisting (cfg : Config) (now : Millis) (record : IdempotencyRecord) (requestHash : String) :
    Except Err Deciding :=
  if record.requestHash ≠ requestHash then .error keyReused
  else
    match record.status with
    | .completed =>
      .ok (.decided (.completed (record.responseStatusCode.getD 0) (normalizeResponseBody cfg record.responseBody)))
    | .failed => .ok (.reactivateFailed record.id)
    | .processing =>
      if isProcessingExpired record now then .ok (.takeoverExpiredProcessing record.id) else .error requestInProgress

/-- What follows a statement that may have acquired the record. -/
def decideFromAcquired : Option IdempotencyRecord → Except Err Started
  | some record => buildStartedDecision record
  | none => .error requestInProgress

/-- A completion that found no owned record. -/
def requireOwned (s : Except Err (Answer (Option IdempotencyRecord))) : Except Err (Answer IdempotencyRecord) :=
  match s with
  | .error e => .error e
  | .ok ⟨some record, ws⟩ => .ok ⟨record, ws⟩
  | .ok ⟨none, _⟩ => .error ownershipLost

def markCompleted (cfg : Config) (env : Env) (db : Db) (idempotencyRecordId : Uuid) (responseStatusCode : Int)
    (responseBody : Json String) (resourceType : String) (resourceId processingToken : Uuid) :
    Except Err (Answer IdempotencyRecord) :=
  requireOwned (IdempotencyDataAccess.markCompleted db idempotencyRecordId responseStatusCode responseBody
    resourceType resourceId (buildExpiresAt cfg.completedTtlMs env.now) processingToken env.dbNow)

def markFailed (cfg : Config) (env : Env) (db : Db) (idempotencyRecordId processingToken : Uuid) :
    Except Err (Answer IdempotencyRecord) :=
  requireOwned (IdempotencyDataAccess.markFailed db idempotencyRecordId (buildExpiresAt cfg.failedTtlMs env.now)
    processingToken env.dbNow)

end IdempotencyService

end PaymentOrchestration
