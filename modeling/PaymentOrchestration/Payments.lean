/-
`PaymentsService` and `PaymentsDataAccess`: `create` and `capture` as calls that run from one await to
the next. `Await` is what a call is waiting for, with the variables that are still needed; `Call.run`
is the statement a call awaits together with the code from its answer to the next await, `Call.reject`
the code that runs when what a call awaits fails.
-/
import PaymentOrchestration.PaymentState
import PaymentOrchestration.Outbox
import PaymentOrchestration.Providers

namespace PaymentOrchestration

open Lib IdempotencyService OutboxService

/-! ## PaymentsDataAccess -/

namespace PaymentsDataAccess

def insert (db : Db) (record : InsertPaymentRecord) (now : Timestamp) : Except Err (Answer PaymentRecord) := do
  let payment ← record.accept now
  if (db.payments.get? payment.id).isSome then
    throw (.other "duplicate key value violates unique constraint payments_pkey")
  else return ⟨payment, [.insertPayment payment]⟩

/-- `UpdateAuthorizedPaymentStatusInput`. -/
structure UpdateStatusInput where
  id : Uuid
  status : PaymentStatus
  capturedAt : Option Millis
  failedAt : Option Millis
  failureCode : Option String
  failureMessage : Option String

def updateStatusIfAuthorized (db : Db) (input : UpdateStatusInput) (now : Timestamp) :
    Except Err (Answer (Option PaymentRecord)) := do
  let failureCode ← nullable (varcharIn 80) input.failureCode
  let failureMessage ← nullable textIn input.failureMessage
  match db.payments.get? input.id with
  | none => return ⟨none, []⟩
  | some p =>
    if p.status = .authorized then
      let payment := { p with
        status := input.status
        capturedAt := input.capturedAt.map ofDate
        failedAt := input.failedAt.map ofDate
        failureCode := failureCode
        failureMessage := failureMessage
        updatedAt := now }
      return ⟨some payment, [.updatePayment payment]⟩
    else return ⟨none, []⟩

end PaymentsDataAccess

/-! ## PaymentsService -/

structure CreatePaymentCommand where
  correlationId : String
  idempotencyKey : String
  merchantId : String
  amountMinor : Number
  currency : String
deriving DecidableEq

structure CapturePaymentCommand where
  correlationId : String
  idempotencyKey : String
  paymentId : String
deriving DecidableEq

/-- A call of `create` or of `capture`. -/
inductive Command
  | create (command : CreatePaymentCommand)
  | capture (command : CapturePaymentCommand)
deriving DecidableEq

namespace Command

def correlationId : Command → String
  | create command => command.correlationId
  | capture command => command.correlationId

def idempotencyKey : Command → String
  | create command => command.idempotencyKey
  | capture command => command.idempotencyKey

def scope : Command → String
  | create command => "payments:create:" ++ command.merchantId
  | capture command => "payments:capture:" ++ command.paymentId

/-- The status code of a first answer. -/
def statusCode : Command → Int
  | create _ => 201
  | capture _ => 200

/-- The value whose hash identifies the request. -/
def request : Command → Json JsString
  | create command => .obj [(JsString.utf16 "merchantId", .str (JsString.utf16 command.merchantId)),
      (JsString.utf16 "amountMinor", .num command.amountMinor),
      (JsString.utf16 "currency", .str (JsString.utf16 command.currency))]
  | capture command => .obj [(JsString.utf16 "paymentId", .str (JsString.utf16 command.paymentId))]

def requestHash (cfg : Config) (command : Command) : String := buildRequestHash cfg command.request

end Command

namespace PaymentsService

def toDto (payment : PaymentRecord) : Json String :=
  .obj [("id", .str payment.id.uuidOut), ("merchantId", .str payment.merchantId.uuidOut),
    ("amountMinor", .num (Number.ofInt payment.amountMinor)), ("currency", .str payment.currency),
    ("status", .str payment.status.text), ("provider", .str payment.provider),
    ("providerPaymentId", nullableText payment.providerPaymentId),
    ("failureCode", nullableText payment.failureCode), ("failureMessage", nullableText payment.failureMessage),
    ("capturedAt", nullableText (payment.capturedAt.map fun t => Date.toISOString (toDate t))),
    ("createdAt", .str (Date.toISOString (toDate payment.createdAt)))]

def isOwnershipLost : Err → Bool
  | .api e => e.code = "IDEMPOTENCY_OWNERSHIP_LOST"
  | .other _ => false

def paymentNotFound : Err := .api {
  code := "PAYMENT_NOT_FOUND"
  message := "Payment not found"
  statusCode := 404 }

def providerReferenceMissing : Err := .api {
  code := "PAYMENT_PROVIDER_REFERENCE_MISSING"
  message := "Payment provider reference is missing"
  statusCode := 500
  isOperational := false }

/-- What `create` sends to the provider. -/
def authorizeInput (command : CreatePaymentCommand) (d : Started) : AuthorizePaymentInput where
  paymentId := d.resourceId
  merchantId := command.merchantId
  amountMinor := command.amountMinor
  currency := command.currency

/-- The status `create` gives the payment. -/
def authorizedStatus : AuthorizePaymentResult → PaymentStatus
  | .success .. => .authorized
  | .failure .. => .failed

/-- The payment `create` inserts. -/
def insertRecord (command : CreatePaymentCommand) (d : Started) (now : Millis)
    (authorization : AuthorizePaymentResult) : InsertPaymentRecord where
  id := d.resourceId
  merchantId := command.merchantId
  amountMinor := command.amountMinor.toText
  currency := command.currency
  status := authorizedStatus authorization
  provider := match authorization with | .success provider _ | .failure provider _ _ _ => provider
  providerPaymentId := match authorization with
    | .success _ providerPaymentId => some providerPaymentId
    | .failure _ providerPaymentId _ _ => providerPaymentId
  failureCode := match authorization with | .success .. => none | .failure _ _ failureCode _ => some failureCode
  failureMessage := match authorization with
    | .success .. => none
    | .failure _ _ _ failureMessage => some failureMessage
  authorizedAt := match authorization with | .success .. => some now | .failure .. => none
  failedAt := match authorization with | .success .. => none | .failure .. => some now

def createRecording : AuthorizePaymentResult → Recording
  | .success .. => .paymentAuthorized
  | .failure .. => .paymentFailed .authorize

/-- What `capture` sends to the provider, of a payment whose provider reference is present. -/
def captureInput (payment : PaymentRecord) (providerPaymentId : String) : CapturePaymentInput where
  paymentId := payment.id
  providerPaymentId := providerPaymentId
  amountMinor := Number.ofInt payment.amountMinor
  currency := payment.currency

/-- `capture`'s `targetStatus`. -/
def capturedStatus : CapturePaymentResult → PaymentStatus
  | .success .. => .captured
  | .failure .. => .captureFailed

/-- The update `capture` makes. -/
def updateInput (payment : PaymentRecord) (now : Millis) (captureResult : CapturePaymentResult) :
    PaymentsDataAccess.UpdateStatusInput where
  id := payment.id
  status := capturedStatus captureResult
  capturedAt := match captureResult with | .success .. => some now | .failure .. => none
  failedAt := match captureResult with | .success .. => none | .failure .. => some now
  failureCode := match captureResult with | .success .. => none | .failure _ failureCode _ => some failureCode
  failureMessage := match captureResult with
    | .success .. => none
    | .failure _ _ failureMessage => some failureMessage

def captureRecording : CapturePaymentResult → Recording
  | .success .. => .paymentCaptured
  | .failure .. => .paymentFailed .capture

/-- What `capture` checks between the row lock and the provider call: the provider's name and the
input of the call. -/
def beforeCapture (cfg : Config) (payment : PaymentRecord) : Except Err (String × CapturePaymentInput) := do
  ensureCanCapture payment.status
  let provider ← getProvider cfg payment.provider
  match payment.providerPaymentId with
  | none => throw providerReferenceMissing
  | some providerPaymentId =>
    if providerPaymentId.toList = [] then throw providerReferenceMissing
    else return (provider, captureInput payment providerPaymentId)

/-- The error `create` rejects with after `markFailed` has failed in its `catch` block. -/
def createCatch (error markFailedError : Err) : Err :=
  if isOwnershipLost markFailedError then markFailedError else error

/-- The error `capture` rejects with after `markFailed` has failed in its `catch` block. -/
def captureCatch (error markFailedError : Err) : Err :=
  if isOwnershipLost markFailedError then markFailedError else error

end PaymentsService

open PaymentsService

/-! ## Calls -/

/-- What a call awaits: a statement, a provider's answer, or nothing any more. -/
inductive Await
  | findByScopeAndKey
  | tryInsertProcessing
  | findAfterConflict
  | reactivateFailed (id : Uuid)
  | takeoverExpiredProcessing (id : Uuid)
  | authorize (d : Started) (command : CreatePaymentCommand)
  | insertPayment (d : Started) (record : InsertPaymentRecord) (recording : Recording)
  | findByIdForUpdate (d : Started) (paymentId : String)
  | capture (d : Started) (payment : PaymentRecord) (provider : String) (input : CapturePaymentInput)
  | updateStatusIfAuthorized (d : Started) (input : PaymentsDataAccess.UpdateStatusInput) (recording : Recording)
  | recordEvent (d : Started) (payment : PaymentRecord) (recording : Recording)
  | markCompleted (d : Started) (payment : PaymentRecord)
  | commit (d : Started) (body : Json String)
  | rollback (d : Started) (error : Err)
  | markFailed (d : Started) (error : Err)
  | returned (statusCode : Int) (body : Json String)
  /-- Rejected before the decision. -/
  | refused (error : Err)
  /-- Rejected with `rejection` after the `catch` block was entered with `error`. -/
  | failed (d : Started) (error rejection : Err)
  /-- The process died while the call awaited `last`. -/
  | crashed (last : Await)

/-- The decision a call works under. -/
def Await.started? : Await → Option Started
  | .authorize d _ | .insertPayment d _ _ | .findByIdForUpdate d _ | .capture d _ _ _
  | .updateStatusIfAuthorized d _ _ | .recordEvent d _ _ | .markCompleted d _ | .commit d _ | .rollback d _
  | .markFailed d _ | .failed d _ _ => some d
  | .crashed last => last.started?
  | _ => none

/-- How the statement a call awaits is sent to the database. -/
inductive Mode
  /-- Outside a transaction. -/
  | pool
  /-- As the first statement of a transaction. -/
  | opening
  | inside
  | commit
  | rollback
  /-- The call awaits no statement. -/
  | idle
deriving DecidableEq

def Await.mode : Await → Mode
  | .findByScopeAndKey | .tryInsertProcessing | .findAfterConflict | .reactivateFailed _
  | .takeoverExpiredProcessing _ | .markFailed .. => .pool
  | .insertPayment .. | .findByIdForUpdate .. => .opening
  | .updateStatusIfAuthorized .. | .recordEvent .. | .markCompleted .. => .inside
  | .commit .. => .commit
  | .rollback .. => .rollback
  | .authorize .. | .capture .. | .returned .. | .refused _ | .failed .. | .crashed _ => .idle

/-- The call has settled, or its process has died. -/
def Await.isOver : Await → Bool
  | .returned .. | .refused _ | .failed .. | .crashed _ => true
  | _ => false

/-- A call in progress. `resourceId` is the id it offers to reserve, `inDoubt` that a COMMIT was sent
of which no answer came. -/
structure Call where
  command : Command
  resourceId : String
  inDoubt : Bool
  await : Await

/-- What a statement wrote and locked, and what the call awaits next. -/
structure Outcome where
  writes : List Write
  locks : List RowKey
  next : Await

namespace Call

variable (cfg : Config) (env : Env) (db : Db) (call : Call)

/-- What follows the `STARTED` decision. -/
def afterStarted (d : Started) : Await :=
  match call.command with
  | .create command => .authorize d command
  | .capture command => .findByIdForUpdate d command.paymentId

def afterDeciding : Except Err Deciding → Await
  | .error e => .refused e
  | .ok (.decided (.started d)) => call.afterStarted d
  | .ok (.decided (.completed statusCode body)) => .returned statusCode body
  | .ok (.reactivateFailed id) => .reactivateFailed id
  | .ok (.takeoverExpiredProcessing id) => .takeoverExpiredProcessing id

def afterAcquired : Except Err Started → Await
  | .error e => .refused e
  | .ok d => call.afterStarted d

/-- What follows the provider's answer to `authorize`. -/
def afterAuthorize (now : Millis) (d : Started) (command : CreatePaymentCommand)
    (authorization : AuthorizePaymentResult) : Await :=
  match ensureTransition .created (authorizedStatus authorization) with
  | .error e => .markFailed d e
  | .ok () => .insertPayment d (insertRecord command d now authorization) (createRecording authorization)

/-- What follows `findByIdForUpdate`. -/
def afterLock (d : Started) : Option PaymentRecord → Await
  | none => .rollback d paymentNotFound
  | some payment =>
    match beforeCapture cfg payment with
    | .error e => .rollback d e
    | .ok (provider, input) => .capture d payment provider input

/-- What follows the provider's answer to `capture`. -/
def afterCapture (now : Millis) (d : Started) (payment : PaymentRecord) (captureResult : CapturePaymentResult) :
    Await :=
  match ensureTransition .authorized (capturedStatus captureResult) with
  | .error e => .rollback d e
  | .ok () => .updateStatusIfAuthorized d (updateInput payment now captureResult) (captureRecording captureResult)

/-- What follows `updateStatusIfAuthorized`. -/
def afterUpdate (d : Started) (recording : Recording) : Option PaymentRecord → Await
  | none => .rollback d paymentNotCapturable
  | some payment => .recordEvent d payment recording

/-- The code that runs when what the call awaits rejects with `e`. -/
def reject (e : Err) : Await :=
  match call.await with
  | .findByScopeAndKey | .tryInsertProcessing | .findAfterConflict | .reactivateFailed _
  | .takeoverExpiredProcessing _ => .refused e
  | .authorize d _ => .markFailed d e
  | .insertPayment d _ _ | .findByIdForUpdate d _ | .capture d _ _ _ | .updateStatusIfAuthorized d _ _
  | .recordEvent d _ _ | .markCompleted d _ => .rollback d e
  | .commit d _ | .rollback d _ => .markFailed d e
  | .markFailed d error =>
    match call.command with
    | .create _ => .failed d error (createCatch error e)
    | .capture _ => .failed d error (captureCatch error e)
  | .returned statusCode body => .returned statusCode body
  | .refused error => .refused error
  | .failed d error rejection => .failed d error rejection
  | .crashed last => .crashed last

/-- A statement that writes without locking other rows. -/
def write {α : Type} (s : Except Err (Answer α)) (next : α → Await) : Except Err Outcome :=
  s.map fun a => ⟨a.writes, [], next a.returned⟩

/-- The statement the call awaits, and the code from its answer to the next await. -/
def run : Except Err Outcome :=
  match call.await with
  | .findByScopeAndKey =>
    match IdempotencyDataAccess.findByScopeAndKey db call.command.scope call.command.idempotencyKey with
    | some record =>
      .ok ⟨[], [], call.afterDeciding (decideFromExisting cfg env.now record (call.command.requestHash cfg))⟩
    | none => .ok ⟨[], [], .tryInsertProcessing⟩
  | .tryInsertProcessing =>
    write (IdempotencyDataAccess.tryInsertProcessing db {
        scope := call.command.scope
        idempotencyKey := call.command.idempotencyKey
        requestHash := call.command.requestHash cfg
        resourceType := "payment"
        resourceId := call.resourceId
        processingExpiresAt := buildExpiresAt cfg.processingLeaseMs env.now
        processingToken := env.uuid } env.uuid' env.dbNow) fun
      | some record => call.afterAcquired (buildStartedDecision record)
      | none => .findAfterConflict
  | .findAfterConflict =>
    match IdempotencyDataAccess.findByScopeAndKey db call.command.scope call.command.idempotencyKey with
    | some record =>
      .ok ⟨[], [], call.afterDeciding (decideFromExisting cfg env.now record (call.command.requestHash cfg))⟩
    | none => .ok ⟨[], [], .refused stateNotFound⟩
  | .reactivateFailed id =>
    write (IdempotencyDataAccess.reactivateFailed db id (call.command.requestHash cfg)
        (buildExpiresAt cfg.processingLeaseMs env.now) env.uuid env.dbNow) fun record =>
      call.afterAcquired (decideFromAcquired record)
  | .takeoverExpiredProcessing id =>
    write (IdempotencyDataAccess.takeoverExpiredProcessing db id (call.command.requestHash cfg)
        (buildExpiresAt cfg.processingLeaseMs env.now) env.uuid env.dbNow) fun record =>
      call.afterAcquired (decideFromAcquired record)
  | .insertPayment d record recording =>
    write (PaymentsDataAccess.insert db record env.dbNow) fun payment => .recordEvent d payment recording
  | .findByIdForUpdate d paymentId =>
    (uuidColumn paymentId).map fun id =>
      match db.payments.get? id with
      | none => ⟨[], [], afterLock cfg d none⟩
      | some payment => ⟨[], [.payment id], afterLock cfg d (some payment)⟩
  | .updateStatusIfAuthorized d input recording =>
    write (PaymentsDataAccess.updateStatusIfAuthorized db input env.dbNow) (afterUpdate d recording)
  | .recordEvent d payment recording =>
    write (OutboxService.record recording env db call.command.correlationId payment) fun _ => .markCompleted d payment
  | .markCompleted d payment =>
    write (IdempotencyService.markCompleted cfg env db d.recordId call.command.statusCode (toDto payment) "payment"
      payment.id d.processingToken) fun _ => .commit d (toDto payment)
  | .commit _ body => .ok ⟨[], [], .returned call.command.statusCode body⟩
  | .rollback d error => .ok ⟨[], [], .markFailed d error⟩
  | .markFailed d error =>
    write (IdempotencyService.markFailed cfg env db d.recordId d.processingToken) fun _ => .failed d error error
  | .authorize .. | .capture .. | .returned .. | .refused .. | .failed .. | .crashed _ => .ok ⟨[], [], call.await⟩

end Call

end PaymentOrchestration
