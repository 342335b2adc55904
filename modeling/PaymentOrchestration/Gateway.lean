/-
`PaymentServiceClient` of the gateway. What each attempt meets is up to the environment: `fetch` rejects, or a response
comes whose body is read to its end or not. `call_outcome_iff` says when a call ends as it should.
-/
import PaymentOrchestration.Lib.Stringify
import Mathlib.Algebra.Order.Ring.Rat

namespace PaymentOrchestration

open Lib Lib.JsString

namespace Gateway

/-! ## Errors -/

/-- A value that is thrown: whether it is an `Error`, and its name. -/
structure Thrown where
  isError : Bool
  name : String
deriving DecidableEq

def typeError : Thrown := ⟨true, "TypeError"⟩

def rangeError : Thrown := ⟨true, "RangeError"⟩

/-- The gateway's `ApiError`. Its code and details may come from a response, and are any JSON then. -/
structure ApiError where
  code : Json JsString
  message : JsString
  statusCode : Nat
  details : Option (Json JsString) := none
  isOperational : Bool := true

/-- What an attempt rejects with. -/
inductive Rejection
  | api (e : ApiError)
  | other (e : Thrown)

/-- A text of the source. -/
def text (s : String) : Json JsString := .str (utf16 s)

mutual

/-- `String(v)`. An object with a member `toString` has no text: the member is no function. -/
def toText : Json JsString → Option JsString
  | .null => some (utf16 "null")
  | .bool true => some (utf16 "true")
  | .bool false => some (utf16 "false")
  | .num n => some (units n.toText)
  | .str s => some s
  | .arr items => joinItems items
  | .obj members => if members.any (fun m => m.1 = utf16 "toString") then none else some (utf16 "[object Object]")
termination_by structural v => v

/-- `items.join()`. -/
def joinItems : List (Json JsString) → Option JsString
  | [] => some []
  | v :: vs => do
    let s ← match v with
      | .null => some []
      | v => toText v
    let t ← joinItems vs
    return if vs.isEmpty then s else s ++ utf16 "," ++ t
termination_by structural vs => vs

end

/-- `v?.k`, for a name that no value has but an object of which it is a member. -/
def property (k : String) : Option (Json JsString) → Option (Json JsString)
  | some (.obj members) => Json.lookup (utf16 k) members
  | _ => none

/-- `v ?? d`. -/
def orDefault (v : Option (Json JsString)) (d : Json JsString) : Json JsString :=
  match v with
  | none | some .null => d
  | some v => v

/-! ## The transport -/

inductive Method
  | get
  | post
deriving DecidableEq

structure RequestOptions where
  method : Method
  correlationId : String
  idempotencyKey : Option String := none
  body : Option (Json JsString) := none

/-- The arguments of `fetch`, without the signal. -/
structure FetchRequest where
  url : String
  method : Method
  headers : List (String × String)
  body : Option JsString

/-- How the reading of a response's body ends. -/
inductive Body
  | json (v : Json JsString)
  | notJson
  | cutOff (e : Thrown)

/-- What an attempt meets. -/
inductive Transport
  | rejected (e : Thrown)
  | response (status : Nat) (body : Body)

/-- `response.json().catch(() => null)`. -/
def Body.value : Body → Json JsString
  | .json v => v
  | .notJson | .cutOff _ => .null

/-- `response.ok`. -/
def isOk (status : Nat) : Bool := 200 ≤ status ∧ status ≤ 299

structure PaymentServiceResponse where
  statusCode : Nat
  body : Json JsString

/-- The error of a response that is not ok, as `send` throws it. -/
def responseError (status : Nat) (responseBody : Json JsString) : Rejection :=
  let error := property "error" (some responseBody)
  match toText (orDefault (property "message" error) (text "Payment service request failed")) with
  | none => .other typeError
  | some message => .api {
      code := orDefault (property "code" error) (text "PAYMENT_SERVICE_ERROR")
      message := message
      statusCode := status
      details := some (orDefault (property "details" error) .null) }

/-- What `send` makes of what it meets. -/
def Transport.answer : Transport → Except Rejection PaymentServiceResponse
  | .rejected e => .error (.other e)
  | .response status body => if isOk status then .ok ⟨status, body.value⟩ else .error (responseError status body.value)

/-! ## The client -/

structure PaymentServiceClient where
  baseUrl : String
  internalToken : String
  timeoutMs : ℚ
  internalToken_ne : internalToken ≠ ""
  timeoutMs_pos : 0 < timeoutMs

/-- The requests that a call has made, and how it has settled. -/
structure Run (α : Type) where
  requests : List FetchRequest
  result : Except ApiError α

def Run.map {α β : Type} (f : α → β) (run : Run α) : Run β := ⟨run.requests, run.result.map f⟩

theorem Run.map_id {α : Type} (run : Run α) : run.map id = run := by
  obtain ⟨requests, result⟩ := run
  cases result <;> rfl

def requestNotSent : ApiError where
  code := text "PAYMENT_SERVICE_REQUEST_NOT_SENT"
  message := utf16 "Payment service request could not be sent"
  statusCode := 500
  isOperational := false

def timedOut : ApiError where
  code := text "PAYMENT_SERVICE_TIMEOUT"
  message := utf16 "Payment service request timed out"
  statusCode := 504

def unavailable : ApiError where
  code := text "PAYMENT_SERVICE_UNAVAILABLE"
  message := utf16 "Payment service is unavailable"
  statusCode := 502

def Thrown.isTimeout (e : Thrown) : Bool := e.isError && (e.name = "AbortError" || e.name = "TimeoutError")

def transportError (e : Thrown) : ApiError := if e.isTimeout then timedOut else unavailable

def mapTransportError : Rejection → Option ApiError
  | .api _ => none
  | .other e => some (transportError e)

/-- `mapTransportError(error) ?? error`. -/
def toThrow : Rejection → ApiError
  | .api e => e
  | .other e => transportError e

namespace PaymentServiceClient

section Requests

-- `accepts` tells the delays that `AbortSignal.timeout` takes; the transport is given by the attempt
variable (client : PaymentServiceClient) (accepts : ℚ → Bool) (transport : Nat → Transport)

def headers (options : RequestOptions) : List (String × String) :=
  [("content-type", "application/json"), ("x-internal-token", client.internalToken),
    ("x-correlation-id", options.correlationId)] ++
  match options.idempotencyKey with
  | some key => if key = "" then [] else [("idempotency-key", key)]
  | none => []

def fetchRequest (path : String) (options : RequestOptions) : FetchRequest where
  url := client.baseUrl ++ path
  method := options.method
  headers := client.headers options
  body := options.body.map Json.stringify

/-- `send`: the requests it has made, and how it has settled. -/
def send (path : String) (options : RequestOptions) (attempt : Transport) :
    List FetchRequest × Except Rejection PaymentServiceResponse :=
  if accepts client.timeoutMs then ([client.fetchRequest path options], attempt.answer)
  else ([], .error (.other rangeError))

/-- The loop of `request` from an attempt on, when `left` attempts are left. -/
def requestFrom (path : String) (options : RequestOptions) : (left attempt : Nat) → Run PaymentServiceResponse
  | 0, _ => ⟨[], .error requestNotSent⟩
  | left + 1, attempt =>
    match client.send accepts path options (transport attempt) with
    | (requests, .ok response) => ⟨requests, .ok response⟩
    | (requests, .error error) =>
      if options.method = .get ∧ left ≠ 0 ∧ (mapTransportError error).isSome then
        let rest := requestFrom path options left (attempt + 1)
        ⟨requests ++ rest.requests, rest.result⟩
      else ⟨requests, .error (toThrow error)⟩

def request (path : String) (options : RequestOptions) : Run PaymentServiceResponse :=
  client.requestFrom accepts transport path options (if options.method = .get then 2 else 1) 1

end Requests

end PaymentServiceClient

/-! ## Its operations -/

structure CreatePaymentClientCommand where
  correlationId : String
  idempotencyKey : String
  merchantId : String
  amountMinor : Number
  currency : String

structure GetPaymentClientQuery where
  correlationId : String
  paymentId : String

structure CapturePaymentClientCommand where
  correlationId : String
  idempotencyKey : String
  paymentId : String

namespace PaymentServiceClient

section Operations

variable (client : PaymentServiceClient) (accepts : ℚ → Bool) (transport : Nat → Transport)

def create (command : CreatePaymentClientCommand) : Run PaymentServiceResponse :=
  client.request accepts transport "/internal/payments" {
    method := .post
    correlationId := command.correlationId
    idempotencyKey := some command.idempotencyKey
    body := some (.obj [(utf16 "merchantId", .str (utf16 command.merchantId)),
      (utf16 "amountMinor", .num command.amountMinor), (utf16 "currency", .str (utf16 command.currency))]) }

def getById (query : GetPaymentClientQuery) : Run (Json JsString) :=
  (client.request accepts transport s!"/internal/payments/{query.paymentId}" {
    method := .get
    correlationId := query.correlationId }).map (·.body)

def capture (command : CapturePaymentClientCommand) : Run PaymentServiceResponse :=
  client.request accepts transport s!"/internal/payments/{command.paymentId}/capture" {
    method := .post
    correlationId := command.correlationId
    idempotencyKey := some command.idempotencyKey }

end Operations

end PaymentServiceClient

/-- A call of one of the operations. -/
inductive Call
  | create (command : CreatePaymentClientCommand)
  | getById (query : GetPaymentClientQuery)
  | capture (command : CapturePaymentClientCommand)

namespace Call

/-- What a call resolves with. -/
def Answer : Call → Type
  | .getById _ => Json JsString
  | .create _ | .capture _ => PaymentServiceResponse

/-- What it makes of the response it has received. -/
def answer : (c : Call) → PaymentServiceResponse → c.Answer
  | .getById _, response => response.body
  | .create _, response | .capture _, response => response

def run (client : PaymentServiceClient) (accepts : ℚ → Bool) (transport : Nat → Transport) : (c : Call) → Run c.Answer
  | .create command => client.create accepts transport command
  | .getById query => client.getById accepts transport query
  | .capture command => client.capture accepts transport command

def retries : Call → Bool
  | .getById _ => true
  | .create _ | .capture _ => false

end Call

/-! ## How a call should end -/

/-- The error for an attempt that has received no response of the service as a whole, or one that is not ok. Without a
request there is no attempt. -/
def Expected (e : ApiError) : Option Transport → Prop
  | none => e.statusCode = 502 ∧ e.code = text "PAYMENT_SERVICE_UNAVAILABLE"
  | some (.rejected cause) | some (.response _ (.cutOff cause)) =>
    if cause.isTimeout then e.statusCode = 504 ∧ e.code = text "PAYMENT_SERVICE_TIMEOUT"
    else e.statusCode = 502 ∧ e.code = text "PAYMENT_SERVICE_UNAVAILABLE"
  | some (.response status (.json _)) => isOk status = false ∧ e.statusCode = status
  | some (.response status .notJson) => isOk status = false → e.statusCode = status

/-- What the last request has met. -/
def Run.last {α : Type} (run : Run α) (transport : Nat → Transport) : Option Transport :=
  if run.requests = [] then none else some (transport run.requests.length)

/-- The result of a call whose last request has met `t`: the response that was received as a whole, or the error. -/
structure Settles {α : Type} (f : PaymentServiceResponse → α) (t : Option Transport) (result : Except ApiError α) :
    Prop where
  resolves : ∀ a, result = .ok a → ∃ status v, t = some (.response status (.json v)) ∧
    isOk status = true ∧ a = f ⟨status, v⟩
  rejects : ∀ e, result = .error e → Expected e t

/-- The requests of a call of which `f` is what it makes of a response, and how it settles. -/
structure Outcome {α : Type} (retries : Bool) (transport : Nat → Transport) (f : PaymentServiceResponse → α)
    (run : Run α) : Prop where
  once : retries = false → run.requests.length = 1
  twice : run.requests.length ≤ 2
  again : run.requests.length = 2 → ∃ e, transport 1 = .rejected e
  settles : Settles f (run.last transport) run.result

/-- The error of the response can be thrown: its message has a text. -/
def throwable (v : Json JsString) : Bool :=
  (toText (orDefault (property "message" (property "error" (some v))) (text "Payment service request failed"))).isSome

/-- What the last attempt may meet: a rejection of `fetch`, or a response that is read to its end, as JSON if it is ok,
and with an error that can be thrown if not. A 502 is the exception: it is what becomes of the other errors. -/
def Transport.Regular : Transport → Prop
  | .rejected _ => True
  | .response status (.json v) => isOk status = true ∨ throwable v = true ∨ status = 502
  | .response status .notJson => isOk status = false
  | .response _ (.cutOff _) => False

namespace Call

/-- What the last attempt of `getById` meets. -/
def lastAttempt (transport : Nat → Transport) : Transport :=
  match transport 1 with
  | .rejected _ => transport 2
  | first => first

/-- When a call ends as it should: `AbortSignal.timeout` accepts the delay, the last attempt meets something regular,
and no response to the first attempt of `getById` is taken for a failure of the transport. -/
def HoldsWhen (client : PaymentServiceClient) (accepts : ℚ → Bool) (transport : Nat → Transport) : Call → Prop
  | .getById _ => accepts client.timeoutMs = true → (lastAttempt transport).Regular ∧
      ∀ status v, transport 1 = .response status (.json v) → isOk status = true ∨ throwable v = true
  | .create _ | .capture _ => accepts client.timeoutMs = true ∧ (transport 1).Regular

end Call

/-! ## One attempt -/

section Attempt

variable {α : Type} {f : PaymentServiceResponse → α} {t : Transport}

theorem settles_ok {r : PaymentServiceResponse} : Settles f (some t) (.ok (f r)) ↔
    ∃ status v, t = .response status (.json v) ∧ isOk status = true ∧ f r = f ⟨status, v⟩ := by
  refine ⟨fun h => ?_, fun ⟨status, v, ht, hok, hr⟩ => ⟨fun a ha => ?_, nofun⟩⟩
  · obtain ⟨status, v, ht, hok, hr⟩ := h.resolves _ rfl
    exact ⟨status, v, Option.some.inj ht, hok, hr⟩
  · cases ha; exact ⟨status, v, congrArg some ht, hok, hr⟩

theorem settles_error {e : ApiError} : Settles f (some t) (.error e) ↔ Expected e (some t) :=
  ⟨fun h => h.rejects e rfl, fun h => ⟨nofun, fun e' he => by cases he; exact h⟩⟩

/-- What an attempt settles the call with, if it is the last. -/
def Transport.result (t : Transport) (f : PaymentServiceResponse → α) : Except ApiError α :=
  (t.answer.mapError toThrow).map f

/-- The attempt fails without an `ApiError`. -/
def Transport.fails (t : Transport) : Bool :=
  match t.answer with
  | .error (.other _) => true
  | _ => false

theorem responseError_of_throwable (status : Nat) {v : Json JsString} (h : throwable v = true) :
    ∃ e, responseError status v = .api e ∧ e.statusCode = status ∧
      e.code = orDefault (property "code" (property "error" (some v))) (text "PAYMENT_SERVICE_ERROR") := by
  obtain ⟨message, hmessage⟩ := Option.isSome_iff_exists.1 h
  simp only [responseError, hmessage]
  exact ⟨_, rfl, rfl, rfl⟩

theorem responseError_of_not_throwable {status : Nat} {v : Json JsString} (h : throwable v = false) :
    responseError status v = .other typeError := by
  simp only [throwable, Option.isSome_eq_false_iff, Option.isNone_iff_eq_none] at h
  simp only [responseError, h]

/-- A body that could not be read counts as one without an error. -/
theorem throwable_null : throwable .null = true := by rfl

theorem transportError_expected (e : Thrown) :
    if e.isTimeout then (transportError e).statusCode = 504 ∧ (transportError e).code = text "PAYMENT_SERVICE_TIMEOUT"
    else (transportError e).statusCode = 502 ∧ (transportError e).code = text "PAYMENT_SERVICE_UNAVAILABLE" := by
  unfold transportError
  split <;> exact ⟨rfl, rfl⟩

/-- The last attempt settles the call as it should exactly when it meets something regular. -/
theorem settles_iff : Settles f (some t) (t.result f) ↔ t.Regular := by
  cases t with
  | rejected e =>
    refine ⟨fun _ => trivial, fun _ => settles_error.2 ?_⟩
    exact transportError_expected e
  | response status body =>
    cases hok : isOk status with
    | true =>
      have hresult : (Transport.response status body).result f = .ok (f ⟨status, body.value⟩) := by
        simp only [Transport.result, Transport.answer, hok, if_true]; rfl
      rw [hresult, settles_ok]
      cases body with
      | json v => exact ⟨fun _ => .inl hok, fun _ => ⟨status, v, rfl, hok, rfl⟩⟩
      | notJson => exact ⟨nofun, fun h => by rw [Transport.Regular, hok] at h; cases h⟩
      | cutOff e => exact ⟨nofun, fun h => h.elim⟩
    | false =>
      have hresult : (Transport.response status body).result f =
          .error (toThrow (responseError status body.value)) := by
        simp only [Transport.result, Transport.answer, hok, Bool.false_eq_true, if_false]; rfl
      rw [hresult, settles_error]
      -- a body that was not read has no error of its own
      obtain ⟨e, he, hstatus, hcode⟩ := responseError_of_throwable status throwable_null
      cases body with
      | json v =>
        cases hv : throwable v with
        | true =>
          obtain ⟨e, he, hstatus, -⟩ := responseError_of_throwable status hv
          rw [Body.value, he]
          exact ⟨fun _ => .inr (.inl hv), fun _ => ⟨hok, hstatus⟩⟩
        | false =>
          rw [Body.value, responseError_of_not_throwable hv]
          refine ⟨fun h => .inr (.inr h.2.symm), fun h => ⟨hok, ?_⟩⟩
          rcases h with h | h | h
          · rw [hok] at h; cases h
          · rw [hv] at h; cases h
          · exact h.symm
      | notJson =>
        rw [Body.value, he]
        exact ⟨fun _ => hok, fun _ _ => hstatus⟩
      | cutOff cause =>
        rw [Body.value, he]
        refine ⟨fun h => ?_, fun h => h.elim⟩
        -- the error says neither of a timeout nor of an unavailable service
        have hne : e.code = text "PAYMENT_SERVICE_ERROR" := hcode
        simp only [Expected, toThrow, hne] at h
        split at h
        · exact absurd (Json.str.inj h.2) (by decide)
        · exact absurd (Json.str.inj h.2) (by decide)

end Attempt

/-! ## The calls -/

section Calls

variable {α : Type} {client : PaymentServiceClient} {accepts : ℚ → Bool} {transport : Nat → Transport} {path : String}
  {options : RequestOptions} {f : PaymentServiceResponse → α}

theorem map_result (t : Transport) : (t.answer.mapError toThrow) = t.result id := by
  unfold Transport.result
  cases t.answer.mapError toThrow <;> rfl

/-- An attempt that does not fail settles the call. -/
theorem requestFrom_of_answered {left attempt : Nat} (ha : accepts client.timeoutMs = true)
    (ht : options.method = .post ∨ left = 0 ∨ (transport attempt).fails = false) :
    client.requestFrom accepts transport path options (left + 1) attempt =
      ⟨[client.fetchRequest path options], (transport attempt).result id⟩ := by
  rw [PaymentServiceClient.requestFrom, PaymentServiceClient.send, if_pos ha, ← map_result]
  cases hanswer : (transport attempt).answer with
  | ok r => rfl
  | error e =>
    have hno : ¬ (options.method = .get ∧ left ≠ 0 ∧ (mapTransportError e).isSome = true) := by
      rintro ⟨hget, hleft, hmapped⟩
      rcases ht with h | h | h
      · rw [hget] at h; cases h
      · exact hleft h
      · cases e with
        | api e => cases hmapped
        | other e => simp [Transport.fails, hanswer] at h
    simp only [if_neg hno]
    rfl

/-- A `GET` that fails is tried again. -/
theorem requestFrom_of_fails {left attempt : Nat} (ha : accepts client.timeoutMs = true) (hget : options.method = .get)
    (hleft : left ≠ 0) (ht : (transport attempt).fails = true) :
    client.requestFrom accepts transport path options (left + 1) attempt =
      ⟨client.fetchRequest path options ::
        (client.requestFrom accepts transport path options left (attempt + 1)).requests,
        (client.requestFrom accepts transport path options left (attempt + 1)).result⟩ := by
  rw [PaymentServiceClient.requestFrom, PaymentServiceClient.send, if_pos ha]
  simp only [Transport.fails] at ht
  split at ht
  · rename_i e hanswer
    have hyes : options.method = .get ∧ left ≠ 0 ∧ (mapTransportError (.other e)).isSome = true := ⟨hget, hleft, rfl⟩
    simp only [hanswer, if_pos hyes]
    rfl
  · cases ht

/-- Without a signal no attempt gets as far as `fetch`. -/
theorem requestFrom_of_refused (ha : accepts client.timeoutMs = false) : ∀ (left attempt : Nat),
    client.requestFrom accepts transport path options (left + 1) attempt = ⟨[], .error unavailable⟩
  | 0, attempt => by
    rw [PaymentServiceClient.requestFrom, PaymentServiceClient.send, ha]
    simp only [Bool.false_eq_true, if_false, ne_eq, not_true_eq_false, false_and, and_false]
    rfl
  | left + 1, attempt => by
    rw [PaymentServiceClient.requestFrom, PaymentServiceClient.send, ha]
    simp only [Bool.false_eq_true, if_false, requestFrom_of_refused ha left (attempt + 1)]
    split <;> rfl

/-- An operation that is not repeated. -/
theorem post_ends_iff (hpost : options.method = .post) :
    Outcome false transport f ((client.request accepts transport path options).map f) ↔
      accepts client.timeoutMs = true ∧ (transport 1).Regular := by
  have hone : client.request accepts transport path options =
      client.requestFrom accepts transport path options (0 + 1) 1 := by
    rw [PaymentServiceClient.request, hpost]; rfl
  rw [hone]
  cases ha : accepts client.timeoutMs with
  | false =>
    rw [requestFrom_of_refused ha]
    exact ⟨fun h => absurd (h.once rfl) Nat.zero_ne_one, fun h => absurd h.1 Bool.false_ne_true⟩
  | true =>
    rw [requestFrom_of_answered ha (.inl hpost)]
    have hsettles : Settles f (some (transport 1)) ((transport 1).result f) ↔ (transport 1).Regular := settles_iff
    rw [← map_result]
    exact ⟨fun h => ⟨rfl, hsettles.1 h.settles⟩, fun h => ⟨fun _ => rfl, Nat.le_succ 1, nofun, hsettles.2 h.2⟩⟩

/-- What makes an attempt fail: `fetch` rejects, or the error of a response cannot be thrown. -/
theorem fails_cases {t : Transport} : t.fails = true ↔
    (∃ e, t = .rejected e) ∨ ∃ status v, t = .response status (.json v) ∧ isOk status = false ∧
    throwable v = false := by
  cases t with
  | rejected e => exact ⟨fun _ => .inl ⟨e, rfl⟩, fun _ => rfl⟩
  | response status body =>
    simp only [Transport.fails, Transport.answer, reduceCtorEq, exists_false, false_or]
    cases hok : isOk status with
    | true =>
      simp only [if_true, Bool.false_eq_true, false_iff]
      rintro ⟨_, v, h, hno, -⟩
      cases h; rw [hok] at hno; cases hno
    | false =>
      simp only [Bool.false_eq_true, if_false]
      cases hv : throwable body.value with
      | true =>
        obtain ⟨e, he, -⟩ := responseError_of_throwable status hv
        simp only [he, Bool.false_eq_true, false_iff]
        rintro ⟨_, v, h, -, hno⟩
        cases h; rw [Body.value, hno] at hv; cases hv
      | false =>
        simp only [responseError_of_not_throwable hv, true_iff]
        cases body with
        | json v => exact ⟨status, v, rfl, hok, hv⟩
        | notJson | cutOff => rw [Body.value, throwable_null] at hv; cases hv

/-- `getById` meets the second attempt only after a failure, and ends as it should if that was one of `fetch`. -/
theorem get_ends_iff (hget : options.method = .get) :
    Outcome true transport f ((client.request accepts transport path options).map f) ↔
      (accepts client.timeoutMs = true → (Call.lastAttempt transport).Regular ∧
        ∀ status v, transport 1 = .response status (.json v) → isOk status = true ∨ throwable v = true) := by
  have htwo : client.request accepts transport path options =
      client.requestFrom accepts transport path options (1 + 1) 1 := by
    rw [PaymentServiceClient.request, hget]; rfl
  rw [htwo]
  cases ha : accepts client.timeoutMs with
  | false =>
    rw [requestFrom_of_refused ha]
    exact ⟨fun _ => nofun, fun _ => ⟨nofun, Nat.zero_le 2, nofun, ⟨nofun, fun e he => by cases he; exact ⟨rfl, rfl⟩⟩⟩⟩
  | true =>
    have hsettles : ∀ t : Transport, Settles f (some t) (t.result f) ↔ t.Regular := fun _ => settles_iff
    cases hfails : (transport 1).fails with
    | false =>
      rw [requestFrom_of_answered ha (.inr (.inr hfails)), ← map_result]
      have hno := fun h => Bool.false_ne_true (hfails.symm.trans (fails_cases.2 h))
      have hlast : Call.lastAttempt transport = transport 1 := by
        unfold Call.lastAttempt
        split
        · rename_i e he
          exact absurd (.inl ⟨e, he⟩) hno
        · rfl
      rw [hlast]
      refine ⟨fun h _ => ⟨(hsettles _).1 h.settles, fun status v hv => ?_⟩,
        fun h => ⟨nofun, Nat.le_succ 1, nofun, (hsettles _).2 (h rfl).1⟩⟩
      by_contra hbad
      simp only [not_or, Bool.not_eq_true] at hbad
      exact hno (.inr ⟨status, v, hv, hbad.1, hbad.2⟩)
    | true =>
      rw [requestFrom_of_fails ha hget Nat.one_ne_zero hfails, requestFrom_of_answered ha (.inr (.inl rfl)),
        ← map_result]
      rcases fails_cases.1 hfails with ⟨e, he⟩ | ⟨status, v, hv, hok, hthrow⟩
      · have hlast : Call.lastAttempt transport = transport 2 := by
          unfold Call.lastAttempt
          rw [he]
        rw [hlast]
        refine ⟨fun h _ => ⟨(hsettles _).1 h.settles, fun status v hv => ?_⟩,
          fun h => ⟨nofun, Nat.le_refl 2, fun _ => ⟨e, he⟩, (hsettles _).2 (h rfl).1⟩⟩
        rw [he] at hv; cases hv
      · refine ⟨fun h => ?_, fun h => ?_⟩
        · obtain ⟨e, he⟩ := h.again rfl
          rw [hv] at he; cases he
        · rcases (h rfl).2 status v hv with h | h
          · rw [hok] at h; cases h
          · rw [hthrow] at h; cases h

end Calls

/-- A call makes the requests and settles as it should exactly when what it meets is regular. -/
theorem call_outcome_iff (client : PaymentServiceClient) (accepts : ℚ → Bool) (transport : Nat → Transport) (c : Call) :
    Outcome c.retries transport c.answer (c.run client accepts transport) ↔ c.HoldsWhen client accepts transport := by
  cases c with
  | getById query => exact get_ends_iff rfl
  | create command =>
    have hpost : Outcome false transport id ((client.create accepts transport command).map id) ↔ _ := post_ends_iff rfl
    rw [Run.map_id] at hpost
    exact hpost
  | capture command =>
    have hpost : Outcome false transport id ((client.capture accepts transport command).map id) ↔ _ := post_ends_iff rfl
    rw [Run.map_id] at hpost
    exact hpost

/-! ## A lost body -/

namespace Sample

def client : PaymentServiceClient where
  baseUrl := "http://payment-service:8080"
  internalToken := "internal-token"
  timeoutMs := 5000
  internalToken_ne := by decide
  timeoutMs_pos := by decide

/-- The delays that Node accepts. -/
def accepts (ms : ℚ) : Bool := ms.isInt && ms.num ≤ 4294967295

def command : CapturePaymentClientCommand := ⟨"corr-0001", "key-00000001", "00000000-0000-0000-0000-000000000001"⟩

/-- The payment is captured, and the timeout strikes while the body is read. -/
def lost (_ : Nat) : Transport := .response 200 (.cutOff ⟨true, "TimeoutError"⟩)

end Sample

/-- The call resolves with status 200 and no payment. -/
theorem not_call_outcome :
    ¬ Outcome (Call.capture Sample.command).retries Sample.lost (Call.capture Sample.command).answer
    ((Call.capture Sample.command).run Sample.client Sample.accepts Sample.lost) := by
  intro h
  obtain ⟨status, v, hlast, -⟩ := h.settles.resolves ⟨200, .null⟩ rfl
  cases hlast

end Gateway

end PaymentOrchestration
