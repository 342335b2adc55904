/-
The responses of the payment service. Its routes document the status codes of their responses, each with a
schema of the body, and the OpenAPI document is made of that. `responses_documented` says that the document
is true: whatever calls are made, and however they fail, a response is one that its route documents, or it
tells of an internal error.
-/
import PaymentOrchestration.OpenApiDocument
import PaymentOrchestration.PaymentServer
import PaymentOrchestration.Rejections

namespace PaymentOrchestration

open Lib Lib.JsString Http OpenApiKit IdempotencyService OutboxService PaymentsService

/-! ## The documentation of the routes -/

namespace Http

/-- `paymentSchema` of the payment service's routes, and the schema of `data` in those of the gateway. -/
def paymentSchema : SchemaObject :=
  .object ["id", "merchantId", "amountMinor", "currency", "status", "provider", "createdAt"] [
  ("id", .string [] (some .uuid) false),
  ("merchantId", .string [] (some .uuid) false),
  ("amountMinor", .integer),
  ("currency", .string ["TRY", "USD", "EUR"] none false),
  ("status", .string ["CREATED", "AUTHORIZED", "FAILED", "CAPTURED", "CAPTURE_FAILED"] none false),
  ("provider", .string [] none false),
  ("providerPaymentId", .string [] none true),
  ("failureCode", .string [] none true),
  ("failureMessage", .string [] none true),
  ("capturedAt", .string [] (some .dateTime) true),
  ("createdAt", .string [] (some .dateTime) false)]

def errorSchema : SchemaObject := .object ["error"] [
  ("error", .object ["code", "message", "correlationId"] [
    ("code", .string [] none false),
    ("message", .string [] none false),
    ("details", .any),
    ("correlationId", .string [] none true)])]

/-- The response has a status code that is documented, and a body that satisfies the schema for it. -/
def Response.IsAmong (responses : List (Int × SchemaObject)) (r : Response) : Prop :=
  ∃ d ∈ responses, r.statusCode = d.1 ∧ d.2.valid r.body = true

/-- The schemas of a route's responses, by their status codes. -/
def schemasOf (route : IRouteSettings) : List (Int × SchemaObject) :=
  route.responses.filterMap fun d => d.2.schema.map fun schema => (d.1, schema)

/-- The document of the routes has an operation for the route, and that has a schema for the response's
status code that the body satisfies; or the response has an error with one of these codes. -/
def Response.IsDocumented (routes : List IRouteSettings) (route : IRouteSettings) (errors : List Int) (r : Response) :
    Prop :=
  ∃ o, operation (generateOpenApiPaths routes) (toOpenApiPath route.path) route.method = some o ∧
    ((∃ d ∈ o.responses, r.statusCode = d.1 ∧ ∃ schema, d.2.content = some schema ∧ schema.valid r.body = true) ∨
      r.statusCode ∈ errors ∧ errorSchema.valid r.body = true)

theorem isDocumented_iff {routes : List IRouteSettings} (h : WellFormed routes) {route : IRouteSettings}
    (hroute : route ∈ routes) {errors : List Int} {r : Response} : r.IsDocumented routes route errors ↔
      r.IsAmong (schemasOf route) ∨ r.statusCode ∈ errors ∧ errorSchema.valid r.body = true := by
  have hoperation := operation_of_mem h hroute
  have hamong : (∃ d ∈ (operationOf route).responses, r.statusCode = d.1 ∧ ∃ schema, d.2.content = some schema ∧
      schema.valid r.body = true) ↔ r.IsAmong (schemasOf route) := by
    constructor
    · rintro ⟨d, hd, hstatus, schema, hschema, hvalid⟩
      obtain ⟨response, hresponse, rfl⟩ := List.mem_map.1 hd
      refine ⟨(response.1, schema), List.mem_filterMap.2 ⟨response, hresponse, ?_⟩, hstatus, hvalid⟩
      rw [show response.2.schema = some schema from hschema]
      rfl
    · rintro ⟨d, hd, hstatus, hvalid⟩
      obtain ⟨response, hresponse, hsome⟩ := List.mem_filterMap.1 hd
      obtain ⟨schema, hschema, rfl⟩ := Option.map_eq_some_iff.1 hsome
      exact ⟨_, List.mem_map.2 ⟨response, hresponse, rfl⟩, hstatus, schema, hschema, hvalid⟩
  constructor
  · rintro ⟨o, ho, hcase⟩
    obtain rfl := Option.some.inj (hoperation.symm.trans ho)
    exact hcase.imp_left hamong.1
  · exact fun hcase => ⟨_, hoperation, hcase.imp_left hamong.2⟩

/-- A response with an error, whose code is a text. -/
def Response.IsError (r : Response) : Prop :=
  ∃ code message details correlationId, r.body = errorBody (.str code) message details correlationId

theorem Response.IsError.valid {r : Response} (h : r.IsError) : errorSchema.valid r.body = true := by
  obtain ⟨code, message, details, correlationId, hbody⟩ := h
  rw [hbody]
  cases correlationId <;> rfl

end Http

namespace PaymentServer

/-- `PaymentRoutes`, by the methods of the controller. -/
def settings : PaymentRoute → IRouteSettings
  | .create => {
      path := "/internal/payments"
      method := .post
      tags := ["payments"]
      description := "Create and authorize a payment"
      validation := PaymentRoute.create.validation .xInternalToken
      responses := [
        (201, ⟨"Payment created and authorization attempted", some paymentSchema⟩),
        (400, ⟨"VALIDATION_ERROR", some errorSchema⟩),
        (401, ⟨"UNAUTHORIZED", some errorSchema⟩),
        (409, ⟨"IDEMPOTENCY_KEY_REUSED_WITH_DIFFERENT_REQUEST or IDEMPOTENCY_REQUEST_IN_PROGRESS", some errorSchema⟩)] }
  | .getById => {
      path := "/internal/payments/:paymentId"
      method := .get
      tags := ["payments"]
      description := "Get payment by id"
      validation := PaymentRoute.getById.validation .xInternalToken
      responses := [
        (200, ⟨"Payment details", some paymentSchema⟩),
        (400, ⟨"VALIDATION_ERROR", some errorSchema⟩),
        (401, ⟨"UNAUTHORIZED", some errorSchema⟩),
        (404, ⟨"PAYMENT_NOT_FOUND", some errorSchema⟩)] }
  | .capture => {
      path := "/internal/payments/:paymentId/capture"
      method := .post
      tags := ["payments"]
      description := "Capture an authorized payment"
      validation := PaymentRoute.capture.validation .xInternalToken
      responses := [
        (200, ⟨"Payment capture attempted", some paymentSchema⟩),
        (400, ⟨"VALIDATION_ERROR", some errorSchema⟩),
        (401, ⟨"UNAUTHORIZED", some errorSchema⟩),
        (404, ⟨"PAYMENT_NOT_FOUND", some errorSchema⟩),
        (409, ⟨"PAYMENT_NOT_CAPTURABLE or idempotency conflict", some errorSchema⟩)] }

def Routes : List IRouteSettings := [settings .create, settings .getById, settings .capture]

theorem routes_wellFormed : WellFormed Routes where
  plain := by
    simp only [Routes, List.forall_mem_cons, List.not_mem_nil, false_implies, implies_true, and_true]
    exact ⟨.of_all (by decide) (by decide), .of_all (by decide) (by decide), .of_all (by decide) (by decide)⟩
  unique := by
    simp only [Routes, List.pairwise_cons, List.forall_mem_cons, List.not_mem_nil,
      false_implies, implies_true, and_true, List.Pairwise.nil]
    decide

theorem settings_mem (route : PaymentRoute) : settings route ∈ Routes := by
  cases route <;> simp [Routes]

/-- The status codes that a route documents, with the schemas of the bodies. -/
def responses : PaymentRoute → List (Int × SchemaObject)
  | .create => [(201, paymentSchema), (400, errorSchema), (401, errorSchema), (409, errorSchema)]
  | .getById => [(200, paymentSchema), (400, errorSchema), (401, errorSchema), (404, errorSchema)]
  | .capture => [(200, paymentSchema), (400, errorSchema), (401, errorSchema), (404, errorSchema), (409, errorSchema)]

theorem schemasOf_settings (route : PaymentRoute) : schemasOf (settings route) = responses route := by
  cases route <;> rfl

/-- The response is one that the service's document has for the route, or one of an internal error. -/
def Documented (route : PaymentRoute) (r : Response) : Prop := r.IsDocumented Routes (settings route) [500]

theorem documented_iff {route : PaymentRoute} {r : Response} : Documented route r ↔
    r.IsAmong (responses route) ∨ r.statusCode = 500 ∧ errorSchema.valid r.body = true := by
  rw [Documented, isDocumented_iff routes_wellFormed (settings_mem route), schemasOf_settings, List.mem_singleton]

/-! ## Responses of the handlers -/

section Handlers

variable {joi : JoiRuntime} {auth : Auth} {route : PaymentRoute} {uuid : Uuid} {req : Request} {x : Exchange}

theorem reject_isError {statusCode : Int} {code message : JsString} {details : Json JsString} :
    (x.reject statusCode (.str code) message details).IsError := ⟨_, _, _, _, rfl⟩

/-- The handlers before a controller refuse a request with 401 or with 400. -/
theorem receive_throws {validation : RouteRequestValidation} :
    Throws (fun r => r.IsError ∧ (r.statusCode = 401 ∨ r.statusCode = 400)) (receive joi auth validation uuid req) := by
  have hsegment : ∀ {α : Type} {x : Exchange} {segment : RequestSegment} {schema : Option Lib.Joi.Schema}
      {validate : Lib.Joi.Schema → α → Option α} {json : α → Json JsString} {value : α},
      Throws (fun r => r.IsError ∧ (r.statusCode = 401 ∨ r.statusCode = 400))
        (validateSegment joi x segment schema validate json value) := by
    intro α x segment schema validate json value
    unfold validateSegment
    split
    · exact .ok
    · split
      · exact .ok
      · exact .error ⟨reject_isError, .inr rfl⟩
  refine .bind (.ite .ok (.error ⟨reject_isError, .inl rfl⟩)) fun x => ?_
  exact hsegment.bind fun _ => hsegment.bind fun _ => hsegment.bind fun _ => hsegment.bind fun _ => .ok

theorem documented_of_refused {r : Response} (h : dispatch joi auth route uuid req = .error r) :
    Documented route r := by
  have hthrows : Throws (fun r => r.IsError ∧ (r.statusCode = 401 ∨ r.statusCode = 400))
      (dispatch joi auth route uuid req) :=
    receive_throws.bind fun _ => .ok
  obtain ⟨herror, hstatus⟩ := hthrows r h
  refine documented_iff.2 (.inl ?_)
  rcases hstatus with hstatus | hstatus
  · exact ⟨(401, errorSchema), by cases route <;> simp [responses], hstatus, herror.valid⟩
  · exact ⟨(400, errorSchema), by cases route <;> simp [responses], hstatus, herror.valid⟩

end Handlers

/-! ## Responses with an error of the service -/

/-- The route documents the status code for errors, or it is the one of internal errors. -/
def ErrorStatus (route : PaymentRoute) (statusCode : Int) : Prop :=
  (statusCode, errorSchema) ∈ responses route ∨ statusCode = 500

section Errors

variable {x : Exchange} {e : Err} {route : PaymentRoute}

theorem errorMiddleware_isError : (errorMiddleware x e).IsError := by
  cases e <;> exact reject_isError

theorem documented_of_errorStatus (h : ErrorStatus route (errorMiddleware x e).statusCode) :
    Documented route (errorMiddleware x e) := by
  have hvalid := (@errorMiddleware_isError x e).valid
  rcases h with h | h
  · exact documented_iff.2 (.inl ⟨_, h, rfl, hvalid⟩)
  · exact documented_iff.2 (.inr ⟨h, hvalid⟩)

/-- The status code of an error of a call is documented by its route, or it is that of an internal error. -/
theorem errorStatus_of_rejects {command : Command} (h : Rejects command.kind e) :
    ErrorStatus (routeOf command) (errorMiddleware x e).statusCode := by
  have hconflict : (errorMiddleware x e).statusCode = 409 →
      ErrorStatus (routeOf command) (errorMiddleware x e).statusCode := by
    intro h
    rw [h]
    exact .inl (by cases command <;> simp [routeOf, responses])
  generalize hkind : command.kind = kind at h
  cases h with
  | other => exact .inr rfl
  | keyReused | requestInProgress | ownershipLost | paymentNotCapturable => exact hconflict rfl
  | paymentNotFound =>
    cases command with
    | create command => cases hkind
    | capture command =>
      change ErrorStatus .capture 404
      exact .inl (by simp [responses])
  | providerNotConfigured hprovider =>
    unfold getProvider at hprovider
    split at hprovider
    · cases hprovider
    · cases hprovider
      exact .inr rfl

theorem errorStatus_of_read {db : Db} {query : GetPaymentQuery} (h : getById db query = .error e) :
    ErrorStatus .getById (errorMiddleware x e).statusCode := by
  have hthrows : Throws (fun e => e.Foreign ∨ e = paymentNotFound) (getById db query) := by
    refine .bind (Throws.map fun e he => .inl (uuidColumn_throws e he)) fun row => ?_
    cases row with
    | none => exact .error (.inr rfl)
    | some p => exact .ok
  rcases hthrows e h with ⟨m, rfl⟩ | rfl
  · exact .inr rfl
  · change ErrorStatus .getById 404
    exact .inl (by simp [responses])

/-- The answer of a call is documented if the payment in it satisfies the schema. -/
theorem documented_of_settled {command : Command} {outcome : Except Err (Int × Json String)}
    (h : Settled command.kind outcome)
    (hbody : ∀ statusCode body, outcome = .ok (statusCode, body) → paymentSchema.valid body.inUtf16 = true) :
    Documented (routeOf command) (respondCommand x outcome) := by
  cases h with
  | answered =>
    exact documented_iff.2 <| .inl ⟨(command.kind.statusCode, paymentSchema),
      by cases command <;> simp [routeOf, responses, Command.kind, Kind.statusCode], rfl, hbody _ _ rfl⟩
  | rejected he => exact documented_of_errorStatus (errorStatus_of_rejects he)

end Errors

end PaymentServer

/-! ## The payments of a run -/

/-- What the schema needs of a payment's row. -/
structure PaymentRecord.Documented (p : PaymentRecord) : Prop where
  currency : p.currency ∈ currencies
  createdAt : Date.InRange (toDate p.createdAt)
  capturedAt : ∀ t, p.capturedAt = some t → Date.InRange (toDate t)

theorem PaymentRecord.Documented.valid {p : PaymentRecord} (h : p.Documented) :
    paymentSchema.valid (toDto p).inUtf16 = true := by
  have hproperty : ∀ {k : String} {ms : List (String × Json String)} {x : Json String} {s : SchemaObject},
      Json.lookup k ms = some x → s.valid x.inUtf16 = true → ∀ v, Json.lookup k ms = some v →
      s.valid v.inUtf16 = true := by
    intro k ms x s hk hx v hv
    rwa [← Option.some.inj (hk.symm.trans hv)]
  have htext : ∀ {t : Option String}, (SchemaObject.string [] none true).valid (nullableText t).inUtf16 = true := by
    intro t
    cases t <;> rfl
  refine SchemaObject.valid_object.2 ⟨?_, ?_⟩
  · simp only [List.forall_mem_cons]
    exact ⟨rfl, rfl, rfl, rfl, rfl, rfl, rfl, fun k hk => (by cases hk)⟩
  · simp only [List.forall_mem_cons]
    refine ⟨hproperty rfl (SchemaObject.valid_uuid p.id), hproperty rfl (SchemaObject.valid_uuid p.merchantId),
      hproperty rfl (SchemaObject.valid_integer p.amountMinor), hproperty rfl (SchemaObject.valid_enum h.currency),
      hproperty rfl (SchemaObject.valid_enum ?_), hproperty rfl SchemaObject.valid_text,
      hproperty rfl htext, hproperty rfl htext, hproperty rfl htext, hproperty rfl ?_,
      hproperty rfl (SchemaObject.valid_dateTime h.createdAt), fun k hk => (by cases hk)⟩
    · cases p.status <;> decide
    · cases hat : p.capturedAt with
      | none => rfl
      | some t => exact SchemaObject.valid_dateTime (h.capturedAt t hat)

/-- The instants that a call is about to store can be written as a date-time. -/
def Await.Timely : Await → Prop
  | .updateStatusIfAuthorized _ input _ => ∀ t, input.capturedAt = some t → Date.InRange t
  | _ => True

def Write.Documented : Write → Prop
  | .insertPayment p | .updatePayment p => p.Documented
  | _ => True

/-- Clocks of the years that a date-time can name. -/
def timely (_ : State) : Action → Prop
  | .query _ env | .queryLost _ env _ => Date.InRange (toDate env.dbNow)
  | .provider _ now _ => Date.InRange now
  | _ => True

section Runs

variable {cfg : Config} {s s' : State} {a : Action} {call : Call} {env : Env} {aw : Await} {o : Outcome}

theorem documented_of_writes {ws : List Write} (hws : ∀ w ∈ ws, w.Documented) : ∀ {db : Db},
    (∀ p ∈ db.payments.rows, p.Documented) → ∀ p ∈ (schema.applyAll db ws).payments.rows, p.Documented := by
  induction ws with
  | nil => exact fun h => h
  | cons w ws ih =>
    intro db h
    obtain ⟨hw, hws⟩ := List.forall_mem_cons.1 hws
    refine ih hws fun p hp => ?_
    cases w with
    | insertPayment p' =>
      rcases Table.mem_of_insert hp with hp | rfl
      · exact h p hp
      · exact hw
    | updatePayment p' =>
      rcases Table.mem_of_put hp with hp | rfl
      · exact h p hp
      · exact hw
    | _ => exact h p hp

/-- What a statement writes, and what the call awaits next. -/
theorem Ran.timely {db : Db} (h : Ran cfg env db call aw o) (hdb : ∀ p ∈ db.payments.rows, p.Documented)
    (haw : aw.Timely) (hnow : Date.InRange (toDate env.dbNow)) : (∀ w ∈ o.writes, w.Documented) ∧ o.next.Timely := by
  have hstarted : ∀ d, (call.afterStarted d).Timely := by
    intro d
    unfold Call.afterStarted
    split <;> trivial
  cases h with
  | replayed | refused | toInsert | toReactivate | toTakeover | conflict | noPayment | notUpdated | committed
  | rolledBack =>
    exact ⟨List.forall_mem_nil _, trivial⟩
  | idle => exact ⟨List.forall_mem_nil _, haw⟩
  | inserted => exact ⟨List.forall_mem_singleton.2 trivial, hstarted _⟩
  | acquired =>
    refine ⟨List.forall_mem_singleton.2 trivial, ?_⟩
    unfold Call.afterAcquired
    split
    · trivial
    · exact hstarted _
  | completed | markedFailed | recorded => exact ⟨List.forall_mem_singleton.2 trivial, trivial⟩
  | @lockedPayment d _ _ p =>
    refine ⟨List.forall_mem_nil _, ?_⟩
    rcases Call.afterLock_cases cfg d p with ⟨e, -, hnext⟩ | ⟨provider, input, -, hnext⟩ <;> rw [hnext] <;> trivial
  | insertedPayment hadm _ =>
    refine ⟨List.forall_mem_singleton.2 ⟨hadm.known, ?_, fun t ht => ?_⟩, trivial⟩
    · rw [hadm.createdAt]; exact hnow
    · rw [hadm.capturedAt] at ht; cases ht
  | updatedPayment hg _ hu =>
    have hp := hdb _ (Table.mem_of_get? hg)
    refine ⟨List.forall_mem_singleton.2 ⟨?_, ?_, fun t ht => ?_⟩, trivial⟩
    · rw [hu.same.currency]; exact hp.currency
    · rw [hu.same.createdAt]; exact hp.createdAt
    · rw [hu.capturedAt] at ht
      obtain ⟨at', hat, rfl⟩ := Option.map_eq_some_iff.1 ht
      rw [toDate_ofDate]
      exact haw at' hat

/-- What holds of the payments of a run. -/
structure DocumentedInv (s : State) : Prop where
  calls : ∀ c call, s.calls c = some call → call.await.Timely
  writes : s.server.Holds Write.Documented

theorem DocumentedInv.payments (hi : Inv cfg s) (h : DocumentedInv s) : ∀ p ∈ s.db.payments.rows, p.Documented := by
  have hdb := Ledger.db_eq hi.ledger
  change s.db = schema.applyAll .empty (s.server.log.map Prod.snd) at hdb
  rw [hdb]
  refine documented_of_writes (fun w hw => ?_) fun p hp => absurd hp List.not_mem_nil
  obtain ⟨e, he, rfl⟩ := List.mem_map.1 hw
  exact h.writes.log e he

theorem DocumentedInv.step (hi : Inv cfg s) (h : DocumentedInv s) (hok : timely s a) (hs : StepCase cfg s a s') :
    DocumentedInv s' := by
  have hran : ∀ {c env call o}, s.calls c = some call → Date.InRange (toDate env.dbNow) →
      call.run cfg env s.db = .ok o → (∀ w ∈ o.writes, w.Documented) ∧ o.next.Timely :=
    fun hc hnow hrun => (ran_of_run hrun).timely (h.payments hi) (h.calls _ _ hc) hnow
  have hreject : ∀ (call : Call) e, call.await.Timely → (call.reject e).Timely := by
    intro call e haw
    unfold Call.reject
    split <;> try trivial
    split <;> trivial
  constructor
  · intro c call' hc'
    rcases hs.call_origin hc' with ⟨call, hc, -⟩ | ⟨-, command, reserved, rfl, -, -, rfl⟩
    swap
    · trivial
    have haw := h.calls c call hc
    rcases hs.call_cases hc hc' with ⟨rfl, -⟩ | ⟨-, hcase⟩
    · exact haw
    generalize call'.await = next, s'.server = server at hcase
    cases hcase with
    | answered _ _ hrun | staged _ _ hrun => exact (hran hc hok hrun).2
    | answerLost | failed | unanswered => exact hreject call _ haw
    | committed | rolledBack | commitLost | crashed => trivial
    | lateCommit | sessionLost => exact haw
    | provider hp =>
      generalize call.await = aw at hp haw
      cases hp with
      | @captured d payment provider input result =>
        intro t ht
        cases result <;> cases ht
        exact hok
      | authorized | authorizeThrew | captureThrew => trivial
  · refine hs.holds h.writes fun c env call o hc ha hrun => (hran hc ?_ hrun).1
    rcases ha with rfl | ⟨m, rfl⟩ <;> exact hok

theorem documented_of_reach (h : (service cfg).Reach (fun s a => orderly s a ∧ timely s a) s) :
    ∀ p ∈ s.db.payments.rows, p.Documented := by
  have hinv : Inv cfg s ∧ DocumentedInv s := by
    refine h.invariant (P := fun s => Inv cfg s ∧ DocumentedInv s)
      ⟨Inv.init cfg, fun _ _ hc => (by cases hc), Server.Holds.start _⟩ ?_
    rintro s a s' ⟨hi, hd⟩ hok hs
    exact ⟨hi.step hs, hd.step hi hok.2 (step_cases hs)⟩
  exact hinv.2.payments hinv.1

theorem returned_of_settled {call : Call} {statusCode : Int} {body : Json String}
    (h : call.await.settled? = some (.ok (statusCode, body))) : call.await = .returned statusCode body := by
  generalize call.await = aw at h
  cases aw <;> cases h
  rfl

/-- The payment in an answer, which may be older than the row, satisfies the schema. -/
theorem answer_valid (h : (service cfg).Reach (fun s a => orderly s a ∧ timely s a) s) {c : CallId}
    (hc : s.calls c = some call)
    {statusCode : Int} {body : Json String} (hsettled : call.await.settled? = some (.ok (statusCode, body))) :
    paymentSchema.valid body.inUtf16 = true := by
  have hreturned := returned_of_settled hsettled
  have hi := inv_of_reach h
  obtain ⟨-, p, p', -, -, -, hsame, hp', hf, -, hshape⟩ := (answered_of_returned hi hc hreturned).payment hi.ledger
  have hrow := documented_of_reach h p' (Table.mem_of_get? hp')
  have hp : p.Documented := by
    refine ⟨?_, ?_, fun t ht => ?_⟩
    · rw [← hf.same.currency]; exact hrow.currency
    · rw [← hf.same.createdAt]; exact hrow.createdAt
    · rcases hf.settled with rfl | ⟨hauthorized, -⟩
      · exact hrow.capturedAt t ht
      · have hcaptured := hshape.capturedAt.1 (Option.isSome_iff_exists.2 ⟨t, ht⟩)
        rw [hauthorized] at hcaptured
        cases hcaptured
  exact SchemaObject.valid_of_same hsame (toDto_distinct p) hp.valid

end Runs

/-! ## The responses of a run -/

namespace PaymentServer

/-- The responses that a request of a route may be given in a state: one of a handler that refuses it, the
settling of a call of the command that it was dispatched as, the read, or an error of the database in its
place. -/
inductive Responds (cfg : Config) (joi : JoiRuntime) (auth : Auth) (s : State) (route : PaymentRoute)
    (uuid : Uuid) (req : Request) : Response → Prop
  | refused {response} :
      dispatch joi auth route uuid req = .error response → Responds cfg joi auth s route uuid req response
  | settled {x c call outcome} : dispatch joi auth route uuid req = .ok (x, some (.command call.command)) →
      s.calls c = some call → call.await.settled? = some outcome →
      Responds cfg joi auth s route uuid req (respondCommand x outcome)
  | read {x query} : dispatch joi auth route uuid req = .ok (x, some (.getById query)) →
      Responds cfg joi auth s route uuid req (respondGetById x (getById s.db query))
  | readFailed {x query m} : dispatch joi auth route uuid req = .ok (x, some (.getById query)) →
      Responds cfg joi auth s route uuid req (respondGetById x (.error (.other m)))

/-- The route that an operation is dispatched on. -/
def Operation.route : Operation → PaymentRoute
  | .command c => routeOf c
  | .getById _ => .getById

section Documented

variable {joi : JoiRuntime} {auth : Auth} {route : PaymentRoute} {uuid : Uuid} {req : Request}
  {x : Exchange} {op : Operation}

theorem route_of_spells (h : Spells joi uuid req route op) : route = op.route := by
  cases h <;> rfl

theorem route_of_dispatch (h : dispatch joi auth route uuid req = .ok (x, some op)) : route = op.route := by
  obtain ⟨-, -, op', hop, hspells⟩ := spells_of_dispatch h
  obtain rfl := Option.some.inj hop
  exact route_of_spells hspells

theorem documented_of_read {db : Db} {query : GetPaymentQuery} (hdb : ∀ p ∈ db.payments.rows, p.Documented) :
    Documented .getById (respondGetById x (getById db query)) := by
  cases hread : getById db query with
  | ok body =>
    obtain ⟨id, p, -, hp, rfl⟩ := row_of_getById hread
    exact documented_iff.2 <| .inl ⟨(200, paymentSchema), by simp [responses], rfl,
      (hdb p (Table.mem_of_get? hp)).valid⟩
  | error e => exact documented_of_errorStatus (errorStatus_of_read hread)

end Documented

end PaymentServer

/-- In every state of every run each response has a status code that its route documents, and a body that
satisfies the schema for it, or it is one of an internal error. -/
theorem responses_documented {cfg : Config} {s : State}
    (h : (service cfg).Reach (fun s a => orderly s a ∧ timely s a) s)
    {joi : JoiRuntime} {auth : Auth} {route : PaymentRoute} {uuid : Uuid} {req : Request} {response : Response}
    (hresponds : PaymentServer.Responds cfg joi auth s route uuid req response) :
    PaymentServer.Documented route response := by
  cases hresponds with
  | refused hdispatch => exact PaymentServer.documented_of_refused hdispatch
  | @settled _ c call outcome hdispatch hc hsettled =>
    obtain rfl := PaymentServer.route_of_dispatch hdispatch
    have hkind := settled_of_reach (h.mono fun _ _ hok => hok.1) hc hsettled
    exact PaymentServer.documented_of_settled hkind fun statusCode body hbody => answer_valid h hc (hbody ▸ hsettled)
  | read hdispatch =>
    obtain rfl := PaymentServer.route_of_dispatch hdispatch
    exact PaymentServer.documented_of_read (documented_of_reach h)
  | readFailed hdispatch => exact PaymentServer.documented_of_errorStatus (.inr rfl)

namespace Sample

theorem createRun_timely (a : Action) (ha : a ∈ createRun) (s : State) : orderly s a ∧ timely s a := by
  have hnow : ∀ n ≤ 6, Date.InRange (toDate (env n).dbNow) := by
    intro n hn
    change _ ≤ (1000 * (1700000000000 + 1000 * n) / 1000 : Int) ∧ (1000 * (1700000000000 + 1000 * n) / 1000 : Int) < _
    omega
  revert s
  revert a
  simp only [createRun, List.forall_mem_cons, List.not_mem_nil, false_implies, implies_true, and_true]
  have hquery : ∀ n ≤ 6, ∀ s, orderly s (.query 0 (env n)) ∧ timely s (.query 0 (env n)) :=
    fun n hn s => ⟨⟨trivial, fun _ _ _ heq => (by cases heq)⟩, hnow n hn⟩
  exact ⟨fun _ => ⟨⟨create_accepted, fun _ _ _ heq => (by cases heq)⟩, trivial⟩, hquery 1 (by decide),
    hquery 2 (by decide),
    fun _ => ⟨⟨trivial, fun _ _ _ heq => (by cases heq)⟩, by constructor <;> decide⟩, hquery 3 (by decide),
    hquery 4 (by decide), hquery 5 (by decide), hquery 6 (by decide)⟩

theorem created_timely : (service cfg).Reach (fun s a => orderly s a ∧ timely s a) created :=
  System.steps_of_runFrom createRun createRun_timely (Option.some_get _).symm

end Sample

/-- The payment that was created is the body of a documented response. -/
theorem responses_documented_created : ∃ x body, PaymentServer.Documented .create
    (PaymentServer.respondCommand x (.ok (201, body))) := by
  obtain ⟨call, body, hcall, hcommand, hawait⟩ := Sample.hasReturned_call Sample.created_run.1
  obtain ⟨hsecret, hspells⟩ := PaymentServer.spells_requestOf Sample.joi Sample.internalAuth
    (.ofNat 0) Sample.create_accepted
  obtain ⟨x, hx⟩ := PaymentServer.dispatch_of_spells hsecret hspells
  rw [← hcommand] at hx
  have hroute : PaymentServer.routeOf call.command = .create := by rw [hcommand]; rfl
  rw [hroute] at hx
  exact ⟨x, body, responses_documented Sample.created_timely (.settled hx hcall (by rw [hawait]; rfl))⟩

end PaymentOrchestration
