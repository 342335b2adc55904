/-
The responses of the gateway. `relayed` says what the gateway answers when its requests are served by the
payment service: its own refusals apart, the response is the service's, whose errors are passed on as they
are, or it tells of the transport; and it is one that the gateway's route documents, unless the body of a
response has been lost.
-/
import PaymentOrchestration.GatewayServer
import PaymentOrchestration.Responses

namespace PaymentOrchestration

open Lib Lib.JsString Http OpenApiKit PaymentsService

namespace GatewayServer

/-! ## The documentation of the routes -/

def paymentResponseSchema : SchemaObject := .object ["data", "correlationId"] [
  ("data", paymentSchema),
  ("correlationId", .string [] none false)]

/-- `PaymentRoutes` of the gateway, by the methods of the controller. -/
def settings : PaymentRoute → IRouteSettings
  | .create => {
      path := "/api/v1/payments"
      method := .post
      tags := ["payments"]
      description := "Create a payment"
      validation := PaymentRoute.create.validation .xApiKey
      responses := [
        (201, ⟨"Payment created", some paymentResponseSchema⟩),
        (400, ⟨"VALIDATION_ERROR", some errorSchema⟩),
        (401, ⟨"UNAUTHORIZED", some errorSchema⟩),
        (409, ⟨"IDEMPOTENCY_KEY_REUSED_WITH_DIFFERENT_REQUEST or IDEMPOTENCY_REQUEST_IN_PROGRESS", some errorSchema⟩)] }
  | .getById => {
      path := "/api/v1/payments/:paymentId"
      method := .get
      tags := ["payments"]
      description := "Get payment by id"
      validation := PaymentRoute.getById.validation .xApiKey
      responses := [
        (200, ⟨"Payment details", some paymentResponseSchema⟩),
        (400, ⟨"VALIDATION_ERROR", some errorSchema⟩),
        (401, ⟨"UNAUTHORIZED", some errorSchema⟩),
        (404, ⟨"PAYMENT_NOT_FOUND", some errorSchema⟩)] }
  | .capture => {
      path := "/api/v1/payments/:paymentId/capture"
      method := .post
      tags := ["payments"]
      description := "Capture an authorized payment"
      validation := PaymentRoute.capture.validation .xApiKey
      responses := [
        (200, ⟨"Payment capture attempted", some paymentResponseSchema⟩),
        (400, ⟨"VALIDATION_ERROR", some errorSchema⟩),
        (401, ⟨"UNAUTHORIZED", some errorSchema⟩),
        (404, ⟨"PAYMENT_NOT_FOUND", some errorSchema⟩),
        (409, ⟨"PAYMENT_NOT_CAPTURABLE or idempotency conflict", some errorSchema⟩),
        (502, ⟨"PAYMENT_SERVICE_UNAVAILABLE", some errorSchema⟩),
        (504, ⟨"PAYMENT_SERVICE_TIMEOUT", some errorSchema⟩)] }

def Routes : List IRouteSettings := [settings .create, settings .getById, settings .capture]

theorem routes_wellFormed : WellFormed Routes where
  plain := by
    simp only [Routes, List.forall_mem_cons, List.not_mem_nil, false_implies, implies_true, and_true]
    exact ⟨.of_all (by decide) (by decide), .of_all (by decide) (by decide), .of_all (by decide) (by decide)⟩
  unique := by
    simp only [Routes, List.pairwise_cons, List.forall_mem_cons, List.not_mem_nil,
      false_implies, implies_true, and_true, List.Pairwise.nil]
    decide

theorem settings_mem (route : PaymentRoute) : settings route ∈ Routes := by
  cases route <;> simp [Routes]

/-- The status codes that a route of the gateway documents, with the schemas of the bodies. -/
def responses : PaymentRoute → List (Int × SchemaObject)
  | .create => [(201, paymentResponseSchema), (400, errorSchema), (401, errorSchema), (409, errorSchema)]
  | .getById => [(200, paymentResponseSchema), (400, errorSchema), (401, errorSchema), (404, errorSchema)]
  | .capture =>
    [(200, paymentResponseSchema), (400, errorSchema), (401, errorSchema), (404, errorSchema), (409, errorSchema),
      (502, errorSchema), (504, errorSchema)]

theorem schemasOf_settings (route : PaymentRoute) : schemasOf (settings route) = responses route := by
  cases route <;> rfl

/-- The response is one that the gateway's document has for the route, or it tells of an internal error, or
of the transport. -/
def Documented (route : PaymentRoute) (r : Response) : Prop := r.IsDocumented Routes (settings route) [500, 502, 504]

theorem documented_iff {route : PaymentRoute} {r : Response} : Documented route r ↔
    r.IsAmong (responses route) ∨ r.statusCode ∈ [500, 502, 504] ∧ errorSchema.valid r.body = true := by
  rw [Documented, isDocumented_iff routes_wellFormed (settings_mem route), schemasOf_settings]

/-! ## What becomes of a response of the service -/

/-- The response with an error of the client. -/
def failed (correlationId : String) (error : Gateway.ApiError) : Response :=
  ⟨error.statusCode, some correlationId, errorBody error.code error.message (Gateway.orDefault error.details .null)
    (some correlationId)⟩

/-- What the gateway makes of a response of the service, of whose body `received` is read. -/
def relay (r : Response) (received : Gateway.Body) : Response :=
  if Gateway.isOk r.statusCode.toNat then
    { r with body := .obj ((utf16 "data", received.value) ::
        (r.correlationId.map fun c => (utf16 "correlationId", Json.str (utf16 c))).toList) }
  else
    match received with
    | .json _ => r
    | .notJson | .cutOff _ => { r with
        body := errorBody (.str (utf16 "PAYMENT_SERVICE_ERROR"))
          (utf16 "Payment service request failed") .null r.correlationId }

/-- The service responds to a request of the gateway, as it arrives, in a state. -/
def ServedIn (cfg : Config) (joi : JoiRuntime) (auth : Auth) (baseUrl : String) (s : State)
    (f : Gateway.FetchRequest) (r : Response) : Prop :=
  ∃ route uuid req, Arrives baseUrl f route req ∧ PaymentServer.Responds cfg joi auth s route uuid req r

/-- It does so in some state of a run. -/
def Served (cfg : Config) (joi : JoiRuntime) (auth : Auth) (baseUrl : String) (f : Gateway.FetchRequest)
    (r : Response) : Prop :=
  ∃ s, (service cfg).Reach (fun s a => orderly s a ∧ timely s a) s ∧ ServedIn cfg joi auth baseUrl s f r

/-- What an attempt meets: `fetch` rejects, or the service responds, and what is read of the body is what was sent. -/
inductive Meets (cfg : Config) (joi : JoiRuntime) (auth : Auth) (baseUrl : String) (f : Gateway.FetchRequest) :
    Gateway.Transport → Prop
  | rejected {e} : Meets cfg joi auth baseUrl f (.rejected e)
  | responded {r body} : Served cfg joi auth baseUrl f r →
      (∀ v, body = .json v → Json.stringify v = Json.stringify r.body) →
      Meets cfg joi auth baseUrl f (.response r.statusCode.toNat body)

/-- The response to a request that was let through, by what the last attempt has met. -/
inductive Relays (cfg : Config) (joi : JoiRuntime) (auth : Auth) (baseUrl : String)
    (transport : Nat → Gateway.Transport)
    (requests : List Gateway.FetchRequest) (correlationId : String) : Response → Prop
  | unsent (none : requests = []) :
      Relays cfg joi auth baseUrl transport requests correlationId (failed correlationId Gateway.unavailable)
  | rejected {e} (last : transport requests.length = .rejected e) :
      Relays cfg joi auth baseUrl transport requests correlationId (failed correlationId (Gateway.transportError e))
  | responded {f r body} (mem : f ∈ requests) (served : Served cfg joi auth baseUrl f r)
      (last : transport requests.length = .response r.statusCode.toNat body) :
      Relays cfg joi auth baseUrl transport requests correlationId (relay r body)

/-! ## The last attempt -/

section Attempts

variable {client : Gateway.PaymentServiceClient} {accepts : ℚ → Bool} {transport : Nat → Gateway.Transport}
  {path : String} {options : Gateway.RequestOptions}

/-- A request settles with what its last attempt has met. -/
theorem request_last (ha : accepts client.timeoutMs = true) :
    (client.request accepts transport path options).requests ≠ [] ∧
    (client.request accepts transport path options).result =
      (transport (client.request accepts transport path options).requests.length).result id := by
  rw [Gateway.PaymentServiceClient.request]
  cases hmethod : options.method with
  | post =>
    change (client.requestFrom accepts transport path options (0 + 1) 1).requests ≠ [] ∧
      (client.requestFrom accepts transport path options (0 + 1) 1).result =
        (transport (client.requestFrom accepts transport path options (0 + 1) 1).requests.length).result id
    rw [Gateway.requestFrom_of_answered ha (.inl hmethod)]
    exact ⟨List.cons_ne_nil _ _, rfl⟩
  | get =>
    change (client.requestFrom accepts transport path options (1 + 1) 1).requests ≠ [] ∧
      (client.requestFrom accepts transport path options (1 + 1) 1).result =
        (transport (client.requestFrom accepts transport path options (1 + 1) 1).requests.length).result id
    cases hfails : (transport 1).fails with
    | false =>
      rw [Gateway.requestFrom_of_answered ha (.inr (.inr hfails))]
      exact ⟨List.cons_ne_nil _ _, rfl⟩
    | true =>
      rw [Gateway.requestFrom_of_fails ha hmethod Nat.one_ne_zero hfails,
        Gateway.requestFrom_of_answered ha (.inr (.inl rfl))]
      exact ⟨List.cons_ne_nil _ _, rfl⟩

/-- So does a call. -/
theorem run_last (ha : accepts client.timeoutMs = true) (c : Gateway.Call) :
    (c.run client accepts transport).requests ≠ [] ∧
      (c.run client accepts transport).result =
        (transport (c.run client accepts transport).requests.length).result c.answer := by
  cases c with
  | create command | capture command =>
    obtain ⟨hne, hresult⟩ := @request_last client accepts transport _ _ ha
    exact ⟨hne, hresult⟩
  | getById query =>
    obtain ⟨hne, hresult⟩ := @request_last client accepts transport (s!"/internal/payments/{query.paymentId}")
      { method := .get, correlationId := query.correlationId } ha
    refine ⟨hne, ?_⟩
    change Except.map _ _ = _
    rw [hresult, ← Gateway.map_result]
    rfl

theorem run_refused (ha : accepts client.timeoutMs = false) (c : Gateway.Call) :
    c.run client accepts transport = ⟨[], .error Gateway.unavailable⟩ := by
  cases c with
  | create command | capture command => exact Gateway.requestFrom_of_refused ha 0 1
  | getById query =>
    have hrun := @Gateway.requestFrom_of_refused client accepts transport (s!"/internal/payments/{query.paymentId}")
      { method := .get, correlationId := query.correlationId } ha 1 1
    exact congrArg (Gateway.Run.map (·.body)) hrun

variable {joi : JoiRuntime} {auth : Auth} {route : PaymentRoute} {uuid : Uuid} {req : Request}
  {requests : List Gateway.FetchRequest} {response : Response}

/-- How a request is handled: it is refused, or no request is made for it, or it is responded to by the last attempt. -/
inductive Handled (joi : JoiRuntime) (auth : Auth) (client : Gateway.PaymentServiceClient) (accepts : ℚ → Bool)
    (transport : Nat → Gateway.Transport) (route : PaymentRoute) (uuid : Uuid) (req : Request) :
    List Gateway.FetchRequest → Response → Prop
  | refused {refusal} (found : dispatch joi auth route uuid req = .error refusal) :
      Handled joi auth client accepts transport route uuid req [] refusal
  | unsent {x c} (called : dispatch joi auth route uuid req = .ok (x, some c)) :
      Handled joi auth client accepts transport route uuid req [] (errorMiddleware x Gateway.unavailable)
  | sent {x c} (called : dispatch joi auth route uuid req = .ok (x, some c))
      (made : (c.run client accepts transport).requests ≠ []) :
      Handled joi auth client accepts transport route uuid req (c.run client accepts transport).requests
        (respond x c ((transport (c.run client accepts transport).requests.length).result c.answer))

theorem handled_of_handle (h : handle joi auth client accepts transport route uuid req = some (requests, response)) :
    Handled joi auth client accepts transport route uuid req requests response := by
  rw [handle] at h
  cases hdispatch : dispatch joi auth route uuid req with
  | error refusal =>
    rw [hdispatch] at h
    obtain ⟨rfl, rfl⟩ := Prod.mk.inj (Option.some.inj h)
    exact .refused hdispatch
  | ok dispatched =>
    obtain ⟨x, o⟩ := dispatched
    rw [hdispatch] at h
    obtain ⟨c, rfl, hcall⟩ := Option.map_eq_some_iff.1 h
    obtain ⟨rfl, rfl⟩ := Prod.mk.inj hcall
    cases ha : accepts client.timeoutMs with
    | false =>
      rw [run_refused ha]
      cases c <;> exact .unsent hdispatch
    | true =>
      obtain ⟨hne, hlast⟩ := @run_last client accepts transport ha c
      rw [hlast]
      exact .sent hdispatch hne

end Attempts

/-! ## The answers of the service -/

/-- The answer of an operation in a state: what a call has returned, or what is read. -/
inductive Source (s : State) : PaymentServer.Operation → Json String → Prop
  | returned {c call statusCode body} (made : s.calls c = some call) (await : call.await = .returned statusCode body) :
      Source s (.command call.command) body
  | read {query body} (found : getById s.db query = .ok body) : Source s (.getById query) body

/-- How the service responds to an operation in a state, under a correlation id. -/
inductive Answers (s : State) (op : PaymentServer.Operation) (correlationId : String) : Response → Prop
  | ok {statusCode body} (source : Source s op body)
      (documented : (statusCode, paymentSchema) ∈ PaymentServer.responses op.route)
      (valid : paymentSchema.valid body.inUtf16 = true) :
      Answers s op correlationId ⟨statusCode, some correlationId, body.inUtf16⟩
  | error {statusCode code message} (status : PaymentServer.ErrorStatus op.route statusCode) :
      Answers s op correlationId
        ⟨statusCode, some correlationId, errorBody (.str code) message .null (some correlationId)⟩

section Answers

variable {cfg : Config} {joi joi' : JoiRuntime} {auth auth' : Auth} {client : Gateway.PaymentServiceClient}
  {accepts : ℚ → Bool} {transport : Nat → Gateway.Transport} {route : PaymentRoute} {uuid : Uuid} {req : Request}
  {x : Exchange} {c : Gateway.Call} {correlationId : String} {s : State} {op : PaymentServer.Operation}

/-- An exchange of a request with a correlation id. -/
structure Bears (x : Exchange) (correlationId : String) : Prop where
  header : x.correlationId = some correlationId
  valid : getValidCorrelationId (x.req.header correlationIdHeader) = some correlationId

theorem Bears.reject (h : Bears x correlationId) {statusCode : Int} {code details : Json JsString}
    {message : JsString} : x.reject statusCode code message details =
      ⟨statusCode, some correlationId, errorBody code message details (some correlationId)⟩ := by
  rw [Exchange.reject, Exchange.respond, h.header, h.valid]

theorem bears_of_dispatch (h : dispatch joi auth route uuid req = .ok (x, some c)) :
    Bears x (GatewayServer.correlationId c) := by
  obtain ⟨c', hc', -, hspells, hid, hx, hx'⟩ := spells_of_dispatch h
  obtain rfl := Option.some.inj hc'
  have hvalid : CorrelationIdHeader (GatewayServer.correlationId c) := by
    cases c with
    | create command =>
      cases hspells with | create _ _ _ haccepted =>
      exact haccepted.correlationId
    | getById query =>
      cases hspells with | getById hvalid =>
      rwa [hid]
    | capture command =>
      cases hspells with | capture _ _ _ haccepted =>
      exact haccepted.correlationId
  exact ⟨hx, getValidCorrelationId_eq.2 ⟨hx', hvalid⟩⟩

theorem failed_of_dispatch (h : dispatch joi auth route uuid req = .ok (x, some c)) (error : Gateway.ApiError) :
    errorMiddleware x error = failed (correlationIdOf uuid req) error := by
  obtain ⟨c', hc', -, -, hid, -⟩ := spells_of_dispatch h
  obtain rfl := Option.some.inj hc'
  rw [← hid]
  exact (bears_of_dispatch h).reject

theorem answers_ok (hx : Bears x correlationId) {statusCode : Int} {body : Json String} (hsource : Source s op body)
    (h : (statusCode, paymentSchema) ∈ PaymentServer.responses op.route)
    (hvalid : paymentSchema.valid body.inUtf16 = true) :
    Answers s op correlationId (x.respond statusCode body.inUtf16) := by
  rw [Exchange.respond, hx.header]
  exact .ok hsource h hvalid

theorem answers_error (hx : Bears x correlationId) {e : Err}
    (h : PaymentServer.ErrorStatus op.route (PaymentServer.errorMiddleware x e).statusCode) :
    Answers s op correlationId (PaymentServer.errorMiddleware x e) := by
  cases e with
  | api error =>
    change Answers s op correlationId (x.reject ..)
    rw [hx.reject]
    exact .error h
  | other message =>
    change Answers s op correlationId (x.reject ..)
    rw [hx.reject]
    exact .error h

/-- Where a request of a call arrives, it is dispatched as the call's operation. -/
theorem dispatched_of_arrives (hdispatch : dispatch joi auth route uuid req = .ok (x, some c))
    (hauth : PaymentServer.internalAuthMiddleware (some client.internalToken) = .ok auth') {f : Gateway.FetchRequest}
    (hf : f ∈ (c.run client accepts transport).requests) {route' : PaymentRoute} {req' : Request}
    (h : Arrives client.baseUrl f route' req') (uuid' : Uuid) : ∃ x', Bears x' (GatewayServer.correlationId c) ∧
      PaymentServer.dispatch joi' auth' route' uuid' req' = .ok (x', some (operation c)) := by
  obtain ⟨x', hdispatch', hsame, hsame'⟩ := dispatch_of_arrives joi' uuid' hdispatch hauth hf h
  have hx := bears_of_dispatch hdispatch
  exact ⟨x', ⟨hsame.trans hx.header, by rw [hsame', hx.valid]⟩, hdispatch'⟩

/-- What the service answers to a request of a call, wherever it arrives. -/
theorem answers_of_served (hdispatch : dispatch joi auth route uuid req = .ok (x, some c))
    (hauth : PaymentServer.internalAuthMiddleware (some client.internalToken) = .ok auth') {f : Gateway.FetchRequest}
    (hf : f ∈ (c.run client accepts transport).requests)
    (hreach : (service cfg).Reach (fun s a => orderly s a ∧ timely s a) s) {r : Response}
    (hserved : ServedIn cfg joi' auth' client.baseUrl s f r) :
    Answers s (operation c) (GatewayServer.correlationId c) r := by
  obtain ⟨route', uuid', req', harrives, hresponds⟩ := hserved
  obtain ⟨x', hx', hdispatch'⟩ :=
    @dispatched_of_arrives joi joi' _ _ _ _ _ _ _ _ _ _ hdispatch hauth _ hf _ _ harrives uuid'
  cases hresponds with
  | refused hrefused =>
    rw [hdispatch'] at hrefused
    cases hrefused
  | @settled _ _ call outcome hsettles hcall hsettled =>
    rw [hdispatch'] at hsettles
    obtain ⟨rfl, hop⟩ := Prod.mk.inj (Except.ok.inj hsettles)
    rw [Option.some.inj hop]
    have hkind := settled_of_reach (hreach.mono fun _ _ hok => hok.1) hcall hsettled
    cases hkind with
    | answered =>
      refine answers_ok hx' (.returned hcall (returned_of_settled hsettled)) ?_ (answer_valid hreach hcall hsettled)
      cases call.command <;> simp [PaymentServer.Operation.route, PaymentServer.routeOf,
        PaymentServer.responses, Command.kind, Kind.statusCode]
    | rejected he => exact answers_error hx' (PaymentServer.errorStatus_of_rejects he)
  | @read x'' query hread =>
    rw [hdispatch'] at hread
    obtain ⟨rfl, hop⟩ := Prod.mk.inj (Except.ok.inj hread)
    rw [Option.some.inj hop]
    cases hgot : getById s.db query with
    | ok body =>
      obtain ⟨id, p, -, hp, rfl⟩ := row_of_getById hgot
      have hvalid := (documented_of_reach hreach p (Table.mem_of_get? hp)).valid
      refine answers_ok hx' (.read hgot) ?_ hvalid
      simp [PaymentServer.Operation.route, PaymentServer.responses]
    | error e => exact answers_error hx' (PaymentServer.errorStatus_of_read hgot)
  | @readFailed _ query m hread =>
    rw [hdispatch'] at hread
    obtain ⟨rfl, -⟩ := Prod.mk.inj (Except.ok.inj hread)
    have hstatus : (PaymentServer.errorMiddleware x' (.other m)).statusCode = 500 := rfl
    exact answers_error hx' (.inr hstatus)

/-! ## The responses of the gateway -/

theorem success_cases {statusCode : Int} (h : (statusCode, paymentSchema) ∈ PaymentServer.responses route) :
    route = .create ∧ statusCode = 201 ∨ route ≠ .create ∧ statusCode = 200 := by
  cases route <;> simpa [PaymentServer.responses, paymentSchema, errorSchema] using h

theorem isOk_success {statusCode : Int} (h : (statusCode, paymentSchema) ∈ PaymentServer.responses route) :
    Gateway.isOk statusCode.toNat = true := by
  rcases success_cases h with ⟨-, rfl⟩ | ⟨-, rfl⟩ <;> rfl

theorem isOk_error {statusCode : Int} (h : PaymentServer.ErrorStatus route statusCode) :
    Gateway.isOk statusCode.toNat = false ∧ (statusCode.toNat : Int) = statusCode := by
  have hcases : statusCode ∈ ([400, 401, 404, 409, 500] : List Int) := by
    rcases h with h | rfl
    · cases route <;> simp [PaymentServer.responses, paymentSchema, errorSchema] at h ⊢ <;> omega
    · simp
  simp only [List.mem_cons, List.not_mem_nil, or_false] at hcases
  rcases hcases with rfl | rfl | rfl | rfl | rfl <;> exact ⟨rfl, rfl⟩

theorem respond_data (hx : Bears x correlationId) {statusCode : Int} {data : Json JsString} :
    x.respond statusCode (dataBody x data) = ⟨statusCode, some correlationId,
      .obj [(utf16 "data", data), (utf16 "correlationId", .str (utf16 correlationId))]⟩ := by
  rw [Exchange.respond, dataBody, hx.header, (getValidCorrelationId_eq.1 hx.valid).1]
  rfl

/-- The response to a call whose last attempt has met a response of the service. -/
theorem respond_answered (hx : Bears x (GatewayServer.correlationId c)) {r : Response}
    (hr : Answers s (operation c) (GatewayServer.correlationId c) r) {body : Gateway.Body}
    (hbody : ∀ v, body = .json v → v = r.body) :
    respond x c ((Gateway.Transport.response r.statusCode.toNat body).result c.answer) = relay r body := by
  cases hr with
  | @ok statusCode payment hsource hdocumented hvalid =>
    have hcases := success_cases hdocumented
    have hok := isOk_success hdocumented
    have hresult : (Gateway.Transport.response statusCode.toNat body).result c.answer =
        .ok (c.answer ⟨statusCode.toNat, body.value⟩) := by
      simp only [Gateway.Transport.result, Gateway.Transport.answer, hok, if_true]
      rfl
    unfold relay
    rw [if_pos hok, hresult]
    -- `getById` responds with the status code of its own
    cases c with
    | create command =>
      obtain rfl : statusCode = 201 := (hcases.resolve_right fun h => h.1 rfl).2
      exact respond_data hx
    | getById query =>
      obtain rfl : statusCode = 200 := (hcases.resolve_left fun h => (by cases h.1)).2
      exact respond_data hx
    | capture command =>
      obtain rfl : statusCode = 200 := (hcases.resolve_left fun h => (by cases h.1)).2
      exact respond_data hx
  | @error statusCode code message hstatus =>
    obtain ⟨hno, hnat⟩ := isOk_error hstatus
    have hresult : ∀ e, Gateway.responseError statusCode.toNat body.value = .api e →
        respond x c ((Gateway.Transport.response statusCode.toNat body).result c.answer) = errorMiddleware x e := by
      intro e he
      simp only [Gateway.Transport.result, Gateway.Transport.answer, hno, Bool.false_eq_true, if_false, he]
      cases c <;> rfl
    unfold relay
    rw [if_neg (by rw [hno]; exact Bool.false_ne_true)]
    cases body with
    | json v =>
      obtain rfl := hbody v rfl
      rw [hresult _ rfl, errorMiddleware, hx.reject, hnat]
      rfl
    | notJson | cutOff =>
      rw [hresult _ rfl, errorMiddleware, hx.reject, hnat]
      rfl

/-! ## Documented responses -/

theorem documented_of_refused {r : Response} (h : dispatch joi auth route uuid req = .error r) :
    Documented route r := by
  have hthrows : Throws (fun r => r.IsError ∧ (r.statusCode = 401 ∨ r.statusCode = 400))
      (dispatch joi auth route uuid req) :=
    PaymentServer.receive_throws.bind fun _ => .ok
  obtain ⟨herror, hstatus⟩ := hthrows r h
  refine documented_iff.2 (.inl ?_)
  rcases hstatus with hstatus | hstatus
  · exact ⟨(401, errorSchema), by cases route <;> simp [responses], hstatus, herror.valid⟩
  · exact ⟨(400, errorSchema), by cases route <;> simp [responses], hstatus, herror.valid⟩

theorem documented_of_transport {error : Gateway.ApiError}
    (h : error = Gateway.timedOut ∨ error = Gateway.unavailable) :
    Documented route (failed correlationId error) := by
  rcases h with rfl | rfl <;>
    exact documented_iff.2 (.inr ⟨by simp [failed, Gateway.timedOut, Gateway.unavailable], rfl⟩)

theorem documented_of_error {statusCode : Int} (h : PaymentServer.ErrorStatus route statusCode)
    {code message : JsString} :
    Documented route ⟨statusCode, some correlationId, errorBody (.str code) message .null (some correlationId)⟩ := by
  rcases h with h | rfl
  · refine documented_iff.2 (.inl ⟨(statusCode, errorSchema), ?_, rfl, rfl⟩)
    cases route <;> simp [PaymentServer.responses, responses, paymentSchema, paymentResponseSchema,
      errorSchema] at h ⊢ <;> omega
  · exact documented_iff.2 (.inr ⟨by simp, rfl⟩)

/-- A payment as the gateway responds with it. -/
theorem data_valid {data : Json JsString} (h : paymentSchema.valid data = true) : paymentResponseSchema.valid
    (.obj [(utf16 "data", data), (utf16 "correlationId", .str (utf16 correlationId))]) = true := by
  have hnames : utf16 "data" ≠ utf16 "correlationId" := by decide
  simp [paymentResponseSchema, SchemaObject.valid, SchemaObject.validMembers, Json.lookup, hnames, h]

/-- What is passed on is documented by the gateway if it is documented by the service, and its body has not
been lost. -/
theorem documented_of_relay {r : Response} (hr : Answers s op correlationId r) {body : Gateway.Body}
    (hbody : ∀ v, body = .json v → v = r.body) (hread : Gateway.isOk r.statusCode.toNat = true → ∃ v, body = .json v) :
    Documented op.route (relay r body) := by
  cases hr with
  | @ok statusCode payment hsource hdocumented hvalid =>
    have hok := isOk_success hdocumented
    obtain ⟨v, rfl⟩ := hread hok
    obtain rfl := hbody v rfl
    unfold relay
    rw [if_pos hok]
    refine documented_iff.2 (.inl ⟨(statusCode, paymentResponseSchema), ?_, rfl, data_valid hvalid⟩)
    generalize op.route = route at hdocumented
    cases route <;> simpa [PaymentServer.responses, responses, paymentSchema, paymentResponseSchema, errorSchema]
      using hdocumented
  | @error statusCode code message hstatus =>
    have hno := (isOk_error hstatus).1
    unfold relay
    rw [if_neg (by rw [hno]; exact Bool.false_ne_true)]
    cases body <;> exact documented_of_error hstatus

end Answers

end GatewayServer

open GatewayServer

/-- What the gateway answers when its requests are served by the payment service. It refuses a request
without asking the service, as it does every one without its key; or it passes on the service's response to
the last attempt, its errors as they are; or it tells that the last attempt has met no response. The
response is one that the gateway's route documents, or tells of an internal error or of the transport,
unless the body of an answer of the service was lost on the way. -/
theorem relayed {cfg : Config} {joi joi' : JoiRuntime} {auth auth' : Auth} {client : Gateway.PaymentServiceClient}
    {accepts : ℚ → Bool} {transport : Nat → Gateway.Transport} {route : PaymentRoute} {uuid : Uuid} {req : Request}
    {requests : List Gateway.FetchRequest} {response : Response}
    (hauth : PaymentServer.internalAuthMiddleware (some client.internalToken) = .ok auth')
    (hhandle : handle joi auth client accepts transport route uuid req = some (requests, response))
    (hmeets : ∀ f ∈ requests, ∀ n, 0 < n → n ≤ requests.length → Meets cfg joi' auth' client.baseUrl f (transport n)) :
    (requests = [] ∧ dispatch joi auth route uuid req = .error response ∨
      Relays cfg joi' auth' client.baseUrl transport requests (correlationIdOf uuid req) response) ∧
    (∀ publicApiKey, apiKeyAuthMiddleware publicApiKey = .ok auth → req.header "x-api-key" ≠ publicApiKey →
      requests = [] ∧ dispatch joi auth route uuid req = .error response) ∧
    (Documented route response ∨ requests ≠ [] ∧ ∃ status body, transport requests.length = .response status body ∧
      Gateway.isOk status = true ∧ ∀ v, body ≠ .json v) := by
  -- what is dispatched has the key
  have hkeyless : ∀ {x c} {P : Prop}, dispatch joi auth route uuid req = .ok (x, some c) →
      ∀ publicApiKey, apiKeyAuthMiddleware publicApiKey = .ok auth → req.header "x-api-key" ≠ publicApiKey → P := by
    intro x c P hdispatch publicApiKey hkey hne
    obtain ⟨-, -, hsecret, -⟩ := spells_of_dispatch hdispatch
    exact absurd (header_of_apiKeyAuthMiddleware hkey hsecret) hne
  cases handled_of_handle hhandle with
  | refused hrefused =>
    exact ⟨.inl ⟨rfl, hrefused⟩, fun _ _ _ => ⟨rfl, hrefused⟩, .inl (documented_of_refused hrefused)⟩
  | unsent hdispatch =>
    rw [failed_of_dispatch hdispatch]
    exact ⟨.inr (.unsent rfl), hkeyless hdispatch, .inl (documented_of_transport (.inr rfl))⟩
  | @sent x c hdispatch hne =>
    obtain ⟨f, hf⟩ := List.exists_mem_of_ne_nil _ hne
    have hmet := hmeets f hf _ (List.length_pos_of_mem hf) (Nat.le_refl _)
    generalize htransport : transport (c.run client accepts transport).requests.length = t at hmet
    cases hmet with
    | @rejected e =>
      have hresponse : respond x c ((Gateway.Transport.rejected e).result c.answer) =
          errorMiddleware x (Gateway.transportError e) := by
        cases c <;> rfl
      rw [hresponse, failed_of_dispatch hdispatch]
      refine ⟨.inr (.rejected htransport), hkeyless hdispatch, .inl (documented_of_transport ?_)⟩
      unfold Gateway.transportError
      split
      · exact .inl rfl
      · exact .inr rfl
    | @responded r body hserved hsent =>
      have hbody : ∀ v, body = .json v → v = r.body := fun v hv => Json.stringify_inj (hsent v hv)
      obtain ⟨s, hreach, hservedIn⟩ := hserved
      have hanswers := answers_of_served hdispatch hauth hf hreach hservedIn
      obtain ⟨c', hc', -, hspells, -⟩ := spells_of_dispatch hdispatch
      obtain rfl := Option.some.inj hc'
      obtain rfl := PaymentServer.route_of_spells hspells
      rw [respond_answered (bears_of_dispatch hdispatch) hanswers hbody]
      refine ⟨.inr (.responded hf ⟨s, hreach, hservedIn⟩ htransport), hkeyless hdispatch, ?_⟩
      by_cases hread : Gateway.isOk r.statusCode.toNat = true → ∃ v, body = .json v
      · exact .inl (documented_of_relay hanswers hbody hread)
      · rw [Classical.not_imp, not_exists] at hread
        exact .inr ⟨hne, _, _, rfl, hread.1, hread.2⟩

namespace GatewayServer

section Dispatched

variable {joi : JoiRuntime} {auth : Auth} {uuid : Uuid} {req : Request} {route : PaymentRoute}

/-- What a request with the key spells is dispatched. -/
theorem dispatch_of_spells (hsecret : req.header auth.header.text = some auth.secret) {op : PaymentServer.Operation}
    (h : PaymentServer.Spells joi uuid req route op) :
    ∃ x c, dispatch joi auth route uuid req = .ok (x, some c) ∧ operation c = op := by
  obtain ⟨x, hx⟩ := PaymentServer.dispatch_of_spells hsecret h
  obtain ⟨hreceived, hop⟩ := PaymentServer.dispatch_ok.1 hx
  rw [← operation_call] at hop
  obtain ⟨c, hc, heq⟩ := Option.map_eq_some_iff.1 hop.symm
  exact ⟨x, c, dispatch_ok.2 ⟨hreceived, hc.symm⟩, heq⟩

/-- A call makes the same request whatever the attempts meet. -/
theorem request_unique {client : Gateway.PaymentServiceClient} {accepts : ℚ → Bool}
    {transport transport' : Nat → Gateway.Transport} {c : Gateway.Call} {f f' : Gateway.FetchRequest}
    (hf : f ∈ (c.run client accepts transport).requests)
    (hf' : f' ∈ (c.run client accepts transport').requests) : f = f' := by
  cases c with
  | create command => exact (mem_requestFrom hf).trans (mem_requestFrom hf').symm
  | getById query => exact (mem_requestFrom hf).trans (mem_requestFrom hf').symm
  | capture command => exact (mem_requestFrom hf).trans (mem_requestFrom hf').symm

end Dispatched

end GatewayServer

namespace Sample

/-- The request that the gateway makes to create the payment of the run has been served. -/
theorem created_served : ∃ x c x' body, dispatch joi apiAuth .create (.ofNat 1) createRequest = .ok (x, some c) ∧
    operation c = .command create ∧
    (∀ transport, ∀ f ∈ (c.run Gateway.Sample.client Gateway.Sample.accepts transport).requests,
      f = createFetch) ∧
    ServedIn cfg joi internalAuth Gateway.Sample.client.baseUrl created createFetch
      (PaymentServer.respondCommand x' (.ok (201, body))) := by
  obtain ⟨call, body, hcall, hcommand, hawait⟩ := hasReturned_call created_run.1
  obtain ⟨hsecret, hspells⟩ := PaymentServer.spells_requestOf joi apiAuth (.ofNat 1) create_accepted
  obtain ⟨x, c, hdispatch, hop⟩ := GatewayServer.dispatch_of_spells hsecret hspells
  have hdispatch : dispatch joi apiAuth .create (.ofNat 1) createRequest = .ok (x, some c) := hdispatch
  -- the request that is made is the one that arrives
  have hmade := createFetch_made
  rw [handle, hdispatch] at hmade
  obtain ⟨⟨url, method, headers, fetched⟩, hf, heq⟩ := List.any_eq_true.1 hmade
  simp only [Bool.and_eq_true, decide_eq_true_iff] at heq
  obtain ⟨⟨⟨rfl, rfl⟩, rfl⟩, rfl⟩ := heq
  obtain ⟨x', hx', -⟩ := dispatch_of_arrives joi (.ofNat 2) hdispatch (rfl : PaymentServer.internalAuthMiddleware
    (some Gateway.Sample.client.internalToken) = .ok internalAuth) hf createFetch_arrives
  rw [hop, ← hcommand] at hx'
  exact ⟨x, c, x', body, hdispatch, hop, fun transport f hf' => GatewayServer.request_unique hf' hf,
    _, _, _, createFetch_arrives, .settled hx' hcall (by rw [hawait]; rfl)⟩

end Sample

/-- The payment that was created is passed on. -/
theorem relayed_created :
    ∃ transport requests response, handle Sample.joi Sample.apiAuth Gateway.Sample.client Gateway.Sample.accepts
    transport .create (.ofNat 1) Sample.createRequest = some (requests, response) ∧ Documented .create response := by
  obtain ⟨x, c, x', body, hdispatch, -, hmade, hserved⟩ := Sample.created_served
  have hhandle : ∀ transport,
      handle Sample.joi Sample.apiAuth Gateway.Sample.client Gateway.Sample.accepts transport .create (.ofNat 1)
      Sample.createRequest = some ((c.run Gateway.Sample.client Gateway.Sample.accepts transport).requests,
        respond x c (c.run Gateway.Sample.client Gateway.Sample.accepts transport).result) := by
    intro transport
    rw [handle, hdispatch]
    rfl
  obtain ⟨-, -, hdocumented⟩ := relayed rfl (hhandle fun _ => .response 201 (.json body.inUtf16)) fun f hf _ _ _ => by
    rw [hmade _ f hf]
    exact .responded ⟨_, Sample.created_timely, hserved⟩ fun v hv => by cases hv; rfl
  rcases hdocumented with hdocumented | ⟨-, status, received, hlast, -, hlost⟩
  · exact ⟨_, _, _, hhandle _, hdocumented⟩
  · cases hlast
    exact absurd rfl (hlost _)

end PaymentOrchestration
