/-
The routes of the gateway, and what of a request reaches the payment service. `forwarded` says that the
payment service's handlers refuse nothing that the gateway has let through: it is dispatched as the same
operation, under the same correlation id.
-/
import PaymentOrchestration.Gateway
import PaymentOrchestration.PaymentServer

namespace PaymentOrchestration

open Lib Lib.JsString Http

namespace GatewayServer

/-- `apiKeyAuthMiddleware`, which asks `ExternalAuthService` and that `ApiKeyAuthProvider`. Nothing reads
the client that they return; the provider is not made without a key. -/
def apiKeyAuthMiddleware (publicApiKey : Option String) : Except String Auth :=
  match publicApiKey with
  | none => .error "PUBLIC_API_KEY is required"
  | some key =>
    if h : key = "" then .error "PUBLIC_API_KEY is required"
    else .ok ⟨.xApiKey, key, "Invalid or missing API key", h⟩

/-- A request that carries the secret of the handler carries the key in its header `x-api-key`. -/
theorem header_of_apiKeyAuthMiddleware {publicApiKey : Option String} {auth : Auth} {req : Request}
    (h : apiKeyAuthMiddleware publicApiKey = .ok auth) (hsecret : req.header auth.header.text = some auth.secret) :
    req.header "x-api-key" = publicApiKey := by
  unfold apiKeyAuthMiddleware at h
  split at h
  · cases h
  · split at h
    · cases h
    · cases h
      exact hsecret

/-! ## PaymentsController -/

namespace PaymentsController

/-- The command that `create` calls the client with, through `PaymentsGatewayService`. -/
def create (req : Request) : Option Gateway.CreatePaymentClientCommand := do
  let merchantId ← req.textMember "merchantId"
  let amountMinor ← req.numberMember "amountMinor"
  let currency ← req.textMember "currency"
  return {
    correlationId := req.headerText correlationIdHeader
    idempotencyKey := req.headerText "idempotency-key"
    merchantId := merchantId
    amountMinor := amountMinor
    currency := currency }

def getById (req : Request) : Option Gateway.GetPaymentClientQuery := do
  let paymentId ← req.param "paymentId"
  return {
    correlationId := req.headerText correlationIdHeader
    paymentId := paymentId }

def capture (req : Request) : Option Gateway.CapturePaymentClientCommand := do
  let paymentId ← req.param "paymentId"
  return {
    correlationId := req.headerText correlationIdHeader
    idempotencyKey := req.headerText "idempotency-key"
    paymentId := paymentId }

/-- The call that the method of a route makes. -/
def call (req : Request) : PaymentRoute → Option Gateway.Call
  | .create => (create req).map .create
  | .getById => (getById req).map .getById
  | .capture => (capture req).map .capture

end PaymentsController

/-- `errorMiddleware`, with `details ?? null`. -/
def errorMiddleware (x : Exchange) (error : Gateway.ApiError) : Response :=
  x.reject error.statusCode error.code error.message (Gateway.orDefault error.details .null)

/-- The body of a response that is no error. A missing header leaves the member out. -/
def dataBody (x : Exchange) (data : Json JsString) : Json JsString :=
  .obj ((utf16 "data", data) ::
    ((x.req.header correlationIdHeader).map fun c => (utf16 "correlationId", .str (utf16 c))).toList)

/-- What is responded when a call of the client has settled. -/
def respond (x : Exchange) : (c : Gateway.Call) → Except Gateway.ApiError c.Answer → Response
  | _, .error error => errorMiddleware x error
  | .getById _, .ok (body : Json JsString) => x.respond 200 (dataBody x body)
  | .create _, .ok (result : Gateway.PaymentServiceResponse)
  | .capture _, .ok (result : Gateway.PaymentServiceResponse) =>
    x.respond result.statusCode (dataBody x result.body)

/-- What becomes of a request: one of the handlers answers it, or its controller calls the client. -/
def dispatch (joi : JoiRuntime) (auth : Auth) (route : PaymentRoute) (uuid : Uuid) (req : Request) :
    Except Response (Exchange × Option Gateway.Call) := do
  let x ← receive joi auth (route.validation auth.header) uuid req
  return (x, PaymentsController.call x.req route)

/-- The requests that are made of the payment service, and the response, if the call is of the declared types. -/
def handle (joi : JoiRuntime) (auth : Auth) (client : Gateway.PaymentServiceClient) (accepts : ℚ → Bool)
    (transport : Nat → Gateway.Transport) (route : PaymentRoute) (uuid : Uuid) (req : Request) :
    Option (List Gateway.FetchRequest × Response) :=
  match dispatch joi auth route uuid req with
  | .error response => some ([], response)
  | .ok (x, call) => call.map fun c =>
    let run := c.run client accepts transport
    (run.requests, respond x c run.result)

/-! ## What a call asks for -/

/-- The operation of the payment service that a call of the client is for. -/
def operation : Gateway.Call → PaymentServer.Operation
  | .create command => .command (.create ⟨command.correlationId, command.idempotencyKey, command.merchantId,
      command.amountMinor, command.currency⟩)
  | .getById query => .getById ⟨query.paymentId⟩
  | .capture command => .command (.capture ⟨command.correlationId, command.idempotencyKey, command.paymentId⟩)

def correlationId : Gateway.Call → String
  | .create command => command.correlationId
  | .getById query => query.correlationId
  | .capture command => command.correlationId

section Dispatch

variable {joi : JoiRuntime} {auth : Auth} {uuid : Uuid} {req : Request} {route : PaymentRoute} {x : Exchange}
  {o : Option Gateway.Call}

/-- The controllers read what those of the payment service read. -/
theorem operation_call (req : Request) (route : PaymentRoute) :
    (PaymentsController.call req route).map operation = PaymentServer.PaymentsController.operation req route := by
  cases route with
  | create =>
    simp only [PaymentsController.call, PaymentsController.create, PaymentServer.PaymentsController.operation,
      PaymentServer.PaymentsController.create]
    cases req.textMember "merchantId" <;> cases req.numberMember "amountMinor" <;>
      cases req.textMember "currency" <;> rfl
  | getById =>
    simp only [PaymentsController.call, PaymentsController.getById, PaymentServer.PaymentsController.operation,
      PaymentServer.PaymentsController.getById]
    cases req.param "paymentId" <;> rfl
  | capture =>
    simp only [PaymentsController.call, PaymentsController.capture, PaymentServer.PaymentsController.operation,
      PaymentServer.PaymentsController.capture]
    cases req.param "paymentId" <;> rfl

theorem correlationId_call {c : Gateway.Call} (h : PaymentsController.call req route = some c) :
    correlationId c = req.headerText correlationIdHeader := by
  cases route with
  | create =>
    obtain ⟨command, hcommand, rfl⟩ := Option.map_eq_some_iff.1 h
    simp only [PaymentsController.create, Option.bind_eq_bind, Option.bind_eq_some_iff] at hcommand
    obtain ⟨m, -, a, -, c, -, hcommand⟩ := hcommand
    cases hcommand
    rfl
  | getById =>
    obtain ⟨query, hquery, rfl⟩ := Option.map_eq_some_iff.1 h
    simp only [PaymentsController.getById, Option.bind_eq_bind, Option.bind_eq_some_iff] at hquery
    obtain ⟨id, -, hquery⟩ := hquery
    cases hquery
    rfl
  | capture =>
    obtain ⟨command, hcommand, rfl⟩ := Option.map_eq_some_iff.1 h
    simp only [PaymentsController.capture, Option.bind_eq_bind, Option.bind_eq_some_iff] at hcommand
    obtain ⟨id, -, hcommand⟩ := hcommand
    cases hcommand
    rfl

theorem dispatch_ok : dispatch joi auth route uuid req = .ok (x, o) ↔
    receive joi auth (route.validation auth.header) uuid req = .ok x ∧ o = PaymentsController.call x.req route := by
  constructor
  · intro h
    obtain ⟨x', hx', h⟩ := ok_of_bind h
    cases h
    exact ⟨hx', rfl⟩
  · rintro ⟨hx, rfl⟩
    rw [dispatch, hx]
    rfl

/-- What is dispatched is spelled by the request, and the exchange bears the correlation id of the call. -/
theorem spells_of_dispatch (h : dispatch joi auth route uuid req = .ok (x, o)) :
    ∃ c, o = some c ∧ req.header auth.header.text = some auth.secret ∧
    PaymentServer.Spells joi uuid req route (operation c) ∧
      correlationId c = correlationIdOf uuid req ∧ x.correlationId = some (correlationId c) ∧
      x.req.header correlationIdHeader = some (correlationId c) := by
  obtain ⟨hx, rfl⟩ := dispatch_ok.1 h
  have hsame := PaymentServer.dispatch_ok.2 ⟨hx, operation_call x.req route⟩
  obtain ⟨hsecret, -, op, hop, hspells⟩ := PaymentServer.spells_of_dispatch hsame
  obtain ⟨c, hc, rfl⟩ := Option.map_eq_some_iff.1 hop
  obtain ⟨hheader, htext⟩ := received_correlationId hx
  have hid : correlationId c = correlationIdOf uuid req := by
    rw [correlationId_call hc, Request.headerText, htext]
    rfl
  exact ⟨c, hc, hsecret, hspells, hid, hid ▸ hheader, hid ▸ htext⟩

end Dispatch

end GatewayServer

/-! ## What arrives at the payment service -/

def Http.PaymentRoute.method : PaymentRoute → Gateway.Method
  | create | capture => .post
  | getById => .get

/-- The path of a request with these parameters. -/
def Http.PaymentRoute.path (params : String → Option String) : PaymentRoute → Option String
  | create => some "/internal/payments"
  | getById => (params "paymentId").map fun paymentId => "/internal/payments/" ++ paymentId
  | capture => (params "paymentId").map fun paymentId => "/internal/payments/" ++ paymentId ++ "/capture"

/-- A request that `fetch` has sent is a request of the route, as Express hands it over: the path is the
route's, with the parameters decoded, the headers sent are among its headers, and a body that was sent has
been parsed. -/
structure Arrives (baseUrl : String) (f : Gateway.FetchRequest) (route : PaymentRoute) (req : Request) : Prop where
  method : f.method = route.method
  url : (route.path req.param).map (baseUrl ++ ·) = some f.url
  headers : ∀ h ∈ f.headers, req.header h.1 = some h.2
  body : ∀ t, f.body = some t → Json.stringify req.body = t

namespace GatewayServer

section Requests

variable {client : Gateway.PaymentServiceClient} {accepts : ℚ → Bool} {transport : Nat → Gateway.Transport}
  {path : String} {options : Gateway.RequestOptions}

/-- Every attempt makes the same request. -/
theorem mem_requestFrom {f : Gateway.FetchRequest} : ∀ {left attempt : Nat},
    f ∈ (client.requestFrom accepts transport path options left attempt).requests → f = client.fetchRequest path options
  | 0, _, h => by cases h
  | left + 1, attempt, h => by
    have hsend : ∀ g ∈ (client.send accepts path options (transport attempt)).1,
        g = client.fetchRequest path options := by
      intro g hg
      rw [Gateway.PaymentServiceClient.send] at hg
      split at hg
      · exact List.mem_singleton.1 hg
      · cases hg
    rw [Gateway.PaymentServiceClient.requestFrom] at h
    split at h
    · rename_i requests response heq
      rw [heq] at hsend
      exact hsend f h
    · rename_i requests error heq
      rw [heq] at hsend
      split at h
      · rcases List.mem_append.1 h with h | h
        · exact hsend f h
        · exact mem_requestFrom h
      · exact hsend f h

end Requests

/-! ## Forwarding -/

theorem append_left_cancel {s t u : String} (h : s ++ t = s ++ u) : t = u := by
  have h := congrArg String.toList h
  rw [String.toList_append, String.toList_append] at h
  exact String.toList_inj.1 (List.append_cancel_left h)

theorem append_right_cancel {s t u : String} (h : s ++ u = t ++ u) : s = t := by
  have h := congrArg String.toList h
  rw [String.toList_append, String.toList_append] at h
  exact String.toList_inj.1 (List.append_cancel_right h)

/-- No path of a payment is the path of `create`. -/
theorem path_ne (paymentId suffix : String) : "/internal/payments/" ++ paymentId ++ suffix ≠ "/internal/payments" := by
  intro h
  have h := congrArg (fun s : String => s.toList.length) h
  simp only [String.toList_append, List.length_append] at h
  have hprefix : "/internal/payments/".toList.length = "/internal/payments".toList.length + 1 := by decide
  omega

section Forwarding

variable {client : Gateway.PaymentServiceClient} {options : Gateway.RequestOptions} {baseUrl path : String}
  {route : PaymentRoute} {req : Request}

/-- A path that a request has arrived at. -/
theorem path_of_arrives {f : Gateway.FetchRequest} (h : Arrives baseUrl f route req) (hurl : f.url = baseUrl ++ path) :
    route.path req.param = some path := by
  obtain ⟨p, hp, heq⟩ := Option.map_eq_some_iff.1 h.url
  rw [hp, append_left_cancel (heq.trans hurl)]

/-- The headers that the client sends. -/
theorem headers_of_arrives (h : Arrives baseUrl (client.fetchRequest path options) route req) :
    req.header "x-internal-token" = some client.internalToken ∧
    req.header correlationIdHeader = some options.correlationId ∧
      ∀ key, options.idempotencyKey = some key → key ≠ "" → req.header "idempotency-key" = some key := by
  refine ⟨h.headers ("x-internal-token", client.internalToken) ?_,
    h.headers (correlationIdHeader, options.correlationId) ?_,
    fun key hkey hne => h.headers ("idempotency-key", key) ?_⟩
  · simp [Gateway.PaymentServiceClient.fetchRequest, Gateway.PaymentServiceClient.headers]
  · simp [Gateway.PaymentServiceClient.fetchRequest, Gateway.PaymentServiceClient.headers, correlationIdHeader]
  · simp [Gateway.PaymentServiceClient.fetchRequest, Gateway.PaymentServiceClient.headers, hkey, hne]

theorem idempotencyKey_ne {key : String} (h : IdempotencyKeyHeader key) : key ≠ "" := by
  rintro rfl
  exact absurd h.min (by decide)

/-- A request of an accepted call arrives as a request that spells its operation. -/
theorem spells_of_arrives (joi' : JoiRuntime) (uuid' : Uuid) {c : Gateway.Call} {joi : JoiRuntime}
    {uuid : Uuid} {req₀ : Request}
    {route₀ : PaymentRoute} (hspells : PaymentServer.Spells joi uuid req₀ route₀ (operation c))
    (hid : correlationId c = correlationIdOf uuid req₀)
    {accepts : ℚ → Bool} {transport : Nat → Gateway.Transport} {f : Gateway.FetchRequest}
    (hf : f ∈ (c.run client accepts transport).requests) (h : Arrives client.baseUrl f route req) :
    req.header "x-internal-token" = some client.internalToken ∧ correlationIdOf uuid' req = correlationId c ∧
      PaymentServer.Spells joi' uuid' req route (operation c) := by
  cases c with
  | create command =>
    obtain rfl := mem_requestFrom hf
    obtain ⟨htoken, hcorrelation, hkey⟩ := headers_of_arrives h
    have hof : correlationIdOf uuid' req = command.correlationId := by rw [correlationIdOf, hcorrelation]; rfl
    have hpath := path_of_arrives h rfl
    have hbody := Json.stringify_inj (h.body _ rfl)
    cases hspells with | create _ _ _ haccepted =>
    have hkey := hkey _ rfl (idempotencyKey_ne haccepted.idempotencyKey)
    cases route with
    | create =>
      refine ⟨htoken, hof, .create hof.symm hkey ?_ haccepted⟩
      rw [hbody]
      exact PaymentServer.createBody_createObject joi' _ _ _
    | getById => exact absurd h.method (by simp [PaymentRoute.method, Gateway.PaymentServiceClient.fetchRequest])
    | capture =>
      obtain ⟨id, -, heq⟩ := Option.map_eq_some_iff.1 hpath
      exact absurd heq (path_ne id "/capture")
  | getById query =>
    obtain rfl := mem_requestFrom hf
    obtain ⟨htoken, hcorrelation, -⟩ := headers_of_arrives h
    have hof : correlationIdOf uuid' req = query.correlationId := by rw [correlationIdOf, hcorrelation]; rfl
    have hpath := path_of_arrives h rfl
    cases hspells with | getById hvalid _ haccepted =>
    cases route with
    | getById =>
      obtain ⟨id, hparam, heq⟩ := Option.map_eq_some_iff.1 hpath
      obtain rfl := append_left_cancel heq
      refine ⟨htoken, hof, .getById ?_ hparam haccepted⟩
      have hid : query.correlationId = correlationIdOf uuid req₀ := hid
      rw [hof, hid]
      exact hvalid
    | _ => exact absurd h.method (by simp [PaymentRoute.method, Gateway.PaymentServiceClient.fetchRequest])
  | capture command =>
    obtain rfl := mem_requestFrom hf
    obtain ⟨htoken, hcorrelation, hkey⟩ := headers_of_arrives h
    have hof : correlationIdOf uuid' req = command.correlationId := by rw [correlationIdOf, hcorrelation]; rfl
    have hpath := path_of_arrives h rfl
    cases hspells with | capture _ _ _ haccepted =>
    have hkey := hkey _ rfl (idempotencyKey_ne haccepted.idempotencyKey)
    cases route with
    | create => exact absurd (Option.some.inj hpath).symm (path_ne command.paymentId "/capture")
    | getById => exact absurd h.method (by simp [PaymentRoute.method, Gateway.PaymentServiceClient.fetchRequest])
    | capture =>
      obtain ⟨id, hparam, heq⟩ := Option.map_eq_some_iff.1 hpath
      obtain rfl := append_left_cancel (append_right_cancel heq)
      exact ⟨htoken, hof, .capture hof.symm hkey hparam haccepted⟩

/-- The payment service dispatches what has been forwarded to it. -/
theorem dispatch_of_arrives (joi' : JoiRuntime) (uuid' : Uuid) {auth auth' : Auth} {c : Gateway.Call}
    {joi : JoiRuntime} {uuid : Uuid}
    {req₀ : Request} {route₀ : PaymentRoute} {x : Exchange}
    (hdispatch : dispatch joi auth route₀ uuid req₀ = .ok (x, some c))
    (hauth : PaymentServer.internalAuthMiddleware (some client.internalToken) = .ok auth')
    {accepts : ℚ → Bool} {transport : Nat → Gateway.Transport} {f : Gateway.FetchRequest}
    (hf : f ∈ (c.run client accepts transport).requests) (h : Arrives client.baseUrl f route req) :
    ∃ x', PaymentServer.dispatch joi' auth' route uuid' req = .ok (x', some (operation c)) ∧
    x'.correlationId = x.correlationId ∧
      x'.req.header correlationIdHeader = x.req.header correlationIdHeader := by
  obtain ⟨c', hc, -, hspells, hid, hx, hx'⟩ := spells_of_dispatch hdispatch
  obtain rfl := Option.some.inj hc
  obtain ⟨htoken, hof, hspells'⟩ := spells_of_arrives joi' uuid' hspells hid hf h
  have hsecret : req.header auth'.header.text = some auth'.secret := by
    rw [PaymentServer.internalAuthMiddleware, dif_neg client.internalToken_ne] at hauth
    obtain rfl := Except.ok.inj hauth
    exact htoken
  obtain ⟨x', hx''⟩ := PaymentServer.dispatch_of_spells hsecret hspells'
  obtain ⟨hheader, htext⟩ := received_correlationId (PaymentServer.dispatch_ok.1 hx'').1
  exact ⟨x', hx'', by rw [hheader, hx, hof], by rw [htext, hx', hof]⟩

end Forwarding

end GatewayServer

/-- The gateway makes no request for what it does not let through, and lets only requests with its key
through. What it does let through, the payment service's handlers let through too, wherever the request
arrives and at every attempt: it is dispatched as the operation that the gateway has read off its own
request, under the same correlation id. -/
theorem forwarded (joi joi' : JoiRuntime) (auth auth' : Auth) (client : Gateway.PaymentServiceClient)
    (accepts : ℚ → Bool)
    (transport : Nat → Gateway.Transport) (route : PaymentRoute) (uuid uuid' : Uuid) (req : Request)
    (hauth : PaymentServer.internalAuthMiddleware (some client.internalToken) = .ok auth') :
    ∃ requests response, GatewayServer.handle joi auth client accepts transport route uuid req =
      some (requests, response) ∧ ∀ f ∈ requests, ∃ op, req.header auth.header.text = some auth.secret ∧
        (∀ publicApiKey, GatewayServer.apiKeyAuthMiddleware publicApiKey = .ok auth →
          req.header "x-api-key" = publicApiKey) ∧
        PaymentServer.Spells joi uuid req route op ∧ ∀ route' req', Arrives client.baseUrl f route' req' → ∃ x',
          PaymentServer.dispatch joi' auth' route' uuid' req' = .ok (x', some op) ∧
            x'.correlationId = some (correlationIdOf uuid req) := by
  rw [GatewayServer.handle]
  cases hdispatch : GatewayServer.dispatch joi auth route uuid req with
  | error response =>
    refine ⟨[], response, rfl, fun f hf => ?_⟩
    cases hf
  | ok r =>
    obtain ⟨x, o⟩ := r
    obtain ⟨c, rfl, hsecret, hspells, hid, hx, -⟩ := GatewayServer.spells_of_dispatch hdispatch
    refine ⟨_, _, rfl, fun f hf => ⟨_, hsecret, fun _ hkey => GatewayServer.header_of_apiKeyAuthMiddleware hkey hsecret,
      hspells, fun route' req' h => ?_⟩⟩
    obtain ⟨x', hx', hsame, -⟩ := GatewayServer.dispatch_of_arrives joi' uuid' hdispatch hauth hf h
    exact ⟨x', hx', by rw [hsame, hx, hid]⟩

namespace Sample

def apiAuth : Auth := ⟨.xApiKey, "public-key", "Invalid or missing API key", by decide⟩

/-- The request to create the payment of the runs. -/
def createRequest : Request := PaymentServer.requestOf apiAuth create

/-- Every request is answered. -/
def answered (_ : Nat) : Gateway.Transport := .response 201 (.json .null)

/-- The request that the gateway makes for it. -/
def createFetch : Gateway.FetchRequest where
  url := "http://payment-service:8080/internal/payments"
  method := .post
  headers := [("content-type", "application/json"), ("x-internal-token", "internal-token"),
    ("x-correlation-id", "corr-0001"), ("idempotency-key", "create-0001")]
  body := some (Json.stringify createRequest.body)

/-- As it arrives at the payment service. -/
def arrivedRequest : Request := ⟨createFetch.headers, [], .obj [], createRequest.body⟩

theorem createFetch_made :
    (GatewayServer.handle joi apiAuth Gateway.Sample.client Gateway.Sample.accepts answered .create (.ofNat 1)
    createRequest).any (fun r => r.1.any fun f => f.url = createFetch.url && f.method = createFetch.method &&
      f.headers = createFetch.headers && f.body = createFetch.body) = true := by
  decide +kernel

theorem createFetch_arrives : Arrives Gateway.Sample.client.baseUrl createFetch .create arrivedRequest where
  method := rfl
  url := rfl
  headers := by decide +kernel
  body t ht := Option.some.inj ht

end Sample

/-- The request is dispatched at the payment service. -/
theorem forwarded_create :
    ∃ op x', PaymentServer.dispatch Sample.joi Sample.internalAuth .create (.ofNat 2) Sample.arrivedRequest =
    .ok (x', some op) ∧ x'.correlationId = some "corr-0001" := by
  obtain ⟨requests, response, hhandle, hall⟩ := forwarded Sample.joi Sample.joi Sample.apiAuth Sample.internalAuth
    Gateway.Sample.client Gateway.Sample.accepts Sample.answered .create (.ofNat 1) (.ofNat 2) Sample.createRequest rfl
  have hmade := Sample.createFetch_made
  rw [hhandle, Option.any_some, List.any_eq_true] at hmade
  obtain ⟨⟨url, method, headers, body⟩, hf, heq⟩ := hmade
  simp only [Bool.and_eq_true, decide_eq_true_iff] at heq
  obtain ⟨⟨⟨rfl, rfl⟩, rfl⟩, rfl⟩ := heq
  obtain ⟨op, -, -, -, harrives⟩ := hall _ hf
  obtain ⟨x', hx', hid⟩ := harrives .create Sample.arrivedRequest Sample.createFetch_arrives
  exact ⟨op, x', hx', hid⟩

end PaymentOrchestration
