/-
The routes of the payment service. `requests_dispatched` says exactly which requests reach the service, and
as which operation; `reach_served_iff` that the runs which requests bring about are the runs of accepted
commands. A request without the token is told nothing that depends on more than its correlation id.
-/
import PaymentOrchestration.Http
import PaymentOrchestration.Reads

namespace PaymentOrchestration

open Lib Lib.JsString Http

/-! ## Reading a request -/

namespace Http.Request

/-- `String(req.headers[name])` -/
def headerText (req : Request) (name : String) : String := (req.header name).getD "undefined"

/-- `req.body[name]` -/
def member (req : Request) (name : String) : Option (Json JsString) :=
  match req.body with
  | .obj members => Json.lookup (utf16 name) members
  | _ => none

/-- A member of the body that is an ASCII text. -/
def textMember (req : Request) (name : String) : Option String :=
  match req.member name with
  | some (.str s) => s.ascii?
  | _ => none

def numberMember (req : Request) (name : String) : Option Number :=
  match req.member name with
  | some (.num n) => some n
  | _ => none

end Http.Request

namespace PaymentServer

/-- The handler is not made without a token. -/
def internalAuthMiddleware (internalServiceToken : Option String) : Except String Auth :=
  match internalServiceToken with
  | none => .error "INTERNAL_SERVICE_TOKEN is required"
  | some token =>
    if h : token = "" then .error "INTERNAL_SERVICE_TOKEN is required"
    else .ok ⟨.xInternalToken, token, "Invalid or missing internal token", h⟩

/-! ## PaymentsController -/

/-- A call of the service. -/
inductive Operation
  | command (command : Command)
  | getById (query : GetPaymentQuery)

namespace PaymentsController

/-- The command that `create` calls the service with, if the members of the body have the types that it is
declared with. -/
def create (req : Request) : Option CreatePaymentCommand := do
  let merchantId ← req.textMember "merchantId"
  let amountMinor ← req.numberMember "amountMinor"
  let currency ← req.textMember "currency"
  return {
    correlationId := req.headerText correlationIdHeader
    idempotencyKey := req.headerText "idempotency-key"
    merchantId := merchantId
    amountMinor := amountMinor
    currency := currency }

def getById (req : Request) : Option GetPaymentQuery := do
  let paymentId ← req.param "paymentId"
  return { paymentId := paymentId }

def capture (req : Request) : Option CapturePaymentCommand := do
  let paymentId ← req.param "paymentId"
  return {
    correlationId := req.headerText correlationIdHeader
    idempotencyKey := req.headerText "idempotency-key"
    paymentId := paymentId }

/-- The call that the method of a route makes. -/
def operation (req : Request) : PaymentRoute → Option Operation
  | .create => (create req).map fun command => .command (.create command)
  | .getById => (getById req).map .getById
  | .capture => (capture req).map fun command => .command (.capture command)

end PaymentsController

/-- `errorMiddleware`. No error of the service has details. -/
def errorMiddleware (x : Exchange) : Err → Response
  | .api error => x.reject error.statusCode (.str (utf16 error.code)) (utf16 error.message) .null
  | .other _ => x.internalServerError

/-- What is responded when a command has settled. -/
def respondCommand (x : Exchange) : Except Err (Int × Json String) → Response
  | .ok (statusCode, body) => x.respond statusCode body.inUtf16
  | .error error => errorMiddleware x error

/-- What is responded when `getById` has settled. -/
def respondGetById (x : Exchange) : Except Err (Json String) → Response
  | .ok body => x.respond 200 body.inUtf16
  | .error error => errorMiddleware x error

/-- What becomes of a request: one of the handlers answers it, or its controller calls the service. -/
def dispatch (joi : JoiRuntime) (auth : Auth) (route : PaymentRoute) (uuid : Uuid) (req : Request) :
    Except Response (Exchange × Option Operation) := do
  let x ← receive joi auth (route.validation auth.header) uuid req
  return (x, PaymentsController.operation x.req route)

/-! ## Requests that spell an operation -/

/-- The request asks for the operation, with values that are accepted. -/
inductive Spells (joi : JoiRuntime) (uuid : Uuid) (req : Request) : PaymentRoute → Operation → Prop
  | create {command : CreatePaymentCommand} (correlationId : command.correlationId = correlationIdOf uuid req)
      (idempotencyKey : req.header "idempotency-key" = some command.idempotencyKey)
      (body : CreateBody joi req.body command.merchantId command.amountMinor command.currency)
      (accepted : command.Accepted) : Spells joi uuid req .create (.command (.create command))
  | getById {query : GetPaymentQuery} (correlationId : CorrelationIdHeader (correlationIdOf uuid req))
      (paymentId : req.param "paymentId" = some query.paymentId)
      (accepted : (Uuid.guid? query.paymentId).isSome = true) : Spells joi uuid req .getById (.getById query)
  | capture {command : CapturePaymentCommand} (correlationId : command.correlationId = correlationIdOf uuid req)
      (idempotencyKey : req.header "idempotency-key" = some command.idempotencyKey)
      (paymentId : req.param "paymentId" = some command.paymentId) (accepted : command.Accepted) :
      Spells joi uuid req .capture (.command (.capture command))

section Dispatch

variable {joi : JoiRuntime} {auth : Auth} {uuid : Uuid} {req : Request} {route : PaymentRoute} {x : Exchange}
  {o : Option Operation}

theorem dispatch_ok : dispatch joi auth route uuid req = .ok (x, o) ↔
    receive joi auth (route.validation auth.header) uuid req = .ok x ∧
    o = PaymentsController.operation x.req route := by
  constructor
  · intro h
    obtain ⟨x', hx', h⟩ := ok_of_bind h
    cases h
    exact ⟨hx', rfl⟩
  · rintro ⟨hx, rfl⟩
    rw [dispatch, hx]
    rfl

theorem headerText_other {name key : String} (hname : name ≠ correlationIdHeader) (h : req.header name = some key) :
    (correlationIdMiddleware uuid req).req.headerText name = key := by
  rw [Request.headerText, middleware_other hname, h]
  rfl

theorem headerText_correlationId :
    (correlationIdMiddleware uuid req).req.headerText correlationIdHeader = correlationIdOf uuid req := by
  rw [Request.headerText, middleware_header]
  rfl

/-- The members of the validated body are what the controller reads. -/
theorem members_createObject {merchantId currency : String} {amountMinor : Number}
    (h : CreateValues merchantId amountMinor currency)
    (hbody : req.body = createObject merchantId amountMinor currency) :
    req.textMember "merchantId" = some merchantId ∧ req.numberMember "amountMinor" = some amountMinor ∧
      req.textMember "currency" = some currency := by
  have hcurrency : ∀ c ∈ ["TRY", "USD", "EUR"], (utf16 c).ascii? = some c := by decide
  obtain ⟨g, hg⟩ := Option.isSome_iff_exists.1 h.merchantId
  refine ⟨?_, ?_, ?_⟩
  · have hm : req.member "merchantId" = some (.str (utf16 merchantId)) := by
      rw [Request.member, hbody]
      rfl
    rw [Request.textMember, hm]
    exact ascii?_eq_some.2 ⟨rfl, Uuid.guid?_ascii hg⟩
  · rw [Request.numberMember, Request.member, hbody]
    rfl
  · have hc : req.member "currency" = some (.str (utf16 currency)) := by
      rw [Request.member, hbody]
      rfl
    rw [Request.textMember, hc]
    exact hcurrency currency h.currency

theorem createOperation_eq {command : CreatePaymentCommand}
    (hkey : req.header "idempotency-key" = some command.idempotencyKey)
    (hcorrelation : command.correlationId = correlationIdOf uuid req)
    (hvalues : CreateValues command.merchantId command.amountMinor command.currency) :
    PaymentsController.operation { (correlationIdMiddleware uuid req).req with
      body := createObject command.merchantId command.amountMinor command.currency } .create =
        some (.command (.create command)) := by
  obtain ⟨hm, ha, hc⟩ := @members_createObject { (correlationIdMiddleware uuid req).req with
    body := createObject command.merchantId command.amountMinor command.currency } _ _ _ hvalues rfl
  have hk := @headerText_other uuid req "idempotency-key" _ (by decide) hkey
  have hi := @headerText_correlationId uuid req
  rw [Request.headerText, Request.header] at hk hi
  simp only [PaymentsController.operation, PaymentsController.create, hm, ha, hc, Request.headerText,
    Request.header, hk, hi, Option.bind_eq_bind, Option.bind_some, ← hcorrelation]
  rfl

theorem paymentId_namedParams {id : String} (hid : req.param "paymentId" = some id) :
    Request.param { (correlationIdMiddleware uuid req).req with params := namedParams req.params } "paymentId" =
      some id := by
  rw [Request.param, textOf_namedParams]
  exact hid

theorem captureOperation_eq {command : CapturePaymentCommand}
    (hkey : req.header "idempotency-key" = some command.idempotencyKey)
    (hcorrelation : command.correlationId = correlationIdOf uuid req)
    (hid : req.param "paymentId" = some command.paymentId) :
    PaymentsController.operation
        { (correlationIdMiddleware uuid req).req with params := namedParams req.params } .capture =
      some (.command (.capture command)) := by
  have hk := @headerText_other uuid req "idempotency-key" _ (by decide) hkey
  have hi := @headerText_correlationId uuid req
  rw [Request.headerText, Request.header] at hk hi
  simp only [PaymentsController.operation, PaymentsController.capture, paymentId_namedParams hid,
    Request.headerText, Request.header, hk, hi, Option.bind_eq_bind, Option.bind_some, ← hcorrelation]
  rfl

/-- What is dispatched is spelled by the request. -/
theorem spells_of_dispatch (h : dispatch joi auth route uuid req = .ok (x, o)) :
    req.header auth.header.text = some auth.secret ∧ x.correlationId = some (correlationIdOf uuid req) ∧
      ∃ op, o = some op ∧ Spells joi uuid req route op := by
  obtain ⟨hx, rfl⟩ := dispatch_ok.1 h
  cases route with
  | create =>
    obtain ⟨hadmitted, ⟨key, hkey, hvalid⟩, m, a, c, hbody, hvalues, rfl⟩ := createReceived_iff.1 hx
    have heq := @createOperation_eq uuid req ⟨correlationIdOf uuid req, key, m, a, c⟩ hkey rfl hvalues
    refine ⟨hadmitted.secret, rfl, _, heq, .create rfl hkey hbody ?_⟩
    exact ⟨hadmitted.correlationId, hvalid, hvalues.merchantId, hvalues.amountMinor, hvalues.currency⟩
  | getById =>
    obtain ⟨hadmitted, ⟨id, hid, hguid⟩, rfl⟩ := getByIdReceived_iff.1 hx
    refine ⟨hadmitted.secret, rfl, .getById ⟨id⟩, ?_, .getById hadmitted.correlationId hid hguid⟩
    simp only [PaymentsController.operation, PaymentsController.getById, paymentId_namedParams hid]
    rfl
  | capture =>
    obtain ⟨hadmitted, ⟨key, hkey, hvalid⟩, ⟨id, hid, hguid⟩, rfl⟩ := captureReceived_iff.1 hx
    have heq := @captureOperation_eq uuid req ⟨correlationIdOf uuid req, key, id⟩ hkey rfl hid
    exact ⟨hadmitted.secret, rfl, _, heq, .capture rfl hkey hid ⟨hadmitted.correlationId, hvalid, hguid⟩⟩

/-- What a request with the secret spells is dispatched. -/
theorem dispatch_of_spells (hsecret : req.header auth.header.text = some auth.secret) {op : Operation}
    (h : Spells joi uuid req route op) : ∃ x, dispatch joi auth route uuid req = .ok (x, some op) := by
  cases h with
  | @create command hcorrelation hkey hbody haccepted =>
    have hvalues : CreateValues command.merchantId command.amountMinor command.currency :=
      ⟨haccepted.merchantId, haccepted.amountMinor, haccepted.currency⟩
    have hadmitted : Admitted auth uuid req := ⟨hsecret, hcorrelation ▸ haccepted.correlationId⟩
    have hx := (@createReceived_iff joi _ _ _ _).2
      ⟨hadmitted, ⟨_, hkey, haccepted.idempotencyKey⟩, _, _, _, hbody, hvalues, rfl⟩
    exact ⟨_, dispatch_ok.2 ⟨hx, (createOperation_eq hkey hcorrelation hvalues).symm⟩⟩
  | @getById query hcorrelation hid hguid =>
    have hx := (@getByIdReceived_iff joi _ _ _ _).2 ⟨⟨hsecret, hcorrelation⟩, ⟨_, hid, hguid⟩, rfl⟩
    refine ⟨_, dispatch_ok.2 ⟨hx, ?_⟩⟩
    simp only [PaymentsController.operation, PaymentsController.getById, paymentId_namedParams hid]
    rfl
  | @capture command hcorrelation hkey hid haccepted =>
    have hadmitted : Admitted auth uuid req := ⟨hsecret, hcorrelation ▸ haccepted.correlationId⟩
    have hx := (@captureReceived_iff joi _ _ _ _).2
      ⟨hadmitted, ⟨_, hkey, haccepted.idempotencyKey⟩, ⟨_, hid, haccepted.paymentId⟩, rfl⟩
    exact ⟨_, dispatch_ok.2 ⟨hx, (captureOperation_eq hkey hcorrelation hid).symm⟩⟩

end Dispatch

/-- The request that a command is asked for with. -/
def requestOf (auth : Auth) : Command → Request
  | .create command => {
      headers := [(auth.header.text, auth.secret), ("idempotency-key", command.idempotencyKey),
        (correlationIdHeader, command.correlationId)]
      params := []
      query := .obj []
      body := createObject command.merchantId command.amountMinor command.currency }
  | .capture command => {
      headers := [(auth.header.text, auth.secret), ("idempotency-key", command.idempotencyKey),
        (correlationIdHeader, command.correlationId)]
      params := [("paymentId", command.paymentId)]
      query := .obj []
      body := .obj [] }

def routeOf : Command → PaymentRoute
  | .create _ => .create
  | .capture _ => .capture

theorem createBody_createObject (joi : JoiRuntime) (merchantId : String) (amountMinor : Number) (currency : String) :
    CreateBody joi (createObject merchantId amountMinor currency) merchantId amountMinor currency where
  merchantId := rfl
  amountMinor := ⟨.num amountMinor, rfl, .inl rfl⟩
  currency := rfl

theorem spells_requestOf (joi : JoiRuntime) (auth : Auth) (uuid : Uuid) {command : Command} (h : command.Accepted) :
    (requestOf auth command).header auth.header.text = some auth.secret ∧
      Spells joi uuid (requestOf auth command) (routeOf command) (.command command) := by
  have hheaders : ∀ key id,
      textOf auth.header.text
        [(auth.header.text, auth.secret), ("idempotency-key", key), (correlationIdHeader, id)] = some auth.secret ∧
      textOf "idempotency-key"
        [(auth.header.text, auth.secret), ("idempotency-key", key), (correlationIdHeader, id)] = some key ∧
      textOf correlationIdHeader
        [(auth.header.text, auth.secret), ("idempotency-key", key), (correlationIdHeader, id)] = some id := by
    intro key id
    cases auth.header <;> exact ⟨rfl, rfl, rfl⟩
  cases command with
  | create command =>
    obtain ⟨hsecret, hkey, hid⟩ := hheaders command.idempotencyKey command.correlationId
    refine ⟨hsecret, .create ?_ hkey (createBody_createObject joi _ _ _) h⟩
    rw [correlationIdOf, Request.header]
    exact (congrArg (Option.getD · uuid.uuidOut) hid).symm
  | capture command =>
    obtain ⟨hsecret, hkey, hid⟩ := hheaders command.idempotencyKey command.correlationId
    refine ⟨hsecret, .capture ?_ hkey rfl h⟩
    rw [correlationIdOf, Request.header]
    exact (congrArg (Option.getD · uuid.uuidOut) hid).symm

/-- A call begins with a command that a request has been dispatched as. -/
def served (joi : JoiRuntime) (auth : Auth) (_ : State) : Action → Prop
  | .start _ command _ => ∃ route uuid req x, dispatch joi auth route uuid req = .ok (x, some (.command command))
  | _ => True

theorem served_iff (joi : JoiRuntime) (auth : Auth) (s : State) (a : Action) : served joi auth s a ↔ accepted s a := by
  cases a with
  | start c command reserved =>
    constructor
    · rintro ⟨route, uuid, req, x, h⟩
      obtain ⟨-, -, op, hop, hspells⟩ := spells_of_dispatch h
      cases hop
      cases hspells with
      | create _ _ _ haccepted => exact haccepted
      | capture _ _ _ haccepted => exact haccepted
    · intro h
      obtain ⟨hsecret, hspells⟩ := spells_requestOf joi auth (.ofNat 0) h
      obtain ⟨x, hx⟩ := dispatch_of_spells hsecret hspells
      exact ⟨_, _, _, x, hx⟩
  | _ => exact Iff.rfl

end PaymentServer

open PaymentServer

/-- A request reaches the service exactly when it carries the token and spells an accepted operation: the
operation is called with the request's values, and the response names the request's correlation id. Without
the token, the answer depends on the correlation id alone, whatever the route and the rest of the
request. -/
theorem requests_dispatched (joi : JoiRuntime) (auth : Auth) (route : PaymentRoute) (uuid : Uuid) (req : Request) :
    (∀ op, (∃ x, dispatch joi auth route uuid req = .ok (x, some op)) ↔
      req.header auth.header.text = some auth.secret ∧ Spells joi uuid req route op) ∧
    (∀ x o, dispatch joi auth route uuid req = .ok (x, o) → o.isSome = true ∧
      x.correlationId = some (correlationIdOf uuid req)) ∧
    (req.header auth.header.text ≠ some auth.secret →
      dispatch joi auth route uuid req = .error (unauthorized auth (correlationIdOf uuid req))) := by
  refine ⟨fun op => ⟨?_, ?_⟩, fun x o h => ?_, fun h => ?_⟩
  · rintro ⟨x, h⟩
    obtain ⟨hsecret, -, op', hop, hspells⟩ := spells_of_dispatch h
    cases hop
    exact ⟨hsecret, hspells⟩
  · rintro ⟨hsecret, hspells⟩
    exact dispatch_of_spells hsecret hspells
  · obtain ⟨-, hid, op, rfl, -⟩ := spells_of_dispatch h
    exact ⟨rfl, hid⟩
  · rw [dispatch, receive_unauthorized h]
    rfl

/-- The runs that requests bring about are those of accepted commands. -/
theorem reach_served_iff (joi : JoiRuntime) (auth : Auth) (cfg : Config) (s : State) :
    (service cfg).Reach (served joi auth) s ↔ (service cfg).Reach accepted s := by
  have heq : served joi auth = accepted := by
    funext s a
    exact propext (served_iff joi auth s a)
  rw [heq]

namespace Sample

/-- Joi, of which the samples need no text read as a number and no details. -/
def joi : JoiRuntime := ⟨fun _ => none, fun _ _ => []⟩

theorem internalToken_ne : "internal-token" ≠ "" := by decide

def internalAuth : Auth := ⟨.xInternalToken, "internal-token", "Invalid or missing internal token", internalToken_ne⟩

end Sample

end PaymentOrchestration
