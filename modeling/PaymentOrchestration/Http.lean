/-
The handlers of a request at the gateway and at the payment service: the correlation id, the authentication,
the validation and the handler of errors. Both servers have the same, up to the header that authenticates,
its secret and the message of a refusal; `Auth` is these. `createReceived_iff` and its siblings say exactly
which requests get past the handlers.
-/
import PaymentOrchestration.OpenApiKit
import PaymentOrchestration.Routes

namespace PaymentOrchestration.Http

open Lib Lib.Joi Lib.JsString OpenApiKit

/-! ## Requests and responses -/

/-- The text under a name. -/
def textOf (name : String) (texts : List (String × String)) : Option String :=
  (texts.find? fun t => t.1 = name).map Prod.snd

/-- Texts as the object that they are members of. -/
def object (texts : List (String × String)) : List (JsString × Json JsString) :=
  texts.map fun t => (utf16 t.1, .str (utf16 t.2))

/-- A request as Express hands it to the handlers: names of headers are in lower case, and the parameters
are those of the path. -/
structure Request where
  headers : List (String × String)
  params : List (String × String)
  query : Json JsString
  body : Json JsString

def Request.header (req : Request) (name : String) : Option String := textOf name req.headers

def Request.param (req : Request) (name : String) : Option String := textOf name req.params

/-- A response: its status, the header `x-correlation-id` if it has one, and its body. -/
structure Response where
  statusCode : Int
  correlationId : Option String
  body : Json JsString

/-- A request on its way through the handlers, and what the header `x-correlation-id` of its response has
been set to. -/
structure Exchange where
  req : Request
  correlationId : Option String

/-! ## Correlation ids -/

def correlationIdHeader : String := "x-correlation-id"

/-- `/^[!-~]+$/.test`, the one pattern of the routes. -/
def test (_ : JsString) (_ : List RegExpFlag) (s : JsString) : Bool :=
  s ≠ [] && s.all fun u => 0x21 ≤ u.toNat ∧ u.toNat ≤ 0x7E

def getValidCorrelationId (value : Option String) : Option String :=
  value.filter fun s => accepts test correlationIdHeaderSchema (.str (utf16 s))

/-- `uuid` is the identifier that `randomUUID` makes where the request has none. -/
def correlationIdMiddleware (uuid : Uuid) (req : Request) : Exchange :=
  match req.header correlationIdHeader with
  | some incomingCorrelationId => ⟨req, getValidCorrelationId (some incomingCorrelationId)⟩
  | none => ⟨{ req with headers := req.headers ++ [(correlationIdHeader, uuid.uuidOut)] }, some uuid.uuidOut⟩

/-! ## Errors -/

/-- The body of an error. -/
def errorBody (code : Json JsString) (message : JsString) (details : Json JsString) (correlationId : Option String) :
    Json JsString :=
  .obj [(utf16 "error", .obj [(utf16 "code", code), (utf16 "message", .str message), (utf16 "details", details),
    (utf16 "correlationId", correlationId.elim .null fun c => .str (utf16 c))])]

namespace Exchange

def respond (x : Exchange) (statusCode : Int) (body : Json JsString) : Response := ⟨statusCode, x.correlationId, body⟩

/-- A response with an error. -/
def reject (x : Exchange) (statusCode : Int) (code : Json JsString) (message : JsString) (details : Json JsString) :
    Response :=
  x.respond statusCode (errorBody code message details (getValidCorrelationId (x.req.header correlationIdHeader)))

/-- What the handler of errors responds to a value that is no `ApiError`. -/
def internalServerError (x : Exchange) : Response :=
  x.reject 500 (.str (utf16 "INTERNAL_SERVER_ERROR")) (utf16 "Internal server error") .null

end Exchange

/-! ## Authentication -/

/-- Whether two texts are given and equal. Buffers are compared in a time that does not depend on what they hold. -/
def timingSafeEquals (left right : Option String) : Bool :=
  match left, right with
  | some left, some right =>
    if left = "" ∨ right = "" then false
    else
      let leftBuffer := left.toUTF8
      let rightBuffer := right.toUTF8
      if leftBuffer.size ≠ rightBuffer.size then false else leftBuffer.data = rightBuffer.data
  | _, _ => false

/-- The header that a server authenticates requests by. -/
inductive KeyHeader
  | xApiKey
  | xInternalToken

def KeyHeader.text : KeyHeader → String
  | xApiKey => "x-api-key"
  | xInternalToken => "x-internal-token"

/-- The header, its secret and the message of a refusal. -/
structure Auth where
  header : KeyHeader
  secret : String
  message : String
  secret_ne : secret ≠ ""

def Auth.middleware (auth : Auth) (x : Exchange) : Except Response Exchange :=
  if timingSafeEquals (x.req.header auth.header.text) (some auth.secret) then .ok x
  else .error (x.reject 401 (.str (utf16 "UNAUTHORIZED")) (utf16 auth.message) .null)

/-! ## Validation -/

inductive RequestSegment
  | body
  | params
  | query
  | headers

def RequestSegment.text : RequestSegment → String
  | body => "body"
  | params => "params"
  | query => "query"
  | headers => "headers"

structure RouteRequestValidation where
  body : Option Schema := none
  params : Option Schema := none
  query : Option Schema := none
  headers : Option Schema := none

/-- An error that Joi reports. -/
structure Detail where
  path : List JsString
  message : JsString

def formatValidationDetails (details : List Detail) (segment : RequestSegment) : Json JsString :=
  .arr (details.map fun detail => .obj [
    (utf16 "path", .str (utf16 segment.text ++ detail.path.flatMap fun k => utf16 "." ++ k)),
    (utf16 "message", .str detail.message)])

/-- What Joi does beside accepting values: it reads texts as numbers, and it says what a schema refuses in a value. -/
structure JoiRuntime where
  number : JsString → Option Number
  details : Schema → Json JsString → List Detail

/-- The member `k` of the clone of an object that Joi validates: the clone inherits from what is assigned to
`__proto__`. -/
def clonedMember (k : JsString) (members : List (JsString × Json JsString)) : Option (Json JsString) :=
  match Json.lookup k members, Json.lookup proto members with
  | none, some (.obj inherited) => Json.lookup k inherited
  | own, _ => own

def objectKeys : Schema → List (JsString × Schema)
  | .object _ keys _ _ => keys
  | _ => []

namespace JoiRuntime

variable (joi : JoiRuntime)

/-- What a value is converted to before it is validated. The schemas within a body are of texts and of numbers. -/
def convert : Schema → Json JsString → Json JsString
  | .number .., .str s => (joi.number s).elim (.str s) .num
  | _, v => v

/-- `schema.validate` of a body or a query with `stripUnknown`, for a schema that allows no unknown keys:
the members that the schema names, as handlers read them by name. -/
def validateObject (schema : Schema) (value : Json JsString) : Option (Json JsString) :=
  match value with
  | .obj members =>
    let result := .obj ((objectKeys schema).filterMap fun k => (clonedMember k.1 members).map fun v =>
      (k.1, joi.convert k.2 v))
    if accepts test schema result then some result else none
  | value => if accepts test schema value then some value else none

end JoiRuntime

/-- `schema.validate` of headers or of parameters, none of which the schemas convert. -/
def validateTexts (stripUnknown : Bool) (schema : Schema) (texts : List (String × String)) :
    Option (List (String × String)) :=
  let result := if stripUnknown then texts.filter fun t => (objectKeys schema).any fun k => k.1 = utf16 t.1 else texts
  if accepts test schema (.obj (object result)) then some result else none

/-- One round of the loop over the segments: `validate` is given the schema, if there is one. -/
def validateSegment {α : Type} (joi : JoiRuntime) (x : Exchange) (segment : RequestSegment) (schema : Option Schema)
    (validate : Schema → α → Option α) (json : α → Json JsString) (value : α) : Except Response α :=
  match schema with
  | none => .ok value
  | some schema =>
    match validate schema value with
    | some result => .ok result
    | none => .error (x.reject 400 (.str (utf16 "VALIDATION_ERROR")) (utf16 "Validation failed")
        (formatValidationDetails (joi.details schema (json value)) segment))

def createValidationHandler (joi : JoiRuntime) (validation : RouteRequestValidation) (x : Exchange) :
    Except Response Exchange := do
  let body ← validateSegment joi x .body validation.body joi.validateObject id x.req.body
  let params ← validateSegment joi x .params validation.params (validateTexts true)
    (fun t => .obj (object t)) x.req.params
  let query ← validateSegment joi x .query validation.query joi.validateObject id x.req.query
  let headers ← validateSegment joi x .headers validation.headers (validateTexts false)
    (fun t => .obj (object t)) x.req.headers
  return { x with req := ⟨headers, params, query, body⟩ }

/-! ## The handlers before the controller -/

/-- The handlers of a route before its controller. Authentication comes first, so that nobody learns of a
schema without the secret. -/
def receive (joi : JoiRuntime) (auth : Auth) (validation : RouteRequestValidation) (uuid : Uuid) (req : Request) :
    Except Response Exchange := do
  let x ← auth.middleware (correlationIdMiddleware uuid req)
  createValidationHandler joi validation x

/-- The routes, by the methods of the controller. -/
inductive PaymentRoute
  | create
  | getById
  | capture
deriving DecidableEq

def PaymentRoute.validation (header : KeyHeader) : PaymentRoute → RouteRequestValidation
  | create => { headers := some (commandHeaders header.text), body := some createBody }
  | getById => { headers := some (getByIdHeaders header.text), params := some paymentIdParams }
  | capture => { headers := some (commandHeaders header.text), params := some paymentIdParams }

/-! ## What the schemas accept -/

section Schemas

/-- A name of the source, as the schemas have it. -/
theorem text_eq {name : String} (h : ∀ c ∈ name.toList, c.toNat < 0x10000) : text name = utf16 name := by
  unfold text units utf16
  revert h
  induction name.toList with
  | nil => exact fun _ => rfl
  | cons c cs ih =>
    intro h
    obtain ⟨hc, hcs⟩ := List.forall_mem_cons.1 h
    rw [List.map_cons, List.flatMap_cons, ih hcs, utf16Char, if_pos hc]
    rfl

theorem lookup_object (name : String) (texts : List (String × String)) :
    Json.lookup (utf16 name) (object texts) = (textOf name texts).map fun s => .str (utf16 s) := by
  induction texts with
  | nil => rfl
  | cons t texts ih =>
    rw [object, List.map_cons, Json.lookup, textOf, List.find?_cons, List.find?_cons]
    by_cases h : t.1 = name
    · simp [h]
    · have hne : utf16 t.1 ≠ utf16 name := fun heq => h (utf16_inj heq)
      simp only [h, hne, decide_false]
      exact ih

theorem textOf_append {name : String} {texts texts' : List (String × String)} :
    textOf name (texts ++ texts') = (textOf name texts).or (textOf name texts') := by
  rw [textOf, List.find?_append, Option.map_or]
  rfl

theorem textOf_filter {name : String} {texts : List (String × String)} {p : String × String → Bool}
    (hp : ∀ t ∈ texts, t.1 = name → p t = true) : textOf name (texts.filter p) = textOf name texts := by
  induction texts with
  | nil => rfl
  | cons t texts ih =>
    have ih := ih fun t ht => hp t (List.mem_cons_of_mem _ ht)
    rw [List.filter_cons]
    by_cases h : t.1 = name
    · rw [if_pos (hp t List.mem_cons_self h)]
      simp [textOf, h]
    · have hcons : textOf name (t :: texts) = textOf name texts := by simp [textOf, h]
      split
      · rw [hcons, ← ih]
        simp [textOf, h]
      · rw [hcons, ih]

theorem accepts_object_iff {test : JsString → List RegExpFlag → JsString → Bool} {keys : List (JsString × Schema)}
    {unknown : Bool} {members : List (JsString × Json JsString)} (hplain : ∀ k ∈ keys, k.1 ≠ proto)
    (hknown : unknown = true ∨ ∀ m ∈ members, ∃ k ∈ keys, k.1 = m.1) :
    accepts test (.object {} keys unknown []) (.obj members) = true ↔ ∀ k ∈ keys,
      (∀ w, Json.lookup k.1 members = some w → accepts test k.2 w = true) ∧
        (Json.lookup k.1 members = none → k.2.isRequired = false) := by
  have hall : (unknown || members.all fun m => keys.any fun k => k.1 = m.1) = true := by
    rw [Bool.or_eq_true, List.all_eq_true]
    refine hknown.imp_right fun h m hm => ?_
    obtain ⟨k, hk, heq⟩ := h m hm
    exact List.any_eq_true.2 ⟨k, hk, decide_eq_true heq⟩
  rw [accepts, hall]
  simp only [Base.lists, List.any_nil, Bool.false_or, Bool.not_false, Bool.true_and, Bool.and_true,
    List.all_nil, acceptsKeys_iff]
  refine forall₂_congr fun k hk => ?_
  rw [requestKey (hplain k hk)]

theorem accepts_text_iff {presence : Option Presence} {rules : List StringRule} {s : JsString} :
    accepts test (.string { presence := presence } rules) (.str s) = true ↔
      (s ≠ [] ∨ emptyAllowed rules = true) ∧ ∀ r ∈ rules, r.holds test s = true := by
  simp [accepts, Base.lists]

theorem utf16_ne_nil {s : String} : utf16 s ≠ [] ↔ s ≠ "" :=
  not_congr ⟨fun h => utf16_inj (h.trans (by decide : utf16 "" = []).symm), fun h => by rw [h]; decide⟩

theorem test_utf16 {source : JsString} {flags : List RegExpFlag} (s : String) : test source flags (utf16 s) = true ↔
    s ≠ "" ∧ s.toList.all (fun c => '!' ≤ c ∧ c ≤ '~') = true := by
  have hchar : ∀ c : Char, ((utf16Char c).all fun u => decide (0x21 ≤ u.toNat ∧ u.toNat ≤ 0x7E)) =
      decide ('!' ≤ c ∧ c ≤ '~') := by
    intro c
    have hle : ('!' ≤ c ∧ c ≤ '~') ↔ (0x21 ≤ c.toNat ∧ c.toNat ≤ 0x7E) := Iff.rfl
    rw [decide_eq_decide.2 hle]
    have hc := char_bounds c
    unfold utf16Char
    split
    · rw [List.all_cons, List.all_nil, Bool.and_true, toNat_ofNat (by omega)]
    · -- a surrogate is beyond every visible character
      have hno : ¬(0x21 ≤ c.toNat ∧ c.toNat ≤ 0x7E) := by omega
      rw [List.all_cons, toNat_ofNat (by omega), decide_eq_false hno, Bool.and_eq_false_iff]
      exact .inl (decide_eq_false (by omega))
  rw [test, Bool.and_eq_true, decide_eq_true_iff, utf16_ne_nil, utf16, List.all_flatMap]
  simp only [hchar]

theorem accepts_correlationId {s : String} :
    accepts test correlationIdHeaderSchema (.str (utf16 s)) = true ↔ CorrelationIdHeader s := by
  have hempty : emptyAllowed [.min 1, .max 128, .pattern (text "^[!-~]+$") []] = false := by decide +kernel
  rw [correlationIdHeaderSchema, accepts_text_iff, hempty]
  simp only [List.forall_mem_cons, StringRule.holds, test_utf16, decide_eq_true_iff, List.not_mem_nil,
    false_implies, implies_true, and_true, Bool.false_eq_true, or_false]
  constructor
  · rintro ⟨-, hmin, hmax, -, hpattern⟩
    exact ⟨by exact_mod_cast hmin, by exact_mod_cast hmax, hpattern⟩
  · intro h
    have hne : utf16 s ≠ [] := fun hnil => by
      have hmin := h.min
      rw [jsLength, hnil] at hmin
      cases hmin
    exact ⟨hne, by exact_mod_cast h.min, by exact_mod_cast h.max, utf16_ne_nil.1 hne, h.pattern⟩

theorem uuidOut_correlationId (u : Uuid) : CorrelationIdHeader u.uuidOut := by
  have hchars : ∀ c ∈ u.uuidOut.toList, '!' ≤ c ∧ c ≤ '~' := by
    intro c hc
    rcases Uuid.uuidOut_chars u c hc with rfl | ⟨d, rfl⟩
    · decide
    · exact (by decide : ∀ d, '!' ≤ Uuid.hexChar d ∧ Uuid.hexChar d ≤ '~') d
  have hlength : jsLength u.uuidOut = u.uuidOut.toList.length := by
    unfold jsLength utf16
    revert hchars
    induction u.uuidOut.toList with
    | nil => exact fun _ => rfl
    | cons c cs ih =>
      intro h
      obtain ⟨hc, hcs⟩ := List.forall_mem_cons.1 h
      have hsmall : c.toNat < 0x10000 := Nat.lt_of_le_of_lt (show c.toNat ≤ '~'.toNat from hc.2) (by decide)
      rw [List.flatMap_cons, List.length_append, ih hcs, utf16Char, if_pos hsmall,
        List.length_singleton, List.length_cons, Nat.add_comm]
  refine ⟨?_, ?_, List.all_eq_true.2 fun c hc => decide_eq_true (hchars c hc)⟩
  · rw [hlength]
    refine List.length_pos_iff.2 fun hnil => ?_
    have hempty := Uuid.uuidIn_uuidOut u
    rw [← String.ofList_toList (s := u.uuidOut), hnil] at hempty
    cases hempty
  · rw [hlength]
    exact (Uuid.uuidOut_length u).trans (by decide)

theorem getValidCorrelationId_eq {value : Option String} {c : String} :
    getValidCorrelationId value = some c ↔ value = some c ∧ CorrelationIdHeader c := by
  rw [getValidCorrelationId, Option.filter_eq_some_iff, accepts_correlationId]

/-- A key of an object of texts. -/
theorem key_iff {name : String} {schema : Schema} {texts : List (String × String)}
    (hname : (name.toList.all fun c => c.toNat < 0x10000) = true) :
    ((∀ w, Json.lookup (text name) (object texts) = some w → accepts test schema w = true) ∧
      (Json.lookup (text name) (object texts) = none → schema.isRequired = false)) ↔
    (∀ t, textOf name texts = some t → accepts test schema (.str (utf16 t)) = true) ∧
      (schema.isRequired = true → ∃ t, textOf name texts = some t) := by
  rw [text_eq fun c hc => of_decide_eq_true (List.all_eq_true.1 hname c hc), lookup_object]
  cases htext : textOf name texts with
  | none => simp
  | some t => simp

theorem accepts_key (k : KeyHeader) {texts : List (String × String)} :
    ((∀ w, Json.lookup (keyHeader k.text).1 (object texts) = some w → accepts test (keyHeader k.text).2 w = true) ∧
      (Json.lookup (keyHeader k.text).1 (object texts) = none → (keyHeader k.text).2.isRequired = false)) ↔
    ∃ key, textOf k.text texts = some key ∧ key ≠ "" := by
  rw [keyHeader, key_iff (by cases k <;> decide)]
  simp only [accepts_text_iff, utf16_ne_nil, show emptyAllowed [] = false from rfl, List.not_mem_nil,
    false_implies, implies_true, and_true, Bool.false_eq_true, or_false]
  constructor
  · rintro ⟨hall, hsome⟩
    obtain ⟨key, hkey⟩ := hsome rfl
    exact ⟨key, hkey, hall key hkey⟩
  · rintro ⟨key, hkey, hne⟩
    refine ⟨fun t ht => ?_, fun _ => ⟨key, hkey⟩⟩
    rwa [← Option.some.inj (hkey.symm.trans ht)]

theorem accepts_idempotencyKey {texts : List (String × String)} :
    ((∀ w, Json.lookup idempotencyKeyHeader.1 (object texts) = some w → accepts test idempotencyKeyHeader.2 w = true) ∧
      (Json.lookup idempotencyKeyHeader.1 (object texts) = none → idempotencyKeyHeader.2.isRequired = false)) ↔
    ∃ key, textOf "idempotency-key" texts = some key ∧ IdempotencyKeyHeader key := by
  have hempty : emptyAllowed [.min 8, .max 128] = false := by decide +kernel
  rw [idempotencyKeyHeader, key_iff (by decide)]
  simp only [accepts_text_iff, hempty, List.forall_mem_cons, StringRule.holds, decide_eq_true_iff,
    List.not_mem_nil, false_implies, implies_true, and_true, Bool.false_eq_true, or_false]
  constructor
  · rintro ⟨hall, hsome⟩
    obtain ⟨key, hkey⟩ := hsome rfl
    obtain ⟨-, hmin, hmax⟩ := hall key hkey
    exact ⟨key, hkey, by exact_mod_cast hmin, by exact_mod_cast hmax⟩
  · rintro ⟨key, hkey, h⟩
    refine ⟨fun t ht => ?_, fun _ => ⟨key, hkey⟩⟩
    obtain rfl := Option.some.inj (hkey.symm.trans ht)
    refine ⟨fun hnil => ?_, by exact_mod_cast h.min, by exact_mod_cast h.max⟩
    have hmin := h.min
    rw [jsLength, hnil] at hmin
    cases hmin

theorem accepts_correlationIdKey {texts : List (String × String)} :
    ((∀ w, Json.lookup OpenApiKit.correlationIdHeader.1 (object texts) = some w →
        accepts test OpenApiKit.correlationIdHeader.2 w = true) ∧
      (Json.lookup OpenApiKit.correlationIdHeader.1 (object texts) = none →
        OpenApiKit.correlationIdHeader.2.isRequired = false)) ↔
    ∀ c, textOf correlationIdHeader texts = some c → CorrelationIdHeader c := by
  rw [OpenApiKit.correlationIdHeader, key_iff (by decide)]
  simp only [accepts_correlationId]
  exact ⟨And.left, fun h => ⟨h, fun hreq => by cases hreq⟩⟩

theorem accepts_commandHeaders (k : KeyHeader) {headers : List (String × String)} :
    accepts test (commandHeaders k.text) (.obj (object headers)) = true ↔
      (∃ key, textOf k.text headers = some key ∧ key ≠ "") ∧
      (∃ key, textOf "idempotency-key" headers = some key ∧ IdempotencyKeyHeader key) ∧
      ∀ c, textOf correlationIdHeader headers = some c → CorrelationIdHeader c := by
  have hplain : ∀ key ∈ [keyHeader k.text, idempotencyKeyHeader, OpenApiKit.correlationIdHeader], key.1 ≠ proto := by
    cases k <;> simp only [List.forall_mem_cons, List.not_mem_nil, false_implies, implies_true, and_true] <;>
      decide +kernel
  rw [commandHeaders, accepts_object_iff hplain (.inl rfl)]
  simp only [List.forall_mem_cons, accepts_key, accepts_idempotencyKey, accepts_correlationIdKey,
    List.not_mem_nil, false_implies, implies_true, and_true]

theorem accepts_getByIdHeaders (k : KeyHeader) {headers : List (String × String)} :
    accepts test (getByIdHeaders k.text) (.obj (object headers)) = true ↔
      (∃ key, textOf k.text headers = some key ∧ key ≠ "") ∧
      ∀ c, textOf correlationIdHeader headers = some c → CorrelationIdHeader c := by
  have hplain : ∀ key ∈ [keyHeader k.text, OpenApiKit.correlationIdHeader], key.1 ≠ proto := by
    cases k <;> simp only [List.forall_mem_cons, List.not_mem_nil, false_implies, implies_true, and_true] <;>
      decide +kernel
  rw [getByIdHeaders, accepts_object_iff hplain (.inl rfl)]
  simp only [List.forall_mem_cons, accepts_key, accepts_correlationIdKey, List.not_mem_nil,
    false_implies, implies_true, and_true]

theorem accepts_guid {s : JsString} : accepts test (.string { presence := some .required } [.guid]) (.str s) = true ↔
    ∃ t, s = utf16 t ∧ (Uuid.guid? t).isSome = true := by
  rw [accepts_text_iff]
  simp only [List.forall_mem_cons, StringRule.holds, List.not_mem_nil, false_implies, implies_true,
    and_true, Option.any_eq_true]
  constructor
  · rintro ⟨-, t, ht, hguid⟩
    exact ⟨t, (ascii?_eq_some.1 ht).1, hguid⟩
  · rintro ⟨t, rfl, hguid⟩
    obtain ⟨g, hg⟩ := Option.isSome_iff_exists.1 hguid
    refine ⟨.inl (utf16_ne_nil.2 fun hnil => ?_), t, ascii?_eq_some.2 ⟨rfl, Uuid.guid?_ascii hg⟩, hguid⟩
    rw [hnil] at hg
    cases hg

theorem accepts_amountMinor {v : Json JsString} :
    accepts test (.number { presence := some .required } [.integer, .positive, .max 1000000000000]) v = true ↔
      ∃ n : Nat, 0 < n ∧ n ≤ amountMinorMax ∧ v = .num (Number.ofInt n) := by
  constructor
  · intro h
    obtain ⟨-, x, rfl, hrules⟩ := accepts_number h (by simp [Base.lists])
    simp only [List.forall_mem_cons, NumberRule.holds, decide_eq_true_iff, List.not_mem_nil,
      false_implies, implies_true, and_true] at hrules
    obtain ⟨hint, hpos, hmax⟩ := hrules
    obtain ⟨z, hz⟩ := Option.isSome_iff_exists.1 hint
    rw [Number.toRat_of_int? hz] at hpos hmax
    have hpos : 0 < z := by exact_mod_cast hpos
    have hmax : z ≤ 1000000000000 := by exact_mod_cast hmax
    refine ⟨z.toNat, by omega, ?_, ?_⟩
    · rw [amountMinorMax]
      omega
    · rw [Int.toNat_of_nonneg hpos.le, ← Number.ofInt_of_int? hz]
  · rintro ⟨n, hpos, hmax, rfl⟩
    rw [amountMinorMax] at hmax
    have hrat : (Number.ofInt n).toRat = n := by
      rw [Number.toRat_of_int? (Number.int?_ofInt n)]
      rfl
    have hpos : (0 : Rat) < n := by exact_mod_cast hpos
    have hmax : (n : Rat) ≤ 1000000000000 := by exact_mod_cast hmax
    have hsafe : isSafe (Number.ofInt n) = true := by
      rw [isSafe, hrat, decide_eq_true_iff]
      constructor <;> linarith
    rw [accepts, hsafe]
    simp [Base.lists, NumberRule.holds, hrat, hpos, hmax, Number.int?_ofInt]

theorem accepts_currency {v : Json JsString} :
    accepts test (.string { presence := some .required, only := true, allow := OpenApiKit.currencies } []) v = true ↔
      ∃ c ∈ ["TRY", "USD", "EUR"], v = .str (utf16 c) := by
  have htext : ∀ c ∈ ["TRY", "USD", "EUR"], text c = utf16 c := by decide +kernel
  have hlists :
      accepts test (.string { presence := some .required, only := true, allow := OpenApiKit.currencies } []) v =
        ["TRY", "USD", "EUR"].any fun c => Json.Same (.str (text c)) v := by
    simp only [accepts, Base.lists, OpenApiKit.currencies, List.any_map, Bool.not_true, Bool.false_and, Bool.or_false]
    rfl
  rw [hlists, List.any_eq_true]
  refine exists_congr fun c => and_congr_right fun hc => ?_
  rw [decide_eq_true_iff, Json.same_str, htext c hc]

end Schemas

/-! ## The body of `create` -/

/-- A member of a body, as Joi finds it. -/
def bodyMember (name : String) : Json JsString → Option (Json JsString)
  | .obj members => clonedMember (utf16 name) members
  | _ => none

/-- The body of `create` with these values. -/
def createObject (merchantId : String) (amountMinor : Number) (currency : String) : Json JsString :=
  .obj [(utf16 "merchantId", .str (utf16 merchantId)), (utf16 "amountMinor", .num amountMinor),
    (utf16 "currency", .str (utf16 currency))]

/-- The body has these values, the amount as a number or as a text that Joi reads as one, and maybe other members. -/
structure CreateBody (joi : JoiRuntime) (body : Json JsString) (merchantId : String) (amountMinor : Number)
    (currency : String) : Prop where
  merchantId : bodyMember "merchantId" body = some (.str (utf16 merchantId))
  amountMinor : ∃ v, bodyMember "amountMinor" body = some v ∧
    (v = .num amountMinor ∨ ∃ s, v = .str s ∧ joi.number s = some amountMinor)
  currency : bodyMember "currency" body = some (.str (utf16 currency))

/-- The values of a body that are accepted. -/
structure CreateValues (merchantId : String) (amountMinor : Number) (currency : String) : Prop where
  merchantId : (Uuid.guid? merchantId).isSome = true
  amountMinor : ∃ n : Nat, 0 < n ∧ n ≤ amountMinorMax ∧ amountMinor = Number.ofInt n
  currency : currency ∈ ["TRY", "USD", "EUR"]

section Body

variable {joi : JoiRuntime} {keys : List (JsString × Schema)} {members : List (JsString × Json JsString)}

theorem lookup_named (hnd : (keys.map Prod.fst).Nodup) {k : JsString × Schema} (hk : k ∈ keys) :
    Json.lookup k.1 (keys.filterMap fun k => (clonedMember k.1 members).map fun v => (k.1, joi.convert k.2 v)) =
      (clonedMember k.1 members).map (joi.convert k.2) := by
  induction keys with
  | nil => cases hk
  | cons k' keys ih =>
    rw [List.map_cons, List.nodup_cons] at hnd
    rcases List.mem_cons.1 hk with rfl | hk
    · cases hmember : clonedMember k.1 members with
      | some v => simp [hmember, Json.lookup]
      | none =>
        -- no other key has the name
        rw [List.filterMap_cons_none (by rw [hmember]; rfl), Json.lookup, List.find?_eq_none.2,
          Option.map_none, Option.map_none]
        intro m hm heq
        obtain ⟨k', hk', hm⟩ := List.mem_filterMap.1 hm
        obtain ⟨v, -, rfl⟩ := Option.map_eq_some_iff.1 hm
        exact hnd.1 (List.mem_map.2 ⟨k', hk', of_decide_eq_true heq⟩)
    · have hne : k'.1 ≠ k.1 := fun heq => hnd.1 (heq ▸ List.mem_map_of_mem hk)
      rw [← ih hnd.2 hk]
      cases hmember : clonedMember k'.1 members with
      | none => rw [List.filterMap_cons_none (by rw [hmember]; rfl)]
      | some v => simp [hmember, Json.lookup, hne]

theorem required_iff {schema : Schema} (hreq : schema.isRequired = true) {o : Option (Json JsString)} :
    ((∀ w, o.map (joi.convert schema) = some w → accepts test schema w = true) ∧
      (o.map (joi.convert schema) = none → schema.isRequired = false)) ↔
    ∃ v, o = some v ∧ accepts test schema (joi.convert schema v) = true := by
  cases o <;> simp [hreq]

theorem convert_number {base : Base} {rules : List NumberRule} {v : Json JsString} {x : Number} :
    joi.convert (.number base rules) v = .num x ↔ v = .num x ∨ ∃ s, v = .str s ∧ joi.number s = some x := by
  cases v with
  | str s => cases hs : joi.number s <;> simp [JoiRuntime.convert, hs]
  | _ => simp [JoiRuntime.convert]

/-- What the validated object of a body has. -/
theorem accepts_named {merchantId amountMinor currency : Option (Json JsString)}
    (hm : merchantId = clonedMember (utf16 "merchantId") members)
    (ha : amountMinor = clonedMember (utf16 "amountMinor") members)
    (hc : currency = clonedMember (utf16 "currency") members) :
    accepts test createBody (.obj ((objectKeys createBody).filterMap fun k =>
      (clonedMember k.1 members).map fun v => (k.1, joi.convert k.2 v))) = true ↔
    (∃ t, merchantId = some (.str (utf16 t)) ∧ (Uuid.guid? t).isSome = true) ∧
    (∃ n : Nat, 0 < n ∧ n ≤ amountMinorMax ∧ ∃ v, amountMinor = some v ∧
      (v = .num (Number.ofInt n) ∨ ∃ s, v = .str s ∧ joi.number s = some (Number.ofInt n))) ∧
    ∃ c ∈ ["TRY", "USD", "EUR"], currency = some (.str (utf16 c)) := by
  have hnames : text "merchantId" = utf16 "merchantId" ∧ text "amountMinor" = utf16 "amountMinor" ∧
      text "currency" = utf16 "currency" := by decide +kernel
  have hplain : ∀ k ∈ objectKeys createBody, k.1 ≠ proto := by
    simp only [objectKeys, createBody, List.forall_mem_cons, List.not_mem_nil, false_implies, implies_true, and_true]
    decide +kernel
  have hnd : ((objectKeys createBody).map Prod.fst).Nodup := by decide +kernel
  have hknown : ∀ m ∈ (objectKeys createBody).filterMap fun k => (clonedMember k.1 members).map fun v =>
      (k.1, joi.convert k.2 v), ∃ k ∈ objectKeys createBody, k.1 = m.1 := by
    intro m hm
    obtain ⟨k, hk, hm⟩ := List.mem_filterMap.1 hm
    obtain ⟨v, -, rfl⟩ := Option.map_eq_some_iff.1 hm
    exact ⟨k, hk, rfl⟩
  have hobject := @accepts_object_iff test _ false _ hplain (.inr hknown)
  refine hobject.trans ?_
  have hkeys : ∀ k ∈ objectKeys createBody, k.2.isRequired = true := by decide +kernel
  refine (forall₂_congr fun k hk => by rw [lookup_named hnd hk, required_iff (hkeys k hk)]).trans ?_
  simp only [objectKeys, createBody, List.forall_mem_cons, List.not_mem_nil, false_implies,
    implies_true, and_true, hnames]
  rw [← hm, ← ha, ← hc]
  refine and_congr ⟨?_, ?_⟩ (and_congr ⟨?_, ?_⟩ ⟨?_, ?_⟩)
  · rintro ⟨v, hv, hacc⟩
    obtain ⟨-, s, hs, -⟩ := accepts_string hacc (by simp [Base.lists])
    obtain rfl : v = .str s := hs
    obtain ⟨t, rfl, hguid⟩ := accepts_guid.1 hacc
    exact ⟨t, hv, hguid⟩
  · rintro ⟨t, ht, hguid⟩
    exact ⟨_, ht, accepts_guid.2 ⟨t, rfl, hguid⟩⟩
  · rintro ⟨v, hv, hacc⟩
    obtain ⟨n, hpos, hmax, hn⟩ := accepts_amountMinor.1 hacc
    exact ⟨n, hpos, hmax, v, hv, convert_number.1 hn⟩
  · rintro ⟨n, hpos, hmax, v, hv, hn⟩
    exact ⟨v, hv, accepts_amountMinor.2 ⟨n, hpos, hmax, convert_number.2 hn⟩⟩
  · rintro ⟨v, hv, hacc⟩
    obtain ⟨c, hmem, hcv⟩ := accepts_currency.1 hacc
    obtain rfl : v = .str (utf16 c) := hcv
    exact ⟨c, hmem, hv⟩
  · rintro ⟨c, hmem, hv⟩
    exact ⟨_, hv, accepts_currency.2 ⟨c, hmem, rfl⟩⟩

theorem validateObject_other {v : Json JsString} (hv : ∀ members, v ≠ .obj members) :
    joi.validateObject createBody v = none ∧ ∀ k, bodyMember k v = none := by
  cases v with
  | obj members => exact absurd rfl (hv members)
  | _ => exact ⟨by simp [JoiRuntime.validateObject, accepts, createBody, Base.lists], fun _ => rfl⟩

theorem validateObject_create {body result : Json JsString} : joi.validateObject createBody body = some result ↔
    ∃ merchantId amountMinor currency, CreateBody joi body merchantId amountMinor currency ∧
      CreateValues merchantId amountMinor currency ∧ result = createObject merchantId amountMinor currency := by
  by_cases hobj : ∃ members, body = .obj members
  swap
  · obtain ⟨hno, hnone⟩ := @validateObject_other joi body fun members h => hobj ⟨members, h⟩
    rw [hno]
    constructor
    · rintro ⟨⟩
    · rintro ⟨m, a, c, hbody, -⟩
      exact absurd ((hnone _).symm.trans hbody.merchantId) (by simp)
  obtain ⟨members, rfl⟩ := hobj
  have hnames : text "merchantId" = utf16 "merchantId" ∧ text "amountMinor" = utf16 "amountMinor" ∧
      text "currency" = utf16 "currency" := by decide +kernel
  -- the object that is made of the members found
  have hresult : ∀ {m v c x}, clonedMember (utf16 "merchantId") members = some m →
      clonedMember (utf16 "amountMinor") members = some v → clonedMember (utf16 "currency") members = some c →
      (∀ base rules, joi.convert (.number base rules) v = x) →
      (objectKeys createBody).filterMap (fun k => (clonedMember k.1 members).map fun v => (k.1, joi.convert k.2 v)) =
        [(utf16 "merchantId", m), (utf16 "amountMinor", x), (utf16 "currency", c)] := by
    intro m v c x hm hv hc hx
    simp only [objectKeys, createBody, hnames, List.filterMap_cons, List.filterMap_nil, hm, hv, hc, hx, Option.map_some]
    rfl
  simp only [JoiRuntime.validateObject]
  constructor
  · intro h
    split at h
    swap
    · cases h
    rename_i hacc
    obtain ⟨⟨t, hm, hguid⟩, ⟨n, hpos, hmax, v, hv, hn⟩, c, hmem, hc⟩ := (accepts_named rfl rfl rfl).1 hacc
    rw [hresult hm hv hc fun base rules => convert_number.2 hn] at h
    exact ⟨t, _, c, ⟨hm, ⟨v, hv, hn⟩, hc⟩, ⟨hguid, ⟨n, hpos, hmax, rfl⟩, hmem⟩, (Option.some.inj h).symm⟩
  · rintro ⟨t, _, c, ⟨hm, ⟨v, hv, hn⟩, hc⟩, ⟨hguid, ⟨n, hpos, hmax, rfl⟩, hmem⟩, rfl⟩
    rw [if_pos ((accepts_named rfl rfl rfl).2 ⟨⟨t, hm, hguid⟩, ⟨n, hpos, hmax, v, hv, hn⟩, c, hmem, hc⟩),
      hresult hm hv hc fun base rules => convert_number.2 hn]
    rfl

end Body

/-! ## Which requests get past the handlers -/

/-- The correlation id of a request: the one it came with, or else the identifier. -/
def correlationIdOf (uuid : Uuid) (req : Request) : String := (req.header correlationIdHeader).getD uuid.uuidOut

/-- The parameters that `paymentIdParams` keeps. -/
def namedParams (params : List (String × String)) : List (String × String) :=
  params.filter fun t => (objectKeys paymentIdParams).any fun k => k.1 = utf16 t.1

/-- What is asked of the headers of every request. -/
structure Admitted (auth : Auth) (uuid : Uuid) (req : Request) : Prop where
  secret : req.header auth.header.text = some auth.secret
  correlationId : CorrelationIdHeader (correlationIdOf uuid req)

section Handlers

variable {joi : JoiRuntime} {auth : Auth} {uuid : Uuid} {req : Request} {x x' : Exchange}

theorem middleware_header :
    (correlationIdMiddleware uuid req).req.header correlationIdHeader = some (correlationIdOf uuid req) := by
  unfold correlationIdMiddleware correlationIdOf
  cases h : req.header correlationIdHeader with
  | some c => exact h
  | none =>
    rw [Request.header, textOf_append]
    rw [Request.header] at h
    rw [h]
    rfl

theorem middleware_other {name : String} (hname : name ≠ correlationIdHeader) :
    (correlationIdMiddleware uuid req).req.header name = req.header name := by
  unfold correlationIdMiddleware
  cases req.header correlationIdHeader with
  | some c => rfl
  | none =>
    rw [Request.header, textOf_append, Request.header]
    have hlast : textOf name [(correlationIdHeader, uuid.uuidOut)] = none := by simp [textOf, hname.symm]
    rw [hlast, Option.or_none]

theorem middleware_rest : (correlationIdMiddleware uuid req).req =
    { req with headers := (correlationIdMiddleware uuid req).req.headers } := by
  unfold correlationIdMiddleware
  cases req.header correlationIdHeader <;> rfl

theorem middleware_correlationId :
    (correlationIdMiddleware uuid req).correlationId = getValidCorrelationId (some (correlationIdOf uuid req)) := by
  unfold correlationIdMiddleware correlationIdOf
  cases req.header correlationIdHeader with
  | some c => rfl
  | none => exact (getValidCorrelationId_eq.2 ⟨rfl, uuidOut_correlationId uuid⟩).symm

theorem timingSafeEquals_iff {left : Option String} {right : String} (hne : right ≠ "") :
    timingSafeEquals left (some right) = true ↔ left = some right := by
  cases left with
  | none => simp [timingSafeEquals]
  | some left =>
    simp only [timingSafeEquals, Option.some.injEq]
    split
    · rename_i hempty
      refine ⟨fun h => (by cases h), ?_⟩
      rintro rfl
      exact absurd (or_self_iff.1 hempty) hne
    · split
      · rename_i hsize
        refine ⟨fun h => (by cases h), ?_⟩
        rintro rfl
        exact absurd rfl hsize
      · rw [decide_eq_true_iff]
        exact ⟨fun h => String.toByteArray_inj.1 (ByteArray.ext h), fun h => by rw [h]⟩

theorem KeyHeader.text_ne (k : KeyHeader) : k.text ≠ correlationIdHeader := by cases k <;> decide

theorem middleware_ok : auth.middleware (correlationIdMiddleware uuid req) = .ok x ↔
    req.header auth.header.text = some auth.secret ∧ x = correlationIdMiddleware uuid req := by
  rw [Auth.middleware, middleware_other auth.header.text_ne]
  split
  · rename_i h
    rw [timingSafeEquals_iff auth.secret_ne] at h
    exact ⟨fun heq => ⟨h, (Except.ok.inj heq).symm⟩, fun heq => by rw [heq.2]⟩
  · rename_i h
    rw [timingSafeEquals_iff auth.secret_ne] at h
    exact ⟨fun heq => (by cases heq), fun heq => absurd heq.1 h⟩

/-- What a request without the secret is answered. -/
def unauthorized (auth : Auth) (correlationId : String) : Response :=
  ⟨401, getValidCorrelationId (some correlationId), errorBody (.str (utf16 "UNAUTHORIZED")) (utf16 auth.message) .null
    (getValidCorrelationId (some correlationId))⟩

theorem receive_unauthorized {validation : RouteRequestValidation}
    (h : req.header auth.header.text ≠ some auth.secret) :
    receive joi auth validation uuid req = .error (unauthorized auth (correlationIdOf uuid req)) := by
  have hno : timingSafeEquals ((correlationIdMiddleware uuid req).req.header auth.header.text)
      (some auth.secret) = false := by
    rw [← Bool.not_eq_true, middleware_other auth.header.text_ne, timingSafeEquals_iff auth.secret_ne]
    exact h
  simp only [receive, Auth.middleware, hno, Bool.false_eq_true, if_false, Exchange.reject, Exchange.respond,
    middleware_correlationId, middleware_header]
  rfl

theorem validateSegment_ok {α : Type} {segment : RequestSegment} {schema : Option Schema}
    {validate : Schema → α → Option α}
    {json : α → Json JsString} {value result : α} :
    validateSegment joi x segment schema validate json value = .ok result ↔
    schema.elim (some value) (fun s => validate s value) = some result := by
  cases schema with
  | none => exact ⟨fun h => congrArg some (Except.ok.inj h), fun h => congrArg Except.ok (Option.some.inj h)⟩
  | some s =>
    simp only [validateSegment, Option.elim_some]
    cases validate s value with
    | none => simp
    | some r => exact ⟨fun h => congrArg some (Except.ok.inj h), fun h => congrArg Except.ok (Option.some.inj h)⟩

theorem createValidationHandler_ok {validation : RouteRequestValidation} :
    createValidationHandler joi validation x = .ok x' ↔ ∃ body params query headers,
      validation.body.elim (some x.req.body) (joi.validateObject · x.req.body) = some body ∧
      validation.params.elim (some x.req.params) (validateTexts true · x.req.params) = some params ∧
      validation.query.elim (some x.req.query) (joi.validateObject · x.req.query) = some query ∧
      validation.headers.elim (some x.req.headers) (validateTexts false · x.req.headers) = some headers ∧
      x' = { x with req := ⟨headers, params, query, body⟩ } := by
  constructor
  · intro h
    obtain ⟨body, hbody, h⟩ := ok_of_bind h
    obtain ⟨params, hparams, h⟩ := ok_of_bind h
    obtain ⟨query, hquery, h⟩ := ok_of_bind h
    obtain ⟨headers, hheaders, h⟩ := ok_of_bind h
    exact ⟨body, params, query, headers, validateSegment_ok.1 hbody, validateSegment_ok.1 hparams,
      validateSegment_ok.1 hquery, validateSegment_ok.1 hheaders, (Except.ok.inj h).symm⟩
  · rintro ⟨body, params, query, headers, hbody, hparams, hquery, hheaders, rfl⟩
    simp only [createValidationHandler, validateSegment_ok.2 hbody, validateSegment_ok.2 hparams,
      validateSegment_ok.2 hquery, validateSegment_ok.2 hheaders, bind, Except.bind]
    rfl

theorem receive_ok {validation : RouteRequestValidation} : receive joi auth validation uuid req = .ok x ↔
    req.header auth.header.text = some auth.secret ∧
      createValidationHandler joi validation (correlationIdMiddleware uuid req) = .ok x := by
  constructor
  · intro h
    obtain ⟨x', hx', h⟩ := ok_of_bind h
    obtain ⟨hsecret, rfl⟩ := middleware_ok.1 hx'
    exact ⟨hsecret, h⟩
  · rintro ⟨hsecret, h⟩
    rw [receive, middleware_ok.2 ⟨hsecret, rfl⟩]
    exact h

theorem validateTexts_headers {schema : Schema} {headers result : List (String × String)} :
    validateTexts false schema headers = some result ↔ accepts test schema (.obj (object headers)) = true ∧
    result = headers := by
  simp only [validateTexts, Bool.false_eq_true, if_false]
  split
  · rename_i h
    exact ⟨fun heq => ⟨h, (Option.some.inj heq).symm⟩, fun heq => by rw [heq.2]⟩
  · rename_i h
    exact ⟨fun heq => (by cases heq), fun heq => absurd heq.1 h⟩

theorem textOf_namedParams (params : List (String × String)) :
    textOf "paymentId" (namedParams params) = textOf "paymentId" params :=
  textOf_filter fun t _ ht => by
    rw [ht]
    decide +kernel

theorem validateTexts_paymentId {params result : List (String × String)} :
    validateTexts true paymentIdParams params = some result ↔
    (∃ id, textOf "paymentId" params = some id ∧ (Uuid.guid? id).isSome = true) ∧ result = namedParams params := by
  have hplain : ∀ k ∈ objectKeys paymentIdParams, k.1 ≠ proto := by
    simp only [objectKeys, paymentIdParams, List.forall_mem_cons, List.not_mem_nil,
      false_implies, implies_true, and_true]
    decide +kernel
  have hknown : ∀ m ∈ object (namedParams params), ∃ k ∈ objectKeys paymentIdParams, k.1 = m.1 := by
    intro m hm
    obtain ⟨t, ht, rfl⟩ := List.mem_map.1 hm
    obtain ⟨k, hk, heq⟩ := List.any_eq_true.1 (List.mem_filter.1 ht).2
    exact ⟨k, hk, of_decide_eq_true heq⟩
  have haccepts : accepts test paymentIdParams (.obj (object (namedParams params))) = true ↔
      ∃ id, textOf "paymentId" params = some id ∧ (Uuid.guid? id).isSome = true := by
    refine (@accepts_object_iff test _ false _ hplain (.inr hknown)).trans ?_
    simp only [objectKeys, paymentIdParams, List.forall_mem_cons, List.not_mem_nil,
      false_implies, implies_true, and_true]
    rw [key_iff (by decide), textOf_namedParams]
    simp only [accepts_guid]
    constructor
    · rintro ⟨hall, hsome⟩
      obtain ⟨id, hid⟩ := hsome rfl
      obtain ⟨t, ht, hguid⟩ := hall id hid
      exact ⟨id, hid, by rwa [utf16_inj ht]⟩
    · rintro ⟨id, hid, hguid⟩
      refine ⟨fun t ht => ⟨t, rfl, ?_⟩, fun _ => ⟨id, hid⟩⟩
      rwa [← Option.some.inj (hid.symm.trans ht)]
  simp only [validateTexts, if_true]
  split
  · rename_i h
    exact ⟨fun heq => ⟨haccepts.1 h, (Option.some.inj heq).symm⟩, fun heq => by rw [heq.2]; rfl⟩
  · rename_i h
    exact ⟨fun heq => (by cases heq), fun heq => absurd (haccepts.2 heq.1) h⟩

theorem commandHeaders_iff (hsecret : req.header auth.header.text = some auth.secret) :
    accepts test (commandHeaders auth.header.text) (.obj (object (correlationIdMiddleware uuid req).req.headers)) =
      true ↔ CorrelationIdHeader (correlationIdOf uuid req) ∧
      ∃ key, req.header "idempotency-key" = some key ∧ IdempotencyKeyHeader key := by
  have hkey := @middleware_other uuid req _ auth.header.text_ne
  have hidempotency := @middleware_other uuid req "idempotency-key" (by decide)
  have hcorrelation := @middleware_header uuid req
  rw [Request.header] at hkey hidempotency hcorrelation
  rw [accepts_commandHeaders, hkey, hidempotency, hcorrelation, hsecret]
  simp only [Option.some.injEq, forall_eq', exists_eq_left', auth.secret_ne, ne_eq,
    not_false_eq_true, true_and, and_comm]

theorem getByIdHeaders_iff (hsecret : req.header auth.header.text = some auth.secret) :
    accepts test (getByIdHeaders auth.header.text) (.obj (object (correlationIdMiddleware uuid req).req.headers)) =
      true ↔ CorrelationIdHeader (correlationIdOf uuid req) := by
  have hkey := @middleware_other uuid req _ auth.header.text_ne
  have hcorrelation := @middleware_header uuid req
  rw [Request.header] at hkey hcorrelation
  rw [accepts_getByIdHeaders, hkey, hcorrelation, hsecret]
  simp only [Option.some.injEq, forall_eq', exists_eq_left', auth.secret_ne, ne_eq, not_false_eq_true, true_and]

/-- The response of an admitted request names its correlation id. -/
theorem Admitted.exchange (h : Admitted auth uuid req) :
    correlationIdMiddleware uuid req = ⟨(correlationIdMiddleware uuid req).req, some (correlationIdOf uuid req)⟩ := by
  rw [← getValidCorrelationId_eq.2 ⟨rfl, h.correlationId⟩, ← middleware_correlationId]

/-- A request to create gets past the handlers with the secret, valid headers and a body that has accepted
values; the controller is given these. -/
theorem createReceived_iff : receive joi auth (PaymentRoute.create.validation auth.header) uuid req = .ok x ↔
    Admitted auth uuid req ∧ (∃ key, req.header "idempotency-key" = some key ∧ IdempotencyKeyHeader key) ∧
    ∃ merchantId amountMinor currency, CreateBody joi req.body merchantId amountMinor currency ∧
      CreateValues merchantId amountMinor currency ∧
      x = ⟨{ (correlationIdMiddleware uuid req).req with body := createObject merchantId amountMinor currency },
        some (correlationIdOf uuid req)⟩ := by
  rw [receive_ok, createValidationHandler_ok]
  simp only [PaymentRoute.validation, Option.elim_some, Option.elim_none, validateTexts_headers, Option.some.injEq]
  constructor
  · rintro ⟨hsecret, body, _, _, _, hbody, rfl, rfl, ⟨hheaders, rfl⟩, rfl⟩
    obtain ⟨hcorrelation, hkey⟩ := (commandHeaders_iff hsecret).1 hheaders
    have hadmitted : Admitted auth uuid req := ⟨hsecret, hcorrelation⟩
    rw [middleware_rest] at hbody
    obtain ⟨m, a, c, hcreate, hvalues, rfl⟩ := validateObject_create.1 hbody
    exact ⟨hadmitted, hkey, m, a, c, hcreate, hvalues, by rw [hadmitted.exchange]⟩
  · rintro ⟨hadmitted, hkey, m, a, c, hcreate, hvalues, rfl⟩
    have hbody : joi.validateObject createBody (correlationIdMiddleware uuid req).req.body =
        some (createObject m a c) := by
      rw [middleware_rest]
      exact validateObject_create.2 ⟨m, a, c, hcreate, hvalues, rfl⟩
    exact ⟨hadmitted.secret, _, _, _, _, hbody, rfl, rfl,
      ⟨(commandHeaders_iff hadmitted.secret).2 ⟨hadmitted.correlationId, hkey⟩, rfl⟩, by rw [hadmitted.exchange]⟩

/-- The same of a request for a payment. -/
theorem getByIdReceived_iff : receive joi auth (PaymentRoute.getById.validation auth.header) uuid req = .ok x ↔
    Admitted auth uuid req ∧ (∃ id, req.param "paymentId" = some id ∧ (Uuid.guid? id).isSome = true) ∧
      x = ⟨{ (correlationIdMiddleware uuid req).req with params := namedParams req.params },
        some (correlationIdOf uuid req)⟩ := by
  rw [receive_ok, createValidationHandler_ok]
  simp only [PaymentRoute.validation, Option.elim_some, Option.elim_none, validateTexts_headers,
    validateTexts_paymentId, Option.some.injEq]
  have hparams : (correlationIdMiddleware uuid req).req.params = req.params := by rw [middleware_rest]
  rw [hparams]
  constructor
  · rintro ⟨hsecret, _, _, _, _, rfl, ⟨hid, rfl⟩, rfl, ⟨hheaders, rfl⟩, rfl⟩
    have hadmitted : Admitted auth uuid req := ⟨hsecret, (getByIdHeaders_iff hsecret).1 hheaders⟩
    exact ⟨hadmitted, hid, by rw [hadmitted.exchange]⟩
  · rintro ⟨hadmitted, hid, rfl⟩
    exact ⟨hadmitted.secret, _, _, _, _, rfl, ⟨hid, rfl⟩, rfl,
      ⟨(getByIdHeaders_iff hadmitted.secret).2 hadmitted.correlationId, rfl⟩, by rw [hadmitted.exchange]⟩

/-- And of a request to capture one. -/
theorem captureReceived_iff : receive joi auth (PaymentRoute.capture.validation auth.header) uuid req = .ok x ↔
    Admitted auth uuid req ∧ (∃ key, req.header "idempotency-key" = some key ∧ IdempotencyKeyHeader key) ∧
      (∃ id, req.param "paymentId" = some id ∧ (Uuid.guid? id).isSome = true) ∧
      x = ⟨{ (correlationIdMiddleware uuid req).req with params := namedParams req.params },
        some (correlationIdOf uuid req)⟩ := by
  rw [receive_ok, createValidationHandler_ok]
  simp only [PaymentRoute.validation, Option.elim_some, Option.elim_none, validateTexts_headers,
    validateTexts_paymentId, Option.some.injEq]
  have hparams : (correlationIdMiddleware uuid req).req.params = req.params := by rw [middleware_rest]
  rw [hparams]
  constructor
  · rintro ⟨hsecret, _, _, _, _, rfl, ⟨hid, rfl⟩, rfl, ⟨hheaders, rfl⟩, rfl⟩
    obtain ⟨hcorrelation, hkey⟩ := (commandHeaders_iff hsecret).1 hheaders
    have hadmitted : Admitted auth uuid req := ⟨hsecret, hcorrelation⟩
    exact ⟨hadmitted, hkey, hid, by rw [hadmitted.exchange]⟩
  · rintro ⟨hadmitted, hkey, hid, rfl⟩
    exact ⟨hadmitted.secret, _, _, _, _, rfl, ⟨hid, rfl⟩, rfl,
      ⟨(commandHeaders_iff hadmitted.secret).2 ⟨hadmitted.correlationId, hkey⟩, rfl⟩, by rw [hadmitted.exchange]⟩

theorem received_correlationId {route : PaymentRoute}
    (h : receive joi auth (route.validation auth.header) uuid req = .ok x) :
    x.correlationId = some (correlationIdOf uuid req) ∧ x.req.header correlationIdHeader =
      some (correlationIdOf uuid req) := by
  cases route with
  | create =>
    obtain ⟨-, -, m, a, c, -, -, rfl⟩ := createReceived_iff.1 h
    exact ⟨rfl, middleware_header⟩
  | getById =>
    obtain ⟨-, -, rfl⟩ := getByIdReceived_iff.1 h
    exact ⟨rfl, middleware_header⟩
  | capture =>
    obtain ⟨-, -, -, rfl⟩ := captureReceived_iff.1 h
    exact ⟨rfl, middleware_header⟩

end Handlers

end PaymentOrchestration.Http
