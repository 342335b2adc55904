/-
The published contracts of the events (docs/contracts/events), and whether the stored events satisfy them.
The checks of `OutboxService` and of the routes cover every member but one: the reference of a declined
authorization is passed on as the provider gave it, and the contract does not allow an empty one.
-/
import PaymentOrchestration.Lib.JsonSchema
import PaymentOrchestration.Shape
import PaymentOrchestration.Replay

namespace PaymentOrchestration

open Lib IdempotencyService OutboxService PaymentsService

/-! ## The schema files -/

namespace Contract

def text (keywords : List JsonSchema) : JsonSchema := .allOf (.type .string :: keywords)

def uuidText : JsonSchema := text [.format .uuid]

def dateTimeText : JsonSchema := text [.format .dateTime]

def nonEmptyText : JsonSchema := text [.minLength 1]

/-- The pattern `^[!-~]+$`. -/
def isGraphic (s : String) : Bool := s.toList ≠ [] ∧ s.toList.all fun c => '!' ≤ c ∧ c ≤ '~'

/-- The members all three payloads have. -/
def paymentMembers : List (String × JsonSchema) :=
  [("paymentId", uuidText), ("merchantId", uuidText),
    ("amountMinor", .allOf [.type .integer, .minimum 1, .maximum 1000000000000]),
    ("currency", text [.enum [.str "TRY", .str "USD", .str "EUR"]]), ("provider", nonEmptyText)]

/-- An object that has the members at least. -/
def object (members : List (String × JsonSchema)) (keywords : List JsonSchema) : JsonSchema := .allOf (
  .type .object :: .required (members.map Prod.fst) :: .properties members :: keywords)

/-- The envelope, which the three files share but for the event type and the payload. -/
def envelope (eventType : String) (payload : JsonSchema) : JsonSchema := object
  [("eventId", uuidText), ("eventType", .const (.str eventType)), ("eventVersion", .const (.num (Number.ofInt 1))),
    ("source", .const (.str "payment-service")),
    ("correlationId", text [.minLength 1, .maxLength 128, .pattern isGraphic]), ("occurredAt", dateTimeText),
    ("aggregateType", .const (.str "payment")), ("aggregateId", uuidText), ("payload", payload)] []

/-- payment-authorized.v1.schema.json. -/
def paymentAuthorized : JsonSchema := envelope "payment.authorized.v1" <| object
  (paymentMembers ++ [("providerPaymentId", nonEmptyText), ("authorizedAt", dateTimeText)]) []

/-- payment-captured.v1.schema.json. -/
def paymentCaptured : JsonSchema := envelope "payment.captured.v1" <| object
  (paymentMembers ++ [("providerPaymentId", nonEmptyText), ("capturedAt", dateTimeText)]) []

/-- The status that goes with an operation. -/
def statusOf (operation status : String) : JsonSchema := .ifThen
  (.allOf [.properties [("operation", .const (.str operation))], .required ["operation"]])
  (.properties [("status", .const (.str status))])

/-- payment-failed.v1.schema.json. -/
def paymentFailed : JsonSchema := envelope "payment.failed.v1" <| object
  (paymentMembers ++ [("providerPaymentId", .anyOf [nonEmptyText, .type .null]),
    ("operation", text [.enum [.str "AUTHORIZE", .str "CAPTURE"]]),
    ("status", text [.enum [.str "FAILED", .str "CAPTURE_FAILED"]]), ("failureCode", nonEmptyText),
    ("failureMessage", nonEmptyText), ("failedAt", dateTimeText)])
  [.allOf [statusOf "AUTHORIZE" "FAILED", statusOf "CAPTURE" "CAPTURE_FAILED"]]

/-- The schema file of an event type. -/
def schema? (eventType : String) : Option JsonSchema :=
  if eventType = "payment.authorized.v1" then some paymentAuthorized
  else if eventType = "payment.captured.v1" then some paymentCaptured
  else if eventType = "payment.failed.v1" then some paymentFailed
  else none

end Contract

/-- A stored event satisfies the schema of its type, and agrees with its row. -/
structure OutboxEventRecord.Conforms (e : OutboxEventRecord) : Prop where
  valid : ∃ schema, Contract.schema? e.eventType = some schema ∧ schema.valid e.payload = true
  eventType : e.payload.member "eventType" = some (.str e.eventType)
  routingKey : e.routingKey = e.eventType
  eventId : e.payload.member "eventId" = some (.str e.id.uuidOut)
  aggregateId : e.payload.member "aggregateId" = some (.str e.aggregateId.uuidOut)
  paymentId : (e.payload.member "payload").bind (Json.member "paymentId") = some (.str e.aggregateId.uuidOut)

/-- The reference in the event's payload is not the empty text. -/
def OutboxEventRecord.Referenced (e : OutboxEventRecord) : Prop :=
  (e.payload.member "payload").bind (Json.member "providerPaymentId") ≠ some (.str "")

/-- What the contracts need of a payment's row. -/
structure PaymentRecord.Conforms (p : PaymentRecord) : Prop where
  positive : 0 < p.amountMinor
  bounded : p.amountMinor ≤ amountMinorMax
  currency : p.currency ∈ currencies
  provider : p.provider.toList ≠ []
  instants : ∀ t, p.authorizedAt = some t ∨ p.capturedAt = some t ∨ p.failedAt = some t → Date.InRange (toDate t)

/-- The reference that an event of a failure reports is not empty. -/
def OutboxService.Recording.Referenced (recording : Recording) (reference : Option String) : Prop :=
  (∃ operation, recording = .paymentFailed operation) → ∀ r, reference = some r → r.toList ≠ []

/-! ## Validity, member by member -/

namespace Contract

open JsonSchema

theorem text_valid {s : String} {keywords : List JsonSchema} (h : ∀ k ∈ keywords, k.valid (.str s) = true) :
    (text keywords).valid (.str s) = true := by
  rw [text, valid_allOf, List.forall_mem_cons]
  exact ⟨by rw [valid, JsonType.holds], h⟩

theorem uuidText_valid (u : Uuid) : uuidText.valid (.str u.uuidOut) = true := by
  refine text_valid (List.forall_mem_singleton.2 ?_)
  rw [valid_format]
  exact Uuid.isCanonical_uuidOut u

theorem dateTimeText_valid {t : Millis} (h : Date.InRange t) :
    dateTimeText.valid (.str (Date.toISOString t)) = true := by
  refine text_valid (List.forall_mem_singleton.2 ?_)
  rw [valid_format, Format.holds]
  exact Date.isDateTime_toISOString h

theorem nonEmptyText_valid {s : String} (h : s.toList ≠ []) : nonEmptyText.valid (.str s) = true := by
  refine text_valid (List.forall_mem_singleton.2 ?_)
  rw [valid_minLength, decide_eq_true_eq]
  exact List.length_pos_iff.2 h

theorem amount_valid {z : Int} (h0 : 0 < z) (h1 : z ≤ amountMinorMax) :
    (JsonSchema.allOf [.type .integer, .minimum 1, .maximum 1000000000000]).valid (.num (Number.ofInt z)) = true := by
  have h1 : z ≤ 1000000000000 := h1
  rw [valid_allOf]
  simp only [List.forall_mem_cons, valid_integer, valid_minimum, valid_maximum, decide_eq_true_eq]
  exact ⟨trivial, by omega, h1, nofun⟩

theorem currency_valid {s : String} (h : s ∈ currencies) :
    (text [.enum [.str "TRY", .str "USD", .str "EUR"]]).valid (.str s) = true := by
  simp only [currencies, List.mem_cons, List.not_mem_nil, or_false] at h
  rcases h with rfl | rfl | rfl <;> decide

theorem const_valid (s : String) : (const (.str s)).valid (.str s) = true := by
  simp [valid, Json.sameScalar]

theorem correlationId_valid {s : String} (h : CorrelationIdHeader s) :
    (text [.minLength 1, .maxLength 128, .pattern isGraphic]).valid (.str s) = true := by
  have hmax := (length_le_jsLength s).trans h.max
  have hne : s.toList ≠ [] := by
    intro hs
    have hmin := h.min
    rw [jsLength, JsString.utf16, hs] at hmin
    exact absurd hmin (by decide)
  refine text_valid ?_
  simp only [List.forall_mem_cons, valid_minLength, valid_maxLength, valid_pattern, decide_eq_true_eq]
  refine ⟨List.length_pos_iff.2 hne, hmax, ?_, nofun⟩
  rw [isGraphic, decide_eq_true_eq]
  exact ⟨hne, h.pattern⟩

/-- A stored member that satisfies its schema. -/
theorem property_valid {members : List (String × Json String)} (hnd : (members.map Prod.fst).Nodup) {k : String}
    {x : Json String} {schema : JsonSchema} (hk : Json.lookup k members = some x) (hx : schema.valid x.jsonb = true) :
    ∀ w, (Json.obj members).jsonb.member k = some w → schema.valid w = true := by
  intro w hw
  rw [Json.member_jsonb hnd, hk, Option.map_some] at hw
  obtain rfl := Option.some.inj hw
  exact hx

theorem required_valid {members : List (String × Json String)} (hnd : (members.map Prod.fst).Nodup)
    {names : List String}
    (h : ∀ k ∈ names, (Json.lookup k members).isSome = true) :
    (required names).valid (Json.obj members).jsonb = true := by
  have hall : (names.all fun name => ((Json.obj members).jsonb.member name).isSome) = true := by
    rw [List.all_eq_true]
    intro k hk
    rw [Json.member_jsonb hnd, Option.isSome_map]
    exact h k hk
  rw [valid, hall, Bool.or_true]

/-- A stored object is valid when its members are. -/
theorem object_valid {members : List (String × Json String)} (hnd : (members.map Prod.fst).Nodup)
    {schemas : List (String × JsonSchema)} {keywords : List JsonSchema}
    (h : ∀ m ∈ schemas, ∃ x, Json.lookup m.1 members = some x ∧ m.2.valid x.jsonb = true)
    (hkeywords : ∀ k ∈ keywords, k.valid (Json.obj members).jsonb = true) :
    (object schemas keywords).valid (Json.obj members).jsonb = true := by
  rw [object, valid_allOf, List.forall_mem_cons, List.forall_mem_cons, List.forall_mem_cons]
  refine ⟨rfl, required_valid hnd ?_, valid_properties.2 ?_, hkeywords⟩
  · intro k hk
    obtain ⟨m, hm, rfl⟩ := List.mem_map.1 hk
    obtain ⟨x, hx, -⟩ := h m hm
    rw [hx]; rfl
  · intro m hm
    obtain ⟨x, hx, hv⟩ := h m hm
    exact property_valid hnd hx hv

/-- The members of a valid object are. -/
theorem member_valid {v : Json String} {schemas : List (String × JsonSchema)} {keywords : List JsonSchema}
    (h : (object schemas keywords).valid v = true) :
    ∀ m ∈ schemas, ∀ w, v.member m.1 = some w → m.2.valid w = true := by
  have hproperties : (properties schemas).valid v = true := valid_allOf.1 h _ (by simp)
  exact valid_properties.1 hproperties

/-- No schema for the reference of an event allows the empty text. -/
theorem empty_invalid : nonEmptyText.valid (.str "") = false ∧
    (JsonSchema.anyOf [nonEmptyText, .type .null]).valid (.str "") = false := by
  decide

/-- An event whose payload has a schema for the reference that does not allow the empty text. -/
theorem envelope_referenced {eventType : String} {v : Json String} {schema : JsonSchema}
    {schemas : List (String × JsonSchema)} {keywords : List JsonSchema} (hempty : schema.valid (.str "") = false)
    (hschema : ("providerPaymentId", schema) ∈ schemas)
    (h : (envelope eventType (object schemas keywords)).valid v = true) :
    (v.member "payload").bind (Json.member "providerPaymentId") ≠ some (.str "") := by
  intro hv
  obtain ⟨payload, hpayload, hreference⟩ := Option.bind_eq_some_iff.1 hv
  have hvalid := member_valid h ("payload", object schemas keywords) (by simp) payload hpayload
  have hinvalid := member_valid hvalid _ hschema _ hreference
  rw [hempty] at hinvalid; cases hinvalid

/-! ## The events of a payment that conforms -/

section Events

variable {p : PaymentRecord} {rest members : List (String × Json String)}

theorem paymentMembers_valid (hp : p.Conforms) : ∀ m ∈ paymentMembers, ∃ x,
    Json.lookup m.1 (buildPaymentPayload p ++ rest) = some x ∧ m.2.valid x.jsonb = true := by
  simp only [paymentMembers, List.forall_mem_cons]
  refine ⟨⟨_, rfl, uuidText_valid p.id⟩, ⟨_, rfl, uuidText_valid p.merchantId⟩,
    ⟨_, rfl, amount_valid hp.positive hp.bounded⟩, ⟨_, rfl, currency_valid hp.currency⟩,
    ⟨_, rfl, nonEmptyText_valid hp.provider⟩, nofun⟩

theorem authorized_valid (hp : p.Conforms) (h : authorizedPayload p = .ok members) :
    (object (paymentMembers ++ [("providerPaymentId", nonEmptyText), ("authorizedAt", dateTimeText)]) []).valid
      (Json.obj members).jsonb = true := by
  have hnd := @Recording.payload_nodup .paymentAuthorized p members h
  obtain ⟨reference, authorizedAt, href, hat, rfl⟩ := authorizedPayload_ok h
  obtain ⟨-, hne⟩ := requireNonEmptyString_ok href
  obtain ⟨t, hset, rfl⟩ := toIsoTimestamp_ok hat
  refine object_valid hnd (List.forall_mem_append.2 ⟨paymentMembers_valid hp, ?_⟩) nofun
  simp only [List.forall_mem_cons]
  exact ⟨⟨_, rfl, nonEmptyText_valid hne⟩, ⟨_, rfl, dateTimeText_valid (hp.instants t (.inl hset))⟩, nofun⟩

theorem captured_valid (hp : p.Conforms) (h : capturedPayload p = .ok members) :
    (object (paymentMembers ++ [("providerPaymentId", nonEmptyText), ("capturedAt", dateTimeText)]) []).valid
      (Json.obj members).jsonb = true := by
  have hnd := @Recording.payload_nodup .paymentCaptured p members h
  obtain ⟨reference, capturedAt, href, hat, rfl⟩ := capturedPayload_ok h
  obtain ⟨-, hne⟩ := requireNonEmptyString_ok href
  obtain ⟨t, hset, rfl⟩ := toIsoTimestamp_ok hat
  refine object_valid hnd (List.forall_mem_append.2 ⟨paymentMembers_valid hp, ?_⟩) nofun
  simp only [List.forall_mem_cons]
  exact ⟨⟨_, rfl, nonEmptyText_valid hne⟩, ⟨_, rfl, dateTimeText_valid (hp.instants t (.inr (.inl hset)))⟩, nofun⟩

theorem reference_valid (href : ∀ r, p.providerPaymentId = some r → r.toList ≠ []) :
    (JsonSchema.anyOf [nonEmptyText, .type .null]).valid (nullableText p.providerPaymentId).jsonb = true := by
  rw [valid_anyOf]
  cases hr : p.providerPaymentId with
  | none => exact ⟨.type .null, by simp, rfl⟩
  | some reference => exact ⟨nonEmptyText, by simp, nonEmptyText_valid (href reference hr)⟩

/-- The status of a failure is the one that goes with its operation. -/
theorem statusOf_valid {operation : Operation} (o : Operation) (hnd : (members.map Prod.fst).Nodup)
    (hop : Json.lookup "operation" members = some (.str operation.text))
    (hstatus : Json.lookup "status" members = some (.str operation.status)) :
    (statusOf o.text o.status).valid (Json.obj members).jsonb = true := by
  rw [statusOf, valid, Bool.or_eq_true, Bool.not_eq_true']
  by_cases h : operation = o
  · subst h
    right
    rw [valid_properties]
    simp only [List.forall_mem_singleton]
    exact property_valid hnd hstatus (const_valid _)
  · left
    rw [← Bool.not_eq_true]
    intro hc
    have hconst := valid_properties.1 (valid_allOf.1 hc _ List.mem_cons_self) _ (List.mem_singleton.2 rfl)
      (.str operation.text) (by rw [Json.member_jsonb hnd, hop]; rfl)
    revert h hconst
    cases operation <;> cases o <;> decide

theorem failed_valid {operation : Operation} (hp : p.Conforms)
    (href : ∀ r, p.providerPaymentId = some r → r.toList ≠ []) (h : failedPayload operation p = .ok members) :
    (object (paymentMembers ++ [("providerPaymentId", .anyOf [nonEmptyText, .type .null]),
        ("operation", text [.enum [.str "AUTHORIZE", .str "CAPTURE"]]),
        ("status", text [.enum [.str "FAILED", .str "CAPTURE_FAILED"]]), ("failureCode", nonEmptyText),
        ("failureMessage", nonEmptyText), ("failedAt", dateTimeText)])
      [.allOf [statusOf "AUTHORIZE" "FAILED", statusOf "CAPTURE" "CAPTURE_FAILED"]]).valid
      (Json.obj members).jsonb = true := by
  have hnd := @Recording.payload_nodup (.paymentFailed operation) p members h
  obtain ⟨code, message, failedAt, hcode, hmessage, hat, rfl⟩ := failedPayload_ok h
  obtain ⟨-, hcode⟩ := requireNonEmptyString_ok hcode
  obtain ⟨-, hmessage⟩ := requireNonEmptyString_ok hmessage
  obtain ⟨t, hset, rfl⟩ := toIsoTimestamp_ok hat
  refine object_valid hnd (List.forall_mem_append.2 ⟨paymentMembers_valid hp, ?_⟩) ?_
  · simp only [List.forall_mem_cons]
    refine ⟨⟨_, rfl, reference_valid href⟩, ⟨_, rfl, ?_⟩, ⟨_, rfl, ?_⟩, ⟨_, rfl, nonEmptyText_valid hcode⟩,
      ⟨_, rfl, nonEmptyText_valid hmessage⟩, ⟨_, rfl, dateTimeText_valid (hp.instants t (.inr (.inr hset)))⟩, nofun⟩
    · cases operation <;> decide
    · cases operation <;> decide
  · rw [List.forall_mem_singleton, valid_allOf]
    simp only [List.forall_mem_cons]
    exact ⟨statusOf_valid .authorize hnd rfl rfl, statusOf_valid .capture hnd rfl rfl, nofun⟩

/-- The stored envelope of a payload that is valid. -/
theorem envelope_valid {eventId : Uuid} {eventType correlationId : String} {occurredAt : Millis} {schema : JsonSchema}
    (hcorrelation : CorrelationIdHeader correlationId) (hat : Date.InRange occurredAt)
    (h : schema.valid (Json.obj members).jsonb = true) :
    (envelope eventType schema).valid
    (OutboxService.envelope eventId eventType correlationId occurredAt p members).jsonb = true := by
  refine object_valid (envelope_nodup rfl) ?_ nofun
  simp only [List.forall_mem_cons]
  refine ⟨⟨_, rfl, uuidText_valid eventId⟩, ⟨_, rfl, const_valid _⟩, ⟨_, rfl, by decide⟩, ⟨_, rfl, const_valid _⟩,
    ⟨_, rfl, correlationId_valid hcorrelation⟩, ⟨_, rfl, dateTimeText_valid hat⟩, ⟨_, rfl, const_valid _⟩,
    ⟨_, rfl, uuidText_valid p.id⟩, ⟨_, rfl, h⟩, nofun⟩

end Events

end Contract

theorem Recording.paymentId {recording : Recording} {p : PaymentRecord} {members : List (String × Json String)}
    (h : recording.payload p = .ok members) : Json.lookup "paymentId" members = some (.str p.id.uuidOut) := by
  cases recording with
  | paymentAuthorized => obtain ⟨_, _, -, -, rfl⟩ := authorizedPayload_ok h; rfl
  | paymentCaptured => obtain ⟨_, _, -, -, rfl⟩ := capturedPayload_ok h; rfl
  | paymentFailed operation => obtain ⟨_, _, _, -, -, -, rfl⟩ := failedPayload_ok h; rfl

/-- The event that is recorded of a payment that conforms. -/
theorem OutboxService.Recorded.conforms {recording : Recording} {env : Env} {correlationId : String} {p : PaymentRecord}
    {e : OutboxEventRecord} (h : Recorded recording env correlationId p e) (hp : p.Conforms)
    (href : recording.Referenced p.providerPaymentId) (hcorrelation : CorrelationIdHeader correlationId)
    (hnow : Date.InRange env.now) : e.Conforms := by
  obtain ⟨members, hm, hpayload⟩ := h.payload
  have hschema : ∃ schema, Contract.schema? recording.eventType = some schema ∧ schema.valid e.payload = true := by
    rw [hpayload]
    cases recording with
    | paymentAuthorized => exact ⟨_, rfl, Contract.envelope_valid hcorrelation hnow (Contract.authorized_valid hp hm)⟩
    | paymentCaptured => exact ⟨_, rfl, Contract.envelope_valid hcorrelation hnow (Contract.captured_valid hp hm)⟩
    | paymentFailed operation =>
      exact ⟨_, rfl, Contract.envelope_valid hcorrelation hnow (Contract.failed_valid hp (href ⟨operation, rfl⟩) hm)⟩
  have hpaymentId : (Json.obj members).jsonb.member "paymentId" = some (.str p.id.uuidOut) := by
    rw [Json.member_jsonb (Recording.payload_nodup hm), Recording.paymentId hm]; rfl
  constructor
  · rw [h.eventType]; exact hschema
  · rw [hpayload, h.eventType]
    exact (Json.member_jsonb (envelope_nodup rfl) "eventType").trans rfl
  · rw [h.routingKey, h.eventType]
  · rw [hpayload, h.id]
    exact (Json.member_jsonb (envelope_nodup rfl) "eventId").trans rfl
  · rw [hpayload, h.aggregateId]
    exact (Json.member_jsonb (envelope_nodup rfl) "aggregateId").trans rfl
  · rw [hpayload, envelope_payload, Option.bind_some, hpaymentId, h.aggregateId]

/-- No event with an empty reference satisfies its schema. -/
theorem OutboxEventRecord.Conforms.referenced {e : OutboxEventRecord} (h : e.Conforms) : e.Referenced := by
  obtain ⟨schema, hschema, hvalid⟩ := h.valid
  obtain ⟨hnonEmpty, hnullable⟩ := Contract.empty_invalid
  unfold Contract.schema? at hschema
  split at hschema
  · cases hschema
    exact Contract.envelope_referenced hnonEmpty (by simp) hvalid
  split at hschema
  · cases hschema
    exact Contract.envelope_referenced hnonEmpty (by simp) hvalid
  split at hschema
  · cases hschema
    exact Contract.envelope_referenced hnullable (by simp) hvalid
  · cases hschema

/-- The event that is recorded of a payment that conforms does exactly if its reference is not empty. -/
theorem OutboxService.Recorded.conforms_iff {recording : Recording} {env : Env} {correlationId : String}
    {p : PaymentRecord} {e : OutboxEventRecord} (h : Recorded recording env correlationId p e) (hp : p.Conforms)
    (hcorrelation : CorrelationIdHeader correlationId) (hnow : Date.InRange env.now) :
    e.Conforms ↔ e.Referenced := by
  refine ⟨OutboxEventRecord.Conforms.referenced, fun href => h.conforms hp ?_ hcorrelation hnow⟩
  rintro ⟨operation, rfl⟩ r hr hempty
  obtain rfl := String.toList_eq_nil_iff.1 hempty
  refine href ?_
  -- the payload has the payment's reference as it is
  obtain ⟨members, hm, hpayload⟩ := h.payload
  have hnd := Recording.payload_nodup hm
  obtain ⟨code, message, failedAt, -, -, -, rfl⟩ := failedPayload_ok hm
  rw [hpayload, envelope_payload, Option.bind_some, Json.member_jsonb hnd]
  have hmember : ∀ rest : List (String × Json String), Json.lookup "providerPaymentId" (buildPaymentPayload p ++
      ("providerPaymentId", nullableText p.providerPaymentId) :: rest) = some (nullableText p.providerPaymentId) :=
    fun _ => rfl
  rw [hmember, hr]
  rfl

/-! ## What calls insert and update -/

/-- What the contracts need of the payment that `create` inserts. -/
structure InsertPaymentRecord.Conforms (r : InsertPaymentRecord) : Prop where
  amountMinor : ∃ n : Nat, n ≤ amountMinorMax ∧ bigintIn r.amountMinor = some n
  provider : r.provider.toList ≠ []
  instants : ∀ t, r.authorizedAt = some t ∨ r.failedAt = some t → Date.InRange t

/-- The same of what a call awaits. With `R`, no reference is empty. -/
def Await.Conforms (R : Prop) : Await → Prop
  | .authorize _ command => command.Accepted
  | .insertPayment _ record recording => record.Conforms ∧ (R → recording.Referenced record.providerPaymentId)
  | .updateStatusIfAuthorized _ input _ => ∀ t, input.capturedAt = some t ∨ input.failedAt = some t → Date.InRange t
  | .recordEvent _ payment recording => payment.Conforms ∧ (R → recording.Referenced payment.providerPaymentId)
  | _ => True

/-- The same of what a statement writes. -/
def Write.Conforms (R : Prop) : Write → Prop
  | .insertPayment p | .updatePayment p => p.Conforms
  | .insertOutbox e => (e.Conforms ↔ e.Referenced) ∧ (R → e.Referenced)
  | _ => True

theorem varcharIn_ne_nil {n : Nat} {s t : String} (h : varcharIn (n + 1) s = .ok t) (hs : s.toList ≠ []) :
    t.toList ≠ [] := by
  rw [(varcharIn_ok h).2]
  exact fun ht => hs ((List.take_eq_nil_iff.1 ht).resolve_left (by omega))

section Rows

variable {cfg : Config} {s s' : State} {a : Action} {call : Call} {env : Env} {db : Db} {aw : Await} {o : Outcome}

theorem InsertPaymentRecord.Admitted.conforms {r : InsertPaymentRecord} {p : PaymentRecord} {now : Timestamp}
    (h : r.Admitted now p) (hr : r.Conforms) : p.Conforms where
  positive := h.positive
  bounded := by
    obtain ⟨n, hn, hamount⟩ := hr.amountMinor
    have hp : p.amountMinor = n := Option.some.inj (h.amountMinor.symm.trans hamount)
    omega
  currency := h.known
  provider := varcharIn_ne_nil h.provider hr.provider
  instants := by
    rintro t (ht | ht | ht)
    · rw [h.authorizedAt] at ht
      obtain ⟨at', hat, rfl⟩ := Option.map_eq_some_iff.1 ht
      rw [toDate_ofDate]; exact hr.instants at' (.inl hat)
    · rw [h.capturedAt] at ht; cases ht
    · rw [h.failedAt] at ht
      obtain ⟨at', hat, rfl⟩ := Option.map_eq_some_iff.1 ht
      rw [toDate_ofDate]; exact hr.instants at' (.inr hat)

theorem InsertPaymentRecord.Admitted.referenced {r : InsertPaymentRecord} {p : PaymentRecord} {now : Timestamp}
    {recording : Recording} (h : r.Admitted now p) (hr : recording.Referenced r.providerPaymentId) :
    recording.Referenced p.providerPaymentId := by
  intro hfailed reference href
  have hstored := h.providerPaymentId
  cases hgiven : r.providerPaymentId with
  | none => rw [hgiven, href] at hstored; cases hstored
  | some given =>
    rw [hgiven, href] at hstored
    obtain ⟨t, ht, heq⟩ := map_eq_ok hstored
    cases heq
    exact varcharIn_ne_nil ht (hr hfailed given hgiven)

/-- The row that `capture` updates. -/
theorem updated_conforms {input : PaymentsDataAccess.UpdateStatusInput} {p p' : PaymentRecord} (h : input.Updated p p')
    (hp : p.Conforms) (hinput : ∀ t, input.capturedAt = some t ∨ input.failedAt = some t → Date.InRange t) :
    p'.Conforms where
  positive := by rw [h.same.amountMinor]; exact hp.positive
  bounded := by rw [h.same.amountMinor]; exact hp.bounded
  currency := by rw [h.same.currency]; exact hp.currency
  provider := by rw [h.same.provider]; exact hp.provider
  instants := by
    rintro t (ht | ht | ht)
    · rw [h.same.authorizedAt] at ht; exact hp.instants t (.inl ht)
    · rw [h.capturedAt] at ht
      obtain ⟨at', hat, rfl⟩ := Option.map_eq_some_iff.1 ht
      rw [toDate_ofDate]; exact hinput at' (.inl hat)
    · rw [h.failedAt] at ht
      obtain ⟨at', hat, rfl⟩ := Option.map_eq_some_iff.1 ht
      rw [toDate_ofDate]; exact hinput at' (.inr hat)

end Rows

/-! ## Runs -/

/-- The name of the provider that an answer gives. -/
def ProviderAnswer.Named : ProviderAnswer → Prop
  | .authorized (.success provider _) | .authorized (.failure provider _ _ _) | .captured (.success provider)
  | .captured (.failure provider _ _) => provider.toList ≠ []
  | .threw _ => True

/-- A declined authorization has no reference, or one that is not empty. -/
def ProviderAnswer.Referenced : ProviderAnswer → Prop
  | .authorized (.failure _ (some reference) _ _) => reference.toList ≠ []
  | _ => True

/-- The environment of the contracts: calls from the routes, clocks of the years that a date-time can name,
and providers with a name. -/
def contractual (s : State) : Action → Prop
  | .start c command reserved => accepted s (.start c command reserved)
  | .query _ env | .queryLost _ env _ => Date.InRange env.now
  | .provider _ now answer => Date.InRange now ∧ answer.Named
  | _ => True

/-- The steps after which events satisfy their contracts. -/
def referenced (_ : State) : Action → Prop
  | .provider _ _ answer => answer.Referenced
  | _ => True

section Runs

variable {R : Prop} {cfg : Config} {s s' : State} {a : Action} {call : Call} {env : Env} {aw : Await} {o : Outcome}

theorem insertRecord_conforms {command : CreatePaymentCommand} {d : Started} {now : Millis}
    {result : AuthorizePaymentResult} (hc : command.Accepted) (hnow : Date.InRange now)
    (hnamed : (ProviderAnswer.authorized result).Named) : (insertRecord command d now result).Conforms where
  amountMinor := by
    obtain ⟨n, h0, hn, hamount⟩ := hc.amountMinor
    refine ⟨n, hn, ?_⟩
    change bigintIn command.amountMinor.toText = _
    rw [hamount]
    exact bigintIn_ofInt h0 hn
  provider := by cases result <;> exact hnamed
  instants := by
    rintro t (ht | ht) <;> cases result <;> cases ht <;> exact hnow

theorem insertRecord_referenced {command : CreatePaymentCommand} {d : Started} {now : Millis}
    {result : AuthorizePaymentResult} (href : (ProviderAnswer.authorized result).Referenced) :
    (createRecording result).Referenced (insertRecord command d now result).providerPaymentId := by
  rintro ⟨operation, hop⟩ r hr
  cases result with
  | success provider reference => cases hop
  | failure provider reference code message =>
    cases reference with
    | none => cases hr
    | some reference => cases hr; exact href

/-- What holds of the calls and the tables in a run of such steps. -/
structure ConformInv (R : Prop) (s : State) : Prop where
  calls : ∀ c call, s.calls c = some call → call.command.Accepted ∧ call.await.Conforms R
  writes : s.server.Holds (Write.Conforms R)

/-- The tables a database that conforms has. -/
structure Db.Conforms (R : Prop) (db : Db) : Prop where
  payments : ∀ p ∈ db.payments.rows, p.Conforms
  outbox : ∀ e ∈ db.outbox.rows, (e.Conforms ↔ e.Referenced) ∧ (R → e.Referenced)

theorem Db.empty_conforms : Db.empty.Conforms R :=
  ⟨fun _ hp => absurd hp List.not_mem_nil, fun _ he => absurd he List.not_mem_nil⟩

theorem Db.Conforms.apply {db : Db} {w : Write} (h : db.Conforms R) (hw : w.Conforms R) :
    (w.apply db).Conforms R := by
  cases w with
  | insertPayment p =>
    refine ⟨fun x hx => ?_, h.outbox⟩
    rcases Table.mem_of_insert hx with hx | rfl
    · exact h.payments x hx
    · exact hw
  | updatePayment p =>
    refine ⟨fun x hx => ?_, h.outbox⟩
    rcases Table.mem_of_put hx with hx | rfl
    · exact h.payments x hx
    · exact hw
  | insertOutbox e =>
    refine ⟨h.payments, fun x hx => ?_⟩
    rcases Table.mem_of_insert hx with hx | rfl
    · exact h.outbox x hx
    · exact hw
  | insertIdempotency | acquireIdempotency | completeIdempotency | failIdempotency => exact ⟨h.payments, h.outbox⟩

theorem Db.Conforms.applyAll : ∀ {ws : List Write} {db : Db}, db.Conforms R → (∀ w ∈ ws, w.Conforms R) →
    (schema.applyAll db ws).Conforms R
  | [], _, h, _ => h
  | w :: _, _, h, hws => (h.apply (hws w List.mem_cons_self)).applyAll fun x hx => hws x (List.mem_cons_of_mem w hx)

/-- The committed tables conform when every write does that was committed. -/
theorem ConformInv.db (hi : Inv cfg s) (h : ConformInv R s) : s.db.Conforms R := by
  have hdb := Ledger.db_eq hi.ledger
  change s.db = schema.applyAll .empty (s.server.log.map Prod.snd) at hdb
  rw [hdb]
  refine Db.empty_conforms.applyAll fun w hw => ?_
  obtain ⟨e, he, rfl⟩ := List.mem_map.1 hw
  exact h.writes.log e he

theorem Command.Accepted.correlationId {command : Command} (h : command.Accepted) :
    CorrelationIdHeader command.correlationId := by
  cases command with
  | create command => exact CreatePaymentCommand.Accepted.correlationId h
  | capture command => exact CapturePaymentCommand.Accepted.correlationId h

theorem Call.afterStarted_conforms {d : Started} (h : call.command.Accepted) : (call.afterStarted d).Conforms R := by
  unfold Call.afterStarted
  split
  · rename_i command hcommand; rw [hcommand] at h; exact h
  · trivial

/-- What a statement of such a call writes, and what the call awaits next. -/
theorem Ran.conforms (hi : Inv cfg s) (h : Ran cfg env s.db call aw o) (hdb : s.db.Conforms R)
    (hc : call.command.Accepted) (haw : aw.Conforms R) (hnow : Date.InRange env.now) :
    (∀ w ∈ o.writes, w.Conforms R) ∧ o.next.Conforms R := by
  cases h with
  | replayed | refused | toInsert | toReactivate | toTakeover | conflict | noPayment | notUpdated | committed
  | rolledBack =>
    exact ⟨List.forall_mem_nil _, trivial⟩
  | idle => exact ⟨List.forall_mem_nil _, haw⟩
  | inserted => exact ⟨List.forall_mem_singleton.2 trivial, Call.afterStarted_conforms hc⟩
  | acquired =>
    refine ⟨List.forall_mem_singleton.2 trivial, ?_⟩
    unfold Call.afterAcquired
    split
    · trivial
    · exact Call.afterStarted_conforms hc
  | completed | markedFailed => exact ⟨List.forall_mem_singleton.2 trivial, trivial⟩
  | lockedPayment =>
    refine ⟨List.forall_mem_nil _, ?_⟩
    unfold Call.afterLock
    split
    · trivial
    · split <;> trivial
  | insertedPayment hadm _ =>
    have hp := hadm.conforms haw.1
    exact ⟨List.forall_mem_singleton.2 hp, hp, fun href => hadm.referenced (haw.2 href)⟩
  | @updatedPayment d input recording p p' hg hs hu =>
    have hp := updated_conforms hu (hdb.payments p (Table.mem_of_get? hg)) haw
    refine ⟨List.forall_mem_singleton.2 hp, hp, fun _ _ r hr => ?_⟩
    -- an authorized payment has a reference that is not empty
    have hshape := Ledger.shapes hi.ledger p (Table.mem_of_get? hg)
    obtain ⟨reference, href, hne⟩ := hshape.reference (hshape.authorizedAt.2 (by rw [hs]; decide))
    rw [hu.same.providerPaymentId, href] at hr
    obtain rfl := Option.some.inj hr
    exact hne
  | recorded hrec _ =>
    refine ⟨?_, trivial⟩
    rw [List.forall_mem_singleton]
    exact ⟨hrec.conforms_iff haw.1 hc.correlationId hnow,
      fun href => (hrec.conforms haw.1 (haw.2 href) hc.correlationId hnow).referenced⟩

theorem Call.reject_conforms (call : Call) (e : Err) : (call.reject e).Conforms R := by
  unfold Call.reject
  split <;> try trivial
  split <;> trivial

theorem ConformInv.step (hi : Inv cfg s) (h : ConformInv R s) (hok : contractual s a ∧ (R → referenced s a))
    (hs : StepCase cfg s a s') : ConformInv R s' := by
  have hdb := h.db hi
  have hran : ∀ {c env call o}, s.calls c = some call → Date.InRange env.now → call.run cfg env s.db = .ok o →
      (∀ w ∈ o.writes, w.Conforms R) ∧ o.next.Conforms R := by
    intro c env call o hc hnow hrun
    exact (ran_of_run hrun).conforms hi hdb (h.calls c call hc).1 (h.calls c call hc).2 hnow
  constructor
  · intro c call' hc'
    rcases hs.call_origin hc' with ⟨call, hc, hk⟩ | ⟨-, command, reserved, rfl, -, -, rfl⟩
    swap
    · exact ⟨hok.1, trivial⟩
    obtain ⟨hcommand, haw⟩ := h.calls c call hc
    rw [hk.command]
    refine ⟨hcommand, ?_⟩
    rcases hs.call_cases hc hc' with ⟨rfl, -⟩ | ⟨-, hcase⟩
    · exact haw
    generalize call'.await = next, s'.server = server at hcase
    cases hcase with
    | answered _ _ hrun | staged _ _ hrun => exact (hran hc hok.1 hrun).2
    | answerLost | failed | unanswered => exact call.reject_conforms _
    | committed | rolledBack | commitLost | crashed => trivial
    | lateCommit | sessionLost => exact haw
    | provider hp =>
      obtain ⟨⟨hnow, hnamed⟩, href⟩ := hok
      generalize call.await = aw at hp haw
      cases hp with
      | authorized => exact ⟨insertRecord_conforms haw hnow hnamed, fun h => insertRecord_referenced (href h)⟩
      | @captured d payment provider input result =>
        rintro t (ht | ht) <;> cases result <;> cases ht <;> exact hnow
      | authorizeThrew | captureThrew => trivial
  · refine hs.holds h.writes fun c env call o hc ha hrun => (hran hc ?_ hrun).1
    rcases ha with rfl | ⟨m, rfl⟩ <;> exact hok.1

theorem ConformInv.of_reach (h : (service cfg).Reach (fun s a => contractual s a ∧ (R → referenced s a)) s) :
    s.db.Conforms R := by
  have hconform : Inv cfg s ∧ ConformInv R s := by
    refine h.invariant (P := fun s => Inv cfg s ∧ ConformInv R s) ⟨Inv.init cfg, ?_⟩ ?_
    · exact ⟨fun _ _ hc => (nomatch hc), Server.Holds.start _⟩
    · rintro s a s' ⟨hi, hc⟩ hok hs
      exact ⟨hi.step hs, hc.step hi hok (step_cases hs)⟩
  exact hconform.2.db hconform.1

/-- Whatever the providers answer, a stored event satisfies the schema of its type and agrees with its row exactly
if its reference is not empty. -/
theorem event_conforms_iff (h : (service cfg).Reach contractual s) :
    ∀ e ∈ s.db.outbox.rows, e.Conforms ↔ e.Referenced := by
  have h := h.mono fun s a hok => (⟨hok, False.elim⟩ : contractual s a ∧ (False → referenced s a))
  exact fun e he => ((ConformInv.of_reach h).outbox e he).1

/-- In every run whose declined authorizations have no reference or one that is not empty, every stored event
satisfies the schema of its type and agrees with its row. -/
theorem events_conform (h : (service cfg).Reach (fun s a => contractual s a ∧ referenced s a) s) :
    ∀ e ∈ s.db.outbox.rows, e.Conforms := by
  intro e he
  have hevents := h.mono fun s a hok => (⟨hok.1, fun _ => hok.2⟩ : contractual s a ∧ (True → referenced s a))
  exact (event_conforms_iff (h.mono fun _ _ hok => hok.1) e he).2
    (((ConformInv.of_reach hevents).outbox e he).2 trivial)

end Runs

namespace Sample

theorem env_inRange {n : Nat} (hn : n ≤ 100) : Date.InRange (env n).now := by
  change _ ≤ (1700000000000 + 1000 * n : Int) ∧ (1700000000000 + 1000 * n : Int) < _
  constructor <;> omega

theorem mock_named : "mock".toList ≠ [] := by decide

theorem createRun_conforms (a : Action) (ha : a ∈ createRun) (s : State) : contractual s a ∧ referenced s a := by
  revert s
  revert a
  simp only [createRun, List.forall_mem_cons, List.not_mem_nil, false_implies, implies_true, and_true]
  have hquery : ∀ n ≤ 6, Date.InRange (env n).now := fun n hn => env_inRange (hn.trans (by decide))
  exact ⟨fun _ => ⟨create_accepted, trivial⟩, fun _ => ⟨hquery 1 (by decide), trivial⟩,
    fun _ => ⟨hquery 2 (by decide), trivial⟩,
    fun _ => ⟨⟨hquery 2 (by decide), mock_named⟩, trivial⟩, fun _ => ⟨hquery 3 (by decide), trivial⟩,
    fun _ => ⟨hquery 4 (by decide), trivial⟩, fun _ => ⟨hquery 5 (by decide), trivial⟩,
    fun _ => ⟨hquery 6 (by decide), trivial⟩⟩

theorem created_conforming : (service cfg).Reach (fun s a => contractual s a ∧ referenced s a) created :=
  System.steps_of_runFrom createRun createRun_conforms (Option.some_get _).symm

/-- The run of `create` with a provider that declines, and gives an empty reference. -/
def declineRun : List Action :=
  [.start 0 create paymentId, .query 0 (env 1), .query 0 (env 2),
    .provider 0 (env 2).now (.authorized (.failure "mock" (some "") "DECLINED" "Declined")),
    .query 0 (env 3), .query 0 (env 4), .query 0 (env 5), .query 0 (env 6)]

theorem declineRun_contractual (a : Action) (ha : a ∈ declineRun) (s : State) : contractual s a := by
  revert s
  revert a
  simp only [declineRun, List.forall_mem_cons, List.not_mem_nil, false_implies, implies_true, and_true]
  have hquery : ∀ n ≤ 6, Date.InRange (env n).now := fun n hn => env_inRange (hn.trans (by decide))
  exact ⟨fun _ => create_accepted, fun _ => hquery 1 (by decide), fun _ => hquery 2 (by decide),
    fun _ => ⟨hquery 2 (by decide), mock_named⟩, fun _ => hquery 3 (by decide), fun _ => hquery 4 (by decide),
    fun _ => hquery 5 (by decide), fun _ => hquery 6 (by decide)⟩

theorem declineRun_ends :
    ((service cfg).runFrom (service cfg).init declineRun).any (fun s => s.db.outbox.rows.any fun e =>
    e.eventType = "payment.failed.v1" ∧ Contract.paymentFailed.valid e.payload = false) = true := by
  decide +kernel

def declined : State := ((service cfg).runFrom (service cfg).init declineRun).get (Option.isSome_of_any declineRun_ends)

theorem declined_invalid : declined.db.outbox.rows.any fun e =>
    e.eventType = "payment.failed.v1" ∧ Contract.paymentFailed.valid e.payload = false := by
  have hrun : (service cfg).runFrom (service cfg).init declineRun = some declined := (Option.some_get _).symm
  have hends := System.of_ends hrun declineRun_ends
  exact hends

end Sample

/-- The event of the run satisfies its schema. -/
theorem events_conform_created : ∃ e ∈ Sample.created.db.outbox.rows, e.Conforms := by
  obtain ⟨e, he⟩ := List.length_pos_iff_exists_mem.1 Sample.created_run.2.2.2.2
  exact ⟨e, he, events_conform Sample.created_conforming e he⟩

/-- A declined authorization with an empty reference is committed with an event that its schema rejects. -/
theorem declined_not_conforming :
    ∃ s, (service Sample.cfg).Reach contractual s ∧ ∃ e ∈ s.db.outbox.rows, ¬ e.Conforms := by
  obtain ⟨e, he, hinvalid⟩ := List.any_eq_true.1 Sample.declined_invalid
  simp only [decide_eq_true_eq] at hinvalid
  refine ⟨Sample.declined, System.steps_of_runFrom Sample.declineRun Sample.declineRun_contractual
    (Option.some_get _).symm, e, he, fun h => ?_⟩
  obtain ⟨schema, hschema, hvalid⟩ := h.valid
  rw [hinvalid.1] at hschema
  obtain rfl : Contract.paymentFailed = schema := Option.some.inj hschema
  rw [hinvalid.2] at hvalid; cases hvalid

end PaymentOrchestration
