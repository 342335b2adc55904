/-
The events determine the payments: a projection that reads nothing but the stored events of a payment
gives the payment's row. Every payment's events tell one story: its creation, and the outcome of its
capture if there is one, each recorded of the row as it then was.
-/
import PaymentOrchestration.Shape

namespace PaymentOrchestration

open Lib IdempotencyService OutboxService PaymentsService

/-! ## The projection -/

/-- What the events tell about a payment: instants as they are written, to the millisecond. -/
structure PaymentView where
  id : String
  merchantId : String
  amountMinor : Number
  currency : String
  provider : String
  providerPaymentId : Option String
  status : PaymentStatus
  authorizedAt : Option String
  capturedAt : Option String
  failedAt : Option String
  failureCode : Option String
  failureMessage : Option String

/-- The row of a payment, as far as events tell it. -/
def PaymentRecord.view (p : PaymentRecord) : PaymentView where
  id := p.id.uuidOut
  merchantId := p.merchantId.uuidOut
  amountMinor := Number.ofInt p.amountMinor
  currency := p.currency
  provider := p.provider
  providerPaymentId := p.providerPaymentId
  status := p.status
  authorizedAt := p.authorizedAt.map fun t => Date.toISOString (toDate t)
  capturedAt := p.capturedAt.map fun t => Date.toISOString (toDate t)
  failedAt := p.failedAt.map fun t => Date.toISOString (toDate t)
  failureCode := p.failureCode
  failureMessage := p.failureMessage

namespace OutboxEventRecord

/-- A member of the payload of the stored envelope. -/
def field (e : OutboxEventRecord) (name : String) : Option (Json String) :=
  (e.payload.member "payload").bind (Json.member name)

def text (e : OutboxEventRecord) (name : String) : Option String :=
  match e.field name with
  | some (.str s) => some s
  | _ => none

def number (e : OutboxEventRecord) (name : String) : Option Number :=
  match e.field name with
  | some (.num n) => some n
  | _ => none

def isCreation (e : OutboxEventRecord) : Bool :=
  e.recording? = some .paymentAuthorized ∨ e.recording? = some (.paymentFailed .authorize)

def isOutcome (e : OutboxEventRecord) : Bool :=
  e.recording? = some .paymentCaptured ∨ e.recording? = some (.paymentFailed .capture)

/-- The row that an event of creation gives. -/
def created (e : OutboxEventRecord) : Option PaymentView := do
  let id ← e.text "paymentId"
  let merchantId ← e.text "merchantId"
  let amountMinor ← e.number "amountMinor"
  let currency ← e.text "currency"
  let provider ← e.text "provider"
  return {
    id := id
    merchantId := merchantId
    amountMinor := amountMinor
    currency := currency
    provider := provider
    providerPaymentId := e.text "providerPaymentId"
    status := if e.recording? = some .paymentAuthorized then .authorized else .failed
    authorizedAt := e.text "authorizedAt"
    capturedAt := none
    failedAt := e.text "failedAt"
    failureCode := e.text "failureCode"
    failureMessage := e.text "failureMessage" }

/-- What the event of a capture's outcome changes of an AUTHORIZED row. -/
def override (e : OutboxEventRecord) (row : PaymentView) : PaymentView :=
  if row.status = .authorized then
    { row with
      status := if e.recording? = some .paymentCaptured then .captured else .captureFailed
      capturedAt := e.text "capturedAt"
      failedAt := e.text "failedAt"
      failureCode := e.text "failureCode"
      failureMessage := e.text "failureMessage" }
  else row

end OutboxEventRecord

/-- The projection of a payment's events. -/
def project (events : List OutboxEventRecord) : Option PaymentView := do
  let creation ← events.find? OutboxEventRecord.isCreation
  let row ← creation.created
  match events.find? OutboxEventRecord.isOutcome with
  | none => return row
  | some outcome => return outcome.override row

/-- The stored events of a payment. -/
def Db.eventsOf (db : Db) (P : Uuid) : List OutboxEventRecord := db.outbox.rows.filter fun e => e.aggregateId = P

/-! ## What an event says of its payment -/

/-- The event was recorded of the payment `p`. -/
def Announces (recording : Recording) (p : PaymentRecord) (e : OutboxEventRecord) : Prop :=
  ∃ env correlationId, Recorded recording env correlationId p e

section Reading

variable {recording : Recording} {p : PaymentRecord} {e : OutboxEventRecord}

/-- A member of a stored payload is the member that was recorded. -/
theorem Announces.field (h : Announces recording p e) {members : List (String × Json String)}
    (hm : recording.payload p = .ok members) (name : String) :
    e.field name = (Json.lookup name members).map Json.jsonb := by
  obtain ⟨env, correlationId, hrec⟩ := h
  obtain ⟨members', hm', hp⟩ := hrec.payload
  obtain rfl := Except.ok.inj (hm.symm.trans hm')
  rw [OutboxEventRecord.field, hp, envelope_payload, Option.bind_some, Json.member_jsonb (Recording.payload_nodup hm)]

theorem Announces.recorded (h : Announces recording p e) : e.recording? = some recording := by
  obtain ⟨env, correlationId, hrec⟩ := h
  exact hrec.recording

/-- The row that the event of an authorization gives. -/
theorem created_authorized (h : Announces .paymentAuthorized p e) (hshape : p.Shape) (hs : p.status = .authorized) :
    e.created = some p.view := by
  obtain ⟨env, correlationId, hrec⟩ := id h
  obtain ⟨members, hm, -⟩ := hrec.payload
  obtain ⟨reference, authorizedAt, href, hat, rfl⟩ := authorizedPayload_ok hm
  obtain ⟨href, -⟩ := requireNonEmptyString_ok href
  obtain ⟨t, hset, rfl⟩ := toIsoTimestamp_ok hat
  have hfield := h.field hm
  have hcaptured : p.capturedAt = none := by simpa [hs] using hshape.capturedAt
  have hfailed : p.failedAt = none := by simpa [hs, PaymentStatus.failures] using hshape.failedAt
  obtain ⟨hcode, hmessage⟩ := hshape.noFailure (by rw [hs]; decide)
  simp only [OutboxEventRecord.created, OutboxEventRecord.text, OutboxEventRecord.number, hfield, h.recorded,
    PaymentRecord.view, hs, href, hset, hcaptured, hfailed, hcode, hmessage]
  rfl

/-- The row that the event of a declined authorization gives. -/
theorem created_declined (h : Announces (.paymentFailed .authorize) p e) (hshape : p.Shape) (hs : p.status = .failed) :
    e.created = some p.view := by
  obtain ⟨env, correlationId, hrec⟩ := id h
  obtain ⟨members, hm, -⟩ := hrec.payload
  obtain ⟨code, message, failedAt, hcode, hmessage, hat, rfl⟩ := failedPayload_ok hm
  obtain ⟨hcode, -⟩ := requireNonEmptyString_ok hcode
  obtain ⟨hmessage, -⟩ := requireNonEmptyString_ok hmessage
  obtain ⟨t, hset, rfl⟩ := toIsoTimestamp_ok hat
  have hfield := h.field hm
  have hcaptured : p.capturedAt = none := by simpa [hs] using hshape.capturedAt
  have hauthorized : p.authorizedAt = none := by simpa [hs, PaymentStatus.afterAuthorization] using hshape.authorizedAt
  simp only [OutboxEventRecord.created, OutboxEventRecord.text, OutboxEventRecord.number, hfield, h.recorded,
    PaymentRecord.view, hs, hset, hcaptured, hauthorized, hcode, hmessage]
  cases p.providerPaymentId <;> rfl

/-- What the event of a capture changes. -/
theorem override_captured {p₀ : PaymentRecord} (h : Announces .paymentCaptured p e) (hsame : p₀.SameAuthorization p)
    (hshape : p.Shape) (hs₀ : p₀.status = .authorized) (hs : p.status = .captured) : e.override p₀.view = p.view := by
  obtain ⟨env, correlationId, hrec⟩ := id h
  obtain ⟨members, hm, -⟩ := hrec.payload
  obtain ⟨reference, capturedAt, href, hat, rfl⟩ := capturedPayload_ok hm
  obtain ⟨t, hset, rfl⟩ := toIsoTimestamp_ok hat
  have hfield := h.field hm
  have hfailed : p.failedAt = none := by simpa [hs, PaymentStatus.failures] using hshape.failedAt
  obtain ⟨hcode, hmessage⟩ := hshape.noFailure (by rw [hs]; decide)
  simp only [OutboxEventRecord.override, OutboxEventRecord.text, hfield, h.recorded, PaymentRecord.view,
    hs₀, hs, hset, hfailed, hcode, hmessage, hsame.id, hsame.merchantId, hsame.amountMinor, hsame.currency,
    hsame.provider, hsame.providerPaymentId, hsame.authorizedAt]
  rfl

/-- What the event of a failed capture changes. -/
theorem override_captureFailed {p₀ : PaymentRecord} (h : Announces (.paymentFailed .capture) p e)
    (hsame : p₀.SameAuthorization p) (hshape : p.Shape) (hs₀ : p₀.status = .authorized)
    (hs : p.status = .captureFailed) : e.override p₀.view = p.view := by
  obtain ⟨env, correlationId, hrec⟩ := id h
  obtain ⟨members, hm, -⟩ := hrec.payload
  obtain ⟨code, message, failedAt, hcode, hmessage, hat, rfl⟩ := failedPayload_ok hm
  obtain ⟨hcode, -⟩ := requireNonEmptyString_ok hcode
  obtain ⟨hmessage, -⟩ := requireNonEmptyString_ok hmessage
  obtain ⟨t, hset, rfl⟩ := toIsoTimestamp_ok hat
  have hfield := h.field hm
  have hcaptured : p.capturedAt = none := by simpa [hs] using hshape.capturedAt
  simp only [OutboxEventRecord.override, OutboxEventRecord.text, hfield, h.recorded, PaymentRecord.view, hs₀, hs, hset,
    hcaptured, hcode, hmessage, hsame.id, hsame.merchantId, hsame.amountMinor, hsame.currency, hsame.provider,
    hsame.providerPaymentId, hsame.authorizedAt]
  rfl

end Reading

/-! ## The story of a payment -/

/-- The events of a payment, in the order they were recorded, and the row they were recorded of. -/
inductive Story : List OutboxEventRecord → Option PaymentRecord → Prop
  | untold : Story [] none
  | created {p e recording} : LifeStep none .create recording p.status → Announces recording p e → Story [e] (some p)
  | settled {p p' e e' recording} : p.Shape → p.status = .authorized → Announces .paymentAuthorized p e →
      p.SameAuthorization p' → LifeStep (some .authorized) .capture recording p'.status → Announces recording p' e' →
      Story [e, e'] (some p')

section Stories

variable {cfg : Config} {l : Ledger} {row : Option PaymentRecord} {events : List OutboxEventRecord}

theorem project_created {e : OutboxEventRecord} {v : PaymentView} (hc : e.isCreation = true) (ho : e.isOutcome = false)
    (hv : e.created = some v) : project [e] = some v := by
  simp only [project, List.find?_cons, List.find?_nil, hc, ho]
  change e.created.bind _ = _
  rw [hv]; rfl

theorem project_settled {e e' : OutboxEventRecord} {v : PaymentView} (hc : e.isCreation = true)
    (ho : e.isOutcome = false)
    (ho' : e'.isOutcome = true) (hv : e.created = some v) : project [e, e'] = some (e'.override v) := by
  simp only [project, List.find?_cons, hc, ho, ho']
  change e.created.bind _ = _
  rw [hv]; rfl

/-- Which of the events are of creation, and which of an outcome. -/
theorem LifeStep.isCreation {before : Option PaymentStatus} {recording : Recording} {after : PaymentStatus}
    {e : OutboxEventRecord} (h : LifeStep before .create recording after) (he : e.recording? = some recording) :
    e.isCreation = true ∧ e.isOutcome = false := by
  cases h <;> simp [OutboxEventRecord.isCreation, OutboxEventRecord.isOutcome, he]

theorem LifeStep.isOutcome {before : Option PaymentStatus} {recording : Recording} {after : PaymentStatus}
    {e : OutboxEventRecord} (h : LifeStep before .capture recording after) (he : e.recording? = some recording) :
    e.isOutcome = true := by
  cases h <;> simp [OutboxEventRecord.isOutcome, he]

/-- The projection of a story is the row it ends with. -/
theorem Story.project (h : Story events row) (hshape : ∀ p, row = some p → p.Shape) :
    project events = row.map PaymentRecord.view := by
  cases h with
  | untold => rfl
  | @created p e recording hlife ha =>
    have hp := hshape p rfl
    obtain ⟨hc, ho⟩ := hlife.isCreation ha.recorded
    refine project_created hc ho ?_
    generalize hs : p.status = status at hlife
    cases hlife with
    | authorized => exact created_authorized ha hp hs
    | declined => exact created_declined ha hp hs
  | @settled p p' e e' recording hp hs ha hsame hlife ha' =>
    have hp' := hshape p' rfl
    obtain ⟨hc, ho⟩ := LifeStep.authorized.isCreation ha.recorded
    rw [project_settled hc ho (hlife.isOutcome ha'.recorded) (created_authorized ha hp hs)]
    refine congrArg some ?_
    generalize hs' : p'.status = status at hlife
    cases hlife with
    | captured => exact override_captured ha' hsame hp' hs hs'
    | captureFailed => exact override_captureFailed ha' hsame hp' hs hs'

theorem Change.story {db : Db} {command : Command} {d : Started} {p : PaymentRecord} {recording : Recording} {w : Write}
    {e : OutboxEventRecord} (h : Change db command d p recording w) (ha : Announces recording p e)
    (hdb : ∀ p ∈ db.payments.rows, p.Shape) (hold : Story events (db.payments.get? p.id)) :
    Story (events ++ [e]) (some p) := by
  have hlife := h.life
  cases h with
  | @create _ _ _ _ _ hcmd _ hn =>
    rw [hn] at hold
    rw [hcmd, Db.status?, hn] at hlife
    cases hold
    exact .created hlife ha
  | @capture _ _ _ p₀ _ hcmd hg hs hu =>
    have hg' : db.payments.get? p.id = some p₀ := by rw [hu.same.id, Table.key_of_get? hg]; exact hg
    have hshape := hdb p₀ (Table.mem_of_get? hg)
    rw [hg'] at hold
    rw [hcmd, Db.status?, hg', Option.map_some, hs] at hlife
    generalize hrow : some p₀ = row at hold
    cases hold with
    | untold => cases hrow
    | created hlife₀ ha₀ =>
      cases hrow
      rw [hs] at hlife₀
      cases hlife₀
      exact .settled hshape hs ha₀ hu.same hlife ha
    | settled _ _ _ _ hlife₀ =>
      cases hrow
      rw [hs] at hlife₀
      cases hlife₀

/-- In every reachable ledger the stored events of every payment tell its story. -/
theorem Ledger.story (h : Ledger.Reachable cfg l) (P : Uuid) : Story (l.db.eventsOf P) (l.db.payments.get? P) := by
  induction h with
  | refl => exact .untold
  | @tail l l' hl hs ih =>
    rcases hs.change with ⟨hdb, -⟩ | ⟨t, ws, htr, hdb, -, -⟩
    · rw [hdb]; exact ih
    rw [hdb]
    cases htr with
    | begun | acquired | failed => exact ih
    | @settled command d p recording w env e r expiresAt now hc hrec hn =>
      have hevents : (schema.applyAll l.db [w, .insertOutbox e, .completeIdempotency
          (r.markedCompleted command.statusCode (toDto p).jsonb p.id expiresAt now)]).eventsOf P =
          l.db.eventsOf P ++ if p.id = P then [e] else [] := by
        change ((w.apply l.db).outbox.insert e).rows.filter _ = _
        rw [hc.outbox, Table.rows_insert hn, List.filter_append, ← hrec.aggregateId]
        by_cases hP : e.aggregateId = P <;> simp [Db.eventsOf, hP]
      have hrow : (schema.applyAll l.db [w, .insertOutbox e, .completeIdempotency
          (r.markedCompleted command.statusCode (toDto p).jsonb p.id expiresAt now)]).payments.get? P =
          (w.apply l.db).payments.get? P := rfl
      rw [hevents, hrow]
      by_cases hP : p.id = P
      · subst hP
        rw [if_pos rfl, hc.get?_self]
        exact hc.story ⟨env, _, hrec⟩ (Ledger.shapes hl) ih
      · rw [if_neg hP, hc.get?_of_ne hP, List.append_nil]; exact ih

end Stories

/-- In every reachable state the projection of a payment's events is its row, and there is one exactly when
there is the other. -/
theorem events_determine_payments {cfg : Config} {s : State} (h : (service cfg).Reach System.anyStep s) (P : Uuid) :
    project (s.db.eventsOf P) = (s.db.payments.get? P).map PaymentRecord.view := by
  have hl : Ledger.Reachable cfg s.ledger := ledger_of_reach h
  exact (Ledger.story hl P).project fun p hp => Ledger.shapes hl p (Table.mem_of_get? hp)

/-- The events of a payment that was captured. -/
theorem events_determine_payments_captured : project (Sample.captured.db.eventsOf Sample.paymentId) =
    (Sample.captured.db.payments.get? Sample.paymentId).map PaymentRecord.view :=
  events_determine_payments Sample.captured_reach Sample.paymentId

end PaymentOrchestration
