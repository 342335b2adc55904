/-
What a payment's row looks like in each of its states, and how it may change. No constraint of the table
says it: the shape follows from what `create` inserts, what `capture` updates, and what the event that is
recorded in the same transaction requires of the row.
-/
import PaymentOrchestration.Invariant
import PaymentOrchestration.Lifecycle

namespace PaymentOrchestration

open Lib IdempotencyService OutboxService PaymentsService

/-! ## What an event requires of its payment -/

/-- A text that is set and not empty. -/
def Present (text : Option String) : Prop := ∃ s, text = some s ∧ s.toList ≠ []

theorem requireNonEmptyString_ok {value : Option String} {fieldName s : String}
    (h : requireNonEmptyString value fieldName = .ok s) : value = some s ∧ s.toList ≠ [] := by
  unfold requireNonEmptyString at h
  split at h
  · cases h
  · split at h
    · cases h
    · rename_i hne; cases h; exact ⟨rfl, hne⟩

theorem toIsoTimestamp_ok {value : Option Timestamp} {s : String} (h : toIsoTimestamp value = .ok s) :
    ∃ t, value = some t ∧ s = Date.toISOString (toDate t) := by
  unfold toIsoTimestamp at h
  split at h
  · cases h
  · cases h; exact ⟨_, rfl, rfl⟩

/-! ## The shape of a row -/

/-- The statuses of a payment that was authorized. -/
def PaymentStatus.afterAuthorization : List PaymentStatus := [.authorized, .captured, .captureFailed]

/-- The statuses of a payment whose last operation failed. -/
def PaymentStatus.failures : List PaymentStatus := [.failed, .captureFailed]

/-- The columns that go with a payment's status. -/
structure PaymentRecord.Shape (p : PaymentRecord) : Prop where
  authorizedAt : p.authorizedAt.isSome = true ↔ p.status ∈ PaymentStatus.afterAuthorization
  reference : p.authorizedAt.isSome = true → Present p.providerPaymentId
  capturedAt : p.capturedAt.isSome = true ↔ p.status = .captured
  failedAt : p.failedAt.isSome = true ↔ p.status ∈ PaymentStatus.failures
  failureCode : Present p.failureCode ↔ p.status ∈ PaymentStatus.failures
  failureMessage : Present p.failureMessage ↔ p.status ∈ PaymentStatus.failures
  noFailure : p.status ∉ PaymentStatus.failures → p.failureCode = none ∧ p.failureMessage = none

/-- How a payment's row may change from one state to the next. -/
structure PaymentStep (before after : Option PaymentRecord) : Prop where
  born : before = none → ∀ p, after = some p → p.status = .authorized ∨ p.status = .failed
  kept : ∀ p, before = some p → ∃ p', after = some p' ∧ p.SameAuthorization p' ∧
    (p'.status = p.status ∨ p'.status ∈ allowedTransitions p.status)
  final : ∀ p, before = some p → p.status = .failed ∨ p.status = .captured ∨ p.status = .captureFailed → after = some p

theorem PaymentStep.refl (row : Option PaymentRecord) : PaymentStep row row :=
  ⟨fun h _ hp => (nomatch h.symm.trans hp), fun p hp => ⟨p, hp, .refl p, .inl rfl⟩, fun _ hp _ => hp⟩

section Rows

variable {cfg : Config} {db : Db} {command : Command} {d : Started} {p : PaymentRecord}
  {recording : Recording} {w : Write} {env : Env} {correlationId : String} {e : OutboxEventRecord}

theorem present_none : ¬ Present none := fun ⟨_, h, _⟩ => nomatch h

theorem nullable_of_none {α β : Type} {f : α → Except Err β} {b : Option β} (h : nullable f none = .ok b) : b = none :=
  (Except.ok.inj h).symm

/-- The row a transaction writes has its shape: what the insert or the update sets goes with the status,
and the event that the transaction records needs the rest. -/
theorem Change.shape (h : Change db command d p recording w) (hrec : Recorded recording env correlationId p e)
    (hdb : ∀ p ∈ db.payments.rows, p.Shape) : p.Shape := by
  obtain ⟨members, hm, -⟩ := hrec.payload
  cases h with
  | @create cmd now dbNow authorization _ _ hadm _ =>
    have hstatus := hadm.status
    have hcaptured := hadm.capturedAt
    have hauthorized := hadm.authorizedAt
    have hfailed := hadm.failedAt
    cases authorization with
    | success provider reference =>
      have hcode := nullable_of_none hadm.failureCode
      have hmessage := nullable_of_none hadm.failureMessage
      obtain ⟨reference, -, href, -, -⟩ := authorizedPayload_ok hm
      obtain ⟨href, hne⟩ := requireNonEmptyString_ok href
      simp only [insertRecord, authorizedStatus, Option.map_some, Option.map_none] at hstatus hauthorized hfailed
      constructor <;> simp [hstatus, hcaptured, hauthorized, hfailed, hcode, hmessage, present_none,
        PaymentStatus.afterAuthorization, PaymentStatus.failures]
      exact ⟨reference, href, hne⟩
    | failure provider reference code message =>
      obtain ⟨code, message, failedAt, hcode, hmessage, -, -⟩ := failedPayload_ok hm
      have hcode : Present p.failureCode := ⟨code, requireNonEmptyString_ok hcode⟩
      have hmessage : Present p.failureMessage := ⟨message, requireNonEmptyString_ok hmessage⟩
      simp only [insertRecord, authorizedStatus, Option.map_some, Option.map_none] at hstatus hauthorized hfailed
      constructor <;> simp [hstatus, hcaptured, hauthorized, hfailed, hcode, hmessage,
        PaymentStatus.afterAuthorization, PaymentStatus.failures]
  | @capture cmd now captureResult p₀ _ _ hg hs hu =>
    have hold := hdb p₀ (Table.mem_of_get? hg)
    have hset : p.authorizedAt.isSome = true := by
      rw [hu.same.authorizedAt, hold.authorizedAt, hs]; decide
    have href : Present p.providerPaymentId := by
      rw [hu.same.providerPaymentId]
      exact hold.reference (by rw [← hu.same.authorizedAt]; exact hset)
    have hstatus := hu.status
    have hcaptured := hu.capturedAt
    have hfailed := hu.failedAt
    cases captureResult with
    | success provider =>
      have hcode := nullable_of_none hu.failureCode
      have hmessage := nullable_of_none hu.failureMessage
      simp only [updateInput, capturedStatus, Option.map_some, Option.map_none] at hstatus hcaptured hfailed
      constructor <;> simp [hstatus, hcaptured, hfailed, hset, href, hcode, hmessage, present_none,
        PaymentStatus.afterAuthorization, PaymentStatus.failures]
    | failure provider code message =>
      obtain ⟨code, message, failedAt, hcode, hmessage, -, -⟩ := failedPayload_ok hm
      have hcode : Present p.failureCode := ⟨code, requireNonEmptyString_ok hcode⟩
      have hmessage : Present p.failureMessage := ⟨message, requireNonEmptyString_ok hmessage⟩
      simp only [updateInput, capturedStatus, Option.map_some, Option.map_none] at hstatus hcaptured hfailed
      constructor <;> simp [hstatus, hcaptured, hfailed, hset, href, hcode, hmessage,
        PaymentStatus.afterAuthorization, PaymentStatus.failures]

/-- A transaction's change of a row is an edge of the status machine. -/
theorem Change.paymentStep (h : Change db command d p recording w) (P : Uuid) :
    PaymentStep (db.payments.get? P) ((w.apply db).payments.get? P) := by
  by_cases hP : p.id = P
  swap
  · rw [h.get?_of_ne hP]; exact .refl _
  subst hP
  rw [h.get?_self]
  cases h with
  | @create _ _ _ authorization _ _ hadm hn =>
    rw [hn]
    refine ⟨fun _ p' hp' => ?_, fun _ h => (nomatch h), fun _ h => (nomatch h)⟩
    obtain rfl := Option.some.inj hp'
    rw [hadm.status]
    cases authorization
    · exact .inl rfl
    · exact .inr rfl
  | @capture _ _ captureResult p₀ _ _ hg hs hu =>
    have hg' : db.payments.get? p.id = some p₀ := by rw [hu.same.id, Table.key_of_get? hg]; exact hg
    rw [hg']
    refine ⟨fun h => (nomatch h), fun p₁ hp₁ => ?_, fun p₁ hp₁ hfinal => ?_⟩
    · obtain rfl := Option.some.inj hp₁
      refine ⟨p, rfl, hu.same, .inr ?_⟩
      rw [hu.status, hs]
      cases captureResult <;> simp [updateInput, capturedStatus, allowedTransitions]
    · obtain rfl := Option.some.inj hp₁
      rw [hs] at hfinal
      rcases hfinal with h | h | h <;> cases h

/-- In every reachable ledger every payment's row has its shape. -/
theorem Ledger.shapes {l : Ledger} (h : Ledger.Reachable cfg l) : ∀ p ∈ l.db.payments.rows, p.Shape := by
  induction h with
  | refl => exact fun _ hp => nomatch hp
  | @tail l l' _ hs ih =>
    rcases hs.change with ⟨hdb, -⟩ | ⟨t, ws, htr, hdb, -, -⟩
    · rw [hdb]; exact ih
    rw [hdb]
    cases htr with
    | begun | acquired | failed => exact ih
    | @settled command d p recording w env e r expiresAt now hc hrec =>
      intro x hx
      have hx : x ∈ (w.apply l.db).payments.rows := hx
      by_cases hid : p.id = x.id
      · rw [Table.mem_iff, ← hid, hc.get?_self] at hx
        obtain rfl := Option.some.inj hx
        exact hc.shape hrec ih
      · rw [Table.mem_iff, hc.get?_of_ne hid] at hx
        exact ih x (Table.mem_of_get? hx)

/-- A step of the ledger changes a payment's row by at most one edge. -/
theorem Ledger.Step.paymentStep {l l' : Ledger} (h : Ledger.Step cfg l l') (P : Uuid) :
    PaymentStep (l.db.payments.get? P) (l'.db.payments.get? P) := by
  rcases h.change with ⟨hdb, -⟩ | ⟨t, ws, htr, hdb, -, -⟩
  · rw [hdb]; exact .refl _
  rw [hdb]
  cases htr with
  | begun | acquired | failed => exact .refl _
  | @settled _ _ _ _ _ _ _ _ _ _ hc => exact hc.paymentStep P

end Rows

/-! ## Every reachable state -/

/-- In every reachable state each payment's row has the shape of its status, and every step takes each row
along the status machine, changing nothing else of what was authorized. -/
theorem payment_lifecycle {cfg : Config} {s : State} (h : (service cfg).Reach System.anyStep s) :
    (∀ p ∈ s.db.payments.rows, p.Shape) ∧
    ∀ a s', (service cfg).step s a = some s' → ∀ P, PaymentStep (s.db.payments.get? P) (s'.db.payments.get? P) :=
  ⟨Ledger.shapes (ledger_of_reach h), fun _ _ hs P => (ledger_step (inv_of_reach h) (step_cases hs)).paymentStep P⟩

/-- The shapes of the rows after a capture, and what any step makes of them. -/
theorem payment_lifecycle_captured : (∀ p ∈ Sample.captured.db.payments.rows, p.Shape) ∧
    ∀ a s', (service Sample.cfg).step Sample.captured a = some s' →
      ∀ P, PaymentStep (Sample.captured.db.payments.get? P) (s'.db.payments.get? P) :=
  payment_lifecycle Sample.captured_reach

end PaymentOrchestration
