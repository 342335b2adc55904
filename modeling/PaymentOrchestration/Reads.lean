/-
What `getById` reads. Reads of a payment never go back, whatever calls, faults and takeovers lie between
them and however its id is spelled; and a read agrees with what `create` and `capture` have answered before
it.
-/
import PaymentOrchestration.Shape
import PaymentOrchestration.Replay

namespace PaymentOrchestration

open Lib IdempotencyService OutboxService PaymentsService

/-! ## The read -/

/-- `PaymentsDataAccess.findById`. -/
def PaymentsDataAccess.findById (db : Db) (id : String) : Except Err (Option PaymentRecord) :=
  (uuidColumn id).map db.payments.get?

structure GetPaymentQuery where
  paymentId : String

/-- `PaymentsService.getById`. -/
def PaymentsService.getById (db : Db) (query : GetPaymentQuery) : Except Err (Json String) := do
  match ← PaymentsDataAccess.findById db query.paymentId with
  | none => throw paymentNotFound
  | some payment => return toDto payment

section Read

variable {db : Db} {query : GetPaymentQuery} {id : Uuid} {p : PaymentRecord} {body : Json String}

theorem getById_of_row (hid : uuidColumn query.paymentId = .ok id) (hp : db.payments.get? id = some p) :
    getById db query = .ok (toDto p) := by
  rw [getById, PaymentsDataAccess.findById, hid]
  simp only [Except.map, bind, Except.bind, hp]
  rfl

theorem row_of_getById (h : getById db query = .ok body) :
    ∃ id p, uuidColumn query.paymentId = .ok id ∧ db.payments.get? id = some p ∧ body = toDto p := by
  obtain ⟨row, hrow, h⟩ := ok_of_bind h
  obtain ⟨id, hid, rfl⟩ := map_eq_ok hrow
  cases hp : db.payments.get? id with
  | none =>
    rw [hp] at h
    cases h
  | some p =>
    rw [hp] at h
    cases h
    exact ⟨id, p, hid, hp, rfl⟩

end Read

/-! ## How a payment goes on -/

/-- A payment later on: as it was, or, if it was AUTHORIZED, as its capture has left it. -/
structure PaymentRecord.Follows (p p' : PaymentRecord) : Prop where
  same : p.SameAuthorization p'
  settled : p' = p ∨ p.status = .authorized ∧ (p'.status = .captured ∨ p'.status = .captureFailed)

namespace PaymentRecord.Follows

variable {p p' p'' : PaymentRecord}

@[refl] theorem refl (p : PaymentRecord) : p.Follows p := ⟨.refl p, .inl rfl⟩

/-- A payment that is not AUTHORIZED stays as it is. -/
theorem eq_of_settled (h : p.Follows p') (hs : p.status ≠ .authorized) : p' = p := by
  rcases h.settled with heq | ⟨hauthorized, -⟩
  · exact heq
  · exact absurd hauthorized hs

theorem trans (h : p.Follows p') (h' : p'.Follows p'') : p.Follows p'' := by
  refine ⟨h.same.trans h'.same, ?_⟩
  rcases h.settled with rfl | ⟨hs, hcase⟩
  · exact h'.settled
  · rw [h'.eq_of_settled]
    · exact .inr ⟨hs, hcase⟩
    · rintro hs'
      rw [hs'] at hcase
      rcases hcase with h | h <;> cases h

end PaymentRecord.Follows

section Ledger

variable {cfg : Config} {l l' : Ledger} {P : Uuid} {p : PaymentRecord}

/-- The row of a payment that a transaction captures. -/
theorem Change.follows {db : Db} {command : Command} {d : Started} {p₁ : PaymentRecord}
    {recording : Recording} {w : Write} (h : Change db command d p₁ recording w) (hp : db.payments.get? P = some p) :
    ∃ p', (w.apply db).payments.get? P = some p' ∧ p.Follows p' := by
  by_cases hid : p₁.id = P
  swap
  · exact ⟨p, by rw [h.get?_of_ne hid]; exact hp, .refl p⟩
  subst hid
  refine ⟨p₁, h.get?_self, ?_⟩
  cases h with
  | create _ _ hnone => rw [hnone] at hp; cases hp
  | @capture _ _ captureResult p₀ _ _ hg hs hu =>
    obtain rfl : p₀ = p := by
      rw [hu.same.id, Table.key_of_get? hg, hg] at hp
      exact Option.some.inj hp
    refine ⟨hu.same, .inr ⟨hs, ?_⟩⟩
    rw [hu.status]
    cases captureResult
    · exact .inl rfl
    · exact .inr rfl

theorem Ledger.Step.follows (h : Ledger.Step cfg l l') (hp : l.db.payments.get? P = some p) :
    ∃ p', l'.db.payments.get? P = some p' ∧ p.Follows p' := by
  rcases h.change with ⟨hdb, -⟩ | ⟨t, ws, htr, hdb, -, -⟩
  · exact ⟨p, by rw [hdb]; exact hp, .refl p⟩
  rw [hdb]
  cases htr with
  | begun | acquired | failed => exact ⟨p, hp, .refl p⟩
  | settled hc => exact hc.follows hp

theorem Ledger.follows_of_steps (h : Relation.ReflTransGen (Ledger.Step cfg) l l')
    (hp : l.db.payments.get? P = some p) : ∃ p', l'.db.payments.get? P = some p' ∧ p.Follows p' := by
  induction h with
  | refl => exact ⟨p, hp, .refl p⟩
  | tail _ hs ih =>
    obtain ⟨p₁, hp₁, hf⟩ := ih
    obtain ⟨p₂, hp₂, hf'⟩ := hs.follows hp₁
    exact ⟨p₂, hp₂, hf.trans hf'⟩

/-! ## What the answers say -/

/-- The answer of a record is the payment as the transaction left it that completed the record. -/
def Ledger.Backed (cfg : Config) (l : Ledger) (r : IdempotencyRecord) : Prop :=
  ∃ (command : Command) (p p' : PaymentRecord), command.Matches cfg r ∧ r.responseBody = some (toDto p).jsonb ∧
    r.resourceId = some p.id ∧ l.db.payments.get? p.id = some p' ∧ p.Follows p' ∧
    (command.kind = .capture → p.status ≠ .authorized) ∧ p.Shape

theorem Change.not_authorized {db : Db} {command : Command} {d : Started} {recording : Recording} {w : Write}
    (h : Change db command d p recording w) (hk : command.kind = .capture) : p.status ≠ .authorized := by
  cases h with
  | create hc => rw [hc] at hk; cases hk
  | @capture _ _ captureResult _ _ _ _ _ hu =>
    rw [hu.status]
    cases captureResult <;> exact fun h => by cases h

theorem Ledger.backed (h : Ledger.Reachable cfg l) :
    ∀ r ∈ l.db.idempotency.rows, r.status = .completed → l.Backed cfg r := by
  induction h with
  | refl => exact fun _ hr => absurd hr List.not_mem_nil
  | @tail l l' hl hs ih =>
    -- a record that was completed before is what it was
    have hold : ∀ r ∈ l.db.idempotency.rows, r.status = .completed → l'.Backed cfg r := by
      intro r hr hst
      obtain ⟨command, p, p', hm, hbody, hid, hp', hf, hk⟩ := ih r hr hst
      obtain ⟨p'', hp'', hf'⟩ := hs.follows hp'
      exact ⟨command, p, p'', hm, hbody, hid, hp'', hf.trans hf', hk⟩
    rcases hs.change with ⟨hdb, -⟩ | ⟨t, ws, htr, hdb, -, -⟩
    · rw [hdb]; exact hold
    intro r hr hst
    rw [hdb] at hr
    cases htr with
    | @begun _ _ r₀ hadm _ hn =>
      rcases Table.mem_of_insert hr with hr | rfl
      · exact hold r hr hst
      · rw [hadm.status] at hst; cases hst
    | @acquired r₀ lease token now hg hs₀ =>
      rcases Table.mem_of_put hr with hr | rfl
      · exact hold r hr hst
      · cases hst
    | @failed r₀ expiresAt now hg hs₀ =>
      rcases Table.mem_of_put hr with hr | rfl
      · exact hold r hr hst
      · cases hst
    | @settled command d p recording w env e r₀ expiresAt now hc hrec hn hg hm hres hst₀ hid htok =>
      have hr : r ∈ ((w.apply l.db).idempotency.put
          (r₀.markedCompleted command.statusCode (toDto p).jsonb p.id expiresAt now)).rows := hr
      rw [hc.idempotency] at hr
      rcases Table.mem_of_put hr with hr | rfl
      · exact hold r hr hst
      · have hrow : l'.db.payments.get? p.id = some p := by
          rw [hdb]
          exact hc.get?_self
        exact ⟨command, p, p, hm.of_same (.markedCompleted hres _ _ _ _), rfl, rfl, hrow, .refl p, hc.not_authorized,
          Ledger.shapes (hl.tail hs) p (Table.mem_of_get? hrow)⟩

end Ledger

/-! ## Reads of a run -/

section Runs

variable {cfg : Config} {s s' : State}

/-- Reads never go back: what a read has found, every later one finds, under any spelling of the id; only an AUTHORIZED
payment may have been captured in between. -/
theorem reads_forward (h : (service cfg).Reach System.anyStep s) (hsteps : (service cfg).Steps System.anyStep s s')
    {query query' : GetPaymentQuery} {body : Json String} (hread : getById s.db query = .ok body)
    (hsame : uuidColumn query'.paymentId = uuidColumn query.paymentId) :
    ∃ p p', body = toDto p ∧ p.Follows p' ∧ getById s'.db query' = .ok (toDto p') := by
  obtain ⟨id, p, hid, hp, rfl⟩ := row_of_getById hread
  obtain ⟨p', hp', hf⟩ := Ledger.follows_of_steps (ledger_of_steps (inv_of_reach h) hsteps) hp
  exact ⟨p, p', rfl, hf, getById_of_row (hsame.trans hid) hp'⟩

/-- What the answer of a call says about a payment, and what reads of that payment find from then on: the payment as the
call left it, or as its capture has; after an answer of `capture`, the answer itself. -/
structure ReadsAnswer (db : Db) (command : Command) (body : Json String) (p : PaymentRecord) : Prop where
  answer : Json.Same body (toDto p)
  read : ∃ p', p.Follows p' ∧ ∀ query : GetPaymentQuery, uuidColumn query.paymentId = .ok p.id →
    getById db query = .ok (toDto p')
  captured : ∀ cmd, command = .capture cmd → p.status ≠ .authorized ∧ uuidColumn cmd.paymentId = .ok p.id

/-- The payment that a command was answered with. -/
theorem Answered.payment {l : Ledger} {command : Command} {statusCode : Int} {body : Json String}
    (hl : Ledger.Reachable cfg l)
    (h : Answered cfg l.db command statusCode body) : ∃ (r : IdempotencyRecord) (p p' : PaymentRecord),
    r ∈ l.db.idempotency.rows ∧ command.Matches cfg r ∧ r.resourceId = some p.id ∧ Json.Same body (toDto p) ∧
    l.db.payments.get? p.id = some p' ∧ p.Follows p' ∧ (command.kind = .capture → p.status ≠ .authorized) ∧
    p.Shape := by
  obtain ⟨r, b, hr, hm, hs, -, hb, hbody⟩ := h
  have hrow := Table.mem_of_get? hr
  obtain ⟨command', p, p', hm', hb', hid, hp', hf, hk, hshape⟩ := Ledger.backed hl r hrow hs
  obtain rfl := Option.some.inj (hb.symm.trans hb')
  have hkind : command.kind = command'.kind := IdempotencyRecord.kind_unique hm.isOf hm'.isOf
  exact ⟨r, p, p', hrow, hm, hid, hbody.symm.trans (Json.same_jsonb (toDto_distinct p)), hp', hf,
    fun h => hk (hkind ▸ h), hshape⟩

/-- The payment of an accepted capture that has an answer. -/
theorem Ledger.RecordsInv.paymentId {l : Ledger} (hi : l.RecordsInv cfg) {cmd : CapturePaymentCommand}
    {r : IdempotencyRecord}
    {id : Uuid} (hr : r ∈ l.db.idempotency.rows) (hm : (Command.capture cmd).Matches cfg r)
    (hfit : (Command.capture cmd).Fits) (hid : r.resourceId = some id) : uuidColumn cmd.paymentId = .ok id := by
  obtain ⟨u, hu, hor⟩ := hi.resource r hr
  rcases hor with hcreate | ⟨paymentId, hscope, hpid⟩
  · cases IdempotencyRecord.kind_unique hm.isOf hcreate
  · have hsc : r.scope = "payments:capture:" ++ cmd.paymentId := varcharIn_eq hm.scope hfit.scope
    have heq : paymentId = cmd.paymentId := by
      rw [hscope] at hsc
      exact String.toList_inj.1 (List.append_cancel_left (by rw [← String.toList_append, ← String.toList_append, hsc]))
    obtain rfl := Option.some.inj (hu.symm.trans hid)
    rw [heq] at hpid
    rw [uuidColumn, hpid]

theorem answered_of_returned (hi : Inv cfg s) {c : CallId} {call : Call} {statusCode : Int} {body : Json String}
    (hc : s.calls c = some call) (hreturned : call.await = .returned statusCode body) :
    Answered cfg s.db call.command statusCode body := by
  have htx := (hi.calls c call hc).tx
  rwa [hreturned] at htx

/-- Calls read their own writes: once a call has answered, every read of its payment, then and later, agrees with the
answer. -/
theorem read_your_writes (h : (service cfg).Reach accepted s) {c : CallId} {call : Call} {statusCode : Int}
    {body : Json String} (hc : s.calls c = some call) (hreturned : call.await = .returned statusCode body)
    (hsteps : (service cfg).Steps System.anyStep s s') : ∃ p, ReadsAnswer s'.db call.command body p := by
  have hi := inv_of_reach h
  obtain ⟨r, p, p', hr, hm, hid, hbody, hp', hf, hk, -⟩ := (answered_of_returned hi hc hreturned).payment hi.ledger
  obtain ⟨p'', hp'', hf'⟩ := Ledger.follows_of_steps (ledger_of_steps hi hsteps) hp'
  refine ⟨p, hbody, ⟨p'', hf.trans hf', fun query hq => getById_of_row hq hp''⟩, ?_⟩
  intro cmd hcmd
  have hfit := (accepted_calls h c call hc).fits
  rw [hcmd] at hk hm hfit
  exact ⟨hk rfl, hi.records.paymentId hr hm hfit hid⟩

end Runs

namespace Sample

/-- The payment's id as it is stored, and another spelling. -/
def query : GetPaymentQuery := ⟨paymentId.uuidOut⟩

def bracedQuery : GetPaymentQuery := ⟨"\x7b" ++ paymentId.uuidOut ++ "\x7d"⟩

theorem query_id : uuidColumn query.paymentId = .ok paymentId ∧ uuidColumn bracedQuery.paymentId = .ok paymentId := by
  constructor <;> rfl

theorem created_read : ∃ body, getById created.db query = .ok body := by
  have hok : (getById created.db query).toBool = true := by decide +kernel
  cases hread : getById created.db query with
  | ok body => exact ⟨body, rfl⟩
  | error e => rw [hread] at hok; cases hok

end Sample

theorem reads_forward_captured :
    ∃ p p' : PaymentRecord, p.Follows p' ∧ getById Sample.captured.db Sample.bracedQuery = .ok (toDto p') := by
  obtain ⟨body, hread⟩ := Sample.created_read
  obtain ⟨p, p', -, hf, hread'⟩ := reads_forward Sample.created_reach Sample.captured_steps hread
    (Sample.query_id.2.trans Sample.query_id.1.symm)
  exact ⟨p, p', hf, hread'⟩

theorem read_your_writes_captured : ∃ body p, ReadsAnswer Sample.captured.db Sample.create body p := by
  obtain ⟨call, body, hcall, hcommand, hawait⟩ := Sample.hasReturned_call Sample.created_run.1
  obtain ⟨p, hp⟩ := read_your_writes Sample.created_accepted hcall hawait Sample.captured_steps
  exact ⟨body, p, by rw [← hcommand]; exact hp⟩

end PaymentOrchestration
