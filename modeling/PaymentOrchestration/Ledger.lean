/-
The committed tables on their own: a ledger that changes by whole transitions only. A record is begun,
acquired by a new owner, or failed by its owner; or a transaction settles it, which changes one payment,
adds one event and completes the record, all at once. What the service promises about its tables is
proved here, of every ledger such transitions lead to; that the running service makes no other change
is shown in `Refinement`.
-/
import PaymentOrchestration.Statements
import PaymentOrchestration.System
import Mathlib.Logic.Relation

namespace PaymentOrchestration

open Lib IdempotencyService OutboxService PaymentsService

/-! ## What a record is for -/

/-- The two operations that idempotency records guard. -/
inductive Kind
  | create
  | capture
deriving DecidableEq

/-- What the scopes of an operation begin with. -/
def Kind.scopePrefix : Kind → String
  | .create => "payments:create:"
  | .capture => "payments:capture:"

def Kind.statusCode : Kind → Int
  | .create => 201
  | .capture => 200

def Command.kind : Command → Kind
  | .create _ => .create
  | .capture _ => .capture

/-- The record's scope is one of the operation `k`. -/
def IdempotencyRecord.isOf (k : Kind) (r : IdempotencyRecord) : Bool := k.scopePrefix.toList.isPrefixOf r.scope.toList

theorem IdempotencyRecord.isOf_iff {k : Kind} {r : IdempotencyRecord} :
    r.isOf k = true ↔ k.scopePrefix.toList <+: r.scope.toList := by
  unfold isOf; exact List.isPrefixOf_iff_prefix

/-- A scope belongs to one operation only. -/
theorem IdempotencyRecord.kind_unique {k k' : Kind} {r : IdempotencyRecord} (h : r.isOf k = true)
    (h' : r.isOf k' = true) : k = k' := by
  rw [isOf_iff] at h h'
  have hcc : ¬ Kind.create.scopePrefix.toList <+: Kind.capture.scopePrefix.toList := by decide
  cases k with
  | create => cases k' with
    | create => rfl
    | capture => exact absurd (List.prefix_of_prefix_length_le h h' (by decide)) hcc
  | capture => cases k' with
    | create => exact absurd (List.prefix_of_prefix_length_le h' h (by decide)) hcc
    | capture => rfl

theorem Command.scope_startsWith (command : Command) : command.kind.scopePrefix.toList <+: command.scope.toList := by
  cases command with
  | create command => exact ⟨command.merchantId.toList, String.toList_append.symm⟩
  | capture command => exact ⟨command.paymentId.toList, String.toList_append.symm⟩

/-- The record was begun for the scope, key and request of the command. -/
structure Command.Matches (cfg : Config) (command : Command) (r : IdempotencyRecord) : Prop where
  scope : varcharIn 120 command.scope = .ok r.scope
  idempotencyKey : varcharIn 160 command.idempotencyKey = .ok r.idempotencyKey
  requestHash : r.requestHash = command.requestHash cfg

theorem Command.Matches.isOf {cfg : Config} {command : Command} {r : IdempotencyRecord} (h : command.Matches cfg r) :
    r.isOf command.kind = true :=
  IdempotencyRecord.isOf_iff.2 (varcharIn_startsWith h.scope command.scope_startsWith
    (by cases command.kind <;> decide))

/-- The record a call begins is for its command. -/
theorem TryInsertProcessingInput.Admitted.matches {cfg : Config} {env : Env} {call : Call} {id : Uuid}
    {r : IdempotencyRecord} (h : (call.insertInput cfg env).Admitted id r) : call.command.Matches cfg r := by
  refine ⟨h.scope, h.idempotencyKey, varcharIn_eq h.requestHash ?_⟩
  have : (call.command.requestHash cfg).toList.length = 64 := by
    simp only [Command.requestHash, buildRequestHash, Digest.hex, String.toList_ofList, List.length_map]
    exact Digest.length_eq _
  exact this.le.trans (by decide)

theorem TryInsertProcessingInput.Admitted.isOf {cfg : Config} {env : Env} {call : Call} {id : Uuid}
    {r : IdempotencyRecord} (h : (call.insertInput cfg env).Admitted id r) : r.isOf call.command.kind = true :=
  h.matches.isOf

/-- What no statement changes of a record. -/
structure IdempotencyRecord.SameIdentity (r r' : IdempotencyRecord) : Prop where
  id : r'.id = r.id
  scope : r'.scope = r.scope
  idempotencyKey : r'.idempotencyKey = r.idempotencyKey
  requestHash : r'.requestHash = r.requestHash
  resourceId : r'.resourceId = r.resourceId

namespace IdempotencyRecord.SameIdentity

variable {r r' r'' : IdempotencyRecord}

@[refl] theorem refl (r : IdempotencyRecord) : r.SameIdentity r := ⟨rfl, rfl, rfl, rfl, rfl⟩

theorem trans (h : r.SameIdentity r') (h' : r'.SameIdentity r'') : r.SameIdentity r'' :=
  ⟨h'.id.trans h.id, h'.scope.trans h.scope, h'.idempotencyKey.trans h.idempotencyKey,
    h'.requestHash.trans h.requestHash, h'.resourceId.trans h.resourceId⟩

theorem isOf (h : r.SameIdentity r') (k : Kind) : r'.isOf k = r.isOf k := by
  unfold IdempotencyRecord.isOf; rw [h.scope]

theorem acquired (r : IdempotencyRecord) (lease now : Timestamp) (token : Uuid) :
    r.SameIdentity (r.acquired lease token now) := ⟨rfl, rfl, rfl, rfl, rfl⟩

theorem markedFailed (r : IdempotencyRecord) (expiresAt now : Timestamp) :
    r.SameIdentity (r.markedFailed expiresAt now) := ⟨rfl, rfl, rfl, rfl, rfl⟩

theorem markedCompleted {r : IdempotencyRecord} {resourceId : Uuid} (h : r.resourceId = some resourceId)
    (statusCode : Int) (body : Json String) (expiresAt now : Timestamp) :
    r.SameIdentity (r.markedCompleted statusCode body resourceId expiresAt now) := ⟨rfl, rfl, rfl, rfl, h.symm⟩

end IdempotencyRecord.SameIdentity

theorem Command.Matches.of_same {cfg : Config} {command : Command} {r r' : IdempotencyRecord}
    (h : command.Matches cfg r) (hs : r.SameIdentity r') : command.Matches cfg r' :=
  ⟨by rw [hs.scope]; exact h.scope, by rw [hs.idempotencyKey]; exact h.idempotencyKey,
    by rw [hs.requestHash]; exact h.requestHash⟩

/-! ## Transitions -/

/-- The committed tables, the history of their writes, and the identifiers handed out so far. -/
structure Ledger where
  db : Db
  log : List (Session × Write)
  minted : List Uuid

/-- How a transaction of the command under the decision `d` changes a payment: the payment's new row,
the event that announces it, and the write. -/
inductive Change (db : Db) (command : Command) (d : Started) : PaymentRecord → Recording → Write → Prop
  | create {cmd now dbNow authorization p} : command = .create cmd →
      (insertRecord cmd d now authorization).Admitted dbNow p → db.payments.get? p.id = none →
      Change db command d p (createRecording authorization) (.insertPayment p)
  | capture {cmd now captureResult p p'} : command = .capture cmd →
      db.payments.get? d.resourceId = some p → p.status = .authorized →
      (updateInput p now captureResult).Updated p p' →
      Change db command d p' (captureRecording captureResult) (.updatePayment p')

/-- The ways the committed tables change. -/
inductive Transition (cfg : Config) (l : Ledger) : List Write → Prop
  | begun {call : Call} {env r} : (call.insertInput cfg env).Admitted env.uuid' r →
      IdempotencyDataAccess.findByScopeAndKey l.db r.scope r.idempotencyKey = none →
      l.db.idempotency.get? r.id = none → env.uuid ∉ l.minted →
      (∀ command, call.command = .capture command → call.resourceId = command.paymentId) →
      (call.command.kind = .create →
        ∀ r' ∈ l.db.idempotency.rows, r'.isOf .create = true → r'.resourceId ≠ r.resourceId) →
      Transition cfg l [.insertIdempotency r]
  | acquired {r lease token now} : l.db.idempotency.get? r.id = some r → r.status ≠ .completed → token ∉ l.minted →
      Transition cfg l [.acquireIdempotency (r.acquired lease token now)]
  | failed {r expiresAt now} : l.db.idempotency.get? r.id = some r → r.status = .processing →
      Transition cfg l [.failIdempotency (r.markedFailed expiresAt now)]
  | settled {command d p recording w env e r expiresAt now} : Change l.db command d p recording w →
      Recorded recording env command.correlationId p e → l.db.outbox.get? e.id = none →
      l.db.idempotency.get? r.id = some r → command.Matches cfg r → r.resourceId = some p.id →
      r.status = .processing → r.id = d.recordId → r.processingToken = d.processingToken →
      Transition cfg l [w, .insertOutbox e,
        .completeIdempotency (r.markedCompleted command.statusCode (toDto p).jsonb p.id expiresAt now)]

/-- The token a write hands out. -/
def Write.issued? : Write → Option Uuid
  | .insertIdempotency r | .acquireIdempotency r => some r.processingToken
  | _ => none

/-- A step of the ledger: identifiers are handed out, and at most one transition takes place. -/
structure Ledger.Step (cfg : Config) (l l' : Ledger) : Prop where
  minted : ∀ u ∈ l.minted, u ∈ l'.minted
  change : l'.db = l.db ∧ l'.log = l.log ∨ ∃ t ws, Transition cfg l ws ∧ l'.db = schema.applyAll l.db ws ∧
    l'.log = l.log ++ ws.map (t, ·) ∧ ∀ w ∈ ws, ∀ u, w.issued? = some u → u ∈ l'.minted

def Ledger.empty : Ledger := ⟨.empty, [], []⟩

/-- The ledgers that steps from the empty one lead to. -/
def Ledger.Reachable (cfg : Config) (l : Ledger) : Prop := Relation.ReflTransGen (Ledger.Step cfg) Ledger.empty l

/-! ## What a transition does to each table -/

section Tables

variable {cfg : Config} {l l' : Ledger} {ws : List Write} {db : Db}

theorem Change.outbox {command : Command} {d : Started} {p : PaymentRecord} {recording : Recording} {w : Write}
    (h : Change db command d p recording w) : (w.apply db).outbox = db.outbox := by
  cases h <;> rfl

theorem Change.idempotency {command : Command} {d : Started} {p : PaymentRecord} {recording : Recording} {w : Write}
    (h : Change db command d p recording w) : (w.apply db).idempotency = db.idempotency := by
  cases h <;> rfl

/-- A record's row after a transition: new, or the row it had with the same identity. -/
inductive RecordCase (cfg : Config) (l : Ledger) (ws : List Write) (t' : Table IdempotencyRecord.id) : Prop
  | begun {call : Call} {env r} : (call.insertInput cfg env).Admitted env.uuid' r →
      IdempotencyDataAccess.findByScopeAndKey l.db r.scope r.idempotencyKey = none →
      l.db.idempotency.get? r.id = none → env.uuid ∉ l.minted →
      (∀ command, call.command = .capture command → call.resourceId = command.paymentId) →
      (call.command.kind = .create →
        ∀ r' ∈ l.db.idempotency.rows, r'.isOf .create = true → r'.resourceId ≠ r.resourceId) →
      .insertIdempotency r ∈ ws → t' = l.db.idempotency.insert r → RecordCase cfg l ws t'
  | put {r r'} : l.db.idempotency.get? r.id = some r → r.SameIdentity r' → r.status ≠ .completed →
      (r'.processingToken = r.processingToken ∨ r'.processingToken ∉ l.minted ∧ .acquireIdempotency r' ∈ ws) →
      (r'.status = .completed → ∃ command : Command, ∃ p : PaymentRecord, command.Matches cfg r ∧
        r'.responseStatusCode = some command.statusCode ∧ r'.responseBody = some (toDto p).jsonb ∧
        r.resourceId = some p.id) →
      t' = l.db.idempotency.put r' → RecordCase cfg l ws t'

theorem Transition.records (h : Transition cfg l ws) : RecordCase cfg l ws (schema.applyAll l.db ws).idempotency := by
  cases h with
  | begun hadm hf hg ht hcap hres => exact .begun hadm hf hg ht hcap hres List.mem_cons_self rfl
  | @acquired r lease token now hg hs ht =>
    exact .put hg (.acquired r lease now token) hs (.inr ⟨ht, List.mem_cons_self⟩) (by rintro ⟨⟩) rfl
  | @failed r expiresAt now hg hs =>
    exact .put hg (.markedFailed r expiresAt now) (by rw [hs]; decide) (.inl rfl) (by rintro ⟨⟩) rfl
  | @settled command d p recording w env e r expiresAt now hc _ _ hg hm hr hs _ _ =>
    refine .put hg (.markedCompleted hr command.statusCode (toDto p).jsonb expiresAt now) (by rw [hs]; decide)
      (.inl rfl) (fun _ => ⟨command, p, hm, rfl, rfl, hr⟩) ?_
    change (w.apply l.db).idempotency.put _ = _
    rw [hc.idempotency]

/-- Every record after a transition has kept its identity from a record before it, or is new. -/
theorem Transition.origin (h : Transition cfg l ws) {y : IdempotencyRecord}
    (hy : y ∈ (schema.applyAll l.db ws).idempotency.rows) :
    (∃ x ∈ l.db.idempotency.rows, x.SameIdentity y) ∨ .insertIdempotency y ∈ ws := by
  cases h.records with
  | begun _ _ hn _ _ _ hw ht =>
    rw [ht, Table.mem_insert hn] at hy
    rcases hy with hy | rfl
    · exact .inl ⟨y, hy, .refl y⟩
    · exact .inr hw
  | @put r r' hg hs _ _ _ ht =>
    rw [ht, Table.mem_put (x := r) (by rw [hs.id]; exact hg)] at hy
    rcases hy with rfl | ⟨hy, -⟩
    · exact .inl ⟨r, Table.mem_of_get? hg, hs⟩
    · exact .inl ⟨y, hy, .refl y⟩

/-- A payment's row after a transition. -/
theorem Transition.payments (h : Transition cfg l ws) :
    (schema.applyAll l.db ws).payments = l.db.payments ∨
    (∃ p, l.db.payments.get? p.id = none ∧ (schema.applyAll l.db ws).payments = l.db.payments.insert p) ∨
    ∃ p p', l.db.payments.get? p'.id = some p ∧ p.status = .authorized ∧ p.SameAuthorization p' ∧
      (schema.applyAll l.db ws).payments = l.db.payments.put p' := by
  cases h with
  | begun | acquired | failed => exact .inl rfl
  | @settled _ _ p _ _ _ _ _ _ _ hc =>
    cases hc with
    | create _ _ hn => exact .inr (.inl ⟨p, hn, rfl⟩)
    | @capture _ _ _ p₀ _ _ hg hs hu =>
      have hid := Table.key_of_get? hg
      exact .inr (.inr ⟨p₀, p, by rw [hu.same.id, hid]; exact hg, hs, hu.same, rfl⟩)

/-- The events after a transition: one more, at most. -/
theorem Transition.outbox (h : Transition cfg l ws) :
    (schema.applyAll l.db ws).outbox = l.db.outbox ∨
    ∃ e, l.db.outbox.get? e.id = none ∧ (schema.applyAll l.db ws).outbox = l.db.outbox.insert e := by
  cases h with
  | begun | acquired | failed => exact .inl rfl
  | @settled _ _ _ _ w _ e _ _ _ hc _ hn =>
    refine .inr ⟨e, hn, ?_⟩
    change (w.apply l.db).outbox.insert e = _
    rw [hc.outbox]

end Tables

/-! ## What never changes back -/

/-- How a ledger goes on: records keep their identity and a completed one its answer; a token changes
only to a new one; a payment keeps its authorization, and a payment that is not AUTHORIZED any more its
row; events stay. -/
structure Ledger.Evolves (l l' : Ledger) : Prop where
  record : ∀ id r, l.db.idempotency.get? id = some r → ∃ r', l'.db.idempotency.get? id = some r' ∧
    r.SameIdentity r' ∧ (r.status = .completed → r' = r) ∧
    (r'.processingToken = r.processingToken ∨ r'.processingToken ∉ l.minted)
  payment : ∀ id p, l.db.payments.get? id = some p → ∃ p', l'.db.payments.get? id = some p' ∧
    p.SameAuthorization p' ∧ (p.status ≠ .authorized → p' = p)
  event : ∀ id e, l.db.outbox.get? id = some e → l'.db.outbox.get? id = some e
  minted : ∀ u ∈ l.minted, u ∈ l'.minted
  log : l.log <+: l'.log

namespace Ledger.Evolves

variable {cfg : Config} {l l' l'' : Ledger}

@[refl] theorem refl (l : Ledger) : l.Evolves l :=
  ⟨fun _ r h => ⟨r, h, .refl r, fun _ => rfl, .inl rfl⟩, fun _ p h => ⟨p, h, .refl p, fun _ => rfl⟩, fun _ _ h => h,
    fun _ h => h, List.prefix_refl _⟩

theorem trans (h : l.Evolves l') (h' : l'.Evolves l'') : l.Evolves l'' where
  record id r hr := by
    obtain ⟨r₁, hr₁, hs₁, hc₁, ht₁⟩ := h.record id r hr
    obtain ⟨r₂, hr₂, hs₂, hc₂, ht₂⟩ := h'.record id r₁ hr₁
    refine ⟨r₂, hr₂, hs₁.trans hs₂, fun hc => ?_, ?_⟩
    · obtain rfl := hc₁ hc
      exact hc₂ hc
    · rcases ht₂ with ht₂ | ht₂
      · rw [ht₂]; exact ht₁
      · exact .inr fun hm => ht₂ (h.minted _ hm)
  payment id p hp := by
    obtain ⟨p₁, hp₁, hs₁, hc₁⟩ := h.payment id p hp
    obtain ⟨p₂, hp₂, hs₂, hc₂⟩ := h'.payment id p₁ hp₁
    refine ⟨p₂, hp₂, hs₁.trans hs₂, fun hc => ?_⟩
    obtain rfl := hc₁ hc
    exact hc₂ hc
  event id e he := h'.event id e (h.event id e he)
  minted u hu := h'.minted u (h.minted u hu)
  log := h.log.trans h'.log

theorem of_step (h : Ledger.Step cfg l l') : l.Evolves l' := by
  rcases h.change with ⟨hdb, hlog⟩ | ⟨t, ws, htr, hdb, hlog, -⟩
  · exact ⟨fun id r hr => ⟨r, by rw [hdb]; exact hr, .refl r, fun _ => rfl, .inl rfl⟩,
      fun id p hp => ⟨p, by rw [hdb]; exact hp, .refl p, fun _ => rfl⟩, fun id e he => by rw [hdb]; exact he,
      h.minted, by rw [hlog]⟩
  refine ⟨fun id r hr => ?_, fun id p hp => ?_, fun id e he => ?_, h.minted, by rw [hlog]; exact List.prefix_append _ _⟩
  · rw [hdb]
    cases htr.records with
    | @begun _ _ r₀ _ _ hn _ _ _ _ ht =>
      have hne : r₀.id ≠ id := by rintro rfl; rw [hn] at hr; cases hr
      rw [ht, Table.get?_insert_of_ne hne]
      exact ⟨r, hr, .refl r, fun _ => rfl, .inl rfl⟩
    | @put r₀ r₁ hg hs hc htok _ ht =>
      rw [ht]
      by_cases hid : r₁.id = id
      · obtain rfl : r = r₀ := by
          rw [← hid, hs.id, hg] at hr; exact (Option.some.inj hr).symm
        refine ⟨r₁, ?_, hs, fun hcc => absurd hcc hc, htok.imp_right And.left⟩
        rw [← hid, Table.get?_put_self (by rw [hs.id]; exact hg)]
      · rw [Table.get?_put_of_ne hid]
        exact ⟨r, hr, .refl r, fun _ => rfl, .inl rfl⟩
  · rw [hdb]
    rcases htr.payments with ht | ⟨p₀, hn, ht⟩ | ⟨p₀, p₁, hg, hst, hs, ht⟩
    · rw [ht]; exact ⟨p, hp, .refl p, fun _ => rfl⟩
    · have hne : p₀.id ≠ id := by rintro rfl; rw [hn] at hp; cases hp
      rw [ht, Table.get?_insert_of_ne hne]
      exact ⟨p, hp, .refl p, fun _ => rfl⟩
    · rw [ht]
      by_cases hid : p₁.id = id
      · obtain rfl : p = p₀ := by
          rw [← hid, hg] at hp; exact (Option.some.inj hp).symm
        refine ⟨p₁, ?_, hs, fun hc => absurd hst hc⟩
        rw [← hid, Table.get?_put_self hg]
      · rw [Table.get?_put_of_ne hid]
        exact ⟨p, hp, .refl p, fun _ => rfl⟩
  · rw [hdb]
    rcases htr.outbox with ht | ⟨e₀, hn, ht⟩
    · rw [ht]; exact he
    · have hne : e₀.id ≠ id := by rintro rfl; rw [hn] at he; cases he
      rw [ht, Table.get?_insert_of_ne hne]; exact he

theorem of_steps (h : Relation.ReflTransGen (Ledger.Step cfg) l l') : l.Evolves l' := by
  induction h with
  | refl => exact .refl _
  | tail _ hs ih => exact ih.trans (.of_step hs)

end Ledger.Evolves

/-- The tables are what their history wrote. -/
theorem Ledger.db_eq {cfg : Config} {l : Ledger} (h : Ledger.Reachable cfg l) :
    l.db = schema.applyAll .empty (l.log.map Prod.snd) := by
  induction h with
  | refl => rfl
  | tail _ hs ih =>
    rcases hs.change with ⟨hdb, hlog⟩ | ⟨t, ws, -, hdb, hlog, -⟩
    · rw [hdb, hlog]; exact ih
    · have hmap : (ws.map (t, ·)).map Prod.snd = ws := by simp [Function.comp_def]
      rw [hdb, hlog, List.map_append, hmap, ih]
      exact List.foldl_append.symm

/-! ## The records -/

/-- What holds of the records of a reachable ledger. -/
structure Ledger.RecordsInv (cfg : Config) (l : Ledger) : Prop where
  key : ∀ r ∈ l.db.idempotency.rows, ∀ r' ∈ l.db.idempotency.rows, r.scope = r'.scope →
    r.idempotencyKey = r'.idempotencyKey → r = r'
  stored : ∀ r ∈ l.db.idempotency.rows, varcharIn 120 r.scope = .ok r.scope ∧
    varcharIn 160 r.idempotencyKey = .ok r.idempotencyKey
  token : ∀ r ∈ l.db.idempotency.rows, r.processingToken ∈ l.minted
  resource : ∀ r ∈ l.db.idempotency.rows, ∃ u, r.resourceId = some u ∧ (r.isOf .create = true ∨
    ∃ paymentId, r.scope = "payments:capture:" ++ paymentId ∧ Uuid.uuidIn paymentId = some u)
  distinct : ∀ r ∈ l.db.idempotency.rows, ∀ r' ∈ l.db.idempotency.rows, r.isOf .create = true →
    r'.isOf .create = true → r.resourceId = r'.resourceId → r = r'
  completed : ∀ r ∈ l.db.idempotency.rows, r.status = .completed → ∃ command : Command, ∃ p : PaymentRecord,
    command.Matches cfg r ∧ r.responseStatusCode = some command.statusCode ∧ r.responseBody = some (toDto p).jsonb ∧
    r.resourceId = some p.id

namespace Ledger.RecordsInv

variable {cfg : Config} {l l' : Ledger}

theorem empty : RecordsInv cfg Ledger.empty := by
  constructor <;> simp [Ledger.empty, Db.empty]

/-- The scope of a capture record spells its payment's id. -/
theorem scope_of_capture {command : CapturePaymentCommand} {scope : String} {u : Uuid}
    (hs : varcharIn 120 (Command.capture command).scope = .ok scope) (hu : Uuid.uuidIn command.paymentId = some u) :
    scope = "payments:capture:" ++ command.paymentId := by
  have hid := Uuid.uuidIn_length hu
  have hp : "payments:capture:".toList.length ≤ 20 := by decide
  have hlen : (Command.capture command).scope.toList.length =
      "payments:capture:".toList.length + command.paymentId.toList.length := by
    rw [← List.length_append, ← String.toList_append]; rfl
  have hfit : (Command.capture command).scope.toList.length ≤ 120 := by omega
  exact varcharIn_eq hs hfit

theorem of_step (hi : RecordsInv cfg l) (h : Ledger.Step cfg l l') : RecordsInv cfg l' := by
  rcases h.change with ⟨hdb, -⟩ | ⟨t, ws, htr, hdb, -, hissued⟩
  · exact ⟨by rw [hdb]; exact hi.key, by rw [hdb]; exact hi.stored,
      fun r hr => h.minted _ (hi.token r (by rw [hdb] at hr; exact hr)), by rw [hdb]; exact hi.resource,
      by rw [hdb]; exact hi.distinct, by rw [hdb]; exact hi.completed⟩
  cases htr.records with
  | @begun call env r hadm hfind hn _ hcap hres hw ht =>
    rw [← hdb] at ht
    have hmem : ∀ y, y ∈ l'.db.idempotency.rows ↔ y ∈ l.db.idempotency.rows ∨ y = r := by
      intro y; rw [ht]; exact Table.mem_insert hn
    have hnew : ∀ y ∈ l.db.idempotency.rows, ¬ (y.scope = r.scope ∧ y.idempotencyKey = r.idempotencyKey) :=
      IdempotencyDataAccess.findByScopeAndKey_none hfind
    obtain ⟨u, hu, hru⟩ := hadm.resourceId
    refine ⟨?_, ?_, ?_, ?_, ?_, ?_⟩
    · intro x hx y hy hs hk
      rcases (hmem x).1 hx with hx | rfl <;> rcases (hmem y).1 hy with hy | rfl
      · exact hi.key x hx y hy hs hk
      · exact absurd ⟨hs, hk⟩ (hnew x hx)
      · exact absurd ⟨hs.symm, hk.symm⟩ (hnew y hy)
      · rfl
    · intro x hx
      rcases (hmem x).1 hx with hx | rfl
      · exact hi.stored x hx
      · exact ⟨varcharIn_stored hadm.scope, varcharIn_stored hadm.idempotencyKey⟩
    · intro x hx
      rcases (hmem x).1 hx with hx | rfl
      · exact h.minted _ (hi.token x hx)
      · exact hissued _ hw _ rfl
    · intro x hx
      rcases (hmem x).1 hx with hx | rfl
      · exact hi.resource x hx
      · refine ⟨u, hru, ?_⟩
        cases hcmd : call.command with
        | create command =>
          have := hadm.isOf
          rw [hcmd] at this
          exact .inl this
        | capture command =>
          have hid : Uuid.uuidIn command.paymentId = some u := by rw [← hcap command hcmd]; exact hu
          have hsc := hadm.scope
          simp only [Call.insertInput, hcmd] at hsc
          exact .inr ⟨command.paymentId, scope_of_capture hsc hid, hid⟩
    · intro x hx y hy hxc hyc hres'
      have hkind : x = r ∨ y = r → call.command.kind = .create := by
        intro hor
        have hr : r.isOf .create = true := by rcases hor with rfl | rfl <;> assumption
        exact IdempotencyRecord.kind_unique hadm.isOf hr
      rcases (hmem x).1 hx with hx | rfl <;> rcases (hmem y).1 hy with hy | rfl
      · exact hi.distinct x hx y hy hxc hyc hres'
      · exact absurd hres' (hres (hkind (.inr rfl)) x hx hxc)
      · exact absurd hres'.symm (hres (hkind (.inl rfl)) y hy hyc)
      · rfl
    · intro x hx hxc
      rcases (hmem x).1 hx with hx | rfl
      · exact hi.completed x hx hxc
      · rw [hadm.status] at hxc; cases hxc
  | @put r r' hg hs hc htok hcomp ht =>
    rw [← hdb] at ht
    have hg' : l.db.idempotency.get? r'.id = some r := by rw [hs.id]; exact hg
    have hr : r ∈ l.db.idempotency.rows := Table.mem_of_get? hg
    have hmem : ∀ y, y ∈ l'.db.idempotency.rows ↔ y = r' ∨ y ∈ l.db.idempotency.rows ∧ y.id ≠ r'.id := by
      intro y; rw [ht]; exact Table.mem_put hg'
    -- every row has kept its identity from a row before the transition
    have hold : ∀ y ∈ l'.db.idempotency.rows, ∃ x ∈ l.db.idempotency.rows, x.SameIdentity y := by
      intro y hy
      rcases (hmem y).1 hy with rfl | ⟨hy, -⟩
      · exact ⟨r, hr, hs⟩
      · exact ⟨y, hy, .refl y⟩
    have hinj : ∀ y ∈ l'.db.idempotency.rows, ∀ y' ∈ l'.db.idempotency.rows,
        ∀ x x' : IdempotencyRecord, x.SameIdentity y → x'.SameIdentity y' → x = x' → y = y' := by
      rintro y hy y' hy' x _ hx hx' rfl
      exact l'.db.idempotency.inj hy hy' (hx.id.trans hx'.id.symm)
    refine ⟨?_, ?_, ?_, ?_, ?_, ?_⟩
    · intro y hy y' hy' hsc hk
      obtain ⟨x, hx, hxy⟩ := hold y hy
      obtain ⟨x', hx', hxy'⟩ := hold y' hy'
      refine hinj y hy y' hy' x x' hxy hxy' (hi.key x hx x' hx' ?_ ?_)
      · rw [← hxy.scope, ← hxy'.scope, hsc]
      · rw [← hxy.idempotencyKey, ← hxy'.idempotencyKey, hk]
    · intro y hy
      obtain ⟨x, hx, hxy⟩ := hold y hy
      rw [hxy.scope, hxy.idempotencyKey]; exact hi.stored x hx
    · intro y hy
      rcases (hmem y).1 hy with rfl | ⟨hy, -⟩
      · rcases htok with htok | ⟨-, hw⟩
        · rw [htok]; exact h.minted _ (hi.token r hr)
        · exact hissued _ hw _ rfl
      · exact h.minted _ (hi.token y hy)
    · intro y hy
      obtain ⟨x, hx, hxy⟩ := hold y hy
      rw [hxy.resourceId, hxy.isOf, hxy.scope]; exact hi.resource x hx
    · intro y hy y' hy' hyc hyc' hres'
      obtain ⟨x, hx, hxy⟩ := hold y hy
      obtain ⟨x', hx', hxy'⟩ := hold y' hy'
      refine hinj y hy y' hy' x x' hxy hxy' (hi.distinct x hx x' hx' ?_ ?_ ?_)
      · rw [← hxy.isOf]; exact hyc
      · rw [← hxy'.isOf]; exact hyc'
      · rw [← hxy.resourceId, ← hxy'.resourceId]; exact hres'
    · intro y hy hyc
      rcases (hmem y).1 hy with rfl | ⟨hy, -⟩
      · obtain ⟨command, p, hm, hcode, hbody, hres⟩ := hcomp hyc
        exact ⟨command, p, hm.of_same hs, hcode, hbody, hs.resourceId.trans hres⟩
      · exact hi.completed y hy hyc

theorem of_reachable (h : Ledger.Reachable cfg l) : RecordsInv cfg l := by
  induction h with
  | refl => exact empty
  | tail _ hs ih => exact ih.of_step hs

end Ledger.RecordsInv

end PaymentOrchestration
