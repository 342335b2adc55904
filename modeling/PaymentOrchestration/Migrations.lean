/-
Migrations 003 to 006 of the payment service's database, as what they do to rows that were there before
them: the rows of idempotency_keys as migration 002 lets them be, and the tables the service finds.
Migration 003 adds the lease without a value, 004 checks the statuses, 005 gives each row a processing
token, and 006 creates outbox_events.
-/
import PaymentOrchestration.Constraints

namespace PaymentOrchestration

open Lib

/-! ## After migration 002 -/

/-- A row of idempotency_keys after migration 002. -/
structure LegacyRecord where
  id : Uuid
  scope : String
  idempotencyKey : String
  requestHash : String
  status : String
  resourceType : Option String
  resourceId : Option Uuid
  responseStatusCode : Option Int
  responseBody : Option (Json String)
  createdAt : Timestamp
  updatedAt : Timestamp
  expiresAt : Option Timestamp

/-- The values are ones the columns can hold. -/
structure LegacyRecord.Fits (r : LegacyRecord) : Prop where
  scope : varcharIn 120 r.scope = .ok r.scope
  idempotencyKey : varcharIn 160 r.idempotencyKey = .ok r.idempotencyKey
  requestHash : varcharIn 128 r.requestHash = .ok r.requestHash
  status : varcharIn 30 r.status = .ok r.status
  resourceType : nullable (varcharIn 80) r.resourceType = .ok r.resourceType
  responseStatusCode : ∀ n, r.responseStatusCode = some n → -2 ^ 31 ≤ n ∧ n < 2 ^ 31
  responseBody : nullable jsonbColumn r.responseBody = .ok r.responseBody

/-- idempotency_keys after migration 002: a primary key, and a unique constraint on scope and key. -/
structure LegacyTable where
  table : Table LegacyRecord.id
  fits : ∀ r ∈ table.rows, r.Fits
  unique : (table.rows.map fun r => (r.scope, r.idempotencyKey)).Nodup

/-! ## Migrations 003 to 006 -/

/-- A row after migration 003. -/
structure LeasedRecord extends LegacyRecord where
  processingExpiresAt : Option Timestamp

/-- Migration 003: the new column is NULL. -/
def addIdempotencyLeaseMetadata (r : LegacyRecord) : LeasedRecord := { r with processingExpiresAt := none }

/-- Migration 004: the CHECK constraint on the status. A row that violates it fails the migration. -/
def idempotencyKeysStatusCheck : String → Except Err IdempotencyStatus
  | "PROCESSING" => .ok .processing
  | "COMPLETED" => .ok .completed
  | "FAILED" => .ok .failed
  | _ => .error (.other "check constraint idempotency_keys_status_check is violated by some row")

/-- Migration 005: a token of its own for every row. The update fires the trigger of migration 004. -/
def addIdempotencyProcessingToken (processingToken : Uuid) (now : Timestamp) (status : IdempotencyStatus)
    (r : LeasedRecord) : IdempotencyRecord where
  id := r.id
  scope := r.scope
  idempotencyKey := r.idempotencyKey
  requestHash := r.requestHash
  status := status
  resourceType := r.resourceType
  resourceId := r.resourceId
  responseStatusCode := r.responseStatusCode
  responseBody := r.responseBody
  createdAt := r.createdAt
  updatedAt := now
  expiresAt := r.expiresAt
  processingExpiresAt := r.processingExpiresAt
  processingToken := processingToken

/-- A row through migrations 003 to 005, where `token` is what `gen_random_uuid()` returns for a row. -/
def LegacyRecord.migrate (token : Uuid → Uuid) (now : Timestamp) (r : LegacyRecord) : Except Err IdempotencyRecord := do
  let leased := addIdempotencyLeaseMetadata r
  let status ← idempotencyKeysStatusCheck leased.status
  return addIdempotencyProcessingToken (token leased.id) now status leased

/-- What the migrations keep of a row, and what they give it. -/
structure LegacyRecord.Migrated (r : LegacyRecord) (r' : IdempotencyRecord) : Prop where
  id : r'.id = r.id
  scope : r'.scope = r.scope
  idempotencyKey : r'.idempotencyKey = r.idempotencyKey
  requestHash : r'.requestHash = r.requestHash
  status : idempotencyKeysStatusCheck r.status = .ok r'.status
  resourceId : r'.resourceId = r.resourceId
  processingExpiresAt : r'.processingExpiresAt = none

theorem LegacyRecord.migrate_ok {token : Uuid → Uuid} {now : Timestamp} {r : LegacyRecord} {r' : IdempotencyRecord}
    (h : r.migrate token now = .ok r') : r.Migrated r' := by
  unfold LegacyRecord.migrate at h
  obtain ⟨status, hstatus, h⟩ := ok_of_bind h
  cases h
  exact ⟨rfl, rfl, rfl, rfl, hstatus, rfl, rfl⟩

theorem LegacyRecord.migrate_id {token : Uuid → Uuid} {now : Timestamp} (r : LegacyRecord) (r' : IdempotencyRecord)
    (h : r.migrate token now = .ok r') : r'.id = r.id :=
  (migrate_ok h).id

/-- The tables after migration 006, with the payments that migration 004 has accepted. -/
def LegacyTable.migrate (legacy : LegacyTable) (payments : Table PaymentRecord.id)
    (token : Uuid → Uuid) (now : Timestamp) : Except Err Db := do
  let idempotency ← legacy.table.traverse (LegacyRecord.migrate token now) LegacyRecord.migrate_id
  return ⟨payments, .empty, idempotency⟩

def IdempotencyStatus.text : IdempotencyStatus → String
  | .processing => "PROCESSING"
  | .completed => "COMPLETED"
  | .failed => "FAILED"

theorem idempotencyKeysStatusCheck_ok {text : String} {status : IdempotencyStatus}
    (h : idempotencyKeysStatusCheck text = .ok status) : text = status.text := by
  unfold idempotencyKeysStatusCheck at h
  split at h <;> cases h <;> rfl

section Migrate

variable {legacy : LegacyTable} {payments : Table PaymentRecord.id} {token : Uuid → Uuid} {now : Timestamp} {db : Db}

theorem LegacyTable.migrate_ok (h : legacy.migrate payments token now = .ok db) :
    legacy.table.traverse (LegacyRecord.migrate token now) LegacyRecord.migrate_id = .ok db.idempotency := by
  unfold LegacyTable.migrate at h
  obtain ⟨idempotency, hrows, h⟩ := ok_of_bind h
  cases h
  exact hrows

/-- Every row was there before. -/
theorem LegacyTable.migrated_of_mem (h : legacy.migrate payments token now = .ok db) {r' : IdempotencyRecord}
    (hr : r' ∈ db.idempotency.rows) : ∃ r ∈ legacy.table.rows, r.Migrated r' := by
  obtain ⟨r, hr, hm⟩ := Table.mem_of_traverse (migrate_ok h) hr
  exact ⟨r, hr, LegacyRecord.migrate_ok hm⟩

/-- Every row is still there. -/
theorem LegacyTable.mem_of_legacy (h : legacy.migrate payments token now = .ok db) {r : LegacyRecord}
    (hr : r ∈ legacy.table.rows) : ∃ r' ∈ db.idempotency.rows, r.Migrated r' := by
  obtain ⟨r', hr', hm⟩ := Table.traverse_of_mem (migrate_ok h) hr
  exact ⟨r', hr', LegacyRecord.migrate_ok hm⟩

/-- Scope and key are still unique. -/
theorem LegacyTable.migrate_unique (h : legacy.migrate payments token now = .ok db) :
    (db.idempotency.rows.map fun r => (r.scope, r.idempotencyKey)).Nodup := by
  have hkept : ∀ r r', LegacyRecord.migrate token now r = .ok r' →
      (r'.scope, r'.idempotencyKey) = (r.scope, r.idempotencyKey) := by
    intro r r' hm
    have hm := LegacyRecord.migrate_ok hm
    rw [hm.scope, hm.idempotencyKey]
  rw [Table.map_of_traverse _ (fun r : IdempotencyRecord => (r.scope, r.idempotencyKey)) hkept (migrate_ok h)]
  exact legacy.unique

end Migrate

end PaymentOrchestration
