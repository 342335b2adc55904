/-
What the publisher's workers do to outbox_events: the statements of `OutboxEventsDataAccess` that a poll
transaction runs, and the table as a `Schema` of the library's server. `WellFormed` says what a stored row looks
like and `Follows` how it may change, for every statement.
-/
import PaymentOrchestration.Statements
import Mathlib.Data.List.Sort

namespace PaymentOrchestration

open Lib

/-- The table outbox_events. -/
abbrev OutboxEvents := Table OutboxEventRecord.id

namespace OutboxEventRecord

/-! ## Rows -/

/-- The order of `fetchPendingBatch`: by creation time, then by id. -/
def Before (a b : OutboxEventRecord) : Prop :=
  a.createdAt < b.createdAt ∨ a.createdAt = b.createdAt ∧ a.id.digits ≤ b.id.digits

instance : DecidableRel Before := fun a b => by unfold Before; infer_instance

theorem before_total (a b : OutboxEventRecord) : a.Before b ∨ b.Before a := by
  unfold Before
  rcases Int.lt_trichotomy a.createdAt b.createdAt with h | h | h
  · exact .inl (.inl h)
  · rcases le_total a.id.digits b.id.digits with hd | hd
    · exact .inl (.inr ⟨h, hd⟩)
    · exact .inr (.inr ⟨h.symm, hd⟩)
  · exact .inr (.inl h)

theorem before_trans {a b c : OutboxEventRecord} (h : a.Before b) (h' : b.Before c) : a.Before c := by
  rcases h with h | ⟨h, hd⟩ <;> rcases h' with h' | ⟨h', hd'⟩
  · exact .inl (h.trans h')
  · exact .inl (h'.symm ▸ h)
  · exact .inl (h ▸ h')
  · exact .inr ⟨h.trans h', hd.trans hd'⟩

theorem not_before_of_lt {a b : OutboxEventRecord} (h : a.createdAt < b.createdAt) : ¬ b.Before a := by
  rintro (h' | ⟨h', -⟩)
  · exact absurd (h.trans h') (lt_irrefl _)
  · exact absurd (h'.symm ▸ h) (lt_irrefl _)

instance : Std.Total Before := ⟨before_total⟩

instance : IsTrans OutboxEventRecord Before := ⟨fun _ _ _ => before_trans⟩

end OutboxEventRecord

/-! ## The statements -/

/-- An `integer` parameter. -/
def integerColumn (n : Nat) : Except Err Nat :=
  if n < 2 ^ 31 then .ok n else .error (.other "integer out of range")

/-- A `bigint` parameter. -/
def limitParameter (n : Nat) : Except Err Nat :=
  if n < 2 ^ 63 then .ok n else .error (.other "bigint out of range")

/-- `MarkPublishFailedInput`. -/
structure MarkPublishFailedInput where
  id : Uuid
  lastError : String
  maxAttempts : Nat
  nextRetryAt : Option Millis

namespace OutboxEventsDataAccess

/-- The `where` clause of `fetchPendingBatch`. -/
def eligible (now : Timestamp) (r : OutboxEventRecord) : Bool :=
  r.status = .pending ∧ r.nextRetryAt.all (· ≤ now)

/-- `fetchPendingBatch`: `FOR UPDATE SKIP LOCKED` passes over the rows that other transactions have locked. -/
def fetchPendingBatch (table : OutboxEvents) (limit : Nat) (now : Timestamp) (free : Uuid → Bool) :
    Except Err (List OutboxEventRecord) := do
  let limit ← limitParameter limit
  return ((table.rows.filter fun r => eligible now r && free r.id).insertionSort OutboxEventRecord.Before).take limit

/-- The pending row with the id, which the two updates below change. -/
def pendingRow (table : OutboxEvents) (id : Uuid) : Option OutboxEventRecord :=
  (table.get? id).filter (·.status = .pending)

def markPublished (table : OutboxEvents) (id : Uuid) (now : Timestamp) : Option OutboxEventRecord :=
  (pendingRow table id).map fun r => { r with status := .published, publishedAt := some now }

def markPublishFailed (table : OutboxEvents) (input : MarkPublishFailedInput) :
    Except Err (Option OutboxEventRecord) := do
  let maxAttempts ← integerColumn input.maxAttempts
  let nextRetryAt ← dateColumn input.nextRetryAt
  let lastError ← textIn input.lastError
  match pendingRow table input.id with
  | none => return none
  | some r =>
    let attempts ← integerColumn (r.attempts + 1)
    let reachesTerminalAttempt : Bool := maxAttempts ≤ r.attempts + 1
    return some { r with
      attempts := attempts
      status := if reachesTerminalAttempt then .failed else .pending
      nextRetryAt := if reachesTerminalAttempt then none else some nextRetryAt
      lastError := some lastError }

end OutboxEventsDataAccess

/-- The row a statement has written. -/
inductive OutboxWrite
  | insert (r : OutboxEventRecord)
  | published (r : OutboxEventRecord)
  | publishFailed (r : OutboxEventRecord)

namespace OutboxWrite

def row : OutboxWrite → OutboxEventRecord
  | insert r | published r | publishFailed r => r

def apply (table : OutboxEvents) : OutboxWrite → OutboxEvents
  | insert r => table.insert r
  | published r | publishFailed r => table.put r

end OutboxWrite

/-- The table as data changed row by row. -/
def outboxSchema : Schema OutboxEvents OutboxWrite Uuid where
  Row := fun _ => OutboxEventRecord
  row := fun id table => table.get? id
  key := fun w => w.row.id
  apply := OutboxWrite.apply
  row_apply := by
    intro id w table h
    cases w with
    | insert r => exact Table.get?_insert_of_ne h
    | published r | publishFailed r => exact Table.get?_put_of_ne h

/-! ## What a row looks like and how it changes -/

namespace OutboxEventRecord

/-- The columns that no statement changes. -/
structure SameEvent (r r' : OutboxEventRecord) : Prop where
  id : r'.id = r.id
  aggregateType : r'.aggregateType = r.aggregateType
  aggregateId : r'.aggregateId = r.aggregateId
  eventType : r'.eventType = r.eventType
  eventVersion : r'.eventVersion = r.eventVersion
  routingKey : r'.routingKey = r.routingKey
  payload : r'.payload = r.payload
  createdAt : r'.createdAt = r.createdAt

@[refl] theorem SameEvent.refl (r : OutboxEventRecord) : r.SameEvent r := ⟨rfl, rfl, rfl, rfl, rfl, rfl, rfl, rfl⟩

theorem SameEvent.symm {r r' : OutboxEventRecord} (h : r.SameEvent r') : r'.SameEvent r :=
  ⟨h.id.symm, h.aggregateType.symm, h.aggregateId.symm, h.eventType.symm, h.eventVersion.symm, h.routingKey.symm,
    h.payload.symm, h.createdAt.symm⟩

theorem SameEvent.trans {r r' r'' : OutboxEventRecord} (h : r.SameEvent r') (h' : r'.SameEvent r'') : r.SameEvent r'' :=
  ⟨h'.id.trans h.id, h'.aggregateType.trans h.aggregateType, h'.aggregateId.trans h.aggregateId,
    h'.eventType.trans h.eventType, h'.eventVersion.trans h.eventVersion, h'.routingKey.trans h.routingKey,
    h'.payload.trans h.payload, h'.createdAt.trans h.createdAt⟩

/-- What a stored row looks like when an event is given up after `maxAttempts` attempts. -/
structure WellFormed (maxAttempts : Nat) (r : OutboxEventRecord) : Prop where
  pending : r.status = .pending → r.publishedAt = none ∧ r.attempts < maxAttempts ∧
    (0 < r.attempts → r.lastError.isSome ∧ r.nextRetryAt.isSome)
  failed : r.status = .failed → r.attempts = maxAttempts ∧ r.lastError.isSome ∧ r.nextRetryAt = none ∧
    r.publishedAt = none
  published : r.status = .published → r.publishedAt.isSome ∧ r.attempts < maxAttempts

/-- How one commit may change a row. -/
structure Follows (r r' : OutboxEventRecord) : Prop where
  same : r.SameEvent r'
  attempts : r.attempts ≤ r'.attempts ∧ r'.attempts ≤ r.attempts + 1
  final : r.status ≠ .pending → r' = r

@[refl] theorem Follows.refl (r : OutboxEventRecord) : r.Follows r := ⟨.refl r, by omega, fun _ => rfl⟩

end OutboxEventRecord

/-- The write is what a poll transaction does to the pending row `r`. -/
structure OutboxWrite.Marks (maxAttempts : Nat) (r : OutboxEventRecord) (w : OutboxWrite) : Prop where
  pending : r.status = .pending
  same : r.SameEvent w.row
  cases : (∃ now, w = .published { r with status := .published, publishedAt := some now }) ∨
    ∃ r', w = .publishFailed r' ∧ r'.attempts = r.attempts + 1 ∧ r'.publishedAt = r.publishedAt ∧ r'.lastError.isSome ∧
      (maxAttempts ≤ r.attempts + 1 ∧ r'.status = .failed ∧ r'.nextRetryAt = none ∨
        r.attempts + 1 < maxAttempts ∧ r'.status = .pending ∧ r'.nextRetryAt.isSome)

namespace OutboxWrite.Marks

variable {maxAttempts : Nat} {r : OutboxEventRecord} {w : OutboxWrite}

theorem follows (h : w.Marks maxAttempts r) : r.Follows w.row := by
  refine ⟨h.same, ?_, fun hne => absurd h.pending hne⟩
  rcases h.cases with ⟨now, rfl⟩ | ⟨r', rfl, hattempts, -⟩
  · simp only [row]; omega
  · simp only [row]; omega

theorem wellFormed (h : w.Marks maxAttempts r) (hr : r.WellFormed maxAttempts) : w.row.WellFormed maxAttempts := by
  obtain ⟨hnone, hlt, -⟩ := hr.pending h.pending
  rcases h.cases with ⟨now, rfl⟩ | ⟨r', rfl, hattempts, hpublished, herror, hnext⟩
  · exact ⟨nofun, nofun, fun _ => ⟨rfl, hlt⟩⟩
  · simp only [row]
    rcases hnext with ⟨hmax, hs, hn⟩ | ⟨hmax, hs, hn⟩
    · -- the terminal attempt: `attempts + 1` is `maxAttempts`, as the row was below it
      refine ⟨fun h' => ?_, fun _ => ⟨by omega, herror, hn, hpublished.trans hnone⟩, fun h' => ?_⟩
      · rw [hs] at h'; cases h'
      · rw [hs] at h'; cases h'
    · refine ⟨fun _ => ⟨hpublished.trans hnone, by omega, fun _ => ⟨herror, hn⟩⟩, fun h' => ?_, fun h' => ?_⟩
      · rw [hs] at h'; cases h'
      · rw [hs] at h'; cases h'

end OutboxWrite.Marks

/-! ## What the statements do -/

namespace OutboxEventsDataAccess

variable {table : OutboxEvents} {id : Uuid} {now : Timestamp} {r : OutboxEventRecord}

theorem pendingRow_some (h : pendingRow table id = some r) : table.get? id = some r ∧ r.status = .pending := by
  simpa [pendingRow, Option.filter_eq_some_iff] using h

theorem pendingRow_of_get? (h : table.get? id = some r) (hs : r.status = .pending) : pendingRow table id = some r := by
  simp [pendingRow, h, hs]

theorem markPublished_some {r' : OutboxEventRecord} (h : markPublished table id now = some r') (maxAttempts : Nat) :
    ∃ r, table.get? id = some r ∧ (OutboxWrite.published r').Marks maxAttempts r := by
  obtain ⟨r, hr, rfl⟩ := Option.map_eq_some_iff.1 h
  obtain ⟨hget, hs⟩ := pendingRow_some hr
  exact ⟨r, hget, hs, ⟨rfl, rfl, rfl, rfl, rfl, rfl, rfl, rfl⟩, .inl ⟨now, rfl⟩⟩

theorem integerColumn_ok {m n : Nat} (h : integerColumn n = .ok m) : m = n := by
  unfold integerColumn at h
  split at h
  · cases h; rfl
  · cases h

theorem markPublishFailed_some {input : MarkPublishFailedInput} {r' : OutboxEventRecord}
    (h : markPublishFailed table input = .ok (some r')) :
    ∃ r, table.get? input.id = some r ∧ (OutboxWrite.publishFailed r').Marks input.maxAttempts r := by
  unfold markPublishFailed at h
  obtain ⟨maxAttempts, hmax, h⟩ := ok_of_bind h
  obtain ⟨nextRetryAt, -, h⟩ := ok_of_bind h
  obtain ⟨lastError, -, h⟩ := ok_of_bind h
  obtain rfl := integerColumn_ok hmax
  split at h
  · cases h
  rename_i r hr
  obtain ⟨attempts, hattempts, h⟩ := ok_of_bind h
  obtain rfl := integerColumn_ok hattempts
  cases h
  obtain ⟨hget, hs⟩ := pendingRow_some hr
  refine ⟨r, hget, hs, ⟨rfl, rfl, rfl, rfl, rfl, rfl, rfl, rfl⟩, .inr ⟨_, rfl, rfl, rfl, rfl, ?_⟩⟩
  by_cases hterminal : input.maxAttempts ≤ r.attempts + 1
  · exact .inl ⟨hterminal, by simp [hterminal], by simp [hterminal]⟩
  · exact .inr ⟨by omega, by simp [hterminal], by simp [hterminal]⟩

/-- A statement that finds the row pending changes it. -/
theorem markPublished_of_pending (now : Timestamp) (h : table.get? id = some r) (hs : r.status = .pending) :
    markPublished table id now = some { r with status := .published, publishedAt := some now } := by
  rw [markPublished, pendingRow_of_get? h hs]; rfl

theorem markPublishFailed_of_pending {input : MarkPublishFailedInput} {a : Option OutboxEventRecord}
    (h : table.get? input.id = some r) (hs : r.status = .pending) (ha : markPublishFailed table input = .ok a) :
    a.isSome = true := by
  unfold markPublishFailed at ha
  obtain ⟨_, -, ha⟩ := ok_of_bind ha
  obtain ⟨_, -, ha⟩ := ok_of_bind ha
  obtain ⟨_, -, ha⟩ := ok_of_bind ha
  rw [pendingRow_of_get? h hs] at ha
  obtain ⟨_, -, ha⟩ := ok_of_bind ha
  cases ha; rfl

/-- What a fetched batch is: free and pending rows of the table, each once and in order. -/
structure Fetched (table : OutboxEvents) (now : Timestamp) (free : Uuid → Bool) (events : List OutboxEventRecord) :
    Prop where
  mem : ∀ r ∈ events, r ∈ table.rows ∧ eligible now r = true ∧ free r.id = true
  nodup : (events.map (·.id)).Nodup
  sorted : events.Pairwise OutboxEventRecord.Before
  /-- The batch is a beginning of the eligible and free rows, in their order. -/
  closed : ∀ r ∈ events, ∀ r' ∈ table.rows, eligible now r' = true → free r'.id = true → ¬ r.Before r' → r' ∈ events

theorem fetched {limit : Nat} {free : Uuid → Bool} {events : List OutboxEventRecord}
    (h : fetchPendingBatch table limit now free = .ok events) : Fetched table now free events := by
  obtain ⟨limit', -, h⟩ := ok_of_bind h
  cases h
  have hperm := List.perm_insertionSort OutboxEventRecord.Before
    (table.rows.filter fun r => eligible now r && free r.id)
  have hsorted := List.pairwise_insertionSort OutboxEventRecord.Before
    (table.rows.filter fun r => eligible now r && free r.id)
  have hmem : ∀ {r}, r ∈ (table.rows.filter fun r => eligible now r &&
      free r.id).insertionSort OutboxEventRecord.Before ↔
      r ∈ table.rows ∧ eligible now r = true ∧ free r.id = true := by
    intro r
    rw [hperm.mem_iff, List.mem_filter, Bool.and_eq_true]
  refine ⟨fun r hr => hmem.1 (List.mem_of_mem_take hr), ?_, hsorted.sublist (List.take_sublist _ _), ?_⟩
  · have hnodup := (table.nodup.sublist ((List.filter_sublist (p := fun r => eligible now r && free r.id)).map _))
    exact ((hperm.map (·.id)).nodup_iff.2 hnodup).sublist ((List.take_sublist _ _).map _)
  · intro r hr r' hr' he hf hbefore
    have hin := hmem.2 ⟨hr', he, hf⟩
    rw [← List.take_append_drop limit' (List.insertionSort ..), List.mem_append] at hin
    rcases hin with hin | hin
    · exact hin
    · -- a row that the limit cuts off comes after every row of the batch
      rw [← List.take_append_drop limit' (List.insertionSort ..)] at hsorted
      exact absurd ((List.pairwise_append.1 hsorted).2.2 r hr r' hin) hbefore

theorem limitParameter_ok {m n : Nat} (h : limitParameter n = .ok m) : m = n := by
  unfold limitParameter at h
  split at h
  · cases h; rfl
  · cases h

/-- A batch that leaves out a free row that is due is as long as the limit allows. -/
theorem length_of_left_out {limit : Nat} {free : Uuid → Bool} {events : List OutboxEventRecord}
    (h : fetchPendingBatch table limit now free = .ok events) (hr : r ∈ table.rows) (hdue : eligible now r = true)
    (hfree : free r.id = true) (hout : r ∉ events) : events.length = limit := by
  obtain ⟨limit', hlimit, hbatch⟩ := ok_of_bind h
  cases hbatch
  obtain rfl := limitParameter_ok hlimit
  rw [List.length_take, Nat.min_eq_left]
  by_contra hshort
  refine hout ?_
  rw [List.take_of_length_le (Nat.le_of_not_le hshort)]
  exact (List.perm_insertionSort _ _).mem_iff.2 (List.mem_filter.2 ⟨hr, by rw [hdue, hfree]; rfl⟩)

/-- The row that `insertPending` adds. -/
structure Inserted (table : OutboxEvents) (event : InsertPendingOutboxEvent) (now : Timestamp) (r : OutboxEventRecord) :
    Prop where
  id : r.id = event.id
  new : table.get? r.id = none
  status : r.status = .pending
  attempts : r.attempts = 0
  nextRetryAt : r.nextRetryAt = none
  publishedAt : r.publishedAt = none
  createdAt : r.createdAt = now

theorem Inserted.wellFormed {event : InsertPendingOutboxEvent} {maxAttempts : Nat} (h : Inserted table event now r)
    (hpos : 0 < maxAttempts) : r.WellFormed maxAttempts := by
  refine ⟨fun _ => ⟨h.publishedAt, by rw [h.attempts]; exact hpos, fun hlt => ?_⟩, fun hs => ?_, fun hs => ?_⟩
  · rw [h.attempts] at hlt; exact absurd hlt (Nat.lt_irrefl 0)
  · rw [h.status] at hs; cases hs
  · rw [h.status] at hs; cases hs

/-- `insertPending` writes one row, or fails. -/
theorem insertPending_ok {event : InsertPendingOutboxEvent} {a : Answer OutboxEventRecord}
    (h : insertPending { Db.empty with outbox := table } event now = .ok a) : Inserted table event now a.returned := by
  unfold insertPending at h
  obtain ⟨_, -, h⟩ := ok_of_bind h
  obtain ⟨_, -, h⟩ := ok_of_bind h
  obtain ⟨_, -, h⟩ := ok_of_bind h
  obtain ⟨_, -, h⟩ := ok_of_bind h
  obtain ⟨_, -, h⟩ := ok_of_bind h
  split at h
  · cases h
  · rename_i hnone
    cases h
    exact ⟨rfl, by simpa using hnone, rfl, rfl, rfl, rfl, rfl⟩

end OutboxEventsDataAccess

end PaymentOrchestration
