/-
Whether an idempotency key can be used for ever: from any rows migration 002 lets be, through the later
migrations and any run of the service, a request with the key of a record is answered once the clocks
are past the record's lease and no other call on the key is active. It is, unless the migrations leave a
row PROCESSING without a lease, or unfinished without a resource id, and a request names that row.
-/
import PaymentOrchestration.Migrations
import PaymentOrchestration.Keys
import PaymentOrchestration.Storability
import Mathlib.Data.Rat.Floor
import Mathlib.Tactic.Linarith

namespace PaymentOrchestration

open Lib IdempotencyService PaymentsService

/-! ## Answering a request -/

/-- The service at its start, over tables that are there. -/
def State.over (db : Db) : State := ⟨.start db, fun _ => none, []⟩

/-- `getExistingOrStart` of the call has returned COMPLETED, and the call with it, or STARTED. -/
def State.Decided (s : State) (c : CallId) : Prop :=
  ∃ call, s.calls c = some call ∧
    ((∃ statusCode body, call.await = .returned statusCode body) ∨ ∃ d, call.await.started? = some d)

/-- No other call than `c` on the record's key is active: each is over, and so is its transaction. -/
def State.Alone (s : State) (c : CallId) (r : IdempotencyRecord) : Prop :=
  ∀ c' call, c' ≠ c → s.calls c' = some call → call.command.On r →
    call.await.isOver = true ∧ s.server.pending (.tx c') = none

/-- Both clocks are past the record's lease, and the lease that would follow is a `Date`. -/
structure Env.Past (cfg : Config) (env : Env) (r : IdempotencyRecord) : Prop where
  now : ∀ t, r.processingExpiresAt = some t → toDate t ≤ env.now
  dbNow : ∀ t, r.processingExpiresAt = some t → t < env.dbNow
  lease : (buildExpiresAt cfg.processingLeaseMs env.now).isSome = true

/-- The steps of other calls than `c` while none of them is on the record's key. -/
def Apart (c : CallId) (r : IdempotencyRecord) (s : State) (a : Action) : Prop := a.call ≠ c ∧ s.Alone c r

/-- `getExistingOrStart` of the call `c` returns COMPLETED or STARTED: it reads the record, and is decided by
what it reads, or by the statement that follows, whatever calls on other keys do in between. -/
def State.Answers (cfg : Config) (s : State) (c : CallId) (r : IdempotencyRecord) : Prop :=
  ∀ env, s.fresh env = true → env.Past cfg r → ∃ s₁, (service cfg).step s (.query c env) = some s₁ ∧
    (s₁.Decided c ∨ ∀ s₂ env', (service cfg).Steps (Apart c r) s₁ s₂ → s₂.Alone c r → s₂.fresh env' = true →
      env'.Past cfg r → ∃ s₃, (service cfg).step s₂ (.query c env') = some s₃ ∧ s₃.Decided c)

/-- No key is locked out: a call that names a record, and is alone on its key, is answered. -/
def State.Recovers (cfg : Config) (s : State) : Prop :=
  ∀ r ∈ s.db.idempotency.rows, ∀ c call, s.calls c = some call → call.await = .findByScopeAndKey →
    call.command.Names cfg r.scope r.idempotencyKey r.requestHash → s.Alone c r → s.Answers cfg c r

section Answering

variable {cfg : Config} {s s' : State} {a : Action} {c : CallId} {call : Call} {r : IdempotencyRecord}

/-- The record is left as it is while no other call is on its key. -/
theorem KeysInv.row_apart (hi : KeysInv cfg s) (h : StepCase cfg s a s') (hapart : Apart c r s a)
    (hg : s.db.idempotency.get? r.id = some r) : s'.db.idempotency.get? r.id = some r := by
  obtain ⟨hca, halone⟩ := hapart
  -- what another call is still to do concerns another record
  have hother : ∀ {c' : CallId} {call' : Call}, c' ≠ c → s.calls c' = some call' → Begun cfg s.db call'.command r.id →
      call'.await.isOver = true ∧ s.server.pending (.tx c') = none := by
    rintro c' call' hne hc' ⟨r', hr', hm⟩
    obtain rfl := Option.some.inj (hg.symm.trans hr')
    exact halone c' call' hne hc' hm.on
  have hcommit : ∀ {c' : CallId}, c' ≠ c → (s.server.pending (.tx c')).isSome = true →
      (s.server.commit (.tx c')).committed.idempotency.get? r.id = some r := by
    intro c' hne hopen
    obtain ⟨ws, hws⟩ := Option.isSome_iff_exists.1 hopen
    rw [Server.commit_committed hws]
    refine (schema.row_applyAll (k := .idempotency r.id) ws _ fun w hw hkey => ?_).trans hg
    have hlock := s.server.locked _ ws hws w hw
    rw [hkey] at hlock
    obtain ⟨c'', call', ht, hc', hb⟩ := hi.locked r.id _ hlock
    obtain rfl := Session.tx.inj ht
    rw [(hother hne hc' hb).2] at hws; cases hws
  have hsame : ∀ {db : Db}, db = s.db → db.idempotency.get? r.id = some r := by
    rintro _ rfl
    exact hg
  cases h with
  | started | answered | commitLost | crashed => exact hg
  | @pool a c' env call' o next server hc' _ hmode hrun hs ha =>
    have hne : c' ≠ c := by rcases ha with ⟨rfl, -⟩ | ⟨m, rfl, -⟩ <;> exact hca
    obtain ⟨-, hdb, -⟩ := Server.autocommit_eq_some hs
    have hrow : server.committed.idempotency.get? r.id = some r := by
      rw [hdb]
      refine (schema.row_applyAll (k := .idempotency r.id) o.writes _ fun w hw hkey => ?_).trans hg
      have hmem : RowKey.idempotency r.id ∈ o.writes.map Write.key ++ o.locks :=
        List.mem_append_left _ (List.mem_map.2 ⟨w, hw, hkey⟩)
      rcases (ran_of_run hrun).touches (fun id => hi.begun c' call' id hc') hmem with hb | ⟨-, hn⟩
      · have hover := (hother hne hc' hb).1
        rw [Await.mode_of_over hover] at hmode; cases hmode
      · rw [hg] at hn; cases hn
    exact hrow
  | staged _ _ _ _ hs =>
    obtain ⟨-, -, -, hdb, -⟩ := Server.stage_eq_some hs
    exact hsame (hdb.trans (opened_committed ..).1)
  | committed _ _ hopen | lateCommit _ _ hopen => exact hcommit hca hopen
  | rolledBack | sessionLost => exact hsame Server.rollback_committed
  | rejected => exact hsame (abandon_committed ..).1

/-- No session has locked the record, once no other call is on its key, for a call without a decision. -/
theorem KeysInv.unlocked (hi : KeysInv cfg s) (hc : s.calls c = some call) (hnone : call.await.started? = none)
    (halone : s.Alone c r) (hg : s.db.idempotency.get? r.id = some r) : s.server.locks (.idempotency r.id) = none := by
  cases hlock : s.server.locks (.idempotency r.id) with
  | none => rfl
  | some t =>
    obtain ⟨c', call', rfl, hc', r', hr', hm⟩ := hi.locked r.id t hlock
    have hopen := s.server.isOpen _ _ hlock
    obtain rfl := Option.some.inj (hg.symm.trans hr')
    by_cases hne : c' = c
    · subst hne
      obtain ⟨call'', d, hc'', hd⟩ := hi.opened c' hopen
      obtain rfl := Option.some.inj (hc.symm.trans hc'')
      rw [hnone] at hd; cases hd
    · rw [(halone c' call' hne hc' hm.on).2] at hopen; cases hopen

theorem KeysInv.steps {ok : State → Action → Prop} (hi : KeysInv cfg s) (h : (service cfg).Steps ok s s') :
    KeysInv cfg s' :=
  h.invariant hi fun _ _ _ hi _ hs => hi.step (step_cases hs)

theorem takeoverExpiredProcessing_of_expired {db : Db} {requestHash : String}
    {expiresAt : Option Millis} {lease : Millis}
    {token : Uuid} {t now : Timestamp} (hr : db.idempotency.get? r.id = some r) (hh : r.requestHash = requestHash)
    (hs : r.status = .processing) (ht : r.processingExpiresAt = some t) (hnow : t < now)
    (hlease : expiresAt = some lease) :
    IdempotencyDataAccess.takeoverExpiredProcessing db r.id requestHash expiresAt token now =
      .ok ⟨some (r.acquired (ofDate lease) token now),
        [.acquireIdempotency (r.acquired (ofDate lease) token now)]⟩ := by
  have hwhere : (decide (r.requestHash = requestHash ∧ r.status = .processing ∧
      r.processingExpiresAt.any (· < now))) = true := by
    simp [hh, hs, ht, hnow]
  subst hlease
  change Except.ok (IdempotencyDataAccess.updateWhere ..) = _
  simp only [IdempotencyDataAccess.updateWhere, hr, hwhere, if_true]
  rw [IdempotencyRecord.acquired, ← hs]

/-- The statement that acquires the record `r`, by what it finds of it. -/
inductive Acquiring (r : IdempotencyRecord) : Await → Prop
  | failed : r.status = .failed → Acquiring r (.reactivateFailed r.id)
  | expired {t} : r.status = .processing → r.processingExpiresAt = some t →
      Acquiring r (.takeoverExpiredProcessing r.id)

/-- A record that can be answered is answered by the read, or is acquired next. -/
theorem read_of_answerable {db : Db} {env : Env} (hk : db.Keyed cfg) (hr : r ∈ db.idempotency.rows)
    (hawait : call.await = .findByScopeAndKey) (hn : call.command.Names cfg r.scope r.idempotencyKey r.requestHash)
    (hanswerable : r.Answerable) (hpast : env.Past cfg r) : ∃ next, call.run cfg env db = .ok ⟨[], [], next⟩ ∧
      ((∃ statusCode body, next = .returned statusCode body) ∨ Acquiring r next) := by
  have hfind := hk.find hr hn.scope hn.idempotencyKey
  have hrun : call.run cfg env db =
      .ok ⟨[], [], call.afterDeciding (decideFromExisting cfg env.now r (call.command.requestHash cfg))⟩ := by
    simp only [Call.run, hawait, hfind]
  refine ⟨_, hrun, ?_⟩
  simp only [decideFromExisting, hn.requestHash, ne_eq, not_true_eq_false, if_false]
  cases hs : r.status with
  | completed => exact .inl ⟨_, _, rfl⟩
  | failed => exact .inr (.failed hs)
  | processing =>
    rcases hanswerable with hcompleted | ⟨-, hleased⟩
    · rw [hs] at hcompleted; cases hcompleted
    · obtain ⟨t, ht⟩ := Option.isSome_iff_exists.1 (hleased hs)
      have hexpired : isProcessingExpired r env.now = true := by
        simpa [isProcessingExpired, ht] using hpast.now t ht
      simp only [hexpired, if_true]
      exact .inr (.expired hs ht)

/-- The record is acquired, and the decision is STARTED. -/
theorem acquire_of_past {db : Db} {env : Env} (hg : db.idempotency.get? r.id = some r)
    (hacquiring : Acquiring r call.await)
    (hhash : call.command.requestHash cfg = r.requestHash) (hres : r.resourceId.isSome = true)
    (hpast : env.Past cfg r) :
    ∃ r' d, r'.id = r.id ∧ call.run cfg env db = .ok ⟨[.acquireIdempotency r'], [], call.afterStarted d⟩ := by
  obtain ⟨resourceId, hres⟩ := Option.isSome_iff_exists.1 hres
  obtain ⟨lease, hlease⟩ := Option.isSome_iff_exists.1 hpast.lease
  have hstarted : buildStartedDecision (r.acquired (ofDate lease) env.uuid env.dbNow) =
      .ok ⟨r.id, resourceId, env.uuid⟩ := by
    simp only [buildStartedDecision, IdempotencyRecord.acquired, hres]
  refine ⟨r.acquired (ofDate lease) env.uuid env.dbNow, ⟨r.id, resourceId, env.uuid⟩, rfl, ?_⟩
  generalize hawait : call.await = aw at hacquiring
  cases hacquiring with
  | failed hs =>
    have hstatement : IdempotencyDataAccess.reactivateFailed db r.id (call.command.requestHash cfg)
        (buildExpiresAt cfg.processingLeaseMs env.now) env.uuid env.dbNow = _ :=
      reactivateFailed_of_failed hg hhash.symm hs hlease
    simp only [Call.run, hawait, hstatement, Call.write, Except.map, decideFromAcquired, hstarted, Call.afterAcquired]
  | expired hs ht =>
    have hstatement : IdempotencyDataAccess.takeoverExpiredProcessing db r.id (call.command.requestHash cfg)
        (buildExpiresAt cfg.processingLeaseMs env.now) env.uuid env.dbNow = _ :=
      takeoverExpiredProcessing_of_expired hg hhash.symm hs ht (hpast.dbNow _ ht) hlease
    simp only [Call.run, hawait, hstatement, Call.write, Except.map, decideFromAcquired, hstarted, Call.afterAcquired]

/-- In a state of the invariant no key is locked out. -/
theorem KeysInv.recovers (hi : KeysInv cfg s) : s.Recovers cfg := by
  intro r hr c call hc hawait hn halone env hfresh hpast
  have hanswerable := hi.keyed.sound r hr call.command hn
  obtain ⟨next, hrun, hnext⟩ := read_of_answerable hi.keyed hr hawait hn hanswerable hpast
  have hstep := step_read hc hfresh (by rw [hawait]; rfl) hrun
  refine ⟨_, hstep, ?_⟩
  rcases hnext with hreturned | hacquiring
  · exact .inl ⟨_, moved_calls, .inl hreturned⟩
  refine .inr fun s₂ env' hsteps halone₂ hfresh' hpast' => ?_
  -- the calls on other keys leave the record and the call as they are
  let call' : Call := { call with await := next }
  obtain ⟨hi₂, hg₂, hc₂⟩ := hsteps.invariant
    (P := fun t => KeysInv cfg t ∧ t.db.idempotency.get? r.id = some r ∧ t.calls c = some call')
    ⟨hi.step (step_cases hstep), Table.mem_iff.1 hr, moved_calls⟩
    fun t a t' ht hapart hs => by
      have hcase := step_cases hs
      exact ⟨ht.1.step hcase, ht.1.row_apart hcase hapart ht.2.1, (hcase.calls_of_ne (Ne.symm hapart.1)).trans ht.2.2⟩
  have hres : r.resourceId.isSome = true := by
    rcases hanswerable with hcompleted | ⟨hres, -⟩
    · cases hacquiring with
      | failed hs | expired hs => rw [hs] at hcompleted; cases hcompleted
    · exact hres
  have hmode : next.mode = .pool := by cases hacquiring <;> rfl
  have hnone : next.started? = none := by cases hacquiring <;> rfl
  have hfree := hi₂.unlocked hc₂ hnone halone₂ hg₂
  have hacquiring' : Acquiring r call'.await := hacquiring
  obtain ⟨r', d, hid, hrun'⟩ := acquire_of_past hg₂ hacquiring' hn.requestHash hres hpast'
  have hwrites : ∀ w ∈ [Write.acquireIdempotency r'], s₂.server.free (.pool c) (schema.key w) = true := by
    simp only [List.forall_mem_singleton]
    refine Server.free_iff.2 (.inl ?_)
    rw [show schema.key (.acquireIdempotency r') = .idempotency r.id from congrArg _ hid]
    exact hfree
  exact ⟨_, step_pool hc₂ hfresh' hmode hrun' (Server.autocommit_of_free hwrites), _, moved_calls,
    .inr ⟨d, Call.afterStarted_started _ d⟩⟩

end Answering

/-! ## After the migrations -/

/-- A row that the later migrations leave usable: it is COMPLETED, or FAILED with a resource id. -/
def LegacyRecord.Usable (r : LegacyRecord) : Prop :=
  r.status = "COMPLETED" ∨ r.status = "FAILED" ∧ r.resourceId.isSome = true

section Migrated

variable {cfg : Config} {legacy : LegacyTable} {payments : Table PaymentRecord.id}
  {token : Uuid → Uuid} {now : Timestamp} {db : Db}

theorem LegacyRecord.Migrated.answerable {r : LegacyRecord} {r' : IdempotencyRecord} (h : r.Migrated r') :
    r'.Answerable ↔ r.Usable := by
  have hstatus := idempotencyKeysStatusCheck_ok h.status
  unfold IdempotencyRecord.Answerable LegacyRecord.Usable
  rw [h.processingExpiresAt, h.resourceId, hstatus]
  cases r'.status <;> simp [IdempotencyStatus.text]

/-- The migrated tables are keyed, if the rows that requests name are usable. -/
theorem LegacyTable.keyed (h : legacy.migrate payments token now = .ok db)
    (hlegacy : ∀ r ∈ legacy.table.rows, ∀ command : Command,
      command.Names cfg r.scope r.idempotencyKey r.requestHash → r.Usable) : db.Keyed cfg := by
  constructor
  · intro r' hr'
    obtain ⟨r, hr, hm⟩ := migrated_of_mem h hr'
    rw [hm.scope]; exact (legacy.fits r hr).scope
  · intro r' hr'
    obtain ⟨r, hr, hm⟩ := migrated_of_mem h hr'
    rw [hm.idempotencyKey]; exact (legacy.fits r hr).idempotencyKey
  · intro r hr r' hr' hscope hkey
    exact List.inj_on_of_nodup_map (migrate_unique h) hr hr' (by rw [hscope, hkey])
  · intro r' hr' command hn
    obtain ⟨r, hr, hm⟩ := migrated_of_mem h hr'
    rw [hm.scope, hm.idempotencyKey, hm.requestHash] at hn
    exact hm.answerable.2 (hlegacy r hr command hn)

theorem KeysInv.over (h : db.Keyed cfg) : KeysInv cfg (.over db) where
  keyed := h
  begun _ _ _ hc := nomatch hc
  locks := ⟨fun _ => rfl, fun _ _ hk => nomatch hk⟩
  locked _ _ hlock := nomatch hlock
  opened _ hopen := nomatch hopen
  pending _ _ hp := nomatch hp

/-- A date in the range of `Date` is one the lease can end at. -/
theorem exists_lease (ttlMs : Rat) : ∃ now : Millis, (buildExpiresAt ttlMs now).isSome = true := by
  refine ⟨-⌊ttlMs⌋, ?_⟩
  have hlow := Int.floor_le ttlMs
  have hhigh := Int.lt_floor_add_one ttlMs
  have hrange : -8640000000000000 ≤ ((-⌊ttlMs⌋ : Int) : Rat) + ttlMs ∧
      ((-⌊ttlMs⌋ : Int) : Rat) + ttlMs ≤ 8640000000000000 := by
    push_cast
    constructor <;> linarith
  unfold buildExpiresAt newDate
  rw [if_pos hrange]
  rfl

/-- A record without a lease that is not answerable is refused at once, or found FAILED without a resource id. -/
theorem read_of_not_answerable {call : Call} {env : Env} {db : Db} {r : IdempotencyRecord}
    (hfind : IdempotencyDataAccess.findByScopeAndKey db r.scope r.idempotencyKey = some r)
    (hawait : call.await = .findByScopeAndKey) (hn : call.command.Names cfg r.scope r.idempotencyKey r.requestHash)
    (hlease : r.processingExpiresAt = none) (hbad : ¬ r.Answerable) :
    ∃ next, call.run cfg env db = .ok ⟨[], [], next⟩ ∧
      ((∃ e, next = .refused e) ∨ next = .reactivateFailed r.id ∧ r.status = .failed ∧ r.resourceId = none) := by
  have hrun : call.run cfg env db =
      .ok ⟨[], [], call.afterDeciding (decideFromExisting cfg env.now r (call.command.requestHash cfg))⟩ := by
    rw [← hn.scope, ← hn.idempotencyKey] at hfind
    simp only [Call.run, hawait, hfind]
  refine ⟨_, hrun, ?_⟩
  simp only [decideFromExisting, hn.requestHash, ne_eq, not_true_eq_false, if_false]
  cases hs : r.status with
  | completed => exact absurd (.inl hs) hbad
  | failed =>
    refine .inr ⟨rfl, rfl, ?_⟩
    cases hres : r.resourceId with
    | none => rfl
    | some u => exact absurd (.inr ⟨by rw [hres]; rfl, fun hp => by rw [hs] at hp; cases hp⟩) hbad
  | processing =>
    have hexpired : isProcessingExpired r env.now = false := by simp [isProcessingExpired, hlease]
    simp only [hexpired, Bool.false_eq_true, if_false]
    exact .inl ⟨_, rfl⟩

theorem not_decided {s : State} {c : CallId} {call : Call} {next : Await} {server : Server schema Session}
    {minted : List Uuid} (hnone : next.started? = none) (hnot : ∀ statusCode body, next ≠ .returned statusCode body) :
    ¬ (s.moved c call next server minted).Decided c := by
  rintro ⟨call', hc, hor⟩
  rw [moved_calls] at hc
  obtain rfl := Option.some.inj hc
  rcases hor with ⟨statusCode, body, hreturned⟩ | ⟨d, hd⟩
  · exact hnot statusCode body hreturned
  · rw [show next.started? = some d from hd] at hnone; cases hnone

/-- A request for a record without a lease that is not answerable is not answered, with no other call there. -/
theorem not_recovers {db : Db} {r : IdempotencyRecord} {command : Command} (hr : r ∈ db.idempotency.rows)
    (hunique : (db.idempotency.rows.map fun r => (r.scope, r.idempotencyKey)).Nodup)
    (hlease : r.processingExpiresAt = none) (hn : command.Names cfg r.scope r.idempotencyKey r.requestHash)
    (hbad : ¬ r.Answerable) : ¬ ∀ s, (service cfg).Steps System.anyStep (.over db) s → s.Recovers cfg := by
  intro hall
  obtain ⟨now, hnow⟩ := exists_lease cfg.processingLeaseMs
  have hpast : ∀ {dbNow uuid uuid'}, Env.Past cfg ⟨now, dbNow, uuid, uuid'⟩ r := by
    intro dbNow uuid uuid'
    exact ⟨by rw [hlease]; nofun, by rw [hlease]; nofun, hnow⟩
  have hfind : IdempotencyDataAccess.findByScopeAndKey db r.scope r.idempotencyKey = some r := by
    cases hf : IdempotencyDataAccess.findByScopeAndKey db r.scope r.idempotencyKey with
    | none => exact absurd ⟨rfl, rfl⟩ (IdempotencyDataAccess.findByScopeAndKey_none hf r hr)
    | some r' =>
      obtain ⟨hmem, hscope, hkey⟩ := IdempotencyDataAccess.findByScopeAndKey_some hf
      exact congrArg some (List.inj_on_of_nodup_map hunique hmem hr (by rw [hscope, hkey]))
  -- the only call of the run, and its read
  let call : Call := ⟨command, State.reservedId command (.ofNat 0), false, .findByScopeAndKey⟩
  let s : State := ⟨.start db, Function.update (fun _ => none) 0 (some call), [.ofNat 0]⟩
  let env : Env := ⟨now, 0, .ofNat 1, .ofNat 2⟩
  let env' : Env := ⟨now, 0, .ofNat 3, .ofNat 4⟩
  have hstart : (service cfg).step (.over db) (.start 0 command (.ofNat 0)) = some s := rfl
  have hc : s.calls 0 = some call := rfl
  have hcalls : ∀ c, c ≠ 0 → s.calls c = none := fun c hne =>
    Function.update_of_ne (β := fun _ => Option Call) hne (some call) fun _ => none
  have halone : s.Alone 0 r := fun c' call' hne hc' => by rw [hcalls c' hne] at hc'; cases hc'
  have hread : ∃ next, call.run cfg env db = .ok ⟨[], [], next⟩ ∧ _ := read_of_not_answerable hfind rfl hn hlease hbad
  obtain ⟨next, hrun, hnext⟩ := hread
  have hfresh : s.fresh env = true := rfl
  have hstep := step_read hc hfresh rfl hrun
  obtain ⟨s₁, hs₁, hdecided⟩ := hall s (.single trivial hstart) r hr 0 call hc rfl hn halone env hfresh hpast
  obtain rfl := Option.some.inj (hs₁.symm.trans hstep)
  rcases hdecided with hdecided | hlater
  · refine not_decided ?_ ?_ hdecided
    · rcases hnext with ⟨e, rfl⟩ | ⟨rfl, -⟩ <;> rfl
    · rcases hnext with ⟨e, rfl⟩ | ⟨rfl, -⟩ <;> nofun
  -- nor is it answered by a second statement: there is none, or the record reserves nothing
  let s₁ : State := s.moved 0 call next s.server (env.uuid :: env.uuid' :: s.minted)
  let call₁ : Call := { call with await := next }
  have hc₁ : s₁.calls 0 = some call₁ := moved_calls
  have halone₁ : s₁.Alone 0 r := fun c' call' hne hc' => by
    rw [show s₁.calls c' = s.calls c' from Function.update_of_ne (β := fun _ => Option Call) hne _ _,
      hcalls c' hne] at hc'
    cases hc'
  have hfresh₁ : s₁.fresh env' = true := rfl
  obtain ⟨s₃, hs₃, hdecided⟩ := hlater s₁ env' .refl halone₁ hfresh₁ hpast
  rcases hnext with ⟨e, hrefused⟩ | ⟨hreactivate, hs, hres⟩
  · have hawait : call₁.await = .refused e := hrefused
    have hrun₁ : call₁.run cfg env' s₁.db = .ok ⟨[], [], .refused e⟩ := by simp only [Call.run, hawait]
    have hmode : call₁.await.mode = .idle := by rw [hawait]; rfl
    simp only [service, State.step, hc₁, hfresh₁, if_true, hrun₁, hmode, State.execute, Option.map_none] at hs₃
    cases hs₃
  · have hawait : call₁.await = .reactivateFailed r.id := hreactivate
    obtain ⟨lease, hlease'⟩ := Option.isSome_iff_exists.1 hnow
    let r' : IdempotencyRecord := r.acquired (ofDate lease) env'.uuid env'.dbNow
    have hstatement : IdempotencyDataAccess.reactivateFailed s₁.db r.id (call₁.command.requestHash cfg)
        (buildExpiresAt cfg.processingLeaseMs env'.now) env'.uuid env'.dbNow =
        .ok ⟨some r', [.acquireIdempotency r']⟩ :=
      reactivateFailed_of_failed (Table.mem_iff.1 hr) hn.requestHash.symm hs hlease'
    have hmissing : buildStartedDecision r' = .error resourceMissing := by
      simp only [buildStartedDecision, r', IdempotencyRecord.acquired, hres]
    have hrun₁ : call₁.run cfg env' s₁.db = .ok ⟨[.acquireIdempotency r'], [], .refused resourceMissing⟩ := by
      simp only [Call.run, hawait, hstatement, Call.write, Except.map, decideFromAcquired, hmissing, Call.afterAcquired]
    have hmode : call₁.await.mode = .pool := by rw [hawait]; rfl
    have hwrites : ∀ w ∈ [Write.acquireIdempotency r'], s₁.server.free (.pool 0) (schema.key w) = true := fun _ _ => rfl
    have hstep₁ := step_pool hc₁ hfresh₁ hmode hrun₁ (Server.autocommit_of_free hwrites)
    obtain rfl := Option.some.inj (hs₃.symm.trans hstep₁)
    exact not_decided rfl (fun _ _ h => Await.noConfusion h) hdecided

/-- No key is locked out in any run from the migrated rows, exactly if every row that a request can name was
COMPLETED, or FAILED with a resource id. -/
theorem keys_recover (h : legacy.migrate payments token now = .ok db) :
    (∀ s, (service cfg).Steps System.anyStep (.over db) s → s.Recovers cfg) ↔
      ∀ r ∈ legacy.table.rows, ∀ command : Command,
        command.Names cfg r.scope r.idempotencyKey r.requestHash → r.Usable := by
  constructor
  · intro hall r hr command hn
    obtain ⟨r', hr', hm⟩ := LegacyTable.mem_of_legacy h hr
    by_contra hbad
    have hn' : command.Names cfg r'.scope r'.idempotencyKey r'.requestHash := by
      rw [hm.scope, hm.idempotencyKey, hm.requestHash]; exact hn
    exact not_recovers hr' (LegacyTable.migrate_unique h) hm.processingExpiresAt hn'
      (fun ha => hbad (hm.answerable.1 ha)) hall
  · intro hlegacy s hsteps
    exact ((KeysInv.over (LegacyTable.keyed h hlegacy)).steps hsteps).recovers

end Migrated

namespace Sample

/-- The row of a first request before migration 003, with this status and resource. -/
def legacyRecord (status : String) (resourceId : Option Uuid) : LegacyRecord where
  id := .ofNat 7000
  scope := create.scope
  idempotencyKey := create.idempotencyKey
  requestHash := create.requestHash cfg
  status := status
  resourceType := none
  resourceId := resourceId
  responseStatusCode := none
  responseBody := none
  createdAt := 0
  updatedAt := 0
  expiresAt := none

theorem create_columns : varcharIn 120 create.scope = .ok create.scope ∧
    varcharIn 160 create.idempotencyKey = .ok create.idempotencyKey := by
  decide

theorem legacyRecord_fits {status : String} (hstatus : varcharIn 30 status = .ok status) (resourceId : Option Uuid) :
    (legacyRecord status resourceId).Fits where
  scope := create_columns.1
  idempotencyKey := create_columns.2
  requestHash := requestHash_stored cfg create
  status := hstatus
  resourceType := rfl
  responseStatusCode := nofun
  responseBody := rfl

/-- The table of this one row. -/
def legacy (status : String) (resourceId : Option Uuid) (hstatus : varcharIn 30 status = .ok status) : LegacyTable where
  table := ⟨[legacyRecord status resourceId], by simp⟩
  fits := by
    intro r hr
    obtain rfl := List.mem_singleton.1 hr
    exact legacyRecord_fits hstatus resourceId
  unique := by simp

def legacyFailed : LegacyTable := legacy "FAILED" (some paymentId) (by decide)

def legacyProcessing : LegacyTable := legacy "PROCESSING" (some paymentId) (by decide)

/-- The tables after the migrations. -/
def migrated (legacy : LegacyTable) : Except Err Db := legacy.migrate .empty (fun id => id) 0

theorem migrated_ok : (∃ db, migrated legacyFailed = .ok db) ∧ ∃ db, migrated legacyProcessing = .ok db :=
  ⟨⟨_, rfl⟩, ⟨_, rfl⟩⟩

end Sample

/-- A row left FAILED with its resource id before migration 003 is never locked out. -/
theorem keys_recover_failed : Sample.legacyFailed.table.rows.length = 1 ∧
    ∃ db, Sample.migrated Sample.legacyFailed = .ok db ∧
      ∀ s, (service Sample.cfg).Steps System.anyStep (.over db) s → s.Recovers Sample.cfg := by
  obtain ⟨db, hdb⟩ := Sample.migrated_ok.1
  refine ⟨rfl, db, hdb, (keys_recover hdb).2 fun r hr command _ => ?_⟩
  obtain rfl := List.mem_singleton.1 hr
  exact .inr ⟨rfl, rfl⟩

/-- A row left PROCESSING before migration 003 is locked out, although it has its resource id. -/
theorem not_keys_recover : ∃ db, Sample.migrated Sample.legacyProcessing = .ok db ∧
    ¬ ∀ s, (service Sample.cfg).Steps System.anyStep (.over db) s → s.Recovers Sample.cfg := by
  obtain ⟨db, hdb⟩ := Sample.migrated_ok.2
  obtain ⟨r', hr', hm⟩ := LegacyTable.mem_of_legacy hdb (List.mem_singleton.2 rfl)
  have hn : Sample.create.Names Sample.cfg r'.scope r'.idempotencyKey r'.requestHash :=
    ⟨hm.scope.symm, hm.idempotencyKey.symm, hm.requestHash.symm⟩
  refine ⟨db, hdb, not_recovers hr' (LegacyTable.migrate_unique hdb) hm.processingExpiresAt hn fun ha => ?_⟩
  rcases hm.answerable.1 ha with h | ⟨h, -⟩ <;> exact absurd h (by decide)

end PaymentOrchestration
