/-
What holds of idempotency_keys in every run, whatever rows the service has found there: the constraints
of the table, and that a call works under, and its transaction locks, records of its own request only.
-/
import PaymentOrchestration.ErrorAtomicity

namespace PaymentOrchestration

open Lib IdempotencyService PaymentsService

/-! ## Requests and records -/

/-- A request with this scope, key and request hash. -/
structure Command.Names (cfg : Config) (command : Command) (scope idempotencyKey requestHash : String) : Prop where
  scope : command.scope = scope
  idempotencyKey : command.idempotencyKey = idempotencyKey
  requestHash : command.requestHash cfg = requestHash

/-- The call's scope and key are the record's, as the columns hold them. -/
structure Command.On (command : Command) (r : IdempotencyRecord) : Prop where
  scope : varcharIn 120 command.scope = .ok r.scope
  idempotencyKey : varcharIn 160 command.idempotencyKey = .ok r.idempotencyKey

theorem Command.Matches.on {cfg : Config} {command : Command} {r : IdempotencyRecord} (h : command.Matches cfg r) :
    command.On r :=
  ⟨h.scope, h.idempotencyKey⟩

/-- The record is answered, or reserves a resource and is processed, if it is, under a lease. -/
def IdempotencyRecord.Answerable (r : IdempotencyRecord) : Prop :=
  r.status = .completed ∨ r.resourceId.isSome = true ∧ (r.status = .processing → r.processingExpiresAt.isSome = true)

/-- The record is answerable, should a request name it. -/
def IdempotencyRecord.Sound (cfg : Config) (r : IdempotencyRecord) : Prop :=
  ∀ command : Command, command.Names cfg r.scope r.idempotencyKey r.requestHash → r.Answerable

/-- The record's request has not changed. -/
structure IdempotencyRecord.SameRequest (r r' : IdempotencyRecord) : Prop where
  id : r'.id = r.id
  scope : r'.scope = r.scope
  idempotencyKey : r'.idempotencyKey = r.idempotencyKey
  requestHash : r'.requestHash = r.requestHash

namespace IdempotencyRecord

variable {cfg : Config} {r r' r'' : IdempotencyRecord} {lease expiresAt now : Timestamp} {token resourceId : Uuid}
  {statusCode : Int} {body : Json String}

@[refl] theorem SameRequest.refl (r : IdempotencyRecord) : r.SameRequest r := ⟨rfl, rfl, rfl, rfl⟩

theorem SameRequest.trans (h : r.SameRequest r') (h' : r'.SameRequest r'') : r.SameRequest r'' :=
  ⟨h'.id.trans h.id, h'.scope.trans h.scope, h'.idempotencyKey.trans h.idempotencyKey,
    h'.requestHash.trans h.requestHash⟩

/-- What an update does not change of an answerable record makes the updated record sound. -/
theorem Sound.of_same (h : r.Sound cfg) (hs : r.SameRequest r') (ha : r.Answerable → r'.Answerable) : r'.Sound cfg := by
  intro command hn
  rw [hs.scope, hs.idempotencyKey, hs.requestHash] at hn
  exact ha (h command hn)

theorem Sound.acquired (h : r.Sound cfg) (hs : r.status ≠ .completed) : (r.acquired lease token now).Sound cfg :=
  h.of_same ⟨rfl, rfl, rfl, rfl⟩ fun ha => .inr ⟨(ha.resolve_left hs).1, fun _ => rfl⟩

theorem Sound.markedFailed (h : r.Sound cfg) (hs : r.status ≠ .completed) : (r.markedFailed expiresAt now).Sound cfg :=
  h.of_same ⟨rfl, rfl, rfl, rfl⟩ fun ha => .inr ⟨(ha.resolve_left hs).1, nofun⟩

theorem Sound.markedCompleted : (r.markedCompleted statusCode body resourceId expiresAt now).Sound cfg :=
  fun _ _ => .inl rfl

end IdempotencyRecord

theorem Command.Matches.of_sameRequest {cfg : Config} {command : Command} {r r' : IdempotencyRecord}
    (h : command.Matches cfg r) (hs : r.SameRequest r') : command.Matches cfg r' :=
  ⟨by rw [hs.scope]; exact h.scope, by rw [hs.idempotencyKey]; exact h.idempotencyKey,
    by rw [hs.requestHash]; exact h.requestHash⟩

/-! ## The table of records -/

/-- What the constraints of idempotency_keys give, and that its records are sound. -/
structure Db.Keyed (cfg : Config) (db : Db) : Prop where
  scope : ∀ r ∈ db.idempotency.rows, varcharIn 120 r.scope = .ok r.scope
  idempotencyKey : ∀ r ∈ db.idempotency.rows, varcharIn 160 r.idempotencyKey = .ok r.idempotencyKey
  unique : ∀ r ∈ db.idempotency.rows, ∀ r' ∈ db.idempotency.rows, r.scope = r'.scope →
    r.idempotencyKey = r'.idempotencyKey → r = r'
  sound : ∀ r ∈ db.idempotency.rows, r.Sound cfg

/-- No record is lost, and none changes its request. -/
def Db.Keeps (db db' : Db) : Prop :=
  ∀ id r, db.idempotency.get? id = some r → ∃ r', db'.idempotency.get? id = some r' ∧ r.SameRequest r'

/-- The write leaves the records alone, or updates a record to a sound one of the same request. -/
def Write.Updates (cfg : Config) (db : Db) : Write → Prop
  | .insertPayment _ | .updatePayment _ | .insertOutbox _ => True
  | .insertIdempotency _ => False
  | .acquireIdempotency r | .completeIdempotency r | .failIdempotency r =>
    r.Sound cfg ∧ ∃ r₀, db.idempotency.get? r.id = some r₀ ∧ r₀.SameRequest r

section Table

variable {cfg : Config} {db db' db'' : Db} {r r₀ : IdempotencyRecord} {w : Write} {command : Command}

theorem Db.Keeps.refl (db : Db) : db.Keeps db := fun _ r hr => ⟨r, hr, .refl r⟩

theorem Db.Keeps.of_eq (h : db'.idempotency = db.idempotency) : db.Keeps db' :=
  fun _ r hr => ⟨r, by rw [h]; exact hr, .refl r⟩

theorem Db.Keeps.trans (h : db.Keeps db') (h' : db'.Keeps db'') : db.Keeps db'' := by
  intro id r hr
  obtain ⟨r', hr', hs⟩ := h id r hr
  obtain ⟨r'', hr'', hs'⟩ := h' id r' hr'
  exact ⟨r'', hr'', hs.trans hs'⟩

theorem Write.Updates.keeps (h : w.Updates cfg db) (hk : db.Keeps db') : w.Updates cfg db' := by
  cases w with
  | insertPayment | updatePayment | insertOutbox => trivial
  | insertIdempotency => exact h
  | acquireIdempotency r | completeIdempotency r | failIdempotency r =>
    obtain ⟨hsound, r₀, hr₀, hs⟩ := h
    obtain ⟨r₁, hr₁, hs₁⟩ := hk _ _ hr₀
    refine ⟨hsound, r₁, hr₁, ⟨?_, ?_, ?_, ?_⟩⟩
    · exact (Table.key_of_get? hr₁).symm
    · rw [hs₁.scope, hs.scope]
    · rw [hs₁.idempotencyKey, hs.idempotencyKey]
    · rw [hs₁.requestHash, hs.requestHash]

/-- A record's update keeps the table keyed. -/
theorem Db.Keyed.put (hk : db.Keyed cfg) (hg : db.idempotency.get? r.id = some r₀) (hs : r₀.SameRequest r)
    (hr : r.Sound cfg) : ({ db with idempotency := db.idempotency.put r } : Db).Keyed cfg ∧
      db.Keeps { db with idempotency := db.idempotency.put r } := by
  have hmem := Table.mem_of_get? hg
  have hput : ∀ x ∈ (db.idempotency.put r).rows, x = r ∨ (x ∈ db.idempotency.rows ∧ x.id ≠ r.id) :=
    fun x => (Table.mem_put hg).1
  have hother : ∀ x ∈ db.idempotency.rows, x.id ≠ r.id → r.scope = x.scope → r.idempotencyKey = x.idempotencyKey →
      False := by
    intro x hx hne hscope hkey
    have := hk.unique r₀ hmem x hx (hs.scope.symm.trans hscope) (hs.idempotencyKey.symm.trans hkey)
    exact hne (by rw [← this, hs.id])
  constructor
  · constructor
    · intro x hx
      rcases hput x hx with rfl | ⟨hx, -⟩
      · rw [hs.scope]; exact hk.scope r₀ hmem
      · exact hk.scope x hx
    · intro x hx
      rcases hput x hx with rfl | ⟨hx, -⟩
      · rw [hs.idempotencyKey]; exact hk.idempotencyKey r₀ hmem
      · exact hk.idempotencyKey x hx
    · intro x hx y hy hscope hkey
      rcases hput x hx with rfl | ⟨hx', hxr⟩ <;> rcases hput y hy with rfl | ⟨hy', hyr⟩
      · rfl
      · exact (hother y hy' hyr hscope hkey).elim
      · exact (hother x hx' hxr hscope.symm hkey.symm).elim
      · exact hk.unique x hx' y hy' hscope hkey
    · intro x hx
      rcases hput x hx with rfl | ⟨hx, -⟩
      · exact hr
      · exact hk.sound x hx
  · intro id x hx
    by_cases hid : r.id = id
    · subst hid
      obtain rfl : r₀ = x := Option.some.inj (hg.symm.trans hx)
      exact ⟨r, Table.get?_put_self hg, hs⟩
    · exact ⟨x, (Table.get?_put_of_ne hid).trans hx, .refl x⟩

/-- So does a record of a new scope and key. -/
theorem Db.Keyed.insert (hk : db.Keyed cfg)
    (hf : IdempotencyDataAccess.findByScopeAndKey db r.scope r.idempotencyKey = none)
    (hn : db.idempotency.get? r.id = none) (hscope : varcharIn 120 r.scope = .ok r.scope)
    (hkey : varcharIn 160 r.idempotencyKey = .ok r.idempotencyKey) (hr : r.Sound cfg) :
    ({ db with idempotency := db.idempotency.insert r } : Db).Keyed cfg ∧
      db.Keeps { db with idempotency := db.idempotency.insert r } := by
  have hnew := IdempotencyDataAccess.findByScopeAndKey_none hf
  have hmem : ∀ x ∈ (db.idempotency.insert r).rows, x ∈ db.idempotency.rows ∨ x = r := fun x => (Table.mem_insert hn).1
  constructor
  · constructor
    · intro x hx
      rcases hmem x hx with hx | rfl
      · exact hk.scope x hx
      · exact hscope
    · intro x hx
      rcases hmem x hx with hx | rfl
      · exact hk.idempotencyKey x hx
      · exact hkey
    · intro x hx y hy hscope' hkey'
      rcases hmem x hx with hx' | rfl <;> rcases hmem y hy with hy' | rfl
      · exact hk.unique x hx' y hy' hscope' hkey'
      · exact absurd ⟨hscope', hkey'⟩ (hnew x hx')
      · exact absurd ⟨hscope'.symm, hkey'.symm⟩ (hnew y hy')
      · rfl
    · intro x hx
      rcases hmem x hx with hx | rfl
      · exact hk.sound x hx
      · exact hr
  · intro id x hx
    have hne : r.id ≠ id := by
      rintro rfl
      rw [hn] at hx; cases hx
    exact ⟨x, (Table.get?_insert_of_ne hne).trans hx, .refl x⟩

theorem Db.Keyed.update (hk : db.Keyed cfg) (hw : w.Updates cfg db) :
    (w.apply db).Keyed cfg ∧ db.Keeps (w.apply db) := by
  cases w with
  | insertPayment | updatePayment | insertOutbox =>
    exact ⟨⟨hk.scope, hk.idempotencyKey, hk.unique, hk.sound⟩, .of_eq rfl⟩
  | insertIdempotency => exact hw.elim
  | acquireIdempotency r | completeIdempotency r | failIdempotency r =>
    obtain ⟨hsound, r₀, hg, hs⟩ := hw
    exact hk.put hg hs hsound

/-- The writes of a transaction, one after another. -/
theorem Db.Keyed.updates : ∀ {ws : List Write} {db : Db}, db.Keyed cfg → (∀ w ∈ ws, w.Updates cfg db) →
    (schema.applyAll db ws).Keyed cfg ∧ db.Keeps (schema.applyAll db ws)
  | [], db, hk, _ => ⟨hk, .refl db⟩
  | w :: ws, db, hk, hws => by
    obtain ⟨hk', hkeeps⟩ := hk.update (hws w List.mem_cons_self)
    have hrest : ∀ x ∈ ws, x.Updates cfg (w.apply db) := fun x hx => (hws x (List.mem_cons_of_mem _ hx)).keeps hkeeps
    obtain ⟨hk'', hkeeps'⟩ := Keyed.updates hk' hrest
    exact ⟨hk'', hkeeps.trans hkeeps'⟩

/-- The record of a request is the one a lookup finds. -/
theorem Db.Keyed.find (hk : db.Keyed cfg) (hr : r ∈ db.idempotency.rows) (hscope : command.scope = r.scope)
    (hkey : command.idempotencyKey = r.idempotencyKey) :
    IdempotencyDataAccess.findByScopeAndKey db command.scope command.idempotencyKey = some r := by
  cases hf : IdempotencyDataAccess.findByScopeAndKey db command.scope command.idempotencyKey with
  | none => exact absurd ⟨hscope.symm, hkey.symm⟩ (IdempotencyDataAccess.findByScopeAndKey_none hf r hr)
  | some r' =>
    obtain ⟨hmem, hscope', hkey'⟩ := IdempotencyDataAccess.findByScopeAndKey_some hf
    rw [hk.unique r' hmem r hr (hscope'.trans hscope) (hkey'.trans hkey)]

end Table

/-! ## What a step writes -/

section Writes

variable {cfg : Config} {env : Env} {db : Db} {s s' : State} {a : Action} {call : Call} {aw : Await} {o : Outcome}

/-- A statement begins a record, or updates the records it writes. -/
theorem Ran.updates (h : Ran cfg env db call aw o) (hk : db.Keyed cfg) :
    (∀ w ∈ o.writes, w.Updates cfg db) ∨ aw = .tryInsertProcessing ∧ ∃ r, o.writes = [.insertIdempotency r] ∧
      (call.insertInput cfg env).Admitted env.uuid' r ∧
      IdempotencyDataAccess.findByScopeAndKey db r.scope r.idempotencyKey = none ∧ db.idempotency.get? r.id = none := by
  have hself : ∀ {id r}, db.idempotency.get? id = some r → db.idempotency.get? r.id = some r := by
    intro id r hg
    rw [Table.key_of_get? hg]; exact hg
  cases h with
  | @inserted r _ hadm hf hn _ => exact .inr ⟨rfl, r, rfl, hadm, hf, hn⟩
  | @acquired _ _ r _ hor hg _ =>
    refine .inl (List.forall_mem_singleton.2 ⟨(hk.sound r (Table.mem_of_get? hg)).acquired ?_,
      r, hself hg, ⟨rfl, rfl, rfl, rfl⟩⟩)
    rcases hor with ⟨-, hs⟩ | ⟨-, hs⟩ <;> rw [hs] <;> decide
  | @completed _ _ r _ hg hs _ =>
    exact .inl (List.forall_mem_singleton.2 ⟨.markedCompleted, r, hself hg, ⟨rfl, rfl, rfl, rfl⟩⟩)
  | @markedFailed _ _ r _ hg hs _ =>
    refine .inl (List.forall_mem_singleton.2 ⟨(hk.sound r (Table.mem_of_get? hg)).markedFailed ?_,
      r, hself hg, ⟨rfl, rfl, rfl, rfl⟩⟩)
    rw [hs]; decide
  | insertedPayment | updatedPayment | recorded => exact .inl (List.forall_mem_singleton.2 trivial)
  | _ => exact .inl (fun _ hw => absurd hw List.not_mem_nil)

/-- The table stays keyed when a statement takes effect. -/
theorem Ran.keyed (h : Ran cfg env db call aw o) (hk : db.Keyed cfg) :
    (schema.applyAll db o.writes).Keyed cfg ∧ db.Keeps (schema.applyAll db o.writes) := by
  rcases h.updates hk with hw | ⟨-, r, hw, hadm, hf, hn⟩
  · exact hk.updates hw
  · rw [hw]
    refine hk.insert hf hn (varcharIn_stored hadm.scope) (varcharIn_stored hadm.idempotencyKey) fun _ _ => .inr ⟨?_, ?_⟩
    · obtain ⟨u, -, hu⟩ := hadm.resourceId
      rw [hu]; rfl
    · exact fun _ => hadm.processingExpiresAt

/-- A write that is pending after a step was pending before it, or is of the step's own statement. -/
theorem StepCase.write_origin (h : StepCase cfg s a s') {t : Session} {ws : List Write} {w : Write}
    (hp : s'.server.pending t = some ws) (hw : w ∈ ws) :
    (∃ ws₀, s.server.pending t = some ws₀ ∧ w ∈ ws₀) ∨
    ∃ env call o, s.calls a.call = some call ∧ s'.db = s.db ∧ Ran cfg env s.db call call.await o ∧
      (call.await.mode = .opening ∨ call.await.mode = .inside) ∧ w ∈ o.writes := by
  have hended : ∀ {c : CallId}, Function.update s.server.pending (.tx c) none t = some ws →
      s.server.pending t = some ws := by
    intro c hp
    by_cases ht : t = .tx c
    · rw [ht, Function.update_self] at hp; cases hp
    · rwa [Function.update_of_ne ht] at hp
  cases h with
  | started | answered | commitLost | crashed => exact .inl ⟨ws, hp, hw⟩
  | pool _ _ _ _ hs =>
    obtain ⟨-, -, -, -, hpend⟩ := Server.autocommit_eq_some hs
    exact .inl ⟨ws, (congrFun hpend t).symm.trans hp, hw⟩
  | @staged c env call o server hc _ hmode hrun hs =>
    obtain ⟨ws₀, hp₀, -, hdb, -, hpend, -⟩ := Server.stage_eq_some hs
    have hdb' : server.committed = s.server.committed := hdb.trans (opened_committed ..).1
    have hp' : server.pending t = some ws := hp
    rw [hpend] at hp'
    by_cases ht : t = .tx c
    · subst ht
      rw [Function.update_self, Option.some.injEq] at hp'
      subst hp'
      rcases List.mem_append.1 hw with hw | hw
      · -- a transaction that has just been opened has written nothing
        refine .inl ⟨ws₀, ?_, hw⟩
        cases hnone : s.server.pending (.tx c) with
        | some ws₁ =>
          rcases hmode with hm | hm <;> rw [hm] at hp₀
          · simpa [State.opened, Server.begin, hnone] using hp₀
          · simpa [State.opened, hnone] using hp₀
        | none =>
          rcases hmode with hm | hm <;> rw [hm] at hp₀
          · simp only [State.opened, Server.begin_pending hnone, Function.update_self, Option.some.injEq] at hp₀
            subst hp₀; cases hw
          · simp only [State.opened, hnone] at hp₀; cases hp₀
      · exact .inr ⟨env, call, o, hc, hdb', ran_of_run hrun, hmode, hw⟩
    · rw [Function.update_of_ne ht] at hp'
      exact .inl ⟨ws, (opened_undisturbed ht).pending.symm.trans hp', hw⟩
  | committed | lateCommit => exact .inl ⟨ws, hended hp, hw⟩
  | rolledBack | sessionLost => exact .inl ⟨ws, hended hp, hw⟩
  | @rejected _ c call =>
    have hp' : (State.abandon s.server c call.await.mode).pending t = some ws := hp
    refine .inl ⟨ws, ?_, hw⟩
    unfold State.abandon at hp'
    split at hp'
    · exact hended hp'
    · exact hended hp'
    all_goals exact hp'

end Writes

/-! ## The invariant -/

/-- The record a call is about to acquire, or works under. -/
def Await.recordId? : Await → Option Uuid
  | .reactivateFailed id | .takeoverExpiredProcessing id => some id
  | aw => aw.started?.map Started.recordId

/-- The record was begun for the command's request. -/
def Begun (cfg : Config) (db : Db) (command : Command) (id : Uuid) : Prop :=
  ∃ r, db.idempotency.get? id = some r ∧ command.Matches cfg r

/-- What holds of every run from keyed tables: a call works under, and its transaction locks, records of
its own request only. -/
structure KeysInv (cfg : Config) (s : State) : Prop where
  keyed : s.db.Keyed cfg
  begun : ∀ c call id, s.calls c = some call → call.await.recordId? = some id → Begun cfg s.db call.command id
  locks : LockInv s
  locked : ∀ id t, s.server.locks (.idempotency id) = some t →
    ∃ c call, t = .tx c ∧ s.calls c = some call ∧ Begun cfg s.db call.command id
  opened : ∀ c, (s.server.pending (.tx c)).isSome = true → ∃ call d, s.calls c = some call ∧
    call.await.started? = some d
  pending : ∀ t ws, s.server.pending t = some ws → ∀ w ∈ ws, w.Updates cfg s.db

section Invariant

variable {cfg : Config} {s s' : State} {a : Action} {c : CallId} {call : Call}

theorem Begun.keeps {db db' : Db} {command : Command} {id : Uuid} (h : Begun cfg db command id) (hk : db.Keeps db') :
    Begun cfg db' command id := by
  obtain ⟨r, hr, hm⟩ := h
  obtain ⟨r', hr', hs⟩ := hk id r hr
  exact ⟨r', hr', hm.of_sameRequest hs⟩

theorem Await.recordId?_of_started {aw : Await} {d : Started} (h : aw.started? = some d) :
    aw.recordId? = some d.recordId := by
  cases aw <;> simp_all [Await.started?, Await.recordId?]

theorem Await.started_of_recordId {aw : Await} {id : Uuid} (h : aw.recordId? = some id) :
    aw = .reactivateFailed id ∨ aw = .takeoverExpiredProcessing id ∨ ∃ d, aw.started? = some d ∧ d.recordId = id := by
  cases aw <;> simp_all [Await.started?, Await.recordId?]

theorem Call.reject_recordId {e : Err} {id : Uuid} (h : (call.reject e).recordId? = some id) :
    call.await.recordId? = some id := by
  rcases Await.started_of_recordId h with h | h | ⟨d, hd, rfl⟩
  · unfold Call.reject at h
    cases hawait : call.await <;> simp only [hawait, reduceCtorEq] at h
    cases hcmd : call.command <;> simp [hcmd] at h
  · unfold Call.reject at h
    cases hawait : call.await <;> simp only [hawait, reduceCtorEq] at h
    cases hcmd : call.command <;> simp [hcmd] at h
  · rw [call.reject_started] at hd
    exact Await.recordId?_of_started hd

/-- The tables stay keyed, and keep their records. -/
theorem KeysInv.tables (hi : KeysInv cfg s) (h : StepCase cfg s a s') : s'.db.Keyed cfg ∧ s.db.Keeps s'.db := by
  have hcommit : ∀ {c : CallId}, (s.server.pending (.tx c)).isSome = true →
      (s.server.commit (.tx c)).committed.Keyed cfg ∧ s.db.Keeps (s.server.commit (.tx c)).committed := by
    intro c hopen
    obtain ⟨ws, hws⟩ := Option.isSome_iff_exists.1 hopen
    rw [Server.commit_committed hws]
    exact hi.keyed.updates (hi.pending _ _ hws)
  have hsame : ∀ {db : Db}, db = s.db → db.Keyed cfg ∧ s.db.Keeps db := by
    rintro _ rfl
    exact ⟨hi.keyed, .refl _⟩
  cases h with
  | started | answered | commitLost | crashed => exact hsame rfl
  | pool hc _ _ hrun hs =>
    obtain ⟨-, hdb, -⟩ := Server.autocommit_eq_some hs
    have := (ran_of_run hrun).keyed hi.keyed
    rwa [← hdb] at this
  | staged hc _ _ _ hs =>
    obtain ⟨-, -, -, hdb, -⟩ := Server.stage_eq_some hs
    exact hsame (hdb.trans (opened_committed ..).1)
  | committed _ _ hopen | lateCommit _ _ hopen => exact hcommit hopen
  | rolledBack | sessionLost => exact hsame Server.rollback_committed
  | rejected => exact hsame (abandon_committed ..).1

/-- A call tries to acquire the record that it has found. -/
theorem Ran.acquiring {env : Env} {db : Db} {aw : Await} {o : Outcome} {id : Uuid} (h : Ran cfg env db call aw o)
    (hnext : o.next = .reactivateFailed id ∨ o.next = .takeoverExpiredProcessing id) :
    aw.Finds ∧ ∃ r, r.id = id ∧ r.requestHash = call.command.requestHash cfg ∧
      IdempotencyDataAccess.findByScopeAndKey db call.command.scope call.command.idempotencyKey = some r := by
  have hnone : o.next.started? = none := by rcases hnext with hn | hn <;> rw [hn] <;> rfl
  have hpool : o.next.mode = .pool := by rcases hnext with hn | hn <;> rw [hn] <;> rfl
  cases h with
  | @toReactivate _ r ha hf hh | @toTakeover _ r ha hf hh =>
    rcases hnext with hn | hn <;> cases hn
    exact ⟨ha, r, rfl, hh, hf⟩
  | inserted => simp only [Call.afterStarted_started, reduceCtorEq] at hnone
  | @acquired _ _ r lease =>
    cases hb : buildStartedDecision (r.acquired lease env.uuid env.dbNow) with
    | error e => rw [hb] at hpool; cases hpool
    | ok d => simp only [hb, Call.afterAcquired, Call.afterStarted_started, reduceCtorEq] at hnone
  | @lockedPayment d _ _ p =>
    rcases Call.afterLock_cases cfg d p with ⟨e, -, he⟩ | ⟨provider, input, -, he⟩ <;> simp only [he] at hnone <;>
      cases hnone
  | idle hidle =>
    simp only at hpool
    rw [hpool] at hidle; cases hidle
  | _ => rcases hnext with hn | hn <;> cases hn

/-- The record a call goes on with was begun for its request. -/
theorem Ran.begun {env : Env} {db : Db} {aw : Await} {o : Outcome} {id : Uuid} (h : Ran cfg env db call aw o)
    (hk : db.Keyed cfg) (hb : ∀ id, aw.recordId? = some id → Begun cfg db call.command id)
    (hid : o.next.recordId? = some id) : Begun cfg (schema.applyAll db o.writes) call.command id := by
  have hkeeps := (h.keyed hk).2
  have hfound : o.next = .reactivateFailed id ∨ o.next = .takeoverExpiredProcessing id →
      Begun cfg (schema.applyAll db o.writes) call.command id := by
    intro hnext
    obtain ⟨-, r, rfl, hh, hf⟩ := h.acquiring hnext
    obtain ⟨hmem, hscope, hkey⟩ := IdempotencyDataAccess.findByScopeAndKey_some hf
    have hm : call.command.Matches cfg r :=
      ⟨by rw [← hscope]; exact hk.scope r hmem, by rw [← hkey]; exact hk.idempotencyKey r hmem, hh⟩
    exact Begun.keeps ⟨r, Table.mem_iff.1 hmem, hm⟩ hkeeps
  rcases Await.started_of_recordId hid with hnext | hnext | ⟨d, hd, rfl⟩
  · exact hfound (.inl hnext)
  · exact hfound (.inr hnext)
  · have hacquire : ∀ id, aw = .reactivateFailed id ∨ aw = .takeoverExpiredProcessing id →
        Begun cfg db call.command id := by
      rintro id (rfl | rfl) <;> exact hb id rfl
    rcases h.owns hacquire hd with hd | ⟨-, ⟨r, hr, hm, -⟩, -⟩
    · exact (hb d.recordId (Await.recordId?_of_started hd)).keeps hkeeps
    · exact ⟨r, hr, hm⟩

/-- A call keeps its record, unless a statement of it outside a transaction gives it another. -/
theorem CallCase.recordId {next : Await} {server : Server schema Session} {id : Uuid}
    (h : CallCase cfg s c call a next server) (hid : next.recordId? = some id) : call.await.recordId? = some id ∨
      ∃ env o, call.run cfg env s.db = .ok o ∧ next = o.next ∧ server.committed = schema.applyAll s.db o.writes := by
  cases h with
  | @answered env o server hfresh hmode hrun hs =>
    obtain ⟨-, hdb, -⟩ := Server.autocommit_eq_some hs
    exact .inr ⟨env, o, hrun, rfl, hdb⟩
  | answerLost | failed | unanswered => exact .inl (Call.reject_recordId hid)
  | @staged env o server hfresh hmode hrun hs =>
    refine .inl ?_
    have hran := ran_of_run hrun
    have hinside : ¬ call.await.Finds := by
      intro hf
      rw [hf.mode] at hmode
      simp at hmode
    rcases Await.started_of_recordId hid with hnext | hnext | ⟨d, hd, rfl⟩
    · exact absurd (hran.acquiring (.inl hnext)).1 hinside
    · exact absurd (hran.acquiring (.inr hnext)).1 hinside
    · exact Await.recordId?_of_started (hran.staged_started hmode hd)
  | committed => cases hid
  | rolledBack hawait | commitLost hawait => rw [hawait]; exact .inl hid
  | provider hcase =>
    generalize call.await = aw at hcase ⊢
    cases hcase <;> exact .inl hid
  | lateCommit | sessionLost => exact .inl hid
  | crashed =>
    obtain ⟨d, hd, rfl⟩ := Option.map_eq_some_iff.1 hid
    exact .inl (Await.recordId?_of_started hd)

/-- A statement writes and locks the record its call has found or works under, or begins a new one. -/
theorem Ran.touches {env : Env} {db : Db} {aw : Await} {o : Outcome} {id : Uuid} (h : Ran cfg env db call aw o)
    (hb : ∀ id, aw.recordId? = some id → Begun cfg db call.command id)
    (hmem : RowKey.idempotency id ∈ o.writes.map Write.key ++ o.locks) :
    Begun cfg db call.command id ∨ aw = .tryInsertProcessing ∧ db.idempotency.get? id = none := by
  cases h with
  | @inserted r _ _ _ hn =>
    obtain rfl : id = r.id := by simpa [Write.key] using hmem
    exact .inr ⟨rfl, hn⟩
  | @acquired _ id' r _ hor hg =>
    have hid : id = id' := by
      rw [← Table.key_of_get? hg]
      simpa [Write.key, IdempotencyRecord.acquired] using hmem
    subst hid
    exact .inl (hb id (by rcases hor with ⟨rfl, -⟩ | ⟨rfl, -⟩ <;> rfl))
  | @completed d _ r _ hg | @markedFailed d _ r _ hg =>
    have hid : id = d.recordId := by
      rw [← Table.key_of_get? hg]
      simpa [Write.key, IdempotencyRecord.markedCompleted, IdempotencyRecord.markedFailed] using hmem
    exact .inl (hb id (by rw [hid]; rfl))
  | _ => simp [Write.key] at hmem

/-- Only a COMMIT ends the work under a decision with an answer. -/
theorem Ran.keeps_started {env : Env} {db : Db} {aw : Await} {o : Outcome} {d : Started} (h : Ran cfg env db call aw o)
    (hd : aw.started? = some d) (hmode : aw.mode ≠ .commit) : o.next.started? = some d := by
  rcases h.advances.started d hd with hnext | ⟨statusCode, body, hnext⟩
  · exact hnext
  · cases h with
    | replayed hf => rw [hf.started] at hd; cases hd
    | committed => exact absurd rfl hmode
    | idle => rw [show aw = _ from hnext] at hd; cases hd
    | inserted => cases hd
    | acquired hor => rcases hor with ⟨rfl, -⟩ | ⟨rfl, -⟩ <;> cases hd
    | @lockedPayment d _ _ p =>
      rcases Call.afterLock_cases cfg d p with ⟨e, -, he⟩ | ⟨provider, input, -, he⟩ <;> simp only [he] at hnext <;>
        cases hnext
    | _ => cases hnext

/-- A transaction is open only while its call works under a decision. -/
theorem KeysInv.opened_step (hi : KeysInv cfg s) (h : StepCase cfg s a s') (c : CallId)
    (hopen : (s'.server.pending (.tx c)).isSome = true) :
    ∃ call d, s'.calls c = some call ∧ call.await.started? = some d := by
  by_cases hca : c = a.call
  swap
  · rw [h.calls_of_ne hca]
    exact hi.opened c (by rwa [(h.undisturbed hca).pending] at hopen)
  subst hca
  have hmoved : ∀ {c : CallId} {new : Call} {calls : CallId → Option Call} {d : Started},
      calls = Function.update s.calls c (some new) → new.await.started? = some d →
      ∃ call d, calls c = some call ∧ call.await.started? = some d := by
    rintro c new calls d rfl hd
    exact ⟨new, d, Function.update_self .., hd⟩
  -- the transaction was open before the step, so that its call was under a decision
  have hstarted : ∀ {c : CallId} {call : Call}, s.calls c = some call → (s.server.pending (.tx c)).isSome = true →
      ∃ d, call.await.started? = some d := by
    intro c call hc hopen
    obtain ⟨call', d, hc', hd⟩ := hi.opened c hopen
    obtain rfl := Option.some.inj (hc.symm.trans hc')
    exact ⟨d, hd⟩
  cases h with
  | @started c _ _ hnone =>
    obtain ⟨call, d, hc, -⟩ := hi.opened c hopen
    rw [hnone] at hc; cases hc
  | @pool a c env call o next server hc _ hmode hrun hs ha =>
    obtain rfl : a.call = c := by rcases ha with ⟨rfl, -⟩ | ⟨m, rfl, -⟩ <;> rfl
    obtain ⟨-, -, -, -, hpend⟩ := Server.autocommit_eq_some hs
    obtain ⟨d, hd⟩ := hstarted hc (by rw [← hpend]; exact hopen)
    suffices hnext : next.started? = some d from hmoved rfl hnext
    rcases ha with ⟨-, rfl⟩ | ⟨m, -, rfl⟩
    · exact (ran_of_run hrun).keeps_started hd (by rw [hmode]; decide)
    · exact (call.reject_started _).trans hd
  | @staged c env call o server hc _ hmode hrun hs =>
    have hd : ∃ d, call.await.started? = some d := by
      cases hawait : call.await <;> simp [hawait, Await.mode] at hmode <;> exact ⟨_, rfl⟩
    obtain ⟨d, hd⟩ := hd
    have hne : call.await.mode ≠ .commit := by rcases hmode with hm | hm <;> rw [hm] <;> decide
    exact hmoved rfl ((ran_of_run hrun).keeps_started hd hne)
  | committed | rolledBack => simp [Action.call, State.moved] at hopen
  | @rejected a c call e minted hc hmode ha =>
    obtain rfl : a.call = c := by rcases ha with ⟨env, rfl, -⟩ | ⟨m, rfl, -⟩ <;> rfl
    have hbefore : (s.server.pending (.tx a.call)).isSome = true := by
      have hopen : ((State.abandon s.server a.call call.await.mode).pending (.tx a.call)).isSome = true := hopen
      unfold State.abandon at hopen
      split at hopen
      · simp at hopen
      · simp at hopen
      all_goals exact hopen
    obtain ⟨d, hd⟩ := hstarted hc hbefore
    exact hmoved rfl ((call.reject_started _).trans hd)
  | @answered c now answer call next hc hnext =>
    obtain ⟨d, hd⟩ := hstarted hc hopen
    have hcase := provider_cases hnext
    generalize call.await = aw at hcase
    cases hcase <;> exact hmoved rfl rfl
  | commitLost => exact hmoved rfl rfl
  | lateCommit | sessionLost => simp [Action.call] at hopen
  | crashed hc =>
    obtain ⟨d, hd⟩ := hstarted hc hopen
    exact hmoved rfl hd

theorem KeysInv.step (hi : KeysInv cfg s) (h : StepCase cfg s a s') : KeysInv cfg s' := by
  obtain ⟨hkeyed, hkeeps⟩ := hi.tables h
  -- a staged statement writes at most the record its call works under
  have hstaged : ∀ {env : Env} {call : Call} {o : Outcome}, s.calls a.call = some call →
      Ran cfg env s.db call call.await o → call.await.mode = .opening ∨ call.await.mode = .inside →
      ∀ w ∈ o.writes, w.Updates cfg s.db := by
    intro env call o hc hran hmode
    rcases hran.updates hi.keyed with hw | ⟨hawait, -⟩
    · exact hw
    · rw [hawait] at hmode
      simp [Await.mode] at hmode
  refine ⟨hkeyed, fun c call id hc hid => ?_, hi.locks.step h, fun id t hlock => ?_,
    hi.opened_step h, fun t ws hp w hw => ?_⟩
  · cases hc₀ : s.calls c with
    | none =>
      rcases h.call_origin hc with ⟨call₀, hc', -⟩ | ⟨-, command, reserved, -, -, -, rfl⟩
      · rw [hc₀] at hc'; cases hc'
      · cases hid
    | some call₀ =>
      obtain ⟨call', hc', hkept⟩ := h.call_kept hc₀
      obtain rfl := Option.some.inj (hc.symm.trans hc')
      rcases h.call_cases hc₀ hc with ⟨rfl, -⟩ | ⟨rfl, hcase⟩
      · exact (hi.begun c call id hc₀ hid).keeps hkeeps
      · rw [hkept.command]
        rcases hcase.recordId hid with hid | ⟨env, o, hrun, hnext, hdb⟩
        · exact (hi.begun _ call₀ id hc₀ hid).keeps hkeeps
        · rw [hnext] at hid
          rw [State.db, hdb]
          exact (ran_of_run hrun).begun hi.keyed (fun id => hi.begun _ call₀ id hc₀) hid
  · rcases h.lock_origin hi.locks hlock with ⟨hlock, -⟩ | ⟨rfl, env, call, o, hc, -, hran, hmode, hmem⟩
    · obtain ⟨c, call, rfl, hc, hb⟩ := hi.locked id t hlock
      obtain ⟨call', hc', hkept⟩ := h.call_kept hc
      exact ⟨c, call', rfl, hc', by rw [hkept.command]; exact hb.keeps hkeeps⟩
    · obtain ⟨call', hc', hkept⟩ := h.call_kept hc
      refine ⟨a.call, call', rfl, hc', ?_⟩
      rw [hkept.command]
      rcases hran.touches (fun id => hi.begun _ call id hc) hmem with hb | ⟨hawait, -⟩
      · exact hb.keeps hkeeps
      · rw [hawait] at hmode
        simp [Await.mode] at hmode
  · rcases h.write_origin hp hw with ⟨ws₀, hp₀, hw₀⟩ | ⟨env, call, o, hc, -, hran, hmode, hw⟩
    · exact (hi.pending t ws₀ hp₀ w hw₀).keeps hkeeps
    · exact (hstaged hc hran hmode w hw).keeps hkeeps

end Invariant

end PaymentOrchestration
