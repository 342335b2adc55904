/-
`getExistingOrStart` on its own: one call over a table that other callers change as they like between its statements.
The call keeps a history of the rows it has inserted or updated, so that a theorem can say what a refusal leaves behind.
-/
import PaymentOrchestration.Statements
import PaymentOrchestration.System

namespace PaymentOrchestration

open Lib IdempotencyService

namespace GetExistingOrStart

/-! ## The call -/

/-- The argument of `getExistingOrStart`. -/
structure Input where
  scope : String
  idempotencyKey : String
  requestHash : String
  resourceType : String
  resourceId : String

/-- What the call awaits, or how it has ended. -/
inductive Await
  | findByScopeAndKey
  | tryInsertProcessing
  | findAfterConflict
  | reactivateFailed (id : Uuid)
  | takeoverExpiredProcessing (id : Uuid)
  | returned (d : IdempotencyDecision)
  | threw (e : Err)

def Await.isOver : Await → Bool
  | .returned _ | .threw _ => true
  | _ => false

/-- How the call goes on from `decideFromExisting`. -/
def Await.ofDeciding : Except Err Deciding → Await
  | .error e => .threw e
  | .ok (.decided d) => .returned d
  | .ok (.reactivateFailed id) => .reactivateFailed id
  | .ok (.takeoverExpiredProcessing id) => .takeoverExpiredProcessing id

/-- How it goes on from `buildStartedDecision`. -/
def Await.ofStarted : Except Err Started → Await
  | .error e => .threw e
  | .ok d => .returned (.started d)

section Step

variable (cfg : Config) (input : Input)

/-- The statement the call awaits: what it writes, and what the call awaits next. -/
def run (env : Env) (db : Db) : Await → Except Err (List Write × Await)
  | .findByScopeAndKey =>
    match IdempotencyDataAccess.findByScopeAndKey db input.scope input.idempotencyKey with
    | some record => .ok ([], .ofDeciding (decideFromExisting cfg env.now record input.requestHash))
    | none => .ok ([], .tryInsertProcessing)
  | .tryInsertProcessing =>
    (IdempotencyDataAccess.tryInsertProcessing db {
        scope := input.scope
        idempotencyKey := input.idempotencyKey
        requestHash := input.requestHash
        resourceType := input.resourceType
        resourceId := input.resourceId
        processingExpiresAt := buildExpiresAt cfg.processingLeaseMs env.now
        processingToken := env.uuid } env.uuid' env.dbNow).map fun inserted =>
      (inserted.writes, match inserted.returned with
        | some record => .ofStarted (buildStartedDecision record)
        | none => .findAfterConflict)
  | .findAfterConflict =>
    match IdempotencyDataAccess.findByScopeAndKey db input.scope input.idempotencyKey with
    | some record => .ok ([], .ofDeciding (decideFromExisting cfg env.now record input.requestHash))
    | none => .ok ([], .threw stateNotFound)
  | .reactivateFailed id =>
    (IdempotencyDataAccess.reactivateFailed db id input.requestHash (buildExpiresAt cfg.processingLeaseMs env.now)
        env.uuid env.dbNow).map fun reactivated =>
      (reactivated.writes, .ofStarted (decideFromAcquired reactivated.returned))
  | .takeoverExpiredProcessing id =>
    (IdempotencyDataAccess.takeoverExpiredProcessing db id input.requestHash
        (buildExpiresAt cfg.processingLeaseMs env.now) env.uuid env.dbNow).map fun reactivated =>
      (reactivated.writes, .ofStarted (decideFromAcquired reactivated.returned))
  | .returned d => .ok ([], .returned d)
  | .threw e => .ok ([], .threw e)

/-- `changes` are the rows the call has inserted or updated, each with the table as the statement found it. -/
structure State where
  db : Db
  await : Await
  changes : List (Db × Write)

inductive Action
  /-- Other callers commit: the table may be any other. -/
  | committed (db : Db)
  /-- The statement the call awaits runs, and the call goes on. -/
  | query (env : Env)
  /-- It fails without an effect. -/
  | queryError (message : String)

namespace State

def step (s : State) : Action → Option State
  | .committed db => some { s with db := db }
  | .query env =>
    if s.await.isOver then none
    else match run cfg input env s.db s.await with
      | .ok (ws, next) => some ⟨schema.applyAll s.db ws, next, s.changes ++ ws.map fun w => (s.db, w)⟩
      | .error e => some { s with await := .threw e }
  | .queryError message => if s.await.isOver then none else some { s with await := .threw (.other message) }

end State

/-- A call that begins over the table `db`. -/
def system (db : Db) : System State Action := ⟨⟨db, .findByScopeAndKey, []⟩, State.step cfg input⟩

/-! ## What a decision should have done -/

/-- The row is in the hands of the holder of the decision. -/
structure Owned (d : Started) (r : IdempotencyRecord) : Prop where
  id : r.id = d.recordId
  status : r.status = .processing
  processingToken : r.processingToken = d.processingToken
  resourceId : r.resourceId = some d.resourceId

/-- A new row, or a row of which only the status and the columns of the lease have changed. -/
inductive Acquired (db : Db) (d : Started) : Write → Prop
  | inserted {r : IdempotencyRecord} : db.idempotency.get? r.id = none →
      IdempotencyDataAccess.findByScopeAndKey db r.scope r.idempotencyKey = none → Owned d r →
      Acquired db d (.insertIdempotency r)
  | updated {r : IdempotencyRecord} {lease now : Timestamp} {token : Uuid} : db.idempotency.get? r.id = some r →
      Owned d (r.acquired lease token now) → Acquired db d (.acquireIdempotency (r.acquired lease token now))

/-- A refusal has changed nothing, and a started operation has changed one row. -/
structure Settles (s : State) : Prop where
  threw : ∀ e, s.await = .threw e → s.changes = []
  started : ∀ d, s.await = .returned (.started d) → ∃ db w, s.changes = [(db, w)] ∧ Acquired db d w

/-- The row an acquiring statement updates, if it finds it as it expects it. -/
def State.acquirable (s : State) (env : Env) : Option IdempotencyRecord :=
  match s.await with
  | .reactivateFailed id =>
    (s.db.idempotency.get? id).filter fun r => r.requestHash = input.requestHash ∧ r.status = .failed
  | .takeoverExpiredProcessing id =>
    (s.db.idempotency.get? id).filter fun r =>
      r.requestHash = input.requestHash ∧ r.status = .processing ∧ r.processingExpiresAt.any (· < env.dbNow)
  | _ => none

/-- The step acquires no row without a resource id. -/
def Reserved (s : State) : Action → Prop
  | .query env => (buildExpiresAt cfg.processingLeaseMs env.now).isSome = true →
      ∀ r, s.acquirable input env = some r → r.resourceId.isSome = true
  | .committed _ | .queryError _ => True

end Step

/-! ## In a call of the payment service -/

def Input.ofCall (cfg : Config) (call : Call) : Input where
  scope := call.command.scope
  idempotencyKey := call.command.idempotencyKey
  requestHash := call.command.requestHash cfg
  resourceType := "payment"
  resourceId := call.resourceId

/-- What a call of `create` or `capture` awaits while `getExistingOrStart` awaits this. -/
def Await.inCall (call : Call) : Await → PaymentOrchestration.Await
  | .findByScopeAndKey => .findByScopeAndKey
  | .tryInsertProcessing => .tryInsertProcessing
  | .findAfterConflict => .findAfterConflict
  | .reactivateFailed id => .reactivateFailed id
  | .takeoverExpiredProcessing id => .takeoverExpiredProcessing id
  | .returned (.started d) => call.afterStarted d
  | .returned (.completed statusCode body) => .returned statusCode body
  | .threw e => .refused e

section Calls

variable {cfg : Config} {env : Env} {db : Db} {call : Call} {a : Await}

theorem inCall_ofDeciding (o : Except Err Deciding) : (Await.ofDeciding o).inCall call = call.afterDeciding o := by
  rcases o with e | d
  · rfl
  · rcases d with d | id | id
    · cases d with
      | started d => rfl
      | completed statusCode body => rfl
    · rfl
    · rfl

theorem inCall_ofStarted (o : Except Err Started) : (Await.ofStarted o).inCall call = call.afterAcquired o := by
  cases o with
  | error e => rfl
  | ok d => rfl

/-- Until the decision, a call of the payment service runs the statements of `getExistingOrStart`. -/
theorem call_run (ha : call.await = a.inCall call) (hover : a.isOver = false) :
    call.run cfg env db = (run cfg (.ofCall cfg call) env db a).map fun o => ⟨o.1, [], o.2.inCall call⟩ := by
  cases a with
  | findByScopeAndKey =>
    replace ha : call.await = .findByScopeAndKey := ha
    simp only [Call.run, ha, run, Input.ofCall]
    cases IdempotencyDataAccess.findByScopeAndKey db call.command.scope call.command.idempotencyKey with
    | none => rfl
    | some record => simp only [Except.map, inCall_ofDeciding]
  | findAfterConflict =>
    replace ha : call.await = .findAfterConflict := ha
    simp only [Call.run, ha, run, Input.ofCall]
    cases IdempotencyDataAccess.findByScopeAndKey db call.command.scope call.command.idempotencyKey with
    | none => rfl
    | some record => simp only [Except.map, inCall_ofDeciding]
  | tryInsertProcessing =>
    replace ha : call.await = .tryInsertProcessing := ha
    simp only [Call.run, ha, run, Input.ofCall, Call.write]
    generalize IdempotencyDataAccess.tryInsertProcessing db _ _ _ = inserted
    rcases inserted with e | ⟨_ | record, ws⟩
    · rfl
    · rfl
    · simp only [Except.map, inCall_ofStarted]
  | reactivateFailed id =>
    replace ha : call.await = .reactivateFailed id := ha
    simp only [Call.run, ha, run, Input.ofCall, Call.write]
    generalize IdempotencyDataAccess.reactivateFailed db _ _ _ _ _ = reactivated
    cases reactivated with
    | error e => rfl
    | ok r => simp only [Except.map, inCall_ofStarted]
  | takeoverExpiredProcessing id =>
    replace ha : call.await = .takeoverExpiredProcessing id := ha
    simp only [Call.run, ha, run, Input.ofCall, Call.write]
    generalize IdempotencyDataAccess.takeoverExpiredProcessing db _ _ _ _ _ = reactivated
    cases reactivated with
    | error e => rfl
    | ok r => simp only [Except.map, inCall_ofStarted]
  | returned | threw => cases hover

/-- A statement that fails there makes the call reject. -/
theorem call_reject (ha : call.await = a.inCall call) (hover : a.isOver = false) (e : Err) :
    call.reject e = (Await.threw e).inCall call := by
  unfold Call.reject
  cases a with
  | findByScopeAndKey | tryInsertProcessing | findAfterConflict | reactivateFailed | takeoverExpiredProcessing =>
    rw [ha]
    rfl
  | returned | threw => cases hover

end Calls

section Runs

variable {cfg : Config} {input : Input} {env : Env} {s s' : State} {a : Action} {as : List Action} {id : Uuid}

/-! ## The acquiring statements -/

theorem updateWhere_eq (db : Db) (id : Uuid) (cond : IdempotencyRecord → Bool)
    (set : IdempotencyRecord → IdempotencyRecord) (write : IdempotencyRecord → Write) :
    IdempotencyDataAccess.updateWhere db id cond set write =
      (((db.idempotency.get? id).filter cond).map fun r => Answer.mk (some (set r))
        [write (set r)]).getD ⟨none, []⟩ := by
  unfold IdempotencyDataAccess.updateWhere
  cases db.idempotency.get? id with
  | none => rfl
  | some r =>
    rw [Option.filter_some]
    by_cases h : cond r = true
    · rw [if_pos h]
      simp only [if_pos h]
      rfl
    · rw [if_neg h]
      simp only [if_neg h]
      rfl

/-- A row that is found under its own id. -/
theorem get?_of_filter {db : Db} {cond : IdempotencyRecord → Bool} {r : IdempotencyRecord}
    (h : (db.idempotency.get? id).filter cond = some r) : db.idempotency.get? r.id = some r ∧ cond r = true := by
  obtain ⟨hr, hc⟩ := Option.filter_eq_some_iff.1 h
  have hid : r.id = id := Table.key_of_get? hr
  rw [hid]
  exact ⟨hr, hc⟩

/-- What an acquiring statement does: it fails on an invalid lease, finds no row, or updates the row it has found. -/
theorem run_acquiring (h : s.await = .reactivateFailed id ∨ s.await = .takeoverExpiredProcessing id) :
    (buildExpiresAt cfg.processingLeaseMs env.now = none ∧ ∃ e, run cfg input env s.db s.await = .error e) ∨
    (buildExpiresAt cfg.processingLeaseMs env.now).isSome = true ∧
      (s.acquirable input env = none ∧ run cfg input env s.db s.await = .ok ([], .threw requestInProgress) ∨
        ∃ r lease, s.acquirable input env = some r ∧ s.db.idempotency.get? r.id = some r ∧
          run cfg input env s.db s.await = .ok ([.acquireIdempotency (r.acquired lease env.uuid env.dbNow)],
            .ofStarted (buildStartedDecision (r.acquired lease env.uuid env.dbNow)))) := by
  cases hl : buildExpiresAt cfg.processingLeaseMs env.now with
  | none =>
    refine .inl ⟨rfl, ?_⟩
    rcases h with h | h
    · rw [h]
      exact ⟨_, by simp only [run, hl]; rfl⟩
    · rw [h]
      exact ⟨_, by simp only [run, hl]; rfl⟩
  | some t =>
    refine .inr ⟨rfl, ?_⟩
    rcases h with h | h
    · have hrow : s.acquirable input env = (s.db.idempotency.get? id).filter fun r =>
          r.requestHash = input.requestHash ∧ r.status = .failed := by
        simp only [State.acquirable, h]
      rw [h]
      simp only [run, hl, IdempotencyDataAccess.reactivateFailed, dateColumn, pure, bind, Except.bind, Except.pure,
        Except.map, updateWhere_eq]
      rw [← hrow]
      cases hr : s.acquirable input env with
      | none => exact .inl ⟨rfl, rfl⟩
      | some r => exact .inr ⟨r, ofDate t, rfl, (get?_of_filter (hrow.symm.trans hr)).1, rfl⟩
    · have hrow : s.acquirable input env = (s.db.idempotency.get? id).filter fun r =>
          r.requestHash = input.requestHash ∧ r.status = .processing ∧ r.processingExpiresAt.any (· < env.dbNow) := by
        simp only [State.acquirable, h]
      rw [h]
      simp only [run, hl, IdempotencyDataAccess.takeoverExpiredProcessing, dateColumn, pure, bind, Except.bind,
        Except.pure, Except.map, updateWhere_eq]
      rw [← hrow]
      cases hr : s.acquirable input env with
      | none => exact .inl ⟨rfl, rfl⟩
      | some r =>
        obtain ⟨hget, hcond⟩ := get?_of_filter (hrow.symm.trans hr)
        -- the statement does not set the status, which is PROCESSING already
        have hstatus : r.status = .processing := (of_decide_eq_true hcond).2.1
        refine .inr ⟨r, ofDate t, rfl, hget, ?_⟩
        unfold IdempotencyRecord.acquired
        rw [← hstatus]
        rfl

/-- A decision that is built from a row in PROCESSING. -/
theorem owned_of_ok {r : IdempotencyRecord} {d : Started} (hs : r.status = .processing)
    (h : buildStartedDecision r = .ok d) : Owned d r := by
  unfold buildStartedDecision at h
  split at h
  · cases h
  · rename_i resourceId hres
    cases h
    exact ⟨rfl, hs, rfl, hres⟩

theorem buildStartedDecision_missing {r : IdempotencyRecord} (h : r.resourceId = none) :
    buildStartedDecision r = .error resourceMissing := by
  unfold buildStartedDecision
  rw [h]

theorem buildStartedDecision_reserved {r : IdempotencyRecord} (h : r.resourceId.isSome = true) :
    ∃ d, buildStartedDecision r = .ok d := by
  obtain ⟨u, hu⟩ := Option.isSome_iff_exists.1 h
  exact ⟨_, by unfold buildStartedDecision; rw [hu]⟩

/-! ## Steps -/

/-- How a statement may end well: it has written nothing and does not start the operation, or it has acquired a row. -/
inductive Ends (db : Db) : List Write → Await → Prop
  | unchanged {next : Await} : (∀ d, next ≠ .returned (.started d)) → Ends db [] next
  | acquired {d : Started} {w : Write} : Acquired db d w → Ends db [w] (.returned (.started d))

theorem ofDeciding_ne (record : IdempotencyRecord) (d : Started) :
    Await.ofDeciding (decideFromExisting cfg env.now record input.requestHash) ≠ .returned (.started d) := by
  unfold decideFromExisting
  split
  · exact Await.noConfusion
  · split
    · intro h
      injection h with h
      cases h
    · exact Await.noConfusion
    · split
      · exact Await.noConfusion
      · exact Await.noConfusion

/-- A statement that acquires no row without a resource id ends well. -/
theorem ends_of_run {ws : List Write} {next : Await} (hres : Reserved cfg input s (.query env))
    (hover : s.await.isOver = false) (h : run cfg input env s.db s.await = .ok (ws, next)) : Ends s.db ws next := by
  have hacquiring : (∃ id, s.await = .reactivateFailed id ∨ s.await = .takeoverExpiredProcessing id) →
      Ends s.db ws next := by
    rintro ⟨id, ha⟩
    rcases run_acquiring ha with ⟨-, e, he⟩ | ⟨hl, ⟨-, hr⟩ | ⟨r, lease, hr, hget, hrun⟩⟩
    · rw [he] at h
      cases h
    · rw [hr] at h
      cases h
      exact .unchanged fun _ => Await.noConfusion
    · rw [hrun] at h
      cases h
      obtain ⟨d, hd⟩ := buildStartedDecision_reserved (r := r.acquired lease env.uuid env.dbNow) (hres hl r hr)
      rw [hd]
      exact .acquired (.updated hget (owned_of_ok rfl hd))
  cases ha : s.await with
  | findByScopeAndKey =>
    rw [ha] at h
    simp only [run] at h
    split at h
    · cases h
      exact .unchanged (ofDeciding_ne _)
    · cases h
      exact .unchanged fun _ => Await.noConfusion
  | findAfterConflict =>
    rw [ha] at h
    simp only [run] at h
    split at h
    · cases h
      exact .unchanged (ofDeciding_ne _)
    · cases h
      exact .unchanged fun _ => Await.noConfusion
  | tryInsertProcessing =>
    rw [ha] at h
    simp only [run] at h
    obtain ⟨inserted, hi, h⟩ := map_eq_ok h
    rcases IdempotencyDataAccess.tryInsertProcessing_ok hi with rfl | ⟨r, hadm, hfree, hget, rfl⟩
    · cases h
      exact .unchanged fun _ => Await.noConfusion
    · cases h
      obtain ⟨u, -, hu⟩ := hadm.resourceId
      obtain ⟨d, hd⟩ := buildStartedDecision_reserved (r := r) (by rw [hu]; rfl)
      simp only [hd]
      exact .acquired (.inserted hget hfree (owned_of_ok hadm.status hd))
  | reactivateFailed id => exact hacquiring ⟨id, .inl ha⟩
  | takeoverExpiredProcessing id => exact hacquiring ⟨id, .inr ha⟩
  | returned | threw =>
    rw [ha] at hover
    cases hover

/-- What holds of a call that has acquired no row without a resource id. -/
structure Inv (s : State) : Prop extends Settles s where
  running : s.await.isOver = false → s.changes = []

/-- The call has thrown, and has changed a row. -/
def Broken (s : State) : Prop := (∃ e, s.await = .threw e) ∧ s.changes ≠ []

theorem Broken.not_settles (h : Broken s) : ¬ Settles s := fun hs => by
  obtain ⟨⟨e, he⟩, hc⟩ := h
  exact hc (hs.threw e he)

theorem Inv.start (db : Db) : Inv (system cfg input db).init where
  threw := fun _ _ => rfl
  started := fun _ h => Await.noConfusion h
  running := fun _ => rfl

theorem Inv.step (h : Inv s) (hres : Reserved cfg input s a) (hs : s.step cfg input a = some s') : Inv s' := by
  cases a with
  | committed db =>
    cases hs
    exact ⟨⟨h.threw, h.started⟩, h.running⟩
  | queryError message =>
    obtain ⟨hover, hs⟩ := Option.ite_none_left_eq_some.1 hs
    cases hs
    have hc : s.changes = [] := h.running (Bool.not_eq_true _ ▸ hover)
    exact ⟨⟨fun _ _ => hc, fun _ hd => Await.noConfusion hd⟩, fun _ => hc⟩
  | query env =>
    obtain ⟨hover, hs⟩ := Option.ite_none_left_eq_some.1 hs
    have hover : s.await.isOver = false := Bool.not_eq_true _ ▸ hover
    have hc : s.changes = [] := h.running hover
    cases hrun : run cfg input env s.db s.await with
    | error e =>
      rw [hrun] at hs
      cases hs
      exact ⟨⟨fun _ _ => hc, fun _ hd => Await.noConfusion hd⟩, fun _ => hc⟩
    | ok o =>
      obtain ⟨ws, next⟩ := o
      rw [hrun] at hs
      cases hs
      cases ends_of_run hres hover hrun with
      | unchanged hne =>
        have hc' : s.changes ++ [] = [] := by rw [hc, List.append_nil]
        exact ⟨⟨fun _ _ => hc', fun d hd => absurd hd (hne d)⟩, fun _ => hc'⟩
      | @acquired d w hw =>
        refine ⟨⟨fun _ he => Await.noConfusion he, fun d' hd => ?_⟩, fun ho => Bool.noConfusion ho⟩
        injection hd with hd
        injection hd with hd
        subst hd
        exact ⟨s.db, w, by rw [hc]; rfl, hw⟩

/-- A step that acquires a row without a resource id. -/
theorem broken_of_unreserved (hres : ¬ Reserved cfg input s a) (hs : s.step cfg input a = some s') : Broken s' := by
  cases a with
  | committed db => exact absurd trivial hres
  | queryError message => exact absurd trivial hres
  | query env =>
    obtain ⟨hover, hs⟩ := Option.ite_none_left_eq_some.1 hs
    simp only [Reserved, not_forall] at hres
    obtain ⟨hl, r, hr, hnone⟩ := hres
    have ha : ∃ id, s.await = .reactivateFailed id ∨ s.await = .takeoverExpiredProcessing id := by
      unfold State.acquirable at hr
      split at hr
      · rename_i id ha
        exact ⟨id, .inl ha⟩
      · rename_i id ha
        exact ⟨id, .inr ha⟩
      · cases hr
    obtain ⟨id, ha⟩ := ha
    rcases run_acquiring ha with ⟨hn, -⟩ | ⟨-, ⟨hn, -⟩ | ⟨r', lease, hr', hget, hrun⟩⟩
    · rw [hn] at hl
      cases hl
    · rw [hn] at hr
      cases hr
    · obtain rfl : r' = r := Option.some.inj (hr'.symm.trans hr)
      have hmissing : buildStartedDecision (r'.acquired lease env.uuid env.dbNow) = .error resourceMissing :=
        buildStartedDecision_missing (Option.not_isSome_iff_eq_none.1 hnone)
      rw [hrun, hmissing] at hs
      cases hs
      exact ⟨⟨_, rfl⟩, List.append_ne_nil_of_right_ne_nil _ (List.cons_ne_nil _ _)⟩

/-- A call that has thrown makes no more statements. -/
theorem Broken.step (h : Broken s) (hs : s.step cfg input a = some s') : Broken s' := by
  obtain ⟨⟨e, he⟩, hc⟩ := h
  have hover : s.await.isOver = true := by rw [he]; rfl
  cases a with
  | committed db =>
    cases hs
    exact ⟨⟨e, he⟩, hc⟩
  | query env | queryError message =>
    simp only [State.step, hover, if_true] at hs
    cases hs

/-! ## Whole calls -/

/-- A call refuses without a change, and starts with a change of one row, exactly if it never acquires a row that has
no resource id. -/
theorem getExistingOrStart_settles {db : Db}
    (h : (system cfg input db).Trace System.anyStep (system cfg input db).init as s) :
    Settles s ↔ (system cfg input db).Trace (Reserved cfg input) (system cfg input db).init as s := by
  have hrun : ∀ {s0 as s}, (system cfg input db).Trace System.anyStep s0 as s → Inv s0 →
      (Settles s ↔ (system cfg input db).Trace (Reserved cfg input) s0 as s) := by
    intro s0 as s h
    induction h with
    | nil => exact fun hi => ⟨fun _ => .nil, fun _ => hi.toSettles⟩
    | @cons s0 s1 s a as _ hs htail ih =>
      intro hi
      by_cases hres : Reserved cfg input s0 a
      · rw [ih (hi.step hres hs)]
        constructor
        · exact fun ht => .cons hres hs ht
        · intro ht
          obtain ⟨s1', -, hs', ht⟩ := ht.head
          obtain rfl : s1' = s1 := Option.some.inj (hs'.symm.trans hs)
          exact ht
      · have hb : Broken s := htail.steps.invariant (broken_of_unreserved hres hs) fun _ _ _ hb _ hse => hb.step hse
        constructor
        · exact fun hset => absurd hset hb.not_settles
        · intro ht
          obtain ⟨_, hres', -, -⟩ := ht.head
          exact absurd hres' hres
  exact hrun h (Inv.start db)

end Runs

/-! ## A row without a resource id -/

namespace Sample

/-- A row that a failed request has left. -/
def failedRow (resourceId : Option Uuid) : IdempotencyRecord where
  id := .ofNat 1
  scope := "payments:create:merchant"
  idempotencyKey := "create-0001"
  requestHash := "hash"
  status := .failed
  resourceType := none
  resourceId := resourceId
  responseStatusCode := none
  responseBody := none
  createdAt := 0
  updatedAt := 0
  expiresAt := none
  processingExpiresAt := none
  processingToken := .ofNat 2

def table (resourceId : Option Uuid) : Db := { Db.empty with idempotency := ⟨[failedRow resourceId], by simp⟩ }

def input : Input := ⟨"payments:create:merchant", "create-0001", "hash", "payment", (Uuid.ofNat 3).uuidOut⟩

def loop (resourceId : Option Uuid) : System State Action :=
  system PaymentOrchestration.Sample.cfg input (table resourceId)

def env (n : Nat) : Env := ⟨1000 * n, 1000000 * n, .ofNat (10 + 2 * n), .ofNat (11 + 2 * n)⟩

/-- The call finds the row, and another caller commits before it acquires the row. -/
def retryRun (resourceId : Option Uuid) : List Action := [.query (env 1), .committed (table resourceId), .query (env 2)]

def error? : Await → Option Err
  | .threw e => some e
  | _ => none

def started? : Await → Option Started
  | .returned (.started d) => some d
  | _ => none

/-- The row is reactivated, and the call throws since it has no resource id. -/
def missing : State := ((loop none).runFrom (loop none).init (retryRun none)).get (by decide +kernel)

/-- The row is reactivated with its resource id. -/
def reserved : State :=
  ((loop (some (.ofNat 3))).runFrom (loop (some (.ofNat 3))).init (retryRun (some (.ofNat 3)))).get (by decide +kernel)

theorem missing_trace : (loop none).Trace System.anyStep (loop none).init (retryRun none) missing :=
  System.trace_of_runFrom _ (fun _ _ _ => trivial) (Option.some_get _).symm

theorem reserved_trace : (loop (some (.ofNat 3))).Trace System.anyStep (loop (some (.ofNat 3))).init
    (retryRun (some (.ofNat 3))) reserved :=
  System.trace_of_runFrom _ (fun _ _ _ => trivial) (Option.some_get _).symm

end Sample

/-- A row that has its resource id is reactivated. -/
theorem getExistingOrStart_settles_reserved :
    Sample.started? Sample.reserved.await = some ⟨.ofNat 1, .ofNat 3, (Sample.env 2).uuid⟩ ∧
      (Settles Sample.reserved ↔ (Sample.loop (some (.ofNat 3))).Trace
        (Reserved PaymentOrchestration.Sample.cfg Sample.input) (Sample.loop (some (.ofNat 3))).init
        (Sample.retryRun (some (.ofNat 3))) Sample.reserved) :=
  ⟨by decide +kernel, getExistingOrStart_settles Sample.reserved_trace⟩

/-- Not every refusal leaves the table unchanged. -/
theorem not_getExistingOrStart_settles : ¬ ∀ (cfg : Config) (input : Input) (db : Db) (as : List Action) (s : State),
    (system cfg input db).Trace System.anyStep (system cfg input db).init as s → Settles s := by
  intro h
  have herror : Sample.error? Sample.missing.await = some resourceMissing := by decide +kernel
  have hchanged : Sample.missing.changes.isEmpty = false := by decide +kernel
  have hs := h _ _ _ _ _ Sample.missing_trace
  cases ha : Sample.missing.await with
  | threw e =>
    rw [hs.threw e ha] at hchanged
    cases hchanged
  | _ =>
    rw [ha] at herror
    cases herror

end GetExistingOrStart

end PaymentOrchestration
