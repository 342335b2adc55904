/-
The running service refines the ledger: every step of it is a step of the committed tables, and the
only changes it makes are the ledger's transitions (`ledger_step`). The invariant that carries this
says, of each call, what its transaction has written so far and that the committed rows behind these
writes are still the ones it saw. They are, because it has locked them.
-/
import PaymentOrchestration.Steps

namespace PaymentOrchestration

open Lib IdempotencyService OutboxService PaymentsService

/-- The committed tables of a state. -/
def State.ledger (s : State) : Ledger := ⟨s.db, s.server.log, s.minted⟩

/-! ## The invariant -/

/-- The decision's record was begun for the command's request, and reserves the decision's resource. -/
def Owns (cfg : Config) (db : Db) (command : Command) (d : Started) : Prop :=
  ∃ r, db.idempotency.get? d.recordId = some r ∧ command.Matches cfg r ∧ r.resourceId = some d.resourceId

/-- The writes of a transaction that is ready to commit: those of the ledger's transition. -/
def Settles (cfg : Config) (db : Db) (command : Command) (d : Started) (body : Json String) (ws : List Write) : Prop :=
  ∃ p recording w env e r expiresAt now, Change db command d p recording w ∧
    Recorded recording env command.correlationId p e ∧ db.outbox.get? e.id = none ∧
    db.idempotency.get? r.id = some r ∧ command.Matches cfg r ∧ r.resourceId = some p.id ∧
    r.status = .processing ∧ r.id = d.recordId ∧ r.processingToken = d.processingToken ∧ body = toDto p ∧
    ws = [w, .insertOutbox e,
      .completeIdempotency (r.markedCompleted command.statusCode (toDto p).jsonb p.id expiresAt now)]

/-- The record of the command's request is completed with this answer. -/
def Answered (cfg : Config) (db : Db) (command : Command) (statusCode : Int) (body : Json String) : Prop :=
  ∃ r b, db.idempotency.get? r.id = some r ∧ command.Matches cfg r ∧ r.status = .completed ∧
    r.responseStatusCode = some statusCode ∧ r.responseBody = some b ∧ Json.Same b body

/-- What the open transaction of a call has written, by what the call awaits. Once its session is lost
there is none. -/
def TxInv (cfg : Config) (server : Server schema Session) (c : CallId) (command : Command) : Await → Prop
  | .findByScopeAndKey | .tryInsertProcessing | .findAfterConflict => server.pending (.tx c) = none
  | .reactivateFailed id | .takeoverExpiredProcessing id => server.pending (.tx c) = none ∧
      ∃ r, server.committed.idempotency.get? id = some r ∧ command.Matches cfg r
  | .authorize _ cmd => server.pending (.tx c) = none ∧ command = .create cmd
  | .insertPayment d record recording => server.pending (.tx c) = none ∧ ∃ cmd now authorization,
      command = .create cmd ∧ record = insertRecord cmd d now authorization ∧
      recording = createRecording authorization
  | .findByIdForUpdate _ paymentId => server.pending (.tx c) = none ∧
      ∃ cmd, command = .capture cmd ∧ paymentId = cmd.paymentId
  | .capture d payment provider input => (∃ cmd, command = .capture cmd) ∧
      beforeCapture cfg payment = .ok (provider, input) ∧
      ∀ ws, server.pending (.tx c) = some ws → ws = [] ∧ server.locks (.payment d.resourceId) = some (.tx c) ∧
        server.committed.payments.get? d.resourceId = some payment
  | .updateStatusIfAuthorized d input recording => ∃ cmd payment now captureResult, command = .capture cmd ∧
      input = updateInput payment now captureResult ∧ recording = captureRecording captureResult ∧
      ∀ ws, server.pending (.tx c) = some ws → ws = [] ∧ server.locks (.payment d.resourceId) = some (.tx c) ∧
        server.committed.payments.get? d.resourceId = some payment
  | .recordEvent d payment recording => ∀ ws, server.pending (.tx c) = some ws →
      ∃ w, ws = [w] ∧ Change server.committed command d payment recording w
  | .markCompleted d payment => ∀ ws, server.pending (.tx c) = some ws → ∃ recording w env e,
      ws = [w, .insertOutbox e] ∧ Change server.committed command d payment recording w ∧
      Recorded recording env command.correlationId payment e ∧ server.committed.outbox.get? e.id = none
  | .commit d body => ∀ ws, server.pending (.tx c) = some ws → Settles cfg server.committed command d body ws
  | .returned statusCode body => Answered cfg server.committed command statusCode body
  | .rollback .. | .markFailed .. | .refused _ | .failed .. | .crashed _ => True

/-- The call is past its transaction without an answer. -/
def Await.afterTransaction : Await → Bool
  | .markFailed .. | .failed .. | .crashed _ => true
  | _ => false

/-- What holds of each call of a reachable state. -/
structure CallInv (cfg : Config) (s : State) (c : CallId) (call : Call) : Prop where
  owns : ∀ d, call.await.started? = some d → Owns cfg s.db call.command d ∧ d.processingToken ∈ s.minted
  tx : TxInv cfg s.server c call.command call.await
  past : call.inDoubt = true → call.await.afterTransaction = true
  doubt : call.inDoubt = true → ∀ ws, s.server.pending (.tx c) = some ws →
    ∃ d body, call.await.started? = some d ∧ Settles cfg s.db call.command d body ws

/-- The call has not tried to begin a record yet. -/
def Await.beforeInsert : Await → Bool
  | .findByScopeAndKey | .tryInsertProcessing => true
  | _ => false

/-- The identifiers that calls of `create` offer to reserve are their own. -/
structure ReservedInv (s : State) : Prop where
  minted : ∀ c call, s.calls c = some call → call.command.kind = .create → ∃ u ∈ s.minted, call.resourceId = u.uuidOut
  own : ∀ c call c' call', s.calls c = some call → s.calls c' = some call' → call.command.kind = .create →
    call'.command.kind = .create → call.resourceId = call'.resourceId → c = c'
  capture : ∀ c call, s.calls c = some call → ∀ cmd, call.command = .capture cmd → call.resourceId = cmd.paymentId
  begun : ∀ r ∈ s.db.idempotency.rows, r.isOf .create = true → ∃ c call u, s.calls c = some call ∧
    call.command.kind = .create ∧ r.resourceId = some u ∧ call.resourceId = u.uuidOut ∧
    call.await.beforeInsert = false

/-- The invariant of the running service. -/
structure Inv (cfg : Config) (s : State) : Prop where
  ledger : Ledger.Reachable cfg s.ledger
  idle : ∀ c, s.calls c = none → s.server.pending (.tx c) = none
  calls : ∀ c call, s.calls c = some call → CallInv cfg s c call
  reserved : ReservedInv s

/-! ## Rows a transaction has locked -/

section Locked

variable {cfg : Config} {server server' : Server schema Session} {c : CallId} {command : Command} {d : Started}

theorem Change.id {db : Db} {p : PaymentRecord} {recording : Recording} {w : Write}
    (h : Change db command d p recording w) : p.id = d.resourceId := by
  cases h with
  | create _ hadm => exact hadm.id
  | capture _ hg _ hu => rw [hu.same.id]; exact Table.key_of_get? hg

theorem Change.key {db : Db} {p : PaymentRecord} {recording : Recording} {w : Write}
    (h : Change db command d p recording w) : w.key = .payment p.id := by
  cases h <;> rfl

/-- A change stays the same change of the tables while the payment's row does not change. -/
theorem Change.of_row {db db' : Db} {p : PaymentRecord} {recording : Recording} {w : Write}
    (h : Change db command d p recording w)
    (hrow : db'.payments.get? d.resourceId = db.payments.get? d.resourceId) : Change db' command d p recording w := by
  have hid := h.id
  cases h with
  | create hcmd hadm hn => exact .create hcmd hadm (by rw [hid, hrow, ← hid]; exact hn)
  | capture hcmd hg hs hu => exact .capture hcmd (by rw [hrow]; exact hg) hs hu

variable (hu : Server.Undisturbed (.tx c) server server')

include hu

theorem payment_undisturbed {id : Uuid} (h : server.locks (.payment id) = some (.tx c)) :
    server'.committed.payments.get? id = server.committed.payments.get? id :=
  hu.row (.payment id) h

theorem outbox_undisturbed {id : Uuid} (h : server.locks (.outbox id) = some (.tx c)) :
    server'.committed.outbox.get? id = server.committed.outbox.get? id :=
  hu.row (.outbox id) h

theorem record_undisturbed {id : Uuid} (h : server.locks (.idempotency id) = some (.tx c)) :
    server'.committed.idempotency.get? id = server.committed.idempotency.get? id :=
  hu.row (.idempotency id) h

theorem Change.undisturbed {p : PaymentRecord} {recording : Recording} {w : Write} {ws : List Write}
    (h : Change server.committed command d p recording w) (hp : server.pending (.tx c) = some ws) (hw : w ∈ ws) :
    Change server'.committed command d p recording w := by
  have hlock := server.locked _ _ hp w hw
  rw [show schema.key w = .payment p.id from h.key, h.id] at hlock
  exact h.of_row (payment_undisturbed hu hlock)

theorem Settles.undisturbed {body : Json String} {ws : List Write}
    (h : Settles cfg server.committed command d body ws) (hp : server.pending (.tx c) = some ws) :
    Settles cfg server'.committed command d body ws := by
  obtain ⟨p, recording, w, env, e, r, expiresAt, now, hc, hrec, he, hr, hm, hres, hs, hid, htok, hbody, rfl⟩ := h
  have hlock := server.locked _ _ hp
  have hrlock := hlock (.completeIdempotency (r.markedCompleted command.statusCode (toDto p).jsonb p.id expiresAt now))
    (by simp)
  refine ⟨p, recording, w, env, e, r, expiresAt, now, hc.undisturbed hu hp List.mem_cons_self, hrec, ?_, ?_, hm, hres,
    hs, hid, htok, hbody, rfl⟩
  · rw [outbox_undisturbed hu (hlock (.insertOutbox e) (by simp))]; exact he
  · exact (record_undisturbed hu hrlock : server'.committed.idempotency.get? r.id = _).trans hr

end Locked

/-! ## What lasts -/

theorem Owns.evolves {cfg : Config} {l l' : Ledger} {command : Command} {d : Started} (he : l.Evolves l')
    (h : Owns cfg l.db command d) : Owns cfg l'.db command d := by
  obtain ⟨r, hr, hm, hres⟩ := h
  obtain ⟨r', hr', hs, -, -⟩ := he.record _ _ hr
  exact ⟨r', hr', hm.of_same hs, by rw [hs.resourceId]; exact hres⟩

theorem Answered.evolves {cfg : Config} {l l' : Ledger} {command : Command} {statusCode : Int} {body : Json String}
    (he : l.Evolves l') (h : Answered cfg l.db command statusCode body) :
    Answered cfg l'.db command statusCode body := by
  obtain ⟨r, b, hr, hm, hs, hcode, hb, hsame⟩ := h
  obtain ⟨r', hr', -, hc, -⟩ := he.record _ _ hr
  obtain rfl := hc hs
  exact ⟨r', b, hr', hm, hs, hcode, hb, hsame⟩

/-- What a call's transaction has written stays right while other calls go on. -/
theorem TxInv.undisturbed {cfg : Config} {s s' : State} {c : CallId} {command : Command} {a : Await}
    (hu : Server.Undisturbed (.tx c) s.server s'.server) (he : s.ledger.Evolves s'.ledger)
    (h : TxInv cfg s.server c command a) : TxInv cfg s'.server c command a := by
  have hp := hu.pending
  cases a with
  | findByScopeAndKey | tryInsertProcessing | findAfterConflict => exact hp.trans h
  | reactivateFailed id | takeoverExpiredProcessing id =>
    obtain ⟨h1, r, hr, hm⟩ := h
    obtain ⟨r', hr', hs, -, -⟩ := he.record _ _ hr
    exact ⟨hp.trans h1, r', hr', hm.of_same hs⟩
  | authorize | insertPayment | findByIdForUpdate => exact ⟨hp.trans h.1, h.2⟩
  | capture d payment provider input =>
    refine ⟨h.1, h.2.1, fun ws hws => ?_⟩
    obtain ⟨h1, h2, h3⟩ := h.2.2 ws (hp.symm.trans hws)
    exact ⟨h1, hu.locks _ h2, (payment_undisturbed hu h2).trans h3⟩
  | updateStatusIfAuthorized d input recording =>
    obtain ⟨cmd, payment, now, captureResult, hcmd, hin, hrec, htx⟩ := h
    refine ⟨cmd, payment, now, captureResult, hcmd, hin, hrec, fun ws hws => ?_⟩
    obtain ⟨h1, h2, h3⟩ := htx ws (hp.symm.trans hws)
    exact ⟨h1, hu.locks _ h2, (payment_undisturbed hu h2).trans h3⟩
  | recordEvent d payment recording =>
    intro ws hws
    have hws := hp.symm.trans hws
    obtain ⟨w, rfl, hc⟩ := h ws hws
    exact ⟨w, rfl, hc.undisturbed hu hws List.mem_cons_self⟩
  | markCompleted d payment =>
    intro ws hws
    have hws := hp.symm.trans hws
    obtain ⟨recording, w, env, e, rfl, hc, hrec, hn⟩ := h ws hws
    refine ⟨recording, w, env, e, rfl, hc.undisturbed hu hws List.mem_cons_self, hrec, ?_⟩
    rw [outbox_undisturbed hu (s.server.locked _ _ hws (.insertOutbox e) (by simp))]; exact hn
  | commit d body =>
    intro ws hws
    have hws := hp.symm.trans hws
    exact (h ws hws).undisturbed hu hws
  | returned statusCode body => exact Answered.evolves he h
  | rollback | markFailed | refused | failed | crashed => trivial

theorem CallInv.undisturbed {cfg : Config} {s s' : State} {c : CallId} {call : Call}
    (hu : Server.Undisturbed (.tx c) s.server s'.server) (he : s.ledger.Evolves s'.ledger)
    (h : CallInv cfg s c call) : CallInv cfg s' c call where
  owns d hd := ⟨(h.owns d hd).1.evolves he, he.minted _ (h.owns d hd).2⟩
  tx := h.tx.undisturbed hu he
  past := h.past
  doubt hdoubt ws hws := by
    have hws := hu.pending.symm.trans hws
    obtain ⟨d, body, hd, hset⟩ := h.doubt hdoubt ws hws
    exact ⟨d, body, hd, hset.undisturbed hu hws⟩

/-! ## A step of the service is a step of the ledger -/

/-- The committed tables after the transaction of a call has committed. -/
theorem Settles.transition {cfg : Config} {l : Ledger} {command : Command} {d : Started} {body : Json String}
    {ws : List Write} (h : Settles cfg l.db command d body ws) : Transition cfg l ws := by
  obtain ⟨p, recording, w, env, e, r, expiresAt, now, hc, hrec, he, hr, hm, hres, hs, hid, htok, -, rfl⟩ := h
  exact .settled hc hrec he hr hm hres hs hid htok

theorem Settles.issued {cfg : Config} {db : Db} {command : Command} {d : Started} {body : Json String}
    {ws : List Write} (h : Settles cfg db command d body ws) : ∀ w ∈ ws, w.issued? = none := by
  obtain ⟨p, recording, w, env, e, r, expiresAt, now, hc, -, -, -, -, -, -, -, -, -, rfl⟩ := h
  simp only [List.mem_cons, List.not_mem_nil, or_false, forall_eq_or_imp, forall_eq]
  exact ⟨by cases hc <;> rfl, rfl, rfl⟩

section Step

variable {cfg : Config} {s s' : State} {a : Action} {c : CallId} {call : Call}

/-- What a call's transaction is about to commit, when it can. -/
theorem Inv.settles (hi : Inv cfg s) (hc : s.calls c = some call)
    (hcommit : (∃ d body, call.await = .commit d body) ∨ call.inDoubt = true) {ws : List Write}
    (hws : s.server.pending (.tx c) = some ws) : ∃ d body, call.await.started? = some d ∧
      Settles cfg s.db call.command d body ws := by
  have hcall := hi.calls c call hc
  rcases hcommit with ⟨d, body, hawait⟩ | hdoubt
  · have htx := hcall.tx
    rw [hawait] at htx
    exact ⟨d, body, by rw [hawait]; rfl, htx ws hws⟩
  · exact hcall.doubt hdoubt ws hws

theorem ledger_step_of_commit (hi : Inv cfg s) (hc : s.calls c = some call)
    (hcommit : (∃ d body, call.await = .commit d body) ∨ call.inDoubt = true)
    (hopen : (s.server.pending (.tx c)).isSome = true) {l' : Ledger} (hdb : l'.db = (s.server.commit (.tx c)).committed)
    (hlog : l'.log = (s.server.commit (.tx c)).log) (hmint : ∀ u ∈ s.minted, u ∈ l'.minted) :
    Ledger.Step cfg s.ledger l' := by
  obtain ⟨ws, hws⟩ := Option.isSome_iff_exists.1 hopen
  obtain ⟨d, body, -, hset⟩ := hi.settles hc hcommit hws
  refine ⟨hmint, .inr ⟨.tx c, ws, hset.transition, ?_, ?_, ?_⟩⟩
  · rw [hdb, Server.commit_committed hws]; rfl
  · rw [hlog, Server.commit_log hws]; rfl
  · intro w hw u hu
    rw [hset.issued w hw] at hu; cases hu

/-- What a statement outside a transaction writes is a transition of the ledger. -/
theorem Inv.pool_transition {env : Env} {o : Outcome} (hi : Inv cfg s) (hc : s.calls c = some call)
    (hfresh : s.fresh env = true) (hmode : call.await.mode = .pool) (hran : Ran cfg env s.db call call.await o) :
    o.writes = [] ∨ Transition cfg s.ledger o.writes ∧ ∀ w ∈ o.writes, ∀ u, w.issued? = some u → u = env.uuid := by
  simp only [State.fresh, decide_eq_true_eq] at hfresh
  generalize hawait : call.await = aw at hran hmode
  cases hran with
  | replayed | refused | toInsert | toReactivate | toTakeover | conflict | idle => exact .inl rfl
  | insertedPayment | noPayment | lockedPayment | updatedPayment | notUpdated | recorded | completed | committed
  | rolledBack => simp [Await.mode] at hmode
  | @inserted r resourceId hadm hfind hn hres =>
    refine .inr ⟨.begun hadm hfind hn hfresh.1 (hi.reserved.capture c call hc) ?_, ?_⟩
    · intro hkind r' hr' hcreate heq
      obtain ⟨c', call', u, hc', hkind', hu, hres', hbefore⟩ := hi.reserved.begun r' hr' hcreate
      obtain ⟨u', -, hoffer⟩ := hi.reserved.minted c call hc hkind
      obtain ⟨v, hv, hrv⟩ := hadm.resourceId
      have hv' : Uuid.uuidIn call.resourceId = some v := hv
      rw [hoffer, Uuid.uuidIn_uuidOut] at hv'
      have huv : u = u' := by
        rw [hu, hrv, ← hv'] at heq; exact Option.some.inj heq
      obtain rfl : c' = c := hi.reserved.own c' call' c call hc' hc hkind' hkind (by rw [hres', hoffer, huv])
      rw [hc] at hc'
      obtain rfl := Option.some.inj hc'
      rw [hawait] at hbefore; cases hbefore
    · simp only [List.mem_singleton, forall_eq]
      intro u hu
      rw [← Option.some.inj hu, hadm.processingToken]; rfl
  | @acquired _ id r lease hor hg _ =>
    have hid := Table.key_of_get? hg
    refine .inr ⟨.acquired (by rw [hid]; exact hg) ?_ hfresh.1, ?_⟩
    · rcases hor with ⟨-, hs⟩ | ⟨-, hs⟩ <;> rw [hs] <;> decide
    · simp only [List.mem_singleton, forall_eq]
      exact fun u hu => (Option.some.inj hu).symm
  | @markedFailed d error r expiresAt hg hst _ =>
    have hid := Table.key_of_get? hg
    refine .inr ⟨.failed (by rw [hid]; exact hg) hst, ?_⟩
    simp only [List.mem_singleton, forall_eq]
    exact fun u hu => by cases hu

theorem opened_committed (s : State) (c : CallId) (mode : Mode) :
    (s.opened c mode).committed = s.server.committed ∧ (s.opened c mode).log = s.server.log := by
  unfold State.opened; split <;> simp

theorem abandon_committed (server : Server schema Session) (c : CallId) (mode : Mode) :
    (State.abandon server c mode).committed = server.committed ∧ (State.abandon server c mode).log = server.log := by
  unfold State.abandon; split <;> simp

/-- A step of the service is a step of the ledger. -/
theorem ledger_step (hi : Inv cfg s) (h : StepCase cfg s a s') : Ledger.Step cfg s.ledger s'.ledger := by
  have hmint := h.minted
  have hsame : s'.server.committed = s.server.committed → s'.server.log = s.server.log →
      Ledger.Step cfg s.ledger s'.ledger := fun hdb hlog => ⟨hmint, .inl ⟨hdb, hlog⟩⟩
  cases h with
  | started | answered | commitLost | crashed => exact hsame rfl rfl
  | @pool _ c env call o next server hc hfresh hmode hrun hs _ =>
    obtain ⟨-, hdb, hlog, -, -⟩ := Server.autocommit_eq_some hs
    rcases hi.pool_transition hc hfresh hmode (ran_of_run hrun) with hnone | ⟨htr, hiss⟩
    · rw [hnone] at hdb hlog
      exact hsame hdb (by rw [show (s.moved c call next server _).server.log = server.log from rfl, hlog]; simp)
    · exact ⟨hmint, .inr ⟨.pool c, o.writes, htr, hdb, hlog, fun w hw u hu => by
        rw [hiss w hw u hu]; exact List.mem_cons_self⟩⟩
  | @staged c env call o server _ _ hmode _ hs =>
    obtain ⟨ws₀, -, -, hdb, hlog, -, -⟩ := Server.stage_eq_some hs
    have hopened := opened_committed s c call.await.mode
    exact hsame (hdb.trans hopened.1) (hlog.trans hopened.2)
  | @committed c env call d body hc hawait hopen =>
    exact ledger_step_of_commit hi hc (.inl ⟨d, body, hawait⟩) hopen rfl rfl hmint
  | @lateCommit c call hc hdoubt hopen => exact ledger_step_of_commit hi hc (.inr hdoubt) hopen rfl rfl hmint
  | rolledBack | sessionLost => exact hsame (Server.rollback_committed) (Server.rollback_log)
  | @rejected _ c call =>
    have habandon := abandon_committed s.server c call.await.mode
    exact hsame habandon.1 habandon.2

end Step

end PaymentOrchestration
