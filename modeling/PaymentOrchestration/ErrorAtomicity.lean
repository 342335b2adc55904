/-
What a rejected call leaves behind: nothing in payments and outbox_events, a FAILED record if it still
owned it, and the error it failed with. The law is one for `create` and `capture`, and holds at every
point a call can fail at once it has started.
-/
import PaymentOrchestration.Ownership
import PaymentOrchestration.Replay

namespace PaymentOrchestration

open Lib IdempotencyService OutboxService PaymentsService

/-! ## What a call has written -/

/-- What the history holds of the calls: a transaction's writes only of calls that have returned or are
in doubt, and no payment or event outside a transaction. -/
structure HistoryInv (s : State) : Prop where
  tx : ∀ c w, (Session.tx c, w) ∈ s.server.log → ∃ call, s.calls c = some call ∧
    (call.inDoubt = true ∨ ∃ statusCode body, call.await = .returned statusCode body)
  pool : ∀ c w, (Session.pool c, w) ∈ s.server.log → w.isBusiness = false

section History

variable {cfg : Config} {s s' : State} {a : Action} {c : CallId} {call : Call} {ok : State → Action → Prop}

/-- A call whose transaction is committed has returned or is in doubt. -/
theorem StepCase.committer (h : StepCase cfg s a s') {c : CallId} {ws : List Write} (hne : ws ≠ [])
    (hlog : s'.server.log = s.server.log ++ ws.map (.tx c, ·)) : ∃ call, s'.calls c = some call ∧
      (call.inDoubt = true ∨ ∃ statusCode body, call.await = .returned statusCode body) := by
  have hsilent : s'.server.log = s.server.log → False := by
    intro hsame
    rw [hsame] at hlog
    exact hne (List.map_eq_nil_iff.1 (List.self_eq_append_right.1 hlog))
  have hcommit : ∀ {c' : CallId} {ws'}, s.server.pending (.tx c') = some ws' →
      s'.server.log = (s.server.commit (.tx c')).log → c = c' := by
    intro c' ws' hws hl
    rw [Server.commit_log hws] at hl
    rw [hl] at hlog
    have hmap := List.append_cancel_left hlog
    obtain ⟨w, ws₁, rfl⟩ := List.exists_cons_of_ne_nil hne
    have hmem : (Session.tx c, w) ∈ ws'.map (Session.tx c', ·) := by rw [hmap]; exact List.mem_cons_self
    obtain ⟨_, -, he⟩ := List.mem_map.1 hmem
    exact (Session.tx.inj (Prod.mk.inj he).1).symm
  cases h with
  | started | answered | commitLost | crashed => exact (hsilent rfl).elim
  | rolledBack | sessionLost => exact (hsilent Server.rollback_log).elim
  | rejected => exact (hsilent (abandon_committed ..).2).elim
  | staged _ _ _ _ hs =>
    obtain ⟨-, -, -, -, hl, -⟩ := Server.stage_eq_some hs
    exact (hsilent (hl.trans (opened_committed ..).2)).elim
  | @pool a c' _ _ o _ server _ _ _ _ hs =>
    obtain ⟨-, -, hl, -⟩ := Server.autocommit_eq_some hs
    have hl : server.log = s.server.log ++ o.writes.map (.pool c', ·) := hl
    change server.log = _ at hlog
    rw [hl] at hlog
    have hmap := List.append_cancel_left hlog
    obtain ⟨w, ws₁, rfl⟩ := List.exists_cons_of_ne_nil hne
    have hmem : (Session.tx c, w) ∈ o.writes.map (Session.pool c', ·) := by rw [hmap]; exact List.mem_cons_self
    obtain ⟨_, -, he⟩ := List.mem_map.1 hmem
    exact nomatch (Prod.mk.inj he).1
  | @committed c' _ call _ _ hc _ hopen =>
    obtain ⟨ws', hws⟩ := Option.isSome_iff_exists.1 hopen
    obtain rfl := hcommit hws rfl
    exact ⟨_, Function.update_self .., .inr ⟨_, _, rfl⟩⟩
  | @lateCommit c' call hc hdoubt hopen =>
    obtain ⟨ws', hws⟩ := Option.isSome_iff_exists.1 hopen
    obtain rfl := hcommit hws rfl
    exact ⟨call, hc, .inl hdoubt⟩

/-- A call that has not returned and is not in doubt has written no payment and no event. -/
theorem HistoryInv.noEffect (hh : HistoryInv s) (hc : s.calls c = some call) (hdoubt : call.inDoubt = false)
    (hret : ∀ statusCode body, call.await ≠ .returned statusCode body) :
    ∀ e ∈ s.server.log, e.1 = .tx c ∨ e.1 = .pool c → e.2.isBusiness = false := by
  rintro ⟨t, w⟩ hw (rfl | rfl)
  · obtain ⟨call', hc', hor⟩ := hh.tx c w hw
    obtain rfl := Option.some.inj (hc.symm.trans hc')
    rcases hor with hor | ⟨statusCode, body, hor⟩
    · rw [hdoubt] at hor; cases hor
    · exact absurd hor (hret _ _)
  · exact hh.pool c w hw

theorem HistoryInv.step (hi : Inv cfg s) (hh : HistoryInv s) (h : StepCase cfg s a s') : HistoryInv s' := by
  -- what was in the history stays as it was
  have hold : ∀ c w, (Session.tx c, w) ∈ s.server.log → ∃ call, s'.calls c = some call ∧
      (call.inDoubt = true ∨ ∃ statusCode body, call.await = .returned statusCode body) := by
    intro c w hw
    obtain ⟨call, hc, hor⟩ := hh.tx c w hw
    obtain ⟨call', hc', hk⟩ := h.call_kept hc
    refine ⟨call', hc', hor.imp hk.inDoubt ?_⟩
    rintro ⟨statusCode, body, hret⟩
    exact ⟨statusCode, body, (hk.advances.returned _ _ hret).trans hret⟩
  cases log_cases hi h with
  | silent _ hlog => exact ⟨by rw [hlog]; exact hold, by rw [hlog]; exact hh.pool⟩
  | @pool env call o hc _ hmode hran _ hlog =>
    have hbusiness := hran.pool_writes hmode
    constructor
    · intro c w hw
      rw [hlog] at hw
      rcases List.mem_append.1 hw with hw | hw
      · exact hold c w hw
      · obtain ⟨_, -, he⟩ := List.mem_map.1 hw
        cases he
    · intro c w hw
      rw [hlog] at hw
      rcases List.mem_append.1 hw with hw | hw
      · exact hh.pool c w hw
      · obtain ⟨w', hw', he⟩ := List.mem_map.1 hw
        cases he
        exact hbusiness _ hw'
  | @commit call d body ws hc hd hset _ hlog =>
    constructor
    · intro c w hw
      rw [hlog] at hw
      rcases List.mem_append.1 hw with hw | hw
      · exact hold c w hw
      · obtain ⟨w', hw', he⟩ := List.mem_map.1 hw
        cases he
        exact h.committer (List.ne_nil_of_mem hw') hlog
    · intro c w hw
      rw [hlog] at hw
      rcases List.mem_append.1 hw with hw | hw
      · exact hh.pool c w hw
      · obtain ⟨w', hw', he⟩ := List.mem_map.1 hw
        cases he

theorem history_of_reach (h : (service cfg).Reach ok s) : HistoryInv s :=
  reach_induction h ⟨(fun _ _ hw => nomatch hw), (fun _ _ hw => nomatch hw)⟩ fun _ _ _ hi hh _ hs => hh.step hi hs

end History

/-! ## Locks on records -/

/-- A record is locked by a transaction only, and is PROCESSING as long as it is. -/
structure LockInv (s : State) : Prop where
  pool : ∀ c, s.server.pending (.pool c) = none
  record : ∀ id t, s.server.locks (.idempotency id) = some t →
    ∃ r, s.db.idempotency.get? id = some r ∧ r.status = .processing

section Locks

variable {cfg : Config} {s s' : State} {a : Action} {ok : State → Action → Prop}

theorem StepCase.pool_pending (h : StepCase cfg s a s') (c : CallId) :
    s'.server.pending (.pool c) = s.server.pending (.pool c) := by
  have hne : ∀ c', Session.pool c ≠ Session.tx c' := fun _ => nofun
  cases h with
  | started | answered | commitLost | crashed => rfl
  | pool _ _ _ _ hs =>
    obtain ⟨-, -, -, -, hp⟩ := Server.autocommit_eq_some hs
    exact congrFun hp _
  | staged _ _ _ _ hs => exact ((opened_undisturbed (hne _)).trans (.of_stage (hne _) hs)).pending
  | committed | lateCommit => exact (Server.Undisturbed.of_commit (hne _)).pending
  | rolledBack | sessionLost => exact (Server.Undisturbed.of_rollback (hne _)).pending
  | rejected => exact (abandon_undisturbed (hne _)).pending

/-- A lock that is held after a step was held before it over the same row, or the step's own statement
has taken it. -/
theorem StepCase.lock_origin (hl : LockInv s) (h : StepCase cfg s a s') {k : RowKey} {t : Session}
    (hk : s'.server.locks k = some t) :
    (s.server.locks k = some t ∧ schema.row k s'.db = schema.row k s.db) ∨
    t = .tx a.call ∧ ∃ env call o, s.calls a.call = some call ∧ s'.db = s.db ∧ Ran cfg env s.db call call.await o ∧
      (call.await.mode = .opening ∨ call.await.mode = .inside) ∧ k ∈ o.writes.map Write.key ++ o.locks := by
  have htx : ∀ {t}, s.server.locks k = some t → ∀ c, t ≠ .pool c := by
    rintro t hlock c rfl
    have := s.server.isOpen _ _ hlock
    rw [hl.pool c] at this; cases this
  cases h with
  | started | answered | commitLost | crashed => exact .inl ⟨hk, rfl⟩
  | pool _ _ _ _ hs =>
    obtain ⟨-, -, -, hlocks, -⟩ := Server.autocommit_eq_some hs
    have hk' : s.server.locks k = some t := by rw [← hlocks]; exact hk
    exact .inl ⟨hk', (Server.Undisturbed.of_autocommit (htx hk' _) hs).row k hk'⟩
  | @staged c env call o server hc _ hmode hrun hs =>
    obtain ⟨ws₀, -, -, hdb, -, -, hlocks⟩ := Server.stage_eq_some hs
    have hdb' : server.committed = s.server.committed := hdb.trans (opened_committed ..).1
    have hk' : server.locks k = some t := hk
    rw [hlocks] at hk'
    simp only at hk'
    split at hk'
    · rename_i hmem
      exact .inr ⟨(Option.some.inj hk').symm, env, call, o, hc, hdb', ran_of_run hrun, hmode, hmem⟩
    · have hopened : (s.opened c call.await.mode).locks = s.server.locks := by
        unfold State.opened; split <;> simp
      rw [hopened] at hk'
      exact .inl ⟨hk', by rw [State.db, State.moved, hdb']⟩
  | @committed c | @lateCommit c =>
    have hk' : (s.server.commit (.tx c)).locks k = some t := hk
    rw [Server.commit_locks] at hk'
    split at hk'
    · cases hk'
    · rename_i hne
      have ht : t ≠ .tx c := by rintro rfl; exact hne hk'
      exact .inl ⟨hk', (Server.Undisturbed.of_commit ht).row k hk'⟩
  | @rolledBack c | @sessionLost c =>
    have hk' : (s.server.rollback (.tx c)).locks k = some t := hk
    rw [Server.rollback_locks] at hk'
    split at hk'
    · cases hk'
    · exact .inl ⟨hk', by rw [State.db]; exact congrArg _ Server.rollback_committed⟩
  | @rejected _ c call =>
    have hk' : (State.abandon s.server c call.await.mode).locks k = some t := hk
    refine .inl ⟨?_, congrArg _ (abandon_committed ..).1⟩
    unfold State.abandon at hk'
    split at hk'
    · rw [Server.rollback_locks] at hk'
      split at hk'
      · cases hk'
      · exact hk'
    · rw [Server.rollback_locks] at hk'
      split at hk'
      · cases hk'
      · exact hk'
    all_goals exact hk'

theorem LockInv.step (hl : LockInv s) (h : StepCase cfg s a s') : LockInv s' where
  pool c := (h.pool_pending c).trans (hl.pool c)
  record id t hk := by
    rcases h.lock_origin hl hk with ⟨hk', hrow⟩ | ⟨-, env, call, o, -, hdb, hran, hmode, hmem⟩
    · obtain ⟨r, hr, hs⟩ := hl.record id t hk'
      exact ⟨r, hrow.trans hr, hs⟩
    · -- the only record a transaction writes is the one it completes
      rw [hdb]
      generalize call.await = aw at hran hmode
      cases hran with
      | @completed d payment r expiresAt hg hs _ =>
        have hid : id = r.id := by simpa [Write.key, IdempotencyRecord.markedCompleted] using hmem
        refine ⟨r, ?_, hs⟩
        rw [hid, Table.key_of_get? hg]; exact hg
      | inserted | markedFailed => simp [Await.mode] at hmode
      | acquired hor => rcases hor with ⟨rfl, -⟩ | ⟨rfl, -⟩ <;> simp [Await.mode] at hmode
      | _ => simp [Write.key] at hmem

theorem lock_of_reach (h : (service cfg).Reach ok s) : LockInv s :=
  reach_induction h ⟨fun _ => rfl, (fun _ _ hk => nomatch hk)⟩ fun _ _ _ _ hl _ hs => hl.step hs

end Locks

/-! ## The error of a failing call -/

/-- The error a call's `catch` block was or will be entered with. -/
def Await.error? : Await → Option Err
  | .rollback _ e | .markFailed _ e | .failed _ e _ => some e
  | .crashed last => last.error?
  | _ => none

/-- How the step of the call `c` under the decision `d` fails, and the error its `catch` block is entered
with. -/
inductive Fails (cfg : Config) (s : State) (c : CallId) (call : Call) (d : Started) : Action → Err → Prop
  | statement {env e} : call.await.mode ≠ .idle → call.run cfg env s.db = .error e →
      Fails cfg s c call d (.query c env) e
  | unanswered {m} : call.await.mode ≠ .idle → Fails cfg s c call d (.queryError c m) (.other m)
  | authorize {command now e} : call.await = .authorize d command →
      Fails cfg s c call d (.provider c now (.threw e)) e
  | capture {payment provider input now e} : call.await = .capture d payment provider input →
      Fails cfg s c call d (.provider c now (.threw e)) e
  | commitUnknown {body m} : call.await = .commit d body → Fails cfg s c call d (.commitLost c m) (.other m)
  | noPayment {env paymentId id} : call.await = .findByIdForUpdate d paymentId → Uuid.uuidIn paymentId = some id →
      s.db.payments.get? id = none → Fails cfg s c call d (.query c env) paymentNotFound
  /-- The state check, the provider lookup, or the check of the provider reference. -/
  | check {env paymentId id p e} : call.await = .findByIdForUpdate d paymentId → Uuid.uuidIn paymentId = some id →
      s.db.payments.get? id = some p → beforeCapture cfg p = .error e → Fails cfg s c call d (.query c env) e
  /-- The conditional UPDATE finds no AUTHORIZED row. -/
  | notUpdated {env input recording} : call.await = .updateStatusIfAuthorized d input recording →
      PaymentsDataAccess.updateStatusIfAuthorized s.db input env.dbNow = .ok ⟨none, []⟩ →
      Fails cfg s c call d (.query c env) paymentNotCapturable

/-- The write of `markFailed` at the step that rejects the call `c` of the decision `d`, and the error
the call rejects with. -/
inductive Cleanup (cfg : Config) (s s' : State) (a : Action) (c : CallId) (d : Started) (error : Err) : Err → Prop
  /-- The caller still owned the record, and the write took effect. -/
  | failed {r expiresAt now} : s.OwnedBy d.recordId d.processingToken → s.db.idempotency.get? d.recordId = some r →
      r.processingToken = d.processingToken →
      s'.db = { s.db with idempotency := s.db.idempotency.put (r.markedFailed expiresAt now) } →
      Cleanup cfg s s' a c d error error
  /-- Another owner has the record, or has completed or failed it: the statement finds no row. -/
  | lost {env} : a = .query c env →
      IdempotencyDataAccess.markFailed s.db d.recordId (buildExpiresAt cfg.failedTtlMs env.now) d.processingToken
        env.dbNow = .ok ⟨none, []⟩ →
      ¬ s.OwnedBy d.recordId d.processingToken → s'.db = s.db → Cleanup cfg s s' a c d error ownershipLost
  /-- The statement itself failed. -/
  | refused {env e} : a = .query c env →
      IdempotencyDataAccess.markFailed s.db d.recordId (buildExpiresAt cfg.failedTtlMs env.now) d.processingToken
        env.dbNow = .error e → s'.db = s.db → Cleanup cfg s s' a c d error error
  | unanswered {m} : a = .queryError c m → s'.db = s.db → Cleanup cfg s s' a c d error error

/-- The step `a` from `s` executes the statement of `markFailed` of the call `c`, which does not own the
record of its decision `d`. -/
def LosesRecord (cfg : Config) (s : State) (a : Action) (c : CallId) (d : Started) : Prop :=
  (∃ env ans, a = .query c env ∧ IdempotencyDataAccess.markFailed s.db d.recordId
    (buildExpiresAt cfg.failedTtlMs env.now) d.processingToken env.dbNow = .ok ans) ∧
  ¬ s.OwnedBy d.recordId d.processingToken

section Errors

variable {cfg : Config} {s s' : State} {a : Action} {c : CallId} {call call' : Call}
  {d : Started} {error rejection e : Err}

theorem markFailed_statement_error {db : Db} {id token : Uuid} {t : Option Millis} {now : Timestamp}
    (h : IdempotencyDataAccess.markFailed db id t token now = .error e) : ∃ m, e = .other m := by
  unfold IdempotencyDataAccess.markFailed at h
  cases t with
  | none => cases h; exact ⟨_, rfl⟩
  | some t => cases h

/-- Why `markFailed` throws: its statement failed, or the caller does not own the record. -/
theorem markFailed_error {env : Env} {db : Db} {id token : Uuid}
    (h : IdempotencyService.markFailed cfg env db id token = .error e) :
    IdempotencyDataAccess.markFailed db id (buildExpiresAt cfg.failedTtlMs env.now) token env.dbNow = .error e ∨
    e = ownershipLost ∧
      IdempotencyDataAccess.markFailed db id (buildExpiresAt cfg.failedTtlMs env.now) token env.dbNow = .ok ⟨none, []⟩ ∧
      ∀ r, db.idempotency.get? id = some r → ¬ (r.status = .processing ∧ r.processingToken = token) := by
  unfold IdempotencyService.markFailed requireOwned at h
  split at h
  · rename_i hs; cases h; exact .inl hs
  · cases h
  · rename_i ws hs
    cases h
    rw [hs]
    unfold IdempotencyDataAccess.markFailed at hs
    obtain ⟨expiresAt, -, hs⟩ := ok_of_bind hs
    have hs := Except.ok.inj hs
    unfold IdempotencyDataAccess.updateWhere at hs
    split at hs
    · rename_i r hr
      split at hs
      · cases hs
      · rename_i hcond
        cases hs
        refine .inr ⟨rfl, rfl, fun r' hr' hown => hcond ?_⟩
        rw [← Option.some.inj (hr.symm.trans hr')] at hown
        exact decide_eq_true hown
    · rename_i hn
      cases hs
      refine .inr ⟨rfl, rfl, fun r hr => ?_⟩
      rw [hn] at hr; cases hr

/-- A call that fails rejects with the error it failed with, or with the loss of its record. -/
theorem Call.reject_failed (h : call.reject e = .failed d error rejection) (hover : call.await.isOver = false) :
    call.await = .markFailed d error ∧ rejection = if isOwnershipLost e then e else error := by
  unfold Call.reject at h
  cases hawait : call.await with
  | markFailed d' error' =>
    rw [hawait] at h
    simp only at h
    split at h <;> cases h <;> exact ⟨rfl, rfl⟩
  | returned | refused | failed | crashed => rw [hawait] at hover; cases hover
  | _ => rw [hawait] at h; cases h

theorem Call.afterStarted_ne_failed (call : Call) (d' : Started) :
    call.afterStarted d' ≠ .failed d error rejection := by
  unfold Call.afterStarted; split <;> nofun

theorem Ran.failed {env : Env} {db : Db} {aw : Await} {o : Outcome} (h : Ran cfg env db call aw o)
    (hover : aw.isOver = false) (hnext : o.next = .failed d error rejection) :
    aw = .markFailed d error ∧ rejection = error := by
  cases h with
  | inserted => exact absurd hnext (call.afterStarted_ne_failed _)
  | @acquired _ _ r lease =>
    cases hb : buildStartedDecision (r.acquired lease env.uuid env.dbNow) with
    | error e => simp only [hb, Call.afterAcquired, reduceCtorEq] at hnext
    | ok d' => simp only [hb, Call.afterAcquired] at hnext; exact absurd hnext (call.afterStarted_ne_failed _)
  | @lockedPayment d' _ _ p =>
    rcases Call.afterLock_cases cfg d' p with ⟨e, -, he⟩ | ⟨provider, input, -, he⟩ <;>
      simp only [he, reduceCtorEq] at hnext
  | markedFailed => cases hnext; exact ⟨rfl, rfl⟩
  | idle => simp only at hnext; rw [hnext] at hover; cases hover
  | _ => cases hnext

theorem Inv.ownedBy (hi : Inv cfg s) {id : Uuid} {r : IdempotencyRecord} (hr : s.db.idempotency.get? id = some r)
    (hs : r.status = .processing) : s.OwnedBy id r.processingToken := ⟨hi.lastIssued hr, r, hr, hs⟩

theorem Inv.not_ownedBy (hi : Inv cfg s) {id token : Uuid}
    (h : ∀ r, s.db.idempotency.get? id = some r → ¬ (r.status = .processing ∧ r.processingToken = token)) :
    ¬ s.OwnedBy id token := by
  rintro ⟨hlast, r, hr, hs⟩
  rw [hi.lastIssued hr] at hlast
  exact h r hr ⟨hs, Option.some.inj hlast⟩

/-- The step at which a call rejects is that of its `markFailed`. -/
theorem StepCase.cleanup (hi : Inv cfg s) (h : StepCase cfg s a s') (hc : s.calls c = some call)
    (hover : call.await.isOver = false) (hc' : s'.calls c = some call')
    (hfailed : call'.await = .failed d error rejection) :
    call.await = .markFailed d error ∧ Cleanup cfg s s' a c d error rejection := by
  have hkept : call'.await ≠ call.await := by
    rintro heq
    rw [← heq, hfailed] at hover; cases hover
  rcases h.call_cases hc hc' with ⟨rfl, -⟩ | ⟨-, hcase⟩
  · exact absurd rfl hkept
  have hserver : s'.db = s'.server.committed := rfl
  rw [hfailed] at hcase hkept
  generalize s'.server = server at hcase hserver
  generalize hnext : Await.failed d error rejection = next at hcase
  -- the write of `markFailed` took effect
  have hwrote : ∀ {env o}, call.run cfg env s.db = .ok o → call.await = .markFailed d error →
      s.server.autocommit (.pool c) o.writes = some server → rejection = error →
      Cleanup cfg s s' a c d error rejection := by
    rintro env o hrun haw hs rfl
    obtain ⟨-, hdb, -⟩ := Server.autocommit_eq_some hs
    have hran := ran_of_run hrun
    rw [haw] at hran
    cases hran with
    | markedFailed hg hst htok =>
      refine .failed ?_ hg htok (hserver.trans hdb)
      rw [← htok]; exact hi.ownedBy hg hst
    | replayed hf | toReactivate hf | toTakeover hf => cases hf.started
    | refused _ hstart => cases hstart
    | acquired hor => rcases hor with ⟨hf, -⟩ | ⟨hf, -⟩ <;> cases hf
    | idle hidle => cases hidle
  cases hcase with
  | answered _ _ hrun hs =>
    obtain ⟨haw, hrej⟩ := (ran_of_run hrun).failed hover hnext.symm
    exact ⟨haw, hwrote hrun haw hs hrej⟩
  | answerLost _ _ hrun hs =>
    obtain ⟨haw, hrej⟩ := Call.reject_failed hnext.symm hover
    exact ⟨haw, hwrote hrun haw hs hrej⟩
  | staged _ hmode hrun =>
    obtain ⟨haw, -⟩ := (ran_of_run hrun).failed hover hnext.symm
    rw [haw] at hmode
    rcases hmode with hmode | hmode <;> cases hmode
  | @failed env e _ hrun =>
    obtain ⟨haw, hrej⟩ := Call.reject_failed hnext.symm hover
    refine ⟨haw, ?_⟩
    have hdb : s'.db = s.db := hserver.trans (abandon_committed ..).1
    have hmark : IdempotencyService.markFailed cfg env s.db d.recordId d.processingToken = .error e := by
      simp only [Call.run, haw, Call.write] at hrun
      cases hmf : IdempotencyService.markFailed cfg env s.db d.recordId d.processingToken with
      | error e' => rw [hmf] at hrun; cases hrun; rfl
      | ok ans => rw [hmf] at hrun; cases hrun
    rcases markFailed_error hmark with hstmt | ⟨rfl, hnone, hnot⟩
    · obtain ⟨m, rfl⟩ := markFailed_statement_error hstmt
      obtain rfl : rejection = error := hrej
      exact .refused rfl hstmt hdb
    · obtain rfl : rejection = ownershipLost := hrej
      exact .lost rfl hnone (hi.not_ownedBy hnot) hdb
  | unanswered _ =>
    obtain ⟨haw, hrej⟩ := Call.reject_failed hnext.symm hover
    obtain rfl : rejection = error := hrej
    exact ⟨haw, .unanswered rfl (hserver.trans (abandon_committed ..).1)⟩
  | provider hcase =>
    generalize call.await = aw at hcase
    subst hnext
    cases hcase
  | committed | rolledBack | commitLost | crashed => cases hnext
  | lateCommit | sessionLost => exact absurd hnext hkept

/-- The call rejects with the loss of its record if its `markFailed` found that, and else with its error. -/
theorem Cleanup.rejects (h : Cleanup cfg s s' a c d error rejection) :
    (LosesRecord cfg s a c d → rejection = ownershipLost) ∧ (¬ LosesRecord cfg s a c d → rejection = error) := by
  cases h with
  | failed hown => exact ⟨fun hlost => absurd hown hlost.2, fun _ => rfl⟩
  | lost ha hok hnot => exact ⟨fun _ => rfl, fun hkept => absurd ⟨⟨_, _, ha, hok⟩, hnot⟩ hkept⟩
  | refused ha hstmt =>
    refine ⟨?_, fun _ => rfl⟩
    rintro ⟨⟨env, ans, ha', hok⟩, -⟩
    cases ha.symm.trans ha'
    cases hstmt.symm.trans hok
  | unanswered ha =>
    refine ⟨?_, fun _ => rfl⟩
    rintro ⟨⟨env, ans, ha', -⟩, -⟩
    cases ha.symm.trans ha'

theorem Call.reject_error (hd : call.await.started? = some d) (he : call.await.error? = none)
    (hmode : call.await.mode ≠ .idle) (e : Err) : (call.reject e).error? = some e := by
  unfold Call.reject
  cases hawait : call.await with
  | rollback | markFailed => rw [hawait] at he; cases he
  | authorize | capture | returned | refused | failed | crashed => rw [hawait] at hmode; exact absurd rfl hmode
  | findByScopeAndKey | tryInsertProcessing | findAfterConflict | reactivateFailed | takeoverExpiredProcessing =>
    rw [hawait] at hd; cases hd
  | insertPayment | findByIdForUpdate | updateStatusIfAuthorized | recordEvent | markCompleted | commit => rfl

/-- The step that enters a call's `catch` block is one that fails, with the error the block is entered
with. -/
theorem StepCase.fails (h : StepCase cfg s a s') (hc : s.calls c = some call) (hd : call.await.started? = some d)
    (he : call.await.error? = none) (hc' : s'.calls c = some call') (herr : call'.await.error? = some error) :
    Fails cfg s c call d a error := by
  rcases h.call_cases hc hc' with ⟨rfl, -⟩ | ⟨-, hcase⟩
  · rw [he] at herr; cases herr
  -- the one statement of a call with a decision outside its transaction is `markFailed`
  have hpool : call.await.mode ≠ .pool := by
    revert hd he
    cases call.await <;> simp [Await.mode, Await.started?, Await.error?]
  generalize call'.await = next at hcase herr
  generalize s'.server = server at hcase
  cases hcase with
  | answered _ hmode | answerLost _ hmode => exact absurd hmode hpool
  | @staged env o _ _ hmode hrun =>
    have hran := ran_of_run hrun
    generalize hawait : call.await = aw at hran hmode hd
    cases hran with
    | @noPayment d' paymentId id hid hn =>
      obtain rfl : d' = d := Option.some.inj hd
      cases herr
      exact .noPayment hawait hid hn
    | @lockedPayment d' paymentId id p hid hg =>
      obtain rfl : d' = d := Option.some.inj hd
      rcases Call.afterLock_cases cfg d' p with ⟨e, hb, he'⟩ | ⟨provider, input, -, he'⟩
      · simp only [he', Await.error?, Option.some.injEq] at herr
        rw [← herr]
        exact .check hawait hid hg hb
      · simp only [he', Await.error?, reduceCtorEq] at herr
    | @notUpdated d' input recording hnone =>
      obtain rfl : d' = d := Option.some.inj hd
      cases herr
      exact .notUpdated hawait hnone
    | insertedPayment | updatedPayment | recorded | completed | committed => cases herr
    | toInsert | conflict | inserted | rolledBack | markedFailed => simp [Await.mode] at hmode
    | refused _ hs => rw [hs] at hd; cases hd
    | replayed hf | toReactivate hf | toTakeover hf => rw [hf.started] at hd; cases hd
    | acquired hor => rcases hor with ⟨rfl, -⟩ | ⟨rfl, -⟩ <;> cases hd
    | idle hidle => rw [hidle] at hmode; simp at hmode
  | committed => cases herr
  | rolledBack hawait => rw [hawait] at he; cases he
  | failed hmode hrun =>
    rw [Call.reject_error hd he hmode] at herr
    cases herr
    exact .statement hmode hrun
  | unanswered hmode =>
    rw [Call.reject_error hd he hmode] at herr
    cases herr
    exact .unanswered hmode
  | provider hcase =>
    generalize hawait : call.await = aw at hcase hd
    cases hcase with
    | authorized | captured => cases herr
    | authorizeThrew =>
      cases hd; cases herr
      exact .authorize hawait
    | captureThrew =>
      cases hd; cases herr
      exact .capture hawait
  | commitLost hawait =>
    rw [hawait] at hd
    cases hd; cases herr
    exact .commitUnknown hawait
  | lateCommit | sessionLost | crashed => cases he.symm.trans herr

/-- The error a call's `catch` block was entered with is kept, unless the ROLLBACK fails with one of its
own. -/
theorem StepCase.error_kept (h : StepCase cfg s a s') (hc : s.calls c = some call) (he : call.await.error? = some e)
    (hc' : s'.calls c = some call') : call'.await.error? = some e ∨
      ∃ d m, call.await = .rollback d e ∧ a = .queryError c m ∧ call'.await.error? = some (.other m) := by
  rcases h.call_cases hc hc' with ⟨rfl, -⟩ | ⟨-, hcase⟩
  · exact .inl he
  have hmarkFailed : ∀ {d e'}, call.await = .markFailed d e → (call.reject e').error? = some e := by
    intro d e' hawait
    simp only [Call.reject, hawait]
    cases call.command <;> rfl
  have hpool : call.await.mode = .pool → ∃ d, call.await = .markFailed d e := by
    revert he
    cases call.await <;> simp [Await.mode, Await.error?]
  generalize call'.await = next at hcase
  generalize s'.server = server at hcase
  cases hcase with
  | answered _ hmode hrun =>
    obtain ⟨d, hawait⟩ := hpool hmode
    have hran := ran_of_run hrun
    rw [hawait] at hran
    cases hran with
    | markedFailed => exact .inl rfl
    | refused _ hs => cases hs
    | replayed hf | toReactivate hf | toTakeover hf => cases hf.started
    | acquired hor => rcases hor with ⟨hf, -⟩ | ⟨hf, -⟩ <;> cases hf
    | idle hidle => cases hidle
  | answerLost _ hmode =>
    obtain ⟨d, hawait⟩ := hpool hmode
    exact .inl (hmarkFailed hawait)
  | staged _ hmode =>
    revert hmode he
    cases call.await <;> simp [Await.mode, Await.error?]
  | committed hawait | commitLost hawait => rw [hawait] at he; cases he
  | rolledBack hawait =>
    rw [hawait] at he
    exact .inl he
  | failed hmode hrun =>
    cases hawait : call.await <;> simp only [hawait, Await.mode, Await.error?, ne_eq, reduceCtorEq, not_true_eq_false,
      Option.some.injEq] at hmode he
    · simp only [Call.run, hawait, reduceCtorEq] at hrun
    · subst he
      exact .inl (hmarkFailed hawait)
  | @unanswered m hmode =>
    cases hawait : call.await <;> simp only [hawait, Await.mode, Await.error?, ne_eq, reduceCtorEq, not_true_eq_false,
      Option.some.injEq] at hmode he
    · -- the ROLLBACK fails, with an error of its own
      subst he
      refine .inr ⟨_, m, rfl, rfl, ?_⟩
      simp only [Call.reject, hawait, Await.error?]
    · subst he
      exact .inl (hmarkFailed hawait)
  | provider hcase =>
    generalize call.await = aw at hcase he
    cases hcase <;> cases he
  | lateCommit | sessionLost | crashed => exact .inl he

/-- On the way from `s` to `t` the ROLLBACK of the call `c` has failed with `error`. -/
def RollbackFailed (cfg : Config) (s t : State) (c : CallId) (error : Err) : Prop :=
  ∃ u u' call d error₀ m, (service cfg).Steps System.anyStep s u ∧ u.calls c = some call ∧
    call.await = .rollback d error₀ ∧ (service cfg).step u (.queryError c m) = some u' ∧
    (service cfg).Steps System.anyStep u' t ∧ error = .other m

/-- Between `s` and `t` a step of the call `c` under the decision `d` has failed, the first of its steps to
fail, and `error` is what it failed with, or what the ROLLBACK after it failed with. -/
def FailedWith (cfg : Config) (s t : State) (c : CallId) (d : Started) (error : Err) : Prop :=
  ∃ u a u' call error₀, (service cfg).Steps System.anyStep s u ∧ u.calls c = some call ∧
    call.await.started? = some d ∧ call.await.error? = none ∧ Fails cfg u c call d a error₀ ∧
    (service cfg).step u a = some u' ∧ (service cfg).Steps System.anyStep u' t ∧
    (error = error₀ ∨ RollbackFailed cfg u' t c error)

theorem RollbackFailed.step {t t' : State} {b : Action} (h : RollbackFailed cfg s t c e)
    (hs : (service cfg).step t b = some t') : RollbackFailed cfg s t' c e := by
  obtain ⟨u, u', call, d, e₀, m, h₁, h₂, h₃, h₄, h₅, h₆⟩ := h
  exact ⟨u, u', call, d, e₀, m, h₁, h₂, h₃, h₄, h₅.tail trivial hs, h₆⟩

/-- A call keeps the error its `catch` block was entered with until the end, unless its ROLLBACK fails, and
does not get in doubt any more. -/
theorem error_of_steps {ok : State → Action → Prop} {t : State} (hc : s.calls c = some call)
    (he : call.await.error? = some e) (hdoubt : call.inDoubt = false) (h : (service cfg).Steps ok s t) {callt : Call}
    (hct : t.calls c = some callt) : callt.inDoubt = false ∧
      ∃ e', callt.await.error? = some e' ∧ (e' = e ∨ RollbackFailed cfg s t c e') := by
  induction h generalizing callt with
  | refl =>
    obtain rfl := Option.some.inj (hc.symm.trans hct)
    exact ⟨hdoubt, e, he, .inl rfl⟩
  | @tail u t a hpre _ hs ih =>
    have hstep : StepCase cfg u a t := step_cases hs
    obtain ⟨callu, hcu, -⟩ := call_of_steps hc hpre
    obtain ⟨hdoubtu, e', he', hor⟩ := ih hcu
    constructor
    · by_contra hd
      rcases hstep.inDoubt_origin hcu hct (by simpa using hd) with hd | ⟨d, body, hawait⟩
      · rw [hdoubtu] at hd; cases hd
      · rw [hawait] at he'; cases he'
    rcases hstep.error_kept hcu he' hct with hkept | ⟨d, m, hawait, rfl, hnew⟩
    · exact ⟨e', hkept, hor.imp_right fun h => h.step hs⟩
    · exact ⟨_, hnew, .inr ⟨u, t, callu, d, e', m, hpre.mono fun _ _ _ => trivial, hcu, hawait, hs, .refl, rfl⟩⟩

/-- A call that has rejected with an error in its `catch` block has made an attempt to mark its record
FAILED. -/
theorem cleanup_of_steps {ok : State → Action → Prop} {t : State} (hi : Inv cfg s) (hc : s.calls c = some call)
    (hover : call.await.isOver = false) (h : (service cfg).Steps ok s t) {callt : Call} (hct : t.calls c = some callt)
    (hfailed : callt.await = .failed d error rejection) : ∃ u a u' callu, (service cfg).Steps ok s u ∧
      u.calls c = some callu ∧ callu.await = .markFailed d error ∧ (service cfg).step u a = some u' ∧
      u'.calls c = some callt ∧ (service cfg).Steps ok u' t ∧ Cleanup cfg u u' a c d error rejection := by
  induction h generalizing callt with
  | refl =>
    obtain rfl := Option.some.inj (hc.symm.trans hct)
    rw [hfailed] at hover; cases hover
  | @tail u t a hpre hok hs ih =>
    obtain ⟨callu, hcu, -⟩ := call_of_steps hc hpre
    cases hoveru : callu.await.isOver with
    | true =>
      have hstay := (step_cases hs).call_over hcu hoveru
      obtain rfl := Option.some.inj (hct.symm.trans hstay)
      obtain ⟨v, b, v', callv, h₁, h₂, h₃, h₄, h₅, h₆, h₇⟩ := ih hcu hfailed
      exact ⟨v, b, v', callv, h₁, h₂, h₃, h₄, h₅, h₆.tail hok hs, h₇⟩
    | false =>
      obtain ⟨hawait, hcleanup⟩ := (step_cases hs).cleanup (inv_of_steps hi hpre) hcu hoveru hct hfailed
      exact ⟨u, a, t, callu, hpre, hcu, hawait, hs, hct, .refl, hcleanup⟩

/-- The error in a call's `catch` block is that of a step of the call. -/
theorem failedWith_of_steps {ok : State → Action → Prop} {t : State} (hc : s.calls c = some call)
    (hd : call.await.started? = some d) (he : call.await.error? = none) (h : (service cfg).Steps ok s t) {callt : Call}
    (hct : t.calls c = some callt) (het : callt.await.error? = some e) : FailedWith cfg s t c d e := by
  induction h generalizing callt e with
  | refl =>
    obtain rfl := Option.some.inj (hc.symm.trans hct)
    rw [he] at het; cases het
  | @tail u t a hpre _ hs ih =>
    have hstep : StepCase cfg u a t := step_cases hs
    obtain ⟨callu, hcu, hk⟩ := call_of_steps hc hpre
    cases heu : callu.await.error? with
    | none =>
      -- the last step is the one that failed
      have hdu : callu.await.started? = some d := by
        rcases hk.advances.started d hd with hdu | ⟨statusCode, body, hret⟩
        · exact hdu
        · obtain ⟨callt', hct', hk'⟩ := hstep.call_kept hcu
          obtain rfl := Option.some.inj (hct.symm.trans hct')
          rw [hk'.advances.returned _ _ hret, heu] at het
          cases het
      exact ⟨u, a, t, callu, e, hpre.mono fun _ _ _ => trivial, hcu, hdu, heu, hstep.fails hcu hdu heu hct het, hs,
        .refl, .inl rfl⟩
    | some e₁ =>
      obtain ⟨v, b, v', callv, e₀, h₁, h₂, h₃, h₄, h₅, h₆, h₇, hor⟩ := ih hcu heu
      refine ⟨v, b, v', callv, e₀, h₁, h₂, h₃, h₄, h₅, h₆, h₇.tail trivial hs, ?_⟩
      rcases hstep.error_kept hcu heu hct with hkept | ⟨d', m, hawait, rfl, hnew⟩
      · obtain rfl := Option.some.inj (het.symm.trans hkept)
        exact hor.imp_right fun h => h.step hs
      · obtain rfl := Option.some.inj (het.symm.trans hnew)
        exact .inr ⟨u, t, callu, d', e₁, m, h₇, hcu, hawait, hs, .refl, rfl⟩

end Errors

/-! ## Retrying -/

/-- A retry with the scope, key and request of `command` reads the record and acquires it, with the
same resource id. -/
def Retries (cfg : Config) (t : State) (command : Command) (d : Started) : Prop :=
  ∀ c command' reserved, command'.scope = command.scope → command'.idempotencyKey = command.idempotencyKey →
    command'.request = command.request → ∀ t₁, (service cfg).step t (.start c command' reserved) = some t₁ →
    ∀ env, t₁.fresh env = true → ∃ t₂, (service cfg).step t₁ (.query c env) = some t₂ ∧
    ∀ env', t₂.fresh env' = true → (buildExpiresAt cfg.processingLeaseMs env'.now).isSome = true →
    ∃ t₃ call₃, (service cfg).step t₂ (.query c env') = some t₃ ∧ t₃.calls c = some call₃ ∧
      call₃.await.started? = some ⟨d.recordId, d.resourceId, env'.uuid⟩

section Retry

variable {cfg : Config} {t : State} {d : Started} {command : Command} {r : IdempotencyRecord}

theorem reactivateFailed_of_failed {db : Db} {requestHash : String} {expiresAt : Option Millis} {lease : Millis}
    {token : Uuid} {now : Timestamp} (hr : db.idempotency.get? r.id = some r) (hh : r.requestHash = requestHash)
    (hs : r.status = .failed) (hlease : expiresAt = some lease) :
    IdempotencyDataAccess.reactivateFailed db r.id requestHash expiresAt token now =
      .ok ⟨some (r.acquired (ofDate lease) token now),
        [.acquireIdempotency (r.acquired (ofDate lease) token now)]⟩ := by
  have hwhere : (decide (r.requestHash = requestHash ∧ r.status = .failed)) = true := by simp [hh, hs]
  subst hlease
  change Except.ok (IdempotencyDataAccess.updateWhere ..) = _
  simp only [IdempotencyDataAccess.updateWhere, hr, hwhere, if_true]
  rfl

/-- A FAILED record is acquired by the next call with its request. -/
theorem retries_of_failed (hi : Inv cfg t) (hl : LockInv t) (hr : t.db.idempotency.get? d.recordId = some r)
    (hs : r.status = .failed) (hm : command.Matches cfg r) (hres : r.resourceId = some d.resourceId)
    (hfit : command.Fits) : Retries cfg t command d := by
  have hid := Table.key_of_get? hr
  have hfree : t.server.locks (.idempotency r.id) = none := by
    cases hlock : t.server.locks (.idempotency r.id) with
    | none => rfl
    | some u =>
      obtain ⟨r', hr', hs'⟩ := hl.record _ _ hlock
      rw [hid, hr] at hr'
      obtain rfl := Option.some.inj hr'
      rw [hs] at hs'; cases hs'
  intro c command' reserved hscope hkey hrequest t₁ h₁ env hfresh
  have hfind := hi.records.find (Table.mem_of_get? hr) hm hfit
  rw [← hscope, ← hkey] at hfind
  have hhash : r.requestHash = command'.requestHash cfg := hm.requestHash.trans (requestHash_eq hrequest.symm)
  simp only [service, State.step] at h₁
  split at h₁
  swap
  · cases h₁
  cases h₁
  -- the record is read,
  let call : Call := ⟨command', State.reservedId command' reserved, false, .findByScopeAndKey⟩
  have hrun : call.run cfg env t.db = .ok ⟨[], [], .reactivateFailed r.id⟩ := by
    have hfind : IdempotencyDataAccess.findByScopeAndKey t.db call.command.scope call.command.idempotencyKey =
        some r := hfind
    simp only [Call.run, call, hfind]
    simp only [decideFromExisting, hhash, ne_eq, not_true_eq_false, if_false, hs, Call.afterDeciding]
  refine ⟨_, step_read (Function.update_self ..) hfresh rfl hrun, fun env' hfresh' hlease => ?_⟩
  -- and reactivated: it is FAILED, and no transaction has locked it
  obtain ⟨lease, hlease⟩ := Option.isSome_iff_exists.1 hlease
  let call' : Call := { call with await := .reactivateFailed r.id }
  have hrun' : call'.run cfg env' t.db = .ok ⟨[.acquireIdempotency (r.acquired (ofDate lease) env'.uuid env'.dbNow)],
      [], call'.afterStarted ⟨d.recordId, d.resourceId, env'.uuid⟩⟩ := by
    have hstarted : buildStartedDecision (r.acquired (ofDate lease) env'.uuid env'.dbNow) =
        .ok ⟨d.recordId, d.resourceId, env'.uuid⟩ := by
      simp only [buildStartedDecision, IdempotencyRecord.acquired, hres, hid]
    have hstatement : IdempotencyDataAccess.reactivateFailed t.db r.id (command'.requestHash cfg)
        (buildExpiresAt cfg.processingLeaseMs env'.now) env'.uuid env'.dbNow =
        .ok ⟨some (r.acquired (ofDate lease) env'.uuid env'.dbNow),
          [.acquireIdempotency (r.acquired (ofDate lease) env'.uuid env'.dbNow)]⟩ :=
      reactivateFailed_of_failed (by rw [hid]; exact hr) hhash hs hlease
    simp only [Call.run, call', call, hstatement, Call.write, Except.map, decideFromAcquired,
      hstarted, Call.afterAcquired]
  have hfree' : ∀ w ∈ [Write.acquireIdempotency (r.acquired (ofDate lease) env'.uuid env'.dbNow)],
      t.server.free (.pool c) (schema.key w) = true := by
    simp only [List.forall_mem_singleton]
    exact Server.free_iff.2 (.inl hfree)
  exact ⟨_, _, step_pool moved_calls hfresh' rfl hrun' (Server.autocommit_of_free hfree'), moved_calls,
    call'.afterStarted_started _⟩

end Retry

/-! ## The law -/

/-- The call `c` has rejected with `rejection` at the step `a` from `t` to `t'`, in its `catch` block for
`error`. It was under the decision `d` at `s`, where nothing of it had failed. -/
structure ErrorLaw (cfg : Config) (s t t' : State) (a : Action) (c : CallId) (call : Call) (d : Started)
    (error rejection : Err) : Prop where
  /-- The error is that of the step of the call that failed. -/
  original : FailedWith cfg s t c d error
  /-- The record is FAILED if the caller still owned it and the write took effect, and otherwise left as it
  is; the loss of the record is the only other error the call rejects with. -/
  cleanup : Cleanup cfg t t' a c d error rejection
  /-- No row of payments and outbox_events is ever written by the call, unless its COMMIT got no answer. -/
  noEffect : call.inDoubt = false → ∀ u, (service cfg).Steps System.anyStep t' u →
    u.db = schema.applyAll .empty (u.server.log.map Prod.snd) ∧
    ∀ e ∈ u.server.log, e.1 = .tx c ∨ e.1 = .pool c → e.2.isBusiness = false
  /-- A retry of the request is STARTED with the same resource id: of every request of the routes, whose
  scope and key are stored as they are. -/
  retry : call.command.Fits → ∀ r, t'.db.idempotency.get? d.recordId = some r → r.status = .failed →
    Retries cfg t' call.command d

section Law

variable {cfg : Config} {s t t' : State} {a : Action} {c : CallId} {call call' callt : Call} {d d' : Started}
  {error rejection : Err}

/-- The law for a call of `create` or `capture` that rejects after it was started, whatever has failed. -/
theorem error_atomicity (h : (service cfg).Reach System.anyStep s) (hc : s.calls c = some call)
    (hd : call.await.started? = some d) (he : call.await.error? = none) (ht : (service cfg).Steps System.anyStep s t)
    (hct : t.calls c = some callt) (hover : callt.await.isOver = false)
    (hs : (service cfg).step t a = some t') (hc' : t'.calls c = some call')
    (hrejected : call'.await = .failed d' error rejection) :
    d' = d ∧ ErrorLaw cfg s t t' a c call' d error rejection := by
  have hreach : (service cfg).Reach System.anyStep t := h.steps ht
  have hit := inv_of_reach hreach
  have hstep : StepCase cfg t a t' := step_cases hs
  obtain ⟨hawait, hcleanup⟩ := hstep.cleanup hit hct hover hc' hrejected
  obtain ⟨callt', hct', hk⟩ := call_of_steps hc ht
  obtain rfl := Option.some.inj (hct.symm.trans hct')
  have hreach' : (service cfg).Reach System.anyStep t' := hreach.step trivial hs
  have hi' := inv_of_reach hreach'
  obtain rfl : d' = d := by
    rcases hk.advances.started d hd with hdt | ⟨statusCode, body, hret⟩
    · rw [hawait] at hdt; exact Option.some.inj hdt
    · rw [hawait] at hret; cases hret
  have herror : callt.await.error? = some error := by rw [hawait]; rfl
  refine ⟨rfl, failedWith_of_steps hc hd he ht hct herror, hcleanup, fun hdoubt u hu => ?_, fun hfit r hr hst => ?_⟩
  · have hreachu := hreach'.steps hu
    refine ⟨Ledger.db_eq (inv_of_reach hreachu).ledger, ?_⟩
    have hcu := over_of_steps hc' (by rw [hrejected]; rfl) hu
    exact (history_of_reach hreachu).noEffect hcu hdoubt (by rw [hrejected]; nofun)
  · obtain ⟨⟨r', hr', hm, hres⟩, -⟩ := (hi'.calls c call' hc').owns d' (by rw [hrejected]; rfl)
    obtain rfl := Option.some.inj (hr.symm.trans hr')
    exact retries_of_failed hi' (lock_of_reach hreach') hr hst hm hres hfit

end Law

namespace Sample

/-- The provider throws when the call 0 asks it to authorize. -/
def unavailable : Err := .other "provider unavailable"

def decision : Started := ⟨.ofNat 5, paymentId, .ofNat 4⟩

def authorizeRun : List Action := [.start 0 create paymentId, .query 0 (env 1), .query 0 (env 2)]

def providerThrew : Action := .provider 0 (env 2).now (.threw unavailable)

def markFailed : Action := .query 0 (env 3)

def authorizing : State := ((service cfg).runFrom (service cfg).init authorizeRun).get (by decide +kernel)

def threw : State := ((service cfg).step authorizing providerThrew).get (by decide +kernel)

def rejected : State := ((service cfg).step threw markFailed).get (by decide +kernel)

/-- The call `c` awaits the provider's `authorize` for `command` under the decision `d`. -/
def isAuthorizing (s : State) (c : CallId) (d : Started) (command : CreatePaymentCommand) : Bool :=
  match s.calls c with
  | some ⟨_, _, _, .authorize d' command'⟩ => d' = d ∧ command' = command
  | _ => false

theorem isAuthorizing_call {s : State} {c : CallId} {d : Started} {command : CreatePaymentCommand}
    (h : isAuthorizing s c d command = true) : ∃ call, s.calls c = some call ∧ call.await = .authorize d command := by
  unfold isAuthorizing at h
  split at h
  · rename_i hcall
    simp only [decide_eq_true_eq] at h
    exact ⟨_, hcall, by rw [h.1, h.2]⟩
  · cases h

theorem authorizing_spec : ∃ call, authorizing.calls 0 = some call ∧ call.await = .authorize decision createCommand :=
  isAuthorizing_call (by decide +kernel)

theorem rejected_spec : (∃ call, threw.calls 0 = some call ∧ call.await.isOver = false) ∧
    ∃ call, rejected.calls 0 = some call ∧ call.await = .failed decision unavailable unavailable := by
  have h : ((threw.calls 0).any fun call => call.await.isOver = false) ∧
      (rejected.calls 0).any fun call => match call.await with
        | .failed d e e' => d = decision ∧ e = unavailable ∧ e' = unavailable
        | _ => false := by decide +kernel
  simp only [Option.any_eq_true, decide_eq_true_eq] at h
  refine ⟨h.1, ?_⟩
  obtain ⟨call, hc, hawait⟩ := h.2
  refine ⟨call, hc, ?_⟩
  split at hawait
  · rename_i haw
    simp only [decide_eq_true_eq] at hawait
    rw [haw, hawait.1, hawait.2.1, hawait.2.2]
  · cases hawait

theorem threw_step : (service cfg).step authorizing providerThrew = some threw := (Option.some_get _).symm

theorem rejected_step : (service cfg).step threw markFailed = some rejected := (Option.some_get _).symm

theorem authorizing_reach : (service cfg).Reach System.anyStep authorizing :=
  System.reach_of_run (Option.some_get _).symm

end Sample

/-- The law for a call of `create` whose provider throws. -/
theorem error_atomicity_threw : ∃ call, ErrorLaw Sample.cfg Sample.authorizing Sample.threw Sample.rejected
    Sample.markFailed 0 call Sample.decision Sample.unavailable Sample.unavailable := by
  obtain ⟨call, hc, hawait⟩ := Sample.authorizing_spec
  obtain ⟨⟨callt, hct, hover⟩, call', hc', hrejected⟩ := Sample.rejected_spec
  exact ⟨call', (error_atomicity Sample.authorizing_reach hc (by rw [hawait]; rfl) (by rw [hawait]; rfl)
    (.single trivial Sample.threw_step) hct hover Sample.rejected_step hc' hrejected).2⟩

end PaymentOrchestration
