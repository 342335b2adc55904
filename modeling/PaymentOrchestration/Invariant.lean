/-
The invariant of `Refinement` holds in every reachable state, so every run of the service is a run of
the ledger (`ledger_of_steps`).
-/
import PaymentOrchestration.Refinement

namespace PaymentOrchestration

open Lib IdempotencyService OutboxService PaymentsService

/-! ## How a call goes on -/

/-- A call keeps its decision until it returns, stays returned, and tries to begin a record once. -/
structure Await.Advances (a a' : Await) : Prop where
  started : ∀ d, a.started? = some d → a'.started? = some d ∨ ∃ statusCode body, a' = .returned statusCode body
  returned : ∀ statusCode body, a = .returned statusCode body → a' = a
  beforeInsert : a.beforeInsert = false → a'.beforeInsert = false

section Advances

variable {cfg : Config} {env : Env} {db : Db} {call : Call}

@[simp] theorem Call.afterStarted_started (call : Call) (d : Started) : (call.afterStarted d).started? = some d := by
  unfold Call.afterStarted; split <;> rfl

@[simp] theorem Call.afterStarted_beforeInsert (call : Call) (d : Started) :
    (call.afterStarted d).beforeInsert = false := by
  unfold Call.afterStarted; split <;> rfl

theorem Await.Finds.started {a : Await} (h : a.Finds) : a.started? = none := by
  rcases h with rfl | rfl <;> rfl

theorem Await.Finds.mode {a : Await} (h : a.Finds) : a.mode = .pool := by
  rcases h with rfl | rfl <;> rfl

theorem Call.afterLock_cases (cfg : Config) (d : Started) (p : PaymentRecord) :
    (∃ e, beforeCapture cfg p = .error e ∧ Call.afterLock cfg d (some p) = .rollback d e) ∨
    ∃ provider input, beforeCapture cfg p = .ok (provider, input) ∧
      Call.afterLock cfg d (some p) = .capture d p provider input := by
  cases h : beforeCapture cfg p with
  | error e => exact .inl ⟨e, rfl, by simp only [Call.afterLock, h]⟩
  | ok x => exact .inr ⟨x.1, x.2, rfl, by simp only [Call.afterLock, h]⟩

@[refl] theorem Await.Advances.refl (a : Await) : a.Advances a := ⟨fun _ hd => .inl hd, fun _ _ _ => rfl, fun h => h⟩

theorem Await.Advances.of_none {a a' : Await} (hm : a.mode = .pool) (ha : a.started? = none)
    (ha' : a'.beforeInsert = false) : a.Advances a' :=
  ⟨fun d hd => (by rw [ha] at hd; cases hd), fun _ _ h => (by rw [h] at hm; cases hm), fun _ => ha'⟩

theorem Await.Advances.of_some {a a' : Await} {d : Started} (ha : a.started? = some d) (ha' : a'.started? = some d)
    (hb : a'.beforeInsert = false) : a.Advances a' :=
  ⟨fun d' hd => .inl (by rw [ha] at hd; cases hd; exact ha'), fun _ _ h => (by rw [h] at ha; cases ha), fun _ => hb⟩

theorem Ran.advances {a : Await} {o : Outcome} (h : Ran cfg env db call a o) : a.Advances o.next := by
  cases h with
  | replayed ha | toReactivate ha | toTakeover ha => exact .of_none ha.mode ha.started rfl
  | refused hm ha => exact .of_none hm ha rfl
  | toInsert => exact ⟨(nofun), (nofun), (nofun)⟩
  | conflict => exact .of_none rfl rfl rfl
  | inserted => exact .of_none rfl rfl (call.afterStarted_beforeInsert _)
  | @acquired _ _ r lease hor =>
    have hm : a.mode = .pool := by rcases hor with ⟨rfl, -⟩ | ⟨rfl, -⟩ <;> rfl
    have ha : a.started? = none := by rcases hor with ⟨rfl, -⟩ | ⟨rfl, -⟩ <;> rfl
    refine .of_none hm ha ?_
    cases buildStartedDecision (r.acquired lease env.uuid env.dbNow) with
    | error e => rfl
    | ok d => exact call.afterStarted_beforeInsert d
  | insertedPayment | noPayment | updatedPayment | notUpdated | recorded | completed | rolledBack | markedFailed =>
    exact .of_some rfl rfl rfl
  | @lockedPayment d _ _ p =>
    rcases Call.afterLock_cases cfg d p with ⟨e, -, he⟩ | ⟨provider, input, -, he⟩ <;> rw [he] <;>
      exact .of_some rfl rfl rfl
  | committed => exact ⟨fun d hd => .inr ⟨_, _, rfl⟩, (nofun), fun _ => rfl⟩
  | idle => exact .refl _

theorem Call.reject_advances (call : Call) (e : Err) : call.await.Advances (call.reject e) := by
  unfold Call.reject
  cases call.await with
  | findByScopeAndKey | tryInsertProcessing | findAfterConflict | reactivateFailed | takeoverExpiredProcessing =>
    exact .of_none rfl rfl rfl
  | markFailed => cases call.command <;> exact .of_some rfl rfl rfl
  | returned | refused | failed | crashed => exact .refl _
  | authorize | insertPayment | findByIdForUpdate | capture | updateStatusIfAuthorized | recordEvent | markCompleted
  | commit | rollback => exact .of_some rfl rfl rfl

end Advances

/-- A call after some steps: the same command, gone on. -/
structure Call.Kept (call call' : Call) : Prop where
  command : call'.command = call.command
  resourceId : call'.resourceId = call.resourceId
  inDoubt : call.inDoubt = true → call'.inDoubt = true
  advances : call.await.Advances call'.await

section Kept

variable {cfg : Config} {s s' : State} {a : Action} {c : CallId} {call : Call}

@[refl] theorem Call.Kept.refl (call : Call) : call.Kept call := ⟨rfl, rfl, fun h => h, .refl _⟩

theorem Await.Advances.trans {a a' a'' : Await} (h : a.Advances a') (h' : a'.Advances a'') : a.Advances a'' where
  started d hd := by
    rcases h.started d hd with hd' | ⟨statusCode, body, hret⟩
    · exact h'.started d hd'
    · exact .inr ⟨statusCode, body, (h'.returned _ _ hret).trans hret⟩
  returned statusCode body hret := by
    have ha := h.returned _ _ hret
    exact (h'.returned statusCode body (ha.trans hret)).trans ha
  beforeInsert hb := h'.beforeInsert (h.beforeInsert hb)

theorem Call.Kept.trans {call call' call'' : Call} (h : call.Kept call') (h' : call'.Kept call'') : call.Kept call'' :=
  ⟨h'.command.trans h.command, h'.resourceId.trans h.resourceId, fun hd => h'.inDoubt (h.inDoubt hd),
    h.advances.trans h'.advances⟩

theorem ProviderCase.advances {now : Millis} {answer : ProviderAnswer} {a a' : Await}
    (h : ProviderCase now answer a a') : a.Advances a' := by
  cases h <;> exact .of_some rfl rfl rfl

theorem kept_of_update {calls : CallId → Option Call} {c' : CallId} {call' new : Call} (hc' : calls c' = some call')
    (hk : call'.Kept new) (hc : calls c = some call) :
    ∃ k, Function.update calls c' (some new) c = some k ∧ call.Kept k := by
  by_cases hcc : c = c'
  · subst hcc
    rw [hc] at hc'
    obtain rfl := Option.some.inj hc'
    exact ⟨new, Function.update_self .., hk⟩
  · exact ⟨call, by rw [Function.update_of_ne hcc, hc], .refl call⟩

/-- A call stays: a step lets it go on at most. -/
theorem StepCase.call_kept (h : StepCase cfg s a s') (hc : s.calls c = some call) :
    ∃ call', s'.calls c = some call' ∧ call.Kept call' := by
  cases h with
  | @started c' _ _ hnone =>
    have hne : c ≠ c' := by rintro rfl; rw [hnone] at hc; cases hc
    exact ⟨call, (Function.update_of_ne hne _ _).trans hc, .refl call⟩
  | @pool a c' env call' o next server hc' _ _ hrun _ ha =>
    refine kept_of_update hc' ⟨rfl, rfl, fun h => h, ?_⟩ hc
    rcases ha with ⟨-, rfl⟩ | ⟨m, -, rfl⟩
    · exact (ran_of_run hrun).advances
    · exact call'.reject_advances _
  | staged hc' _ _ hrun => exact kept_of_update hc' ⟨rfl, rfl, fun h => h, (ran_of_run hrun).advances⟩ hc
  | committed hc' hawait =>
    exact kept_of_update hc' ⟨rfl, rfl, fun h => h, by
      rw [hawait]; exact ⟨fun d hd => .inr ⟨_, _, rfl⟩, (nofun), fun _ => rfl⟩⟩ hc
  | rolledBack hc' hawait =>
    exact kept_of_update hc' ⟨rfl, rfl, fun h => h, by rw [hawait]; exact .of_some rfl rfl rfl⟩ hc
  | commitLost hc' hawait =>
    exact kept_of_update hc' ⟨rfl, rfl, fun _ => rfl, by rw [hawait]; exact .of_some rfl rfl rfl⟩ hc
  | @rejected _ _ call' _ _ hc' => exact kept_of_update hc' ⟨rfl, rfl, fun h => h, call'.reject_advances _⟩ hc
  | answered hc' hnext => exact kept_of_update hc' ⟨rfl, rfl, fun h => h, (provider_cases hnext).advances⟩ hc
  | lateCommit | sessionLost => exact ⟨call, hc, .refl call⟩
  | crashed hc' hover =>
    exact kept_of_update hc' ⟨rfl, rfl, fun h => h,
      ⟨fun d hd => .inl hd, fun _ _ h => (by rw [h] at hover; cases hover), fun _ => rfl⟩⟩ hc

/-- A call gets in doubt at its COMMIT only. -/
theorem StepCase.inDoubt_origin (h : StepCase cfg s a s') (hc : s.calls c = some call) {call' : Call}
    (hc' : s'.calls c = some call') (hdoubt : call'.inDoubt = true) :
    call.inDoubt = true ∨ ∃ d body, call.await = .commit d body := by
  have hstay : ∀ {c₀ : CallId} {call₀ : Call} {aw : Await}, s.calls c₀ = some call₀ →
      Function.update s.calls c₀ (some { call₀ with await := aw }) c = some call' → call.inDoubt = true := by
    intro c₀ call₀ aw hc₀ hc'
    by_cases hcc : c = c₀
    · subst hcc
      obtain rfl := Option.some.inj (hc.symm.trans hc₀)
      rw [Function.update_self] at hc'
      rw [← Option.some.inj hc'] at hdoubt; exact hdoubt
    · rw [Function.update_of_ne hcc, hc] at hc'
      rw [Option.some.inj hc']; exact hdoubt
  cases h with
  | @started c₀ _ _ hnone =>
    have hne : c ≠ c₀ := by rintro rfl; rw [hnone] at hc; cases hc
    have hc' : Function.update s.calls c₀ _ c = some call' := hc'
    rw [Function.update_of_ne hne, hc] at hc'
    rw [Option.some.inj hc']; exact .inl hdoubt
  | pool hc₀ | staged hc₀ | committed hc₀ | rolledBack hc₀ | rejected hc₀ | answered hc₀ | crashed hc₀ =>
    exact .inl (hstay hc₀ hc')
  | lateCommit | sessionLost =>
    obtain rfl := Option.some.inj (hc.symm.trans hc')
    exact .inl hdoubt
  | @commitLost c₀ _ call₀ d body hc₀ hawait =>
    by_cases hcc : c = c₀
    · subst hcc
      obtain rfl := Option.some.inj (hc.symm.trans hc₀)
      exact .inr ⟨d, body, hawait⟩
    · have hc' : Function.update s.calls c₀ _ c = some call' := hc'
      rw [Function.update_of_ne hcc, hc] at hc'
      rw [Option.some.inj hc']; exact .inl hdoubt

theorem Await.mode_of_over {aw : Await} (h : aw.isOver = true) : aw.mode = .idle := by
  cases aw <;> first
    | rfl
    | cases h

/-- A call that is over stays as it is. -/
theorem StepCase.call_over (h : StepCase cfg s a s') (hc : s.calls c = some call) (hover : call.await.isOver = true) :
    s'.calls c = some call := by
  have hidle := Await.mode_of_over hover
  have hstay : ∀ {c' : CallId} {call' new : Call}, s.calls c' = some call' → (call' = call → False) →
      Function.update s.calls c' (some new) c = some call := by
    intro c' call' new hc' hne
    have hcc : c ≠ c' := by
      rintro rfl
      exact hne (Option.some.inj (hc'.symm.trans hc))
    rw [Function.update_of_ne hcc, hc]
  cases h with
  | @started c' _ _ hnone =>
    have hne : c ≠ c' := by rintro rfl; rw [hnone] at hc; cases hc
    exact (Function.update_of_ne hne _ _).trans hc
  | pool hc' _ hmode => exact hstay hc' (by rintro rfl; rw [hidle] at hmode; cases hmode)
  | staged hc' _ hmode => exact hstay hc' (by rintro rfl; rw [hidle] at hmode; simp at hmode)
  | committed hc' hawait | rolledBack hc' hawait | commitLost hc' hawait =>
    exact hstay hc' (by rintro rfl; rw [hawait] at hidle; cases hidle)
  | rejected hc' hmode => exact hstay hc' (by rintro rfl; exact hmode hidle)
  | @answered _ _ _ call' _ hc' hnext =>
    refine hstay hc' fun heq => ?_
    rw [← heq] at hover
    have hcase := provider_cases hnext
    generalize call'.await = aw at hover hcase
    cases hcase <;> cases hover
  | lateCommit | sessionLost => exact hc
  | crashed hc' hover' => exact hstay hc' (by rintro rfl; rw [hover] at hover'; cases hover')

/-- A call of the state after a step was there before, or has just begun. -/
theorem StepCase.call_origin (h : StepCase cfg s a s') {call' : Call} (hc : s'.calls c = some call') :
    (∃ call, s.calls c = some call ∧ call.Kept call') ∨ s.calls c = none ∧ ∃ command reserved,
      a = .start c command reserved ∧ reserved ∉ s.minted ∧ reserved ∈ s'.minted ∧
      call' = ⟨command, State.reservedId command reserved, false, .findByScopeAndKey⟩ := by
  cases hcall : s.calls c with
  | some call =>
    obtain ⟨call'', hc'', hk⟩ := h.call_kept hcall
    rw [hc] at hc''
    obtain rfl := Option.some.inj hc''
    exact .inl ⟨call, rfl, hk⟩
  | none =>
    refine .inr ⟨rfl, ?_⟩
    by_cases hca : c = a.call
    · subst hca
      cases h with
      | @started c command reserved _ hnew =>
        refine ⟨command, reserved, rfl, hnew, List.mem_cons_self, ?_⟩
        simp only [Action.call, Function.update_self, Option.some.injEq] at hc
        exact hc.symm
      | @pool a c' _ _ _ _ _ hc' _ _ _ _ ha =>
        have hac : a.call = c' := by rcases ha with ⟨rfl, -⟩ | ⟨m, rfl, -⟩ <;> rfl
        rw [hac, hc'] at hcall; cases hcall
      | @rejected a c' _ _ _ hc' _ ha =>
        have hac : a.call = c' := by rcases ha with ⟨env, rfl, -⟩ | ⟨m, rfl, -⟩ <;> rfl
        rw [hac, hc'] at hcall; cases hcall
      | staged hc' | committed hc' | rolledBack hc' | answered hc' | commitLost hc' | lateCommit hc' | crashed hc' =>
        rw [Action.call, hc'] at hcall; cases hcall
      | sessionLost => rw [hcall] at hc; cases hc
    · rw [h.calls_of_ne hca, hcall] at hc; cases hc

/-- Only losing a session concerns a call that need not be there, and then there is a session to lose. -/
theorem StepCase.acting (h : StepCase cfg s a s') (hc : s'.calls a.call = none) :
    (s.server.pending (.tx a.call)).isSome = true := by
  cases h with
  | started | staged | committed | rolledBack | answered | commitLost | crashed =>
    simp [Action.call, State.moved] at hc
  | pool _ _ _ _ _ ha => rcases ha with ⟨rfl, -⟩ | ⟨m, rfl, -⟩ <;> simp [Action.call, State.moved] at hc
  | rejected _ _ ha => rcases ha with ⟨env, rfl, -⟩ | ⟨m, rfl, -⟩ <;> simp [Action.call, State.moved] at hc
  | lateCommit _ _ hopen | sessionLost hopen => exact hopen

end Kept

/-! ## The identifiers calls offer -/

section Reserved

variable {cfg : Config} {s s' : State} {a : Action} {c : CallId} {call : Call}

/-- A record of the state after a step was there before, or a call has just begun it. -/
theorem StepCase.record_origin (hi : Inv cfg s) (h : StepCase cfg s a s') {r : IdempotencyRecord}
    (hr : r ∈ s'.db.idempotency.rows) : (∃ x ∈ s.db.idempotency.rows, x.SameIdentity r) ∨
    ∃ call env call', s.calls a.call = some call ∧ (call.insertInput cfg env).Admitted env.uuid' r ∧
      s'.calls a.call = some call' ∧ call.Kept call' ∧ call'.await.beforeInsert = false := by
  have hsame : s'.server.committed = s.server.committed → ∃ x ∈ s.db.idempotency.rows, x.SameIdentity r :=
    fun hdb => ⟨r, by rw [State.db, hdb] at hr; exact hr, .refl r⟩
  have hcommit : ∀ {c call}, s.calls c = some call →
      ((∃ d body, call.await = .commit d body) ∨ call.inDoubt = true) → (s.server.pending (.tx c)).isSome = true →
      s'.server = s.server.commit (.tx c) → ∃ x ∈ s.db.idempotency.rows, x.SameIdentity r := by
    intro c call hc hcommit hopen hs
    obtain ⟨ws, hws⟩ := Option.isSome_iff_exists.1 hopen
    obtain ⟨d, body, -, hset⟩ := hi.settles hc hcommit hws
    rw [State.db, hs, Server.commit_committed hws] at hr
    rcases (Settles.transition (l := s.ledger) hset).origin hr with h | h
    · exact h
    · exact absurd (hset.issued _ h) nofun
  cases h with
  | started | answered | commitLost | crashed => exact .inl (hsame rfl)
  | rolledBack | sessionLost => exact .inl (hsame Server.rollback_committed)
  | rejected => exact .inl (hsame (abandon_committed ..).1)
  | staged _ _ _ _ hs =>
    obtain ⟨-, -, -, hdb, -⟩ := Server.stage_eq_some hs
    exact .inl (hsame (hdb.trans (opened_committed ..).1))
  | committed hc hawait hopen => exact .inl (hcommit hc (.inl ⟨_, _, hawait⟩) hopen rfl)
  | lateCommit hc hdoubt hopen => exact .inl (hcommit hc (.inr hdoubt) hopen rfl)
  | @pool a c env call o next server hc hfresh hmode hrun hs ha =>
    have hran := ran_of_run hrun
    obtain ⟨-, hdb, -⟩ := Server.autocommit_eq_some hs
    rcases hi.pool_transition hc hfresh hmode hran with hnone | ⟨htr, -⟩
    · rw [hnone] at hdb; exact .inl (hsame hdb)
    · rw [State.db, show (s.moved c call next server _).server = server from rfl, hdb] at hr
      refine (htr.origin hr).imp_right fun hw => ?_
      have hac : a.call = c := by rcases ha with ⟨rfl, -⟩ | ⟨m, rfl, -⟩ <;> rfl
      rw [hac]
      generalize hawait : call.await = aw at hran
      cases hran with
      | replayed | refused | toInsert | toReactivate | toTakeover | conflict | idle | noPayment | lockedPayment
      | notUpdated | committed | rolledBack => cases hw
      | acquired | insertedPayment | updatedPayment | recorded | completed | markedFailed => simp at hw
      | @inserted r' _ hadm =>
        obtain rfl : r = r' := by simpa using hw
        have hadv : call.await.Advances next ∧ next.beforeInsert = false := by
          rw [hawait]
          rcases ha with ⟨-, rfl⟩ | ⟨m, -, rfl⟩
          · exact ⟨.of_none rfl rfl (call.afterStarted_beforeInsert _), call.afterStarted_beforeInsert _⟩
          · rw [Call.reject, hawait]; exact ⟨.of_none rfl rfl rfl, rfl⟩
        exact ⟨call, env, { call with await := next }, hc, hadm, Function.update_self ..,
          ⟨rfl, rfl, fun h => h, hadv.1⟩, hadv.2⟩

theorem ReservedInv.step (hi : Inv cfg s) (h : StepCase cfg s a s') : ReservedInv s' where
  minted c call hc hkind := by
    rcases h.call_origin hc with ⟨call₀, hc₀, hk⟩ | ⟨-, command, reserved, -, -, hmem, rfl⟩
    · rw [hk.command] at hkind
      obtain ⟨u, hu, hres⟩ := hi.reserved.minted c call₀ hc₀ hkind
      exact ⟨u, h.minted u hu, by rw [hk.resourceId, hres]⟩
    · cases command with
      | create => exact ⟨reserved, hmem, rfl⟩
      | capture => cases hkind
  own c call c' call' hc hc' hkind hkind' hres := by
    have hnew : ∀ {c₀ call₀ command reserved}, s.calls c₀ = some call₀ → call₀.command.kind = .create →
        command.kind = .create → reserved ∉ s.minted → call₀.resourceId ≠ State.reservedId command reserved := by
      intro c₀ call₀ command reserved hc₀ hkind₀ hkind hfresh heq
      obtain ⟨u, hu, hres₀⟩ := hi.reserved.minted c₀ call₀ hc₀ hkind₀
      cases command with
      | capture => cases hkind
      | create =>
        rw [hres₀] at heq
        exact hfresh (Uuid.uuidOut_inj heq ▸ hu)
    rcases h.call_origin hc with ⟨call₀, hc₀, hk⟩ | ⟨hnone, command, reserved, -, hfresh, -, rfl⟩ <;>
      rcases h.call_origin hc' with ⟨call₀', hc₀', hk'⟩ | ⟨hnone', command', reserved', -, hfresh', -, rfl⟩
    · rw [hk.command] at hkind
      rw [hk'.command] at hkind'
      exact hi.reserved.own c call₀ c' call₀' hc₀ hc₀' hkind hkind' (by rw [← hk.resourceId, ← hk'.resourceId, hres])
    · rw [hk.command] at hkind
      rw [hk.resourceId] at hres
      exact absurd hres (hnew hc₀ hkind hkind' hfresh')
    · rw [hk'.command] at hkind'
      rw [hk'.resourceId] at hres
      exact absurd hres.symm (hnew hc₀' hkind' hkind hfresh)
    · by_contra hne
      have hca : c = a.call := by
        by_contra hca
        rw [h.calls_of_ne hca, hnone] at hc; cases hc
      have hca' : c' = a.call := by
        by_contra hca'
        rw [h.calls_of_ne hca', hnone'] at hc'; cases hc'
      exact hne (hca.trans hca'.symm)
  capture c call hc cmd hcmd := by
    rcases h.call_origin hc with ⟨call₀, hc₀, hk⟩ | ⟨-, command, reserved, -, -, -, rfl⟩
    · rw [hk.command] at hcmd
      rw [hk.resourceId]; exact hi.reserved.capture c call₀ hc₀ cmd hcmd
    · obtain rfl : command = .capture cmd := hcmd
      rfl
  begun r hr hcreate := by
    rcases h.record_origin hi hr with ⟨x, hx, hxr⟩ | ⟨call, env, call', hc, hadm, hc', hk, hb⟩
    · rw [hxr.isOf] at hcreate
      obtain ⟨c, call, u, hc, hkind, hu, hres, hb⟩ := hi.reserved.begun x hx hcreate
      obtain ⟨call', hc', hk⟩ := h.call_kept hc
      exact ⟨c, call', u, hc', by rw [hk.command]; exact hkind, by rw [hxr.resourceId]; exact hu,
        by rw [hk.resourceId]; exact hres, hk.advances.beforeInsert hb⟩
    · have hkind : call.command.kind = .create := IdempotencyRecord.kind_unique hadm.isOf hcreate
      obtain ⟨u, -, hres⟩ := hi.reserved.minted a.call call hc hkind
      obtain ⟨v, hv, hrv⟩ := hadm.resourceId
      have hv' : Uuid.uuidIn call.resourceId = some v := hv
      rw [hres, Uuid.uuidIn_uuidOut] at hv'
      exact ⟨a.call, call', u, hc', by rw [hk.command]; exact hkind, by rw [hrv, ← hv'],
        by rw [hk.resourceId]; exact hres, hb⟩

end Reserved

/-! ## A call's own step -/

section Own

variable {cfg : Config} {s s' : State} {a : Action} {c : CallId} {call : Call} {server : Server schema Session}

@[simp] theorem Call.reject_started (call : Call) (e : Err) : (call.reject e).started? = call.await.started? := by
  unfold Call.reject
  cases call.await with
  | markFailed => cases call.command <;> rfl
  | _ => rfl

/-- A call that fails has no open writes to answer for. -/
theorem Call.reject_tx {e : Err} {command : Command} (h : call.await.mode ≠ .idle) :
    TxInv cfg server c command (call.reject e) := by
  unfold Call.reject
  cases hawait : call.await with
  | markFailed => cases call.command <;> trivial
  | authorize | capture | returned | refused | failed | crashed => rw [hawait] at h; exact absurd rfl h
  | _ => trivial

theorem Call.reject_afterTransaction {e : Err} (h : call.await.afterTransaction = true) :
    (call.reject e).afterTransaction = true := by
  unfold Call.reject
  cases hawait : call.await <;> simp only [hawait, Await.afterTransaction, Bool.false_eq_true] at h
  · cases call.command <;> rfl
  all_goals rfl

theorem Call.afterAcquired_started {r : IdempotencyRecord} {d : Started}
    (h : (call.afterAcquired (buildStartedDecision r)).started? = some d) :
    r.id = d.recordId ∧ r.resourceId = some d.resourceId ∧ r.processingToken = d.processingToken := by
  unfold buildStartedDecision at h
  split at h
  · cases h
  · rename_i u hu
    simp only [Call.afterAcquired, Call.afterStarted_started, Option.some.injEq] at h
    subst h
    exact ⟨rfl, hu, rfl⟩

/-- The record a call goes on with is the call's own: it was begun for its request, and its token is new. -/
theorem Ran.owns {env : Env} {db : Db} {aw : Await} {o : Outcome} {d : Started} (h : Ran cfg env db call aw o)
    (hm : ∀ id, aw = .reactivateFailed id ∨ aw = .takeoverExpiredProcessing id →
      ∃ r, db.idempotency.get? id = some r ∧ call.command.Matches cfg r)
    (hd : o.next.started? = some d) : aw.started? = some d ∨
      aw.mode = .pool ∧ Owns cfg (schema.applyAll db o.writes) call.command d ∧ d.processingToken = env.uuid := by
  cases h with
  | replayed | refused | toInsert | toReactivate | toTakeover | conflict | committed => cases hd
  | insertedPayment | noPayment | updatedPayment | notUpdated | recorded | completed | rolledBack | markedFailed
  | idle => exact .inl hd
  | @lockedPayment d' _ _ p =>
    rcases Call.afterLock_cases cfg d' p with ⟨e, -, he⟩ | ⟨provider, input, -, he⟩ <;> rw [he] at hd <;>
      exact .inl hd
  | @inserted r resourceId hadm _ hn hres =>
    simp only [Call.afterStarted_started, Option.some.injEq] at hd
    subst hd
    exact .inr ⟨rfl, ⟨r, Table.get?_insert_self hn, hadm.matches, hres⟩, hadm.processingToken⟩
  | @acquired _ id r lease hor hg _ =>
    obtain ⟨hid, hres, htok⟩ := call.afterAcquired_started hd
    obtain ⟨r', hr', hmatch⟩ := hm id (hor.imp And.left And.left)
    obtain rfl : r = r' := by rw [hg] at hr'; exact Option.some.inj hr'
    refine .inr ⟨by rcases hor with ⟨rfl, -⟩ | ⟨rfl, -⟩ <;> rfl,
      ⟨r.acquired lease env.uuid env.dbNow, ?_, hmatch.of_same (.acquired ..), hres⟩, htok.symm⟩
    rw [← hid]
    refine Table.get?_put_self (x := r) ?_
    change db.idempotency.get? r.id = some r
    rw [Table.key_of_get? hg]; exact hg

/-- A stored record that a lookup finds was begun for the call's scope and key. -/
theorem Ledger.RecordsInv.matches_of_find {l : Ledger} {command : Command} {r : IdempotencyRecord}
    (hi : l.RecordsInv cfg)
    (hr : IdempotencyDataAccess.findByScopeAndKey l.db command.scope command.idempotencyKey = some r)
    (hh : r.requestHash = command.requestHash cfg) : l.db.idempotency.get? r.id = some r ∧ command.Matches cfg r := by
  obtain ⟨hmem, hscope, hkey⟩ := IdempotencyDataAccess.findByScopeAndKey_some hr
  obtain ⟨h1, h2⟩ := hi.stored r hmem
  exact ⟨Table.mem_iff.1 hmem, by rw [← hscope]; exact h1, by rw [← hkey]; exact h2, hh⟩

/-- What a statement outside a transaction leaves a call with. -/
theorem Ran.pool_tx {env : Env} {aw : Await} {o : Outcome} (hrec : s.ledger.RecordsInv cfg)
    (h : Ran cfg env s.db call aw o) (hmode : aw.mode = .pool) (htx : TxInv cfg s.server c call.command aw)
    (hp : server.pending (.tx c) = s.server.pending (.tx c))
    (hdb : server.committed = schema.applyAll s.db o.writes) : TxInv cfg server c call.command o.next := by
  have hfind : ∀ {aw' : Await}, aw'.Finds → TxInv cfg s.server c call.command aw' → server.pending (.tx c) = none := by
    rintro aw' (rfl | rfl) htx <;> exact hp.trans htx
  have hstart : ∀ d, server.pending (.tx c) = none → TxInv cfg server c call.command (call.afterStarted d) := by
    intro d hnone
    unfold Call.afterStarted
    split
    · rename_i cmd hcmd; exact ⟨hnone, hcmd⟩
    · rename_i cmd hcmd; exact ⟨hnone, cmd, hcmd, rfl⟩
  cases h with
  | refused | markedFailed => trivial
  | idle hidle => rw [hmode] at hidle; cases hidle
  | insertedPayment | noPayment | lockedPayment | updatedPayment | notUpdated | recorded | completed | committed
  | rolledBack => simp [Await.mode] at hmode
  | toInsert => exact hp.trans htx
  | conflict => exact hp.trans htx
  | toReactivate ha hr hh | toTakeover ha hr hh =>
    have hm := hrec.matches_of_find hr hh
    refine ⟨hfind ha htx, _, ?_, hm.2⟩
    rw [hdb]; exact hm.1
  | @replayed _ r ha hr hh hs =>
    have hm := hrec.matches_of_find hr hh
    obtain ⟨command, p, -, hcode, hbody, -⟩ := hrec.completed r (Table.mem_of_get? hm.1) hs
    refine ⟨r, (toDto p).jsonb, ?_, hm.2, hs, ?_, hbody, ?_⟩
    · rw [hdb]; exact hm.1
    · rw [hcode]; rfl
    · rw [hbody]; exact .refl _
  | inserted => exact hstart _ (hp.trans htx)
  | @acquired _ id r lease hor =>
    have hnone : server.pending (.tx c) = none := by
      rcases hor with ⟨rfl, -⟩ | ⟨rfl, -⟩ <;> exact hp.trans htx.1
    unfold buildStartedDecision
    split
    · trivial
    · exact hstart _ hnone

theorem nullableText_distinct (v : Option String) : (nullableText v).Distinct := by
  cases v
  · exact .null
  · exact .str _

theorem toDto_distinct (p : PaymentRecord) : (toDto p).Distinct := by
  refine .obj ?_ ?_
  · change ["id", "merchantId", "amountMinor", "currency", "status", "provider", "providerPaymentId", "failureCode",
      "failureMessage", "capturedAt", "createdAt"].Nodup
    decide
  · simp only [List.forall_mem_cons, List.not_mem_nil, false_implies, implies_true, and_true]
    exact ⟨.str _, .str _, .num _, .str _, .str _, .str _, nullableText_distinct _, nullableText_distinct _,
      nullableText_distinct _, nullableText_distinct _, .str _⟩

/-- The payment a capture call locks is the one its record reserves. -/
theorem Owns.paymentId {db : Db} {cmd : CapturePaymentCommand} {d : Started} {id : Uuid}
    (hres : ∀ r ∈ db.idempotency.rows, ∃ u, r.resourceId = some u ∧ (r.isOf .create = true ∨
      ∃ paymentId, r.scope = "payments:capture:" ++ paymentId ∧ Uuid.uuidIn paymentId = some u))
    (h : Owns cfg db (.capture cmd) d) (hid : Uuid.uuidIn cmd.paymentId = some id) : id = d.resourceId := by
  obtain ⟨r, hr, hm, hrd⟩ := h
  obtain ⟨u, hu, hor⟩ := hres r (Table.mem_of_get? hr)
  rcases hor with hcreate | ⟨paymentId, hscope, hpid⟩
  · exact nomatch IdempotencyRecord.kind_unique hm.isOf hcreate
  · have hsc := Ledger.RecordsInv.scope_of_capture hm.scope hid
    have heq : paymentId = cmd.paymentId := by
      rw [hscope] at hsc
      exact String.toList_inj.1 (List.append_cancel_left (by rw [← String.toList_append, ← String.toList_append, hsc]))
    rw [heq, hid] at hpid
    rw [hu] at hrd
    exact (Option.some.inj hpid).trans (Option.some.inj hrd)

/-- What a statement inside a transaction leaves a call with. -/
theorem Ran.staged_tx {env : Env} {o : Outcome} {aw : Await} (hrec : s.ledger.RecordsInv cfg)
    (h : Ran cfg env s.db call aw o) (hmode : aw.mode = .opening ∨ aw.mode = .inside)
    (hown : ∀ d, aw.started? = some d → Owns cfg s.db call.command d)
    (htx : TxInv cfg s.server c call.command aw)
    (hs : (s.opened c aw.mode).stage (.tx c) o.writes o.locks = some server) :
    TxInv cfg server c call.command o.next := by
  obtain ⟨ws₀, hp₀, -, hdb, -, hp, hl⟩ := Server.stage_eq_some hs
  rw [(opened_committed s c aw.mode).1] at hdb
  have hws : ∀ ws, server.pending (.tx c) = some ws → ws = ws₀ ++ o.writes := by
    intro ws hws
    rw [hp, Function.update_self] at hws
    exact (Option.some.inj hws).symm
  have hopening : aw.mode = .opening → s.server.pending (.tx c) = none → ws₀ = [] := by
    intro hm hnone
    rw [hm] at hp₀
    rw [State.opened, Server.begin_pending hnone, Function.update_self] at hp₀
    exact (Option.some.inj hp₀).symm
  have hinside : aw.mode = .inside → s.server.pending (.tx c) = some ws₀ := by
    intro hm
    rw [hm] at hp₀; exact hp₀
  cases h with
  | replayed ha | toReactivate ha | toTakeover ha => rcases ha with rfl | rfl <;> simp [Await.mode] at hmode
  | acquired hor => rcases hor with ⟨rfl, -⟩ | ⟨rfl, -⟩ <;> simp [Await.mode] at hmode
  | toInsert | conflict | inserted | committed | rolledBack | markedFailed => simp [Await.mode] at hmode
  | idle hidle => rw [hidle] at hmode; simp at hmode
  | refused | noPayment | notUpdated => trivial
  | @insertedPayment d record recording p hadm hn =>
    obtain ⟨hnone, cmd, now, authorization, hcmd, rfl, rfl⟩ := htx
    intro ws h
    obtain rfl := hopening rfl hnone
    exact ⟨_, hws ws h, by rw [hdb]; exact .create hcmd hadm hn⟩
  | @lockedPayment d paymentId id p hid hg =>
    obtain ⟨hnone, cmd, hcmd, rfl⟩ := htx
    obtain rfl := hopening rfl hnone
    have hown := hown d rfl
    rw [hcmd] at hown
    obtain rfl := hown.paymentId hrec.resource hid
    rcases Call.afterLock_cases cfg d p with ⟨e, -, he⟩ | ⟨provider, input, hb, he⟩ <;> rw [he]
    · trivial
    · refine ⟨⟨cmd, hcmd⟩, hb, fun ws h => ⟨hws ws h, ?_, by rw [hdb]; exact hg⟩⟩
      rw [hl]; simp
  | @updatedPayment d input recording p p' hg hst hu =>
    obtain ⟨cmd, payment, now, captureResult, hcmd, rfl, rfl, htx⟩ := htx
    obtain ⟨rfl, -, hg'⟩ := htx ws₀ (hinside rfl)
    intro ws h
    have hid : payment.id = d.resourceId := Table.key_of_get? hg'
    obtain rfl : p = payment := by
      have hg : s.server.committed.payments.get? payment.id = some p := hg
      rw [hid, hg'] at hg; exact (Option.some.inj hg).symm
    exact ⟨_, hws ws h, by rw [hdb]; exact .capture hcmd hg' hst hu⟩
  | @recorded d payment recording e hrecd hn =>
    obtain ⟨w, rfl, hc⟩ := htx ws₀ (hinside rfl)
    intro ws h
    exact ⟨recording, w, env, e, hws ws h, by rw [hdb]; exact hc, hrecd, by rw [hdb]; exact hn⟩
  | @completed d payment r expiresAt hg hst htok =>
    obtain ⟨recording, w, env', e, rfl, hc, hrecd, hn⟩ := htx ws₀ (hinside rfl)
    intro ws h
    have hrid := Table.key_of_get? hg
    obtain ⟨r', hr', hm, hres⟩ := hown d rfl
    obtain rfl : r = r' := by rw [hg] at hr'; exact Option.some.inj hr'
    refine ⟨payment, recording, w, env', e, r, expiresAt, env.dbNow, by rw [hdb]; exact hc, hrecd,
      by rw [hdb]; exact hn, ?_, hm, by rw [hc.id]; exact hres, hst, hrid, htok, rfl, hws ws h⟩
    rw [hdb, hrid]; exact hg

/-- A call whose transaction commits has its answer stored. -/
theorem Settles.answered {db : Db} {command : Command} {d : Started} {body : Json String} {ws : List Write}
    (h : Settles cfg db command d body ws) : Answered cfg (schema.applyAll db ws) command command.statusCode body := by
  obtain ⟨p, recording, w, env, e, r, expiresAt, now, hc, -, -, hr, hm, hres, -, -, -, rfl, rfl⟩ := h
  have hs := IdempotencyRecord.SameIdentity.markedCompleted hres command.statusCode (toDto p).jsonb expiresAt now
  refine ⟨_, _, ?_, hm.of_same hs, rfl, rfl, rfl, Json.same_jsonb (toDto_distinct p)⟩
  change ((w.apply db).idempotency.put _).get? _ = _
  rw [hc.idempotency]
  exact Table.get?_put_self (x := r) hr

theorem Await.afterTransaction_mode {aw : Await} (h : aw.afterTransaction = true) :
    aw.mode = .pool ∨ aw.mode = .idle := by
  cases aw <;> simp [Await.afterTransaction, Await.mode] at h ⊢

theorem TxInv.of_afterTransaction {command : Command} {aw : Await} (h : aw.afterTransaction = true) :
    TxInv cfg server c command aw := by
  cases aw <;> simp only [Await.afterTransaction, Bool.false_eq_true] at h <;> trivial

/-- A call whose transaction is not open has no writes to answer for. -/
theorem TxInv.of_none {command : Command} {aw : Await} (hp : server.pending (.tx c) = none)
    (hdb : server.committed = s.server.committed) (h : TxInv cfg s.server c command aw) :
    TxInv cfg server c command aw := by
  have hws : ∀ {P : List Write → Prop}, ∀ ws, server.pending (.tx c) = some ws → P ws := by
    intro P ws h; rw [hp] at h; cases h
  cases aw with
  | findByScopeAndKey | tryInsertProcessing | findAfterConflict => exact hp
  | reactivateFailed | takeoverExpiredProcessing => exact ⟨hp, by rw [hdb]; exact h.2⟩
  | authorize | insertPayment | findByIdForUpdate => exact ⟨hp, h.2⟩
  | capture => exact ⟨h.1, h.2.1, hws⟩
  | updateStatusIfAuthorized =>
    obtain ⟨cmd, payment, now, captureResult, hcmd, hin, hrec, -⟩ := h
    exact ⟨cmd, payment, now, captureResult, hcmd, hin, hrec, hws⟩
  | recordEvent | markCompleted | commit => exact hws
  | returned => rw [TxInv, hdb]; exact h
  | rollback | markFailed | refused | failed | crashed => trivial

variable {await : Await} {minted : List Uuid}

/-- The invariant of a call that goes on from a decision it keeps, with nothing in doubt that was not. -/
theorem CallInv.goOn {new : Call} (h : CallInv cfg s c call) (he : s.ledger.Evolves s'.ledger)
    (hcmd : new.command = call.command) (hown : ∀ d, new.await.started? = some d → call.await.started? = some d)
    (htx : TxInv cfg s'.server c call.command new.await)
    (hpast : new.inDoubt = true → new.await.afterTransaction = true)
    (hdoubt : new.inDoubt = true → ∀ ws, s'.server.pending (.tx c) = some ws →
      ∃ d body, new.await.started? = some d ∧ Settles cfg s'.db call.command d body ws) : CallInv cfg s' c new where
  owns d hd := by
    obtain ⟨h1, h2⟩ := h.owns d (hown d hd)
    exact ⟨by rw [hcmd]; exact h1.evolves he, he.minted _ h2⟩
  tx := by rw [hcmd]; exact htx
  past := hpast
  doubt := by rw [hcmd]; exact hdoubt

theorem CallInv.not_inDoubt (h : CallInv cfg s c call) (ha : call.await.afterTransaction = false) :
    call.inDoubt = false := by
  by_contra hne
  have := h.past (by simpa using hne)
  rw [ha] at this; cases this

theorem Ran.afterTransaction {env : Env} {db : Db} {aw : Await} {o : Outcome} (h : Ran cfg env db call aw o)
    (ha : aw.afterTransaction = true) : o.next.afterTransaction = true := by
  cases h with
  | replayed hf | toReactivate hf | toTakeover hf => rcases hf with rfl | rfl <;> cases ha
  | refused hm hs => cases aw <;> simp [Await.afterTransaction, Await.mode, Await.started?] at ha hm hs
  | acquired hor => rcases hor with ⟨rfl, -⟩ | ⟨rfl, -⟩ <;> cases ha
  | markedFailed => rfl
  | idle => exact ha
  | _ => cases ha

theorem Ran.staged_started {env : Env} {db : Db} {aw : Await} {o : Outcome} {d : Started} (h : Ran cfg env db call aw o)
    (hmode : aw.mode = .opening ∨ aw.mode = .inside) (hd : o.next.started? = some d) : aw.started? = some d := by
  rcases h.owns (fun id hor => by rcases hor with rfl | rfl <;> simp [Await.mode] at hmode) hd with hd | ⟨hpool, -⟩
  · exact hd
  · rw [hpool] at hmode; simp at hmode

/-- A call keeps the invariant when a statement of it outside a transaction takes effect. -/
theorem CallInv.pool {env : Env} {o : Outcome} {next : Await} (hi : Inv cfg s) (hrec : s.ledger.RecordsInv cfg)
    (hc : s.calls c = some call) (hmode : call.await.mode = .pool) (hran : Ran cfg env s.db call call.await o)
    (hs : s.server.autocommit (.pool c) o.writes = some server) (hnext : next = o.next ∨ ∃ e, next = call.reject e)
    (he : s.ledger.Evolves (s.moved c call next server (env.uuid :: env.uuid' :: s.minted)).ledger) :
    CallInv cfg (s.moved c call next server (env.uuid :: env.uuid' :: s.minted)) c { call with await := next } := by
  have hcall := hi.calls c call hc
  obtain ⟨-, hdb, -, -, hpend⟩ := Server.autocommit_eq_some hs
  have hp : server.pending (.tx c) = s.server.pending (.tx c) := by rw [hpend]
  have hne : Session.tx c ≠ Session.pool c := fun h => by cases h
  have hu : Server.Undisturbed (.tx c) s.server server := .of_autocommit hne hs
  have hadv : call.await.Advances next := by
    rcases hnext with rfl | ⟨e, rfl⟩
    · exact hran.advances
    · exact call.reject_advances e
  have hafter : call.await.afterTransaction = true → next.afterTransaction = true := by
    intro h
    rcases hnext with rfl | ⟨e, rfl⟩
    · exact hran.afterTransaction h
    · exact Call.reject_afterTransaction h
  refine ⟨fun d hd => ?_, ?_, fun hd => hafter (hcall.past hd), fun hd ws hws => ?_⟩
  · have hkept : call.await.started? = some d → Owns cfg server.committed call.command d ∧
        d.processingToken ∈ env.uuid :: env.uuid' :: s.minted :=
      fun hd => ⟨(hcall.owns d hd).1.evolves he, he.minted _ (hcall.owns d hd).2⟩
    have hm : ∀ id, call.await = .reactivateFailed id ∨ call.await = .takeoverExpiredProcessing id →
        ∃ r, s.db.idempotency.get? id = some r ∧ call.command.Matches cfg r := by
      intro id hor
      have htx := hcall.tx
      rcases hor with hawait | hawait <;> rw [hawait] at htx <;> exact htx.2
    rcases hnext with rfl | ⟨e, rfl⟩
    · rcases hran.owns hm hd with hd | ⟨-, hown, htok⟩
      · exact hkept hd
      · exact ⟨by rw [State.db, State.moved, hdb]; exact hown, by rw [htok]; exact List.mem_cons_self⟩
    · exact hkept (by rw [← call.reject_started e]; exact hd)
  · rcases hnext with rfl | ⟨e, rfl⟩
    · change TxInv cfg server c call.command o.next
      exact hran.pool_tx hrec hmode hcall.tx hp hdb
    · exact Call.reject_tx (by rw [hmode]; decide)
  · have hws : s.server.pending (.tx c) = some ws := hp.symm.trans hws
    obtain ⟨d, body, hstart, hset⟩ := hcall.doubt hd ws hws
    refine ⟨d, body, ?_, hset.undisturbed hu hws⟩
    rcases hadv.started d hstart with h | ⟨statusCode, body', hret⟩
    · exact h
    · have := hafter (hcall.past hd)
      rw [hret] at this; cases this

/-- After a step of its own, a call keeps the invariant. -/
theorem CallInv.own_step (hi : Inv cfg s) (hrec : s.ledger.RecordsInv cfg) (h : StepCase cfg s a s') {call' : Call}
    (hc' : s'.calls a.call = some call') : CallInv cfg s' a.call call' := by
  have he : s.ledger.Evolves s'.ledger := .of_step (ledger_step hi h)
  have hnew : ∀ {c : CallId} {new : Call} {calls : CallId → Option Call},
      Function.update calls c (some new) c = some call' → new = call' := by
    intro c new calls h
    rw [Function.update_self] at h
    exact Option.some.inj h
  cases h with
  | @started c command reserved hnone _ =>
    obtain rfl := hnew hc'
    exact ⟨fun _ h => (by cases h), hi.idle c hnone, fun h => (by cases h), fun h => (by cases h)⟩
  | @pool a c env call o next server hc hfresh hmode hrun hs ha =>
    obtain rfl : a.call = c := by rcases ha with ⟨rfl, -⟩ | ⟨m, rfl, -⟩ <;> rfl
    obtain rfl := hnew hc'
    exact .pool hi hrec hc hmode (ran_of_run hrun) hs (ha.imp And.right fun h => h.elim fun _ hm => ⟨_, hm.2⟩) he
  | @staged c env call o server hc _ hmode hrun hs =>
    obtain rfl := hnew hc'
    have hran := ran_of_run hrun
    have hcall := hi.calls c call hc
    have hdoubt := hcall.not_inDoubt (by cases hawait : call.await <;>
        simp [hawait, Await.mode, Await.afterTransaction] at hmode ⊢)
    have hstart := fun d => hran.staged_started hmode (d := d)
    exact hcall.goOn he rfl hstart (hran.staged_tx hrec hmode (fun d hd => (hcall.owns d hd).1) hcall.tx hs)
      (fun h => absurd h (by simp [hdoubt])) (fun h => absurd h (by simp [hdoubt]))
  | @committed c env call d body hc hawait hopen =>
    obtain rfl := hnew hc'
    have hcall := hi.calls c call hc
    have hdoubt := hcall.not_inDoubt (by rw [hawait]; rfl)
    obtain ⟨ws, hws⟩ := Option.isSome_iff_exists.1 hopen
    have htx := hcall.tx
    rw [hawait] at htx
    refine hcall.goOn he rfl (fun _ h => by cases h) ?_ (fun h => absurd h (by simp [hdoubt]))
      (fun h => absurd h (by simp [hdoubt]))
    have := (htx ws hws).answered
    rwa [← Server.commit_committed hws] at this
  | @rolledBack c env call d error hc hawait =>
    obtain rfl := hnew hc'
    have hcall := hi.calls c call hc
    have hdoubt := hcall.not_inDoubt (by rw [hawait]; rfl)
    exact hcall.goOn he rfl (fun d hd => by rw [hawait]; exact hd) trivial (fun _ => rfl)
      (fun h => absurd h (by simp [hdoubt]))
  | @rejected a c call e minted hc hmode ha =>
    obtain rfl : a.call = c := by rcases ha with ⟨env, rfl, -⟩ | ⟨m, rfl, -⟩ <;> rfl
    obtain rfl := hnew hc'
    have hcall := hi.calls _ call hc
    refine hcall.goOn he rfl (fun d hd => by rw [← call.reject_started e]; exact hd) (Call.reject_tx hmode)
      (fun h => Call.reject_afterTransaction (hcall.past h)) fun hd ws hws => ?_
    have hpool : call.await.mode = .pool :=
      (Await.afterTransaction_mode (hcall.past hd)).resolve_right hmode
    have hserver : State.abandon s.server a.call call.await.mode = s.server := by rw [hpool]; rfl
    obtain ⟨d, body, hstart, hset⟩ := hcall.doubt hd ws (by rw [← hserver]; exact hws)
    refine ⟨d, body, by rw [call.reject_started]; exact hstart, ?_⟩
    rw [State.db, State.moved, hserver]; exact hset
  | @answered c now answer call next hc hnext =>
    obtain rfl := hnew hc'
    have hcall := hi.calls c call hc
    have hcase := provider_cases hnext
    have htx := hcall.tx
    have hdoubt := hcall.not_inDoubt (by generalize call.await = aw at hcase; cases hcase <;> rfl)
    refine hcall.goOn he rfl ?_ ?_ (fun h => absurd h (by simp [hdoubt])) (fun h => absurd h (by simp [hdoubt]))
    · generalize call.await = aw at hcase
      cases hcase <;> exact fun d hd => hd
    · generalize call.await = aw at hcase htx
      cases hcase with
      | authorized => exact ⟨htx.1, _, _, _, htx.2, rfl, rfl⟩
      | captured =>
        obtain ⟨⟨cmd, hcmd⟩, -, hws⟩ := htx
        exact ⟨cmd, _, _, _, hcmd, rfl, rfl, hws⟩
      | authorizeThrew | captureThrew => trivial
  | @commitLost c m call d body hc hawait =>
    obtain rfl := hnew hc'
    have hcall := hi.calls c call hc
    have htx := hcall.tx
    rw [hawait] at htx
    exact hcall.goOn he rfl (fun d hd => by rw [hawait]; exact hd) trivial (fun _ => rfl)
      fun _ ws hws => ⟨d, body, rfl, htx ws hws⟩
  | @lateCommit c call hc hdoubt hopen =>
    obtain rfl : call = call' := Option.some.inj (hc.symm.trans hc')
    have hcall := hi.calls c call hc
    have hnone : (s.server.commit (.tx c)).pending (.tx c) = none := by simp
    exact hcall.goOn he rfl (fun d hd => hd) (.of_afterTransaction (hcall.past hdoubt)) hcall.past
      fun _ ws hws => by rw [hnone] at hws; cases hws
  | @sessionLost c hopen =>
    have hcall := hi.calls c call' hc'
    have hnone : (s.server.rollback (.tx c)).pending (.tx c) = none := by simp
    exact hcall.goOn he rfl (fun d hd => hd) (hcall.tx.of_none hnone Server.rollback_committed) hcall.past
      fun _ ws hws => by rw [hnone] at hws; cases hws
  | @crashed c call hc hover =>
    obtain rfl := hnew hc'
    have hcall := hi.calls c call hc
    exact hcall.goOn he rfl (fun d hd => hd) trivial (fun _ => rfl) hcall.doubt

end Own

/-! ## Runs -/

section Runs

variable {cfg : Config} {s s' : State} {a : Action} {ok : State → Action → Prop}

theorem Inv.init (cfg : Config) : Inv cfg (service cfg).init where
  ledger := .refl
  idle _ _ := rfl
  calls _ _ h := nomatch h
  reserved := ⟨(fun _ _ h => nomatch h), (fun _ _ _ _ h => nomatch h), (fun _ _ h => nomatch h), (fun _ h => nomatch h)⟩

theorem Inv.records (hi : Inv cfg s) : s.ledger.RecordsInv cfg := .of_reachable hi.ledger

/-- Every step of the service keeps the invariant. -/
theorem Inv.step (hi : Inv cfg s) (hs : (service cfg).step s a = some s') : Inv cfg s' := by
  have h : StepCase cfg s a s' := step_cases hs
  have hl := ledger_step hi h
  refine ⟨hi.ledger.tail hl, fun c hc => ?_, fun c call hc => ?_, .step hi h⟩
  · by_cases hca : c = a.call
    · subst hca
      have hnone : s.calls a.call = none := by
        by_contra hne
        obtain ⟨call, hcall⟩ := Option.ne_none_iff_exists'.1 hne
        obtain ⟨call', hc', -⟩ := h.call_kept hcall
        rw [hc] at hc'; cases hc'
      exact absurd (h.acting hc) (by rw [hi.idle _ hnone]; nofun)
    · have hu := h.undisturbed hca
      rw [hu.pending, hi.idle c (by rw [← h.calls_of_ne hca]; exact hc)]
  · by_cases hca : c = a.call
    · subst hca
      exact .own_step hi hi.records h hc
    · rw [h.calls_of_ne hca] at hc
      exact (hi.calls c call hc).undisturbed (h.undisturbed hca) (.of_step hl)

/-- The invariant holds in every reachable state. -/
theorem inv_of_reach (h : (service cfg).Reach ok s) : Inv cfg s :=
  h.invariant (Inv.init cfg) fun _ _ _ hi _ hs => hi.step hs

theorem inv_of_steps (hi : Inv cfg s) (h : (service cfg).Steps ok s s') : Inv cfg s' :=
  h.invariant hi fun _ _ _ hi _ hs => hi.step hs

/-- A property that the service's steps keep where the invariant holds. -/
theorem reach_induction {P : State → Prop} (h : (service cfg).Reach ok s) (hinit : P (service cfg).init)
    (hstep : ∀ s a s', Inv cfg s → P s → ok s a → StepCase cfg s a s' → P s') : P s :=
  System.Steps.invariant_of h (Inv.init cfg) (fun _ _ _ hi _ hs => hi.step hs) hinit
    fun _ _ _ hi hp hok hs => hstep _ _ _ hi hp hok (step_cases hs)

/-- A call stays, and goes on with what it has decided. -/
theorem call_of_steps {c : CallId} {call : Call} (hc : s.calls c = some call) (h : (service cfg).Steps ok s s') :
    ∃ call', s'.calls c = some call' ∧ call.Kept call' := by
  induction h with
  | refl => exact ⟨call, hc, .refl call⟩
  | tail _ _ hs ih =>
    obtain ⟨call', hc', hk⟩ := ih
    obtain ⟨call'', hc'', hk'⟩ := (step_cases hs).call_kept hc'
    exact ⟨call'', hc'', hk.trans hk'⟩

theorem over_of_steps {c : CallId} {call : Call} (hc : s.calls c = some call) (hover : call.await.isOver = true)
    (h : (service cfg).Steps ok s s') : s'.calls c = some call :=
  h.invariant (P := fun s => s.calls c = some call) hc fun _ _ _ hc _ hs => (step_cases hs).call_over hc hover

/-- A run of the service is a run of the ledger. -/
theorem ledger_of_steps (hi : Inv cfg s) (h : (service cfg).Steps ok s s') :
    Relation.ReflTransGen (Ledger.Step cfg) s.ledger s'.ledger := by
  induction h with
  | refl => exact .refl
  | tail h' _ hs ih => exact ih.tail (ledger_step (inv_of_steps hi h') (step_cases hs))

/-- The committed tables of a reachable state are those of a reachable ledger. -/
theorem ledger_of_reach (h : (service cfg).Reach ok s) : Ledger.Reachable cfg s.ledger := (inv_of_reach h).ledger

theorem evolves_of_steps (hi : Inv cfg s) (h : (service cfg).Steps ok s s') : s.ledger.Evolves s'.ledger :=
  .of_steps (ledger_of_steps hi h)

/-- What a step adds to the history of the committed tables, and who wrote it. -/
inductive LogCase (cfg : Config) (s s' : State) (a : Action) : Prop
  | silent : s'.db = s.db → s'.server.log = s.server.log → LogCase cfg s s' a
  /-- A statement outside a transaction. -/
  | pool {env call o} : s.calls a.call = some call → s.fresh env = true → call.await.mode = .pool →
      Ran cfg env s.db call call.await o → s'.db = schema.applyAll s.db o.writes →
      s'.server.log = s.server.log ++ o.writes.map (.pool a.call, ·) → LogCase cfg s s' a
  /-- A transaction. -/
  | commit {call d body ws} : s.calls a.call = some call → call.await.started? = some d →
      Settles cfg s.db call.command d body ws → s'.db = schema.applyAll s.db ws →
      s'.server.log = s.server.log ++ ws.map (.tx a.call, ·) → LogCase cfg s s' a

theorem log_cases (hi : Inv cfg s) (h : StepCase cfg s a s') : LogCase cfg s s' a := by
  have hcommit : ∀ {call}, s.calls a.call = some call →
      ((∃ d body, call.await = .commit d body) ∨ call.inDoubt = true) → (s.server.pending (.tx a.call)).isSome = true →
      s'.server = s.server.commit (.tx a.call) → LogCase cfg s s' a := by
    intro call hc hor hopen hserver
    obtain ⟨ws, hws⟩ := Option.isSome_iff_exists.1 hopen
    obtain ⟨d, body, hd, hset⟩ := hi.settles hc hor hws
    exact .commit hc hd hset (by rw [State.db, hserver, Server.commit_committed hws])
      (by rw [hserver, Server.commit_log hws])
  cases h with
  | started | answered | commitLost | crashed => exact .silent rfl rfl
  | rolledBack | sessionLost => exact .silent Server.rollback_committed Server.rollback_log
  | rejected => exact .silent (abandon_committed ..).1 (abandon_committed ..).2
  | staged _ _ _ _ hs =>
    obtain ⟨-, -, -, hdb, hlog, -⟩ := Server.stage_eq_some hs
    exact .silent (hdb.trans (opened_committed ..).1) (hlog.trans (opened_committed ..).2)
  | pool hc hfresh hmode hrun hs ha =>
    obtain ⟨-, hdb, hlog, -⟩ := Server.autocommit_eq_some hs
    rcases ha with ⟨rfl, -⟩ | ⟨m, rfl, -⟩ <;> exact .pool hc hfresh hmode (ran_of_run hrun) hdb hlog
  | committed hc hawait hopen => exact hcommit hc (.inl ⟨_, _, hawait⟩) hopen rfl
  | lateCommit hc hdoubt hopen => exact hcommit hc (.inr hdoubt) hopen rfl

end Runs

end PaymentOrchestration
