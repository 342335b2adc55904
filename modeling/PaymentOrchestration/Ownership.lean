/-
Ownership of idempotency records: the committed history of a record is a history of the library's
fence, which is issued by an insert, a reactivation or a takeover, settled by `markCompleted` and
released by `markFailed`. So a completion carries the token issued last, and once another owner has
the record, nothing its earlier owner does is ever committed.
-/
import PaymentOrchestration.Invariant
import PaymentOrchestration.Lib.Fence

namespace PaymentOrchestration

open Lib IdempotencyService OutboxService PaymentsService

/-! ## The fence of a record -/

def IdempotencyStatus.phase : IdempotencyStatus → FencePhase
  | .processing => .held
  | .completed => .settled
  | .failed => .released

def IdempotencyRecord.fence (r : IdempotencyRecord) : Fence Uuid := ⟨r.status.phase, r.processingToken⟩

/-- What a write does to the ownership of the record `id`. -/
def Write.fenceOp? (id : Uuid) : Write → Option (FenceOp Uuid)
  | .insertIdempotency r | .acquireIdempotency r => if r.id = id then some (.issue r.processingToken) else none
  | .completeIdempotency r => if r.id = id then some (.settle r.processingToken) else none
  | .failIdempotency r => if r.id = id then some (.release r.processingToken) else none
  | .insertPayment _ | .updatePayment _ | .insertOutbox _ => none

/-- What the history did to the ownership of the record `id`. -/
def fenceHistory (id : Uuid) (log : List (Session × Write)) : List (FenceOp Uuid) :=
  log.filterMap fun e => e.2.fenceOp? id

@[simp] theorem fenceHistory_append (id : Uuid) (log log' : List (Session × Write)) :
    fenceHistory id (log ++ log') = fenceHistory id log ++ fenceHistory id log' := List.filterMap_append

theorem fenceHistory_map (id : Uuid) (t : Session) (ws : List Write) :
    fenceHistory id (ws.map (t, ·)) = ws.filterMap (Write.fenceOp? id) := by
  unfold fenceHistory; rw [List.filterMap_map]; rfl

theorem fenceOps_settled {id : Uuid} {w : Write} {e : OutboxEventRecord} {r : IdempotencyRecord}
    (hw : w.fenceOp? id = none) : [w, .insertOutbox e, .completeIdempotency r].filterMap (Write.fenceOp? id) =
      if r.id = id then [.settle r.processingToken] else [] := by
  rw [List.filterMap_cons_none hw, List.filterMap_cons_none rfl]
  by_cases hid : r.id = id <;> simp [Write.fenceOp?, hid]

section Fences

variable {cfg : Config} {l l' : Ledger} {ws : List Write} {id : Uuid}

/-- A transition does to a record's ownership one operation that the fence allows, or none. -/
theorem Transition.fence (h : Transition cfg l ws) (id : Uuid) :
    (ws.filterMap (Write.fenceOp? id) = [] ∧
      (schema.applyAll l.db ws).idempotency.get? id = l.db.idempotency.get? id) ∨
    ∃ op r', ws.filterMap (Write.fenceOp? id) = [op] ∧ (schema.applyAll l.db ws).idempotency.get? id = some r' ∧
      Fence.step ((l.db.idempotency.get? id).map IdempotencyRecord.fence) op = some r'.fence := by
  cases h with
  | @begun _ _ r hadm _ hn =>
    by_cases hid : r.id = id
    · subst hid
      refine .inr ⟨.issue r.processingToken, r, by simp [Write.fenceOp?], Table.get?_insert_self hn, ?_⟩
      rw [hn, IdempotencyRecord.fence, hadm.status]; rfl
    · exact .inl ⟨by simp [Write.fenceOp?, hid], Table.get?_insert_of_ne hid⟩
  | @acquired r lease token now hg hs =>
    by_cases hid : r.id = id
    · subst hid
      refine .inr ⟨.issue token, r.acquired lease token now, by simp [Write.fenceOp?, IdempotencyRecord.acquired],
        Table.get?_put_self (x := r) hg, ?_⟩
      rw [hg]
      have hphase : r.status.phase ≠ .settled := by
        revert hs; cases r.status <;> decide
      exact if_neg hphase
    · exact .inl ⟨by simp [Write.fenceOp?, IdempotencyRecord.acquired, hid], Table.get?_put_of_ne hid⟩
  | @failed r expiresAt now hg hs =>
    by_cases hid : r.id = id
    · subst hid
      refine .inr ⟨.release r.processingToken, r.markedFailed expiresAt now,
        by simp [Write.fenceOp?, IdempotencyRecord.markedFailed], Table.get?_put_self (x := r) hg, ?_⟩
      rw [hg]
      simp [Fence.step, IdempotencyRecord.fence, hs, IdempotencyRecord.markedFailed, IdempotencyStatus.phase]
    · exact .inl ⟨by simp [Write.fenceOp?, IdempotencyRecord.markedFailed, hid], Table.get?_put_of_ne hid⟩
  | @settled command d p recording w env e r expiresAt now hc _ _ hg _ _ hs =>
    have hw : w.fenceOp? id = none := by cases hc <;> rfl
    have ht : (schema.applyAll l.db [w, .insertOutbox e, .completeIdempotency
        (r.markedCompleted command.statusCode (toDto p).jsonb p.id expiresAt now)]).idempotency =
        l.db.idempotency.put (r.markedCompleted command.statusCode (toDto p).jsonb p.id expiresAt now) := by
      change (w.apply l.db).idempotency.put _ = _
      rw [hc.idempotency]
    rw [ht, fenceOps_settled hw]
    by_cases hid : r.id = id
    · subst hid
      refine .inr ⟨.settle r.processingToken, r.markedCompleted command.statusCode (toDto p).jsonb p.id expiresAt now,
        if_pos rfl, Table.get?_put_self (x := r) hg, ?_⟩
      rw [hg]
      simp [Fence.step, IdempotencyRecord.fence, hs, IdempotencyRecord.markedCompleted, IdempotencyStatus.phase]
    · exact .inl ⟨if_neg hid, Table.get?_put_of_ne hid⟩

/-- The history of a record is one that its fence allows, and ends with the record's row. -/
theorem Ledger.admits (h : Ledger.Reachable cfg l) (id : Uuid) :
    Fence.Admits (fenceHistory id l.log) ((l.db.idempotency.get? id).map IdempotencyRecord.fence) := by
  induction h with
  | refl => exact .nil
  | tail _ hs ih =>
    rcases hs.change with ⟨hdb, hlog⟩ | ⟨t, ws, htr, hdb, hlog, -⟩
    · rw [hdb, hlog]; exact ih
    rw [hdb, hlog, fenceHistory_append, fenceHistory_map]
    rcases htr.fence id with ⟨hops, hrow⟩ | ⟨op, r', hops, hrow, hstep⟩
    · rw [hops, hrow, List.append_nil]; exact ih
    · rw [hops, hrow]; exact ih.snoc hstep

/-- The token issued last is the one on the record's row. -/
theorem Ledger.lastIssued (h : Ledger.Reachable cfg l) (id : Uuid) :
    Fence.lastIssued (fenceHistory id l.log) = (l.db.idempotency.get? id).map IdempotencyRecord.processingToken := by
  rw [(Ledger.admits h id).lastIssued, Option.map_map]; rfl

end Fences

/-! ## Completions -/

/-- The row a `markCompleted` or a `markFailed` has written. -/
def Write.completion? : Write → Option IdempotencyRecord
  | .completeIdempotency r | .failIdempotency r => some r
  | _ => none

/-- `token` is the token of the record `id` issued last, and the record is PROCESSING. -/
def State.OwnedBy (s : State) (id token : Uuid) : Prop :=
  Fence.lastIssued (fenceHistory id s.server.log) = some token ∧
    ∃ r, s.db.idempotency.get? id = some r ∧ r.status = .processing

section Completions

variable {cfg : Config} {s s' : State} {a : Action} {c : CallId} {call : Call} {d : Started} {id token : Uuid}
  {ok : State → Action → Prop}

theorem Inv.lastIssued (hi : Inv cfg s) {r : IdempotencyRecord} (hr : s.db.idempotency.get? id = some r) :
    Fence.lastIssued (fenceHistory id s.server.log) = some r.processingToken := by
  have h := Ledger.lastIssued hi.ledger id
  rwa [show s.ledger.db.idempotency.get? id = some r from hr] at h

/-- A completion that a step commits is the owner's, under the decision it has. -/
theorem completion_owned (hi : Inv cfg s) (h : StepCase cfg s a s') {new : List (Session × Write)}
    (hnew : s'.server.log = s.server.log ++ new) {t : Session} {w : Write} (hw : (t, w) ∈ new) {r : IdempotencyRecord}
    (hr : w.completion? = some r) :
    ∃ call d, s.calls a.call = some call ∧ call.await.started? = some d ∧ d.recordId = r.id ∧
      d.processingToken = r.processingToken ∧ s.OwnedBy r.id r.processingToken := by
  cases log_cases hi h with
  | silent _ hlog =>
    rw [hlog] at hnew
    rw [List.self_eq_append_right.1 hnew] at hw; cases hw
  | @pool env call o hc hfresh hmode hran hdb hlog =>
    rw [hlog] at hnew
    obtain rfl := List.append_cancel_left hnew
    obtain ⟨w', hw', he⟩ := List.mem_map.1 hw
    cases he
    generalize hawait : call.await = aw at hran hmode
    cases hran with
    | replayed | refused | toInsert | toReactivate | toTakeover | conflict | idle | noPayment | lockedPayment
    | notUpdated | committed | rolledBack => cases hw'
    | insertedPayment | updatedPayment | recorded | completed => simp [Await.mode] at hmode
    | inserted | acquired =>
      rw [List.mem_singleton] at hw'
      subst hw'
      cases hr
    | @markedFailed d error r₀ expiresAt hg hst htok =>
      rw [List.mem_singleton] at hw'
      subst hw'
      obtain rfl := Option.some.inj hr
      have hid : r₀.id = d.recordId := Table.key_of_get? hg
      have hg' : s.db.idempotency.get? r₀.id = some r₀ := by rw [hid]; exact hg
      exact ⟨call, d, hc, by rw [hawait]; rfl, hid.symm, htok.symm, (hi.lastIssued hg' :), r₀, hg', hst⟩
  | @commit call d body ws hc hd hset hdb hlog =>
    rw [hlog] at hnew
    obtain rfl := List.append_cancel_left hnew
    obtain ⟨w', hw', he⟩ := List.mem_map.1 hw
    cases he
    obtain ⟨p, recording, w₀, env, e, r₀, expiresAt, now, hch, -, -, hg, -, -, hst, hid, htok, -, rfl⟩ := hset
    simp only [List.mem_cons, List.not_mem_nil, or_false] at hw'
    rcases hw' with rfl | rfl | rfl
    · cases hch <;> cases hr
    · cases hr
    · obtain rfl := Option.some.inj hr
      exact ⟨call, d, hc, hd, hid.symm, htok.symm, (hi.lastIssued hg :), r₀, hg, hst⟩

/-- Without the record, a completion that reaches the row finds nothing to write. -/
theorem ownershipLost_of_updateWhere {db : Db} {set : IdempotencyRecord → IdempotencyRecord}
    {write : IdempotencyRecord → Write}
    (h : ∀ r, db.idempotency.get? id = some r → ¬ (r.status = .processing ∧ r.processingToken = token)) :
    requireOwned (.ok (IdempotencyDataAccess.updateWhere db id
      (fun r => r.status = .processing ∧ r.processingToken = token) set write)) = .error ownershipLost := by
  unfold IdempotencyDataAccess.updateWhere
  split
  · rename_i r hr
    rw [if_neg (by simpa using h r hr)]; rfl
  · rfl

/-- `markFailed` of a caller that does not own the record throws, once its statement runs. -/
theorem markFailed_not_owned {env : Env} {db : Db}
    (h : ∀ r, db.idempotency.get? id = some r → ¬ (r.status = .processing ∧ r.processingToken = token)) :
    IdempotencyService.markFailed cfg env db id token = .error ownershipLost ∨
    ∃ e, IdempotencyDataAccess.markFailed db id (buildExpiresAt cfg.failedTtlMs env.now) token env.dbNow =
      .error e := by
  unfold IdempotencyService.markFailed IdempotencyDataAccess.markFailed
  cases dateColumn (buildExpiresAt cfg.failedTtlMs env.now) with
  | error e => exact .inr ⟨e, rfl⟩
  | ok expiresAt => exact .inl (ownershipLost_of_updateWhere h)

/-- `markCompleted` of a caller that does not own the record throws, once its statement runs. -/
theorem markCompleted_not_owned {env : Env} {db : Db} {statusCode : Int} {body : Json String} {resourceId : Uuid}
    (h : ∀ r, db.idempotency.get? id = some r → ¬ (r.status = .processing ∧ r.processingToken = token)) :
    IdempotencyService.markCompleted cfg env db id statusCode body "payment" resourceId token = .error ownershipLost ∨
    ∃ e, IdempotencyDataAccess.markCompleted db id statusCode body "payment" resourceId
      (buildExpiresAt cfg.completedTtlMs env.now) token env.dbNow = .error e := by
  unfold IdempotencyService.markCompleted IdempotencyDataAccess.markCompleted
  cases jsonbColumn body with
  | error e => exact .inr ⟨e, rfl⟩
  | ok body =>
    cases varcharIn 80 "payment" with
    | error e => exact .inr ⟨e, rfl⟩
    | ok resourceType =>
      cases dateColumn (buildExpiresAt cfg.completedTtlMs env.now) with
      | error e => exact .inr ⟨e, rfl⟩
      | ok expiresAt => exact .inl (ownershipLost_of_updateWhere h)

/-- The call `c` has lost the record of the decision `d` to another owner. -/
structure State.Lost (s : State) (c : CallId) (d : Started) : Prop where
  call : ∃ call, s.calls c = some call ∧
    (call.await.started? = some d ∨ ∃ statusCode body, call.await = .returned statusCode body)
  record : ∃ r, s.db.idempotency.get? d.recordId = some r ∧ r.processingToken ≠ d.processingToken
  minted : d.processingToken ∈ s.minted

theorem State.Lost.step (hi : Inv cfg s) (hl : s.Lost c d) (h : StepCase cfg s a s') : s'.Lost c d := by
  have he : s.ledger.Evolves s'.ledger := .of_step (ledger_step hi h)
  obtain ⟨⟨call, hc, hor⟩, ⟨r, hr, hne⟩, hm⟩ := hl
  obtain ⟨call', hc', hk⟩ := h.call_kept hc
  refine ⟨⟨call', hc', ?_⟩, ?_, h.minted _ hm⟩
  · rcases hor with hd | ⟨statusCode, body, hret⟩
    · exact hk.advances.started d hd
    · exact .inr ⟨statusCode, body, (hk.advances.returned _ _ hret).trans hret⟩
  · obtain ⟨r', hr', -, -, htok⟩ := he.record _ _ hr
    refine ⟨r', hr', fun heq => ?_⟩
    rcases htok with htok | hfresh
    · exact hne (htok ▸ heq)
    · exact hfresh (heq ▸ hm)

/-- A call that has lost its record commits nothing. -/
theorem State.Lost.silent (hi : Inv cfg s) (hl : s.Lost c d) (h : StepCase cfg s a s') {new : List (Session × Write)}
    (hnew : s'.server.log = s.server.log ++ new) : ∀ e ∈ new, e.1 ≠ .tx c ∧ e.1 ≠ .pool c := by
  obtain ⟨⟨call, hc, hor⟩, ⟨r, hr, hne⟩, -⟩ := hl
  intro e he
  cases log_cases hi h with
  | silent _ hlog =>
    rw [hlog] at hnew
    rw [List.self_eq_append_right.1 hnew] at he; cases he
  | @pool env call₀ o hc₀ hfresh hmode hran hdb hlog =>
    rw [hlog] at hnew
    obtain rfl := List.append_cancel_left hnew
    obtain ⟨w, hw, rfl⟩ := List.mem_map.1 he
    refine ⟨fun hcc => (by cases hcc), fun hcc => ?_⟩
    obtain rfl : a.call = c := Session.pool.inj hcc
    obtain rfl : call = call₀ := Option.some.inj (hc.symm.trans hc₀)
    rcases hor with hd | ⟨statusCode, body, hret⟩
    · generalize call.await = aw at hd hmode hran
      cases aw <;> simp only [Await.mode, Await.started?, reduceCtorEq, Option.some.injEq] at hd hmode
      subst hd
      cases hran with
      | refused _ hs => cases hs
      | idle hidle => cases hidle
      | markedFailed hg _ htok =>
        rw [hg] at hr
        exact hne (Option.some.inj hr ▸ htok)
      | replayed hf | toReactivate hf | toTakeover hf => rcases hf with hf | hf <;> cases hf
      | acquired hor => rcases hor with ⟨hf, -⟩ | ⟨hf, -⟩ <;> cases hf
    · rw [hret] at hmode; cases hmode
  | @commit call₀ d₀ body ws hc₀ hd₀ hset hdb hlog =>
    rw [hlog] at hnew
    obtain rfl := List.append_cancel_left hnew
    obtain ⟨w, hw, rfl⟩ := List.mem_map.1 he
    refine ⟨fun hcc => ?_, fun hcc => (by cases hcc)⟩
    obtain rfl : a.call = c := Session.tx.inj hcc
    obtain rfl : call = call₀ := Option.some.inj (hc.symm.trans hc₀)
    rcases hor with hd | ⟨statusCode, body, hret⟩
    · obtain rfl : d = d₀ := Option.some.inj (hd.symm.trans hd₀)
      obtain ⟨p, recording, w₀, env, e, r₀, expiresAt, now, -, -, -, hg, -, -, -, hid, htok, -⟩ := hset
      rw [hid, hr] at hg
      exact hne (Option.some.inj hg ▸ htok)
    · rw [hret] at hd₀; cases hd₀

/-- Once the record has another owner, nothing of its earlier owner is committed any more. -/
theorem stale_owner_silent (hi : Inv cfg s) (hc : s.calls c = some call) (hd : call.await.started? = some d)
    (hstale : Fence.lastIssued (fenceHistory d.recordId s.server.log) ≠ some d.processingToken)
    (h : (service cfg).Steps ok s s') :
    ∀ new, s'.server.log = s.server.log ++ new → ∀ e ∈ new, e.1 ≠ .tx c ∧ e.1 ≠ .pool c := by
  have hcall := hi.calls c call hc
  have hlost : s.Lost c d := by
    obtain ⟨⟨r, hr, -, -⟩, hm⟩ := hcall.owns d hd
    refine ⟨⟨call, hc, .inl hd⟩, ⟨r, hr, fun heq => hstale ?_⟩, hm⟩
    rw [hi.lastIssued hr, heq]
  suffices hsuff : s'.Lost c d ∧ ∀ new, s'.server.log = s.server.log ++ new → ∀ e ∈ new,
      e.1 ≠ .tx c ∧ e.1 ≠ .pool c from
    hsuff.2
  induction h with
  | refl =>
    refine ⟨hlost, fun new hnew => ?_⟩
    rw [List.self_eq_append_right.1 hnew]
    exact List.forall_mem_nil _
  | @tail t t' a hpre _ hs ih =>
    have hit : Inv cfg t := inv_of_steps hi hpre
    have hstep : StepCase cfg t a t' := step_cases hs
    refine ⟨ih.1.step hit hstep, fun new hnew => ?_⟩
    obtain ⟨new₁, h₁⟩ := (evolves_of_steps hi hpre).log
    obtain ⟨new₂, h₂⟩ := (Ledger.Evolves.of_step (ledger_step hit hstep)).log
    have h₁ : t.server.log = s.server.log ++ new₁ := h₁.symm
    have h₂ : t'.server.log = t.server.log ++ new₂ := h₂.symm
    rw [h₂, h₁, List.append_assoc] at hnew
    obtain rfl := List.append_cancel_left hnew
    intro e he
    rcases List.mem_append.1 he with he | he
    · exact ih.2 new₁ h₁ e he
    · exact ih.1.silent hit hstep h₂ e he

end Completions

/-! ## The law -/

/-- The ownership law of the record `id`, in the state `s`. -/
structure OwnershipFenced (cfg : Config) (s : State) (id : Uuid) : Prop where
  /-- Scope, key, request hash and resource id never change, and a COMPLETED record never does. -/
  identity : ∀ r, s.db.idempotency.get? id = some r → ∀ s', (service cfg).Steps System.anyStep s s' →
    ∃ r', s'.db.idempotency.get? id = some r' ∧ r.SameIdentity r' ∧ (r.status = .completed → r' = r)
  /-- A completion takes effect only under the token issued last, on a record that is PROCESSING. -/
  owner : ∀ a s', (service cfg).step s a = some s' → ∀ new, s'.server.log = s.server.log ++ new →
    ∀ e ∈ new, ∀ r, e.2.completion? = some r → r.id = id → ∃ call d, s.calls a.call = some call ∧
      call.await.started? = some d ∧ d.recordId = id ∧ s.OwnedBy id d.processingToken
  /-- A `markFailed` of another caller throws. -/
  markFailed : ∀ env token, ¬ s.OwnedBy id token →
    IdempotencyService.markFailed cfg env s.db id token = .error ownershipLost ∨
    ∃ e, IdempotencyDataAccess.markFailed s.db id (buildExpiresAt cfg.failedTtlMs env.now) token env.dbNow = .error e
  /-- A `markCompleted` of another caller throws. -/
  markCompleted : ∀ env token statusCode body resourceId, ¬ s.OwnedBy id token →
    IdempotencyService.markCompleted cfg env s.db id statusCode body "payment" resourceId token =
      .error ownershipLost ∨
    ∃ e, IdempotencyDataAccess.markCompleted s.db id statusCode body "payment" resourceId
      (buildExpiresAt cfg.completedTtlMs env.now) token env.dbNow = .error e
  /-- Nothing of an owner that has lost the record is committed any more. -/
  stale : ∀ c call d, s.calls c = some call → call.await.started? = some d → d.recordId = id →
    Fence.lastIssued (fenceHistory id s.server.log) ≠ some d.processingToken →
    ∀ s', (service cfg).Steps System.anyStep s s' → ∀ new, s'.server.log = s.server.log ++ new →
    ∀ e ∈ new, e.1 ≠ .tx c ∧ e.1 ≠ .pool c
  /-- At most one `markCompleted` ever takes effect. -/
  once : (fenceHistory id s.server.log).countP Fence.isSettle ≤ 1

/-- Idempotency records are fenced by their tokens in every reachable state. -/
theorem ownership_fenced {cfg : Config} {s : State} (h : (service cfg).Reach System.anyStep s) (id : Uuid) :
    OwnershipFenced cfg s id := by
  have hi := inv_of_reach h
  -- a caller that does not own the record does not find it PROCESSING under its token
  have hnot : ∀ token, ¬ s.OwnedBy id token →
      ∀ r, s.db.idempotency.get? id = some r → ¬ (r.status = .processing ∧ r.processingToken = token) := by
    rintro token hown r hr ⟨hs, rfl⟩
    exact hown ⟨hi.lastIssued hr, r, hr, hs⟩
  refine ⟨fun r hr s' hs => ?_, fun a s' hs new hnew e he r hr hid => ?_, fun env token hown => ?_,
    fun env token statusCode body resourceId hown => ?_, fun c call d hc hd hid hstale s' hs => ?_, ?_⟩
  · obtain ⟨r', hr', hsame, hfinal, -⟩ := (evolves_of_steps hi hs).record id r hr
    exact ⟨r', hr', hsame, hfinal⟩
  · obtain ⟨call, d, hc, hd, hrec, htok, hown⟩ := completion_owned hi (step_cases hs) hnew he hr
    rw [hid] at hrec hown
    exact ⟨call, d, hc, hd, hrec, by rw [htok]; exact hown⟩
  · exact markFailed_not_owned (hnot token hown)
  · exact markCompleted_not_owned (hnot token hown)
  · subst hid
    exact stale_owner_silent hi hc hd hstale hs
  · exact (Ledger.admits hi.ledger id).settle_unique

/-- The record of a call that has returned is fenced: its one completion is the owner's. -/
theorem ownership_fenced_created : OwnershipFenced Sample.cfg Sample.created (.ofNat 5) ∧
    Sample.created.db.idempotency.rows.map IdempotencyRecord.id = [.ofNat 5] :=
  ⟨ownership_fenced Sample.created_reach (.ofNat 5), Sample.created_run.2.2.2.1⟩

end PaymentOrchestration
