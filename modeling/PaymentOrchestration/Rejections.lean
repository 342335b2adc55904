/-
What calls reject with. The service raises an `ApiError` at many places; `Rejects` lists the errors that a
call of a command can settle with, and `settled_of_reach` says that there are no others in any run whose
providers throw none of the service's own errors. So the remaining checks refuse what cannot happen: a
record is found after every conflict, it has a resource, and an AUTHORIZED payment has its provider's
reference.
-/
import PaymentOrchestration.Shape
import PaymentOrchestration.Replay

namespace PaymentOrchestration

open Lib IdempotencyService PaymentsService

/-! ## Errors of a computation -/

section Throws

variable {ε α β : Type} {P : ε → Prop}

/-- Every error of the computation is one of `P`. -/
def Throws (P : ε → Prop) (x : Except ε α) : Prop := ∀ e, x = .error e → P e

theorem Throws.ok {a : α} : Throws P (.ok a : Except ε α) := fun _ h => by cases h

theorem Throws.error {e : ε} (h : P e) : Throws P (.error e : Except ε α) := fun _ heq => by cases heq; exact h

theorem Throws.bind {x : Except ε α} {f : α → Except ε β} (hx : Throws P x) (hf : ∀ a, Throws P (f a)) :
    Throws P (x >>= f) := by
  intro e h
  cases x with
  | error e' => exact hx e (by cases h; rfl)
  | ok a => exact hf a e h

theorem Throws.map {x : Except ε α} {f : α → β} (hx : Throws P x) : Throws P (x.map f) := by
  intro e h
  cases x with
  | error e' => exact hx e (by cases h; rfl)
  | ok a => cases h

theorem Throws.ite {c : Prop} [Decidable c] {x y : Except ε α} (hx : Throws P x) (hy : Throws P y) :
    Throws P (if c then x else y) := by
  split
  · exact hx
  · exact hy

end Throws

/-! ## Errors of the statements -/

/-- An error that is not the service's own. -/
def Err.Foreign (e : Err) : Prop := ∃ m, e = .other m

section Statements

variable {α β : Type} {db : Db} {now : Timestamp}

theorem foreign_other {m : String} : (Err.other m).Foreign := ⟨m, rfl⟩

theorem textIn_throws {s : String} : Throws Err.Foreign (textIn s) := .ite (.error foreign_other) .ok

theorem varcharIn_throws {n : Nat} {s : String} : Throws Err.Foreign (varcharIn n s) := by
  unfold varcharIn
  split
  · rename_i e h
    exact .error (textIn_throws e h)
  · exact .ite .ok (.ite .ok (.error foreign_other))

theorem nullable_throws {f : α → Except Err β} {v : Option α} (hf : ∀ a, Throws Err.Foreign (f a)) :
    Throws Err.Foreign (nullable f v) := by
  cases v with
  | none => exact .ok
  | some a => exact (hf a).map

theorem uuidColumn_throws {s : String} : Throws Err.Foreign (uuidColumn s) := by
  unfold uuidColumn
  split
  · exact .ok
  · exact .error foreign_other

theorem bigintColumn_throws {cs : List Char} : Throws Err.Foreign (bigintColumn cs) := by
  unfold bigintColumn
  split
  · exact .ok
  · exact .error foreign_other

theorem dateColumn_throws {t : Option Millis} : Throws Err.Foreign (dateColumn t) := by
  cases t with
  | none => exact .error foreign_other
  | some t => exact .ok

theorem jsonbColumn_throws {v : Json String} : Throws Err.Foreign (jsonbColumn v) := .ite .ok (.error foreign_other)

theorem check_throws {name : String} {b : Bool} : Throws Err.Foreign (check name b) := .ite .ok (.error foreign_other)

theorem tryInsertProcessing_throws {input : TryInsertProcessingInput} {id : Uuid} :
    Throws Err.Foreign (IdempotencyDataAccess.tryInsertProcessing db input id now) := by
  have haccept : Throws Err.Foreign (input.accept id now) :=
    varcharIn_throws.bind fun _ => varcharIn_throws.bind fun _ => varcharIn_throws.bind fun _ =>
      varcharIn_throws.bind fun _ => uuidColumn_throws.bind fun _ => dateColumn_throws.bind fun _ => .ok
  exact haccept.bind fun _ => .ite .ok (.ite (.error foreign_other) .ok)

theorem reactivateFailed_throws {id token : Uuid} {requestHash : String} {t : Option Millis} :
    Throws Err.Foreign (IdempotencyDataAccess.reactivateFailed db id requestHash t token now) :=
    dateColumn_throws.bind fun _ => .ok

theorem takeoverExpiredProcessing_throws {id token : Uuid} {requestHash : String} {t : Option Millis} :
    Throws Err.Foreign (IdempotencyDataAccess.takeoverExpiredProcessing db id requestHash t token now) :=
  dateColumn_throws.bind fun _ => .ok

theorem insert_throws {record : InsertPaymentRecord} :
    Throws Err.Foreign (PaymentsDataAccess.insert db record now) := by
  have haccept : Throws Err.Foreign (record.accept now) :=
    uuidColumn_throws.bind fun _ => bigintColumn_throws.bind fun _ => varcharIn_throws.bind fun _ =>
      varcharIn_throws.bind fun _ => (nullable_throws fun _ => varcharIn_throws).bind fun _ =>
        (nullable_throws fun _ => varcharIn_throws).bind fun _ => (nullable_throws fun _ => textIn_throws).bind fun _ =>
          check_throws.bind fun _ => check_throws.bind fun _ => .ok
  exact haccept.bind fun _ => .ite (.error foreign_other) .ok

theorem updateStatusIfAuthorized_throws {input : PaymentsDataAccess.UpdateStatusInput} :
    Throws Err.Foreign (PaymentsDataAccess.updateStatusIfAuthorized db input now) := by
  refine (nullable_throws fun _ => varcharIn_throws).bind fun _ =>
    (nullable_throws fun _ => textIn_throws).bind fun _ => ?_
  split
  · exact .ok
  · exact .ite .ok .ok

theorem requireNonEmptyString_throws {value : Option String} {fieldName : String} :
    Throws Err.Foreign (OutboxService.requireNonEmptyString value fieldName) := by
  unfold OutboxService.requireNonEmptyString
  split
  · exact .error foreign_other
  · exact .ite (.error foreign_other) .ok

theorem toIsoTimestamp_throws {value : Option Timestamp} : Throws Err.Foreign (OutboxService.toIsoTimestamp value) := by
  unfold OutboxService.toIsoTimestamp
  split
  · exact .error foreign_other
  · exact .ok

theorem record_throws {recording : OutboxService.Recording} {env : Env} {correlationId : String}
    {payment : PaymentRecord} : Throws Err.Foreign (OutboxService.record recording env db correlationId payment) := by
  have hpayload : Throws Err.Foreign (recording.payload payment) := by
    cases recording with
    | paymentAuthorized | paymentCaptured =>
      exact requireNonEmptyString_throws.bind fun _ => toIsoTimestamp_throws.bind fun _ => .ok
    | paymentFailed operation =>
      exact requireNonEmptyString_throws.bind fun _ => requireNonEmptyString_throws.bind fun _ =>
        toIsoTimestamp_throws.bind fun _ => .ok
  exact hpayload.bind fun _ => varcharIn_throws.bind fun _ => varcharIn_throws.bind fun _ =>
    varcharIn_throws.bind fun _ =>
    jsonbColumn_throws.bind fun _ => check_throws.bind fun _ => .ite (.error foreign_other) .ok

/-- A completion fails for another reason, or for want of a record that the caller owns. -/
theorem requireOwned_throws {x : Except Err (Answer (Option IdempotencyRecord))} (hx : Throws Err.Foreign x) :
    Throws (fun e => e.Foreign ∨ e = ownershipLost) (requireOwned x) := by
  unfold requireOwned
  split
  · rename_i e
    exact .error (.inl (hx e rfl))
  · exact .ok
  · exact .error (.inr rfl)

theorem markCompleted_throws {cfg : Config} {env : Env} {id resourceId token : Uuid}
    {statusCode : Int} {body : Json String} {resourceType : String} : Throws (fun e => e.Foreign ∨ e = ownershipLost)
      (IdempotencyService.markCompleted cfg env db id statusCode body resourceType resourceId token) :=
  requireOwned_throws (jsonbColumn_throws.bind fun _ => varcharIn_throws.bind fun _ =>
    dateColumn_throws.bind fun _ => .ok)

theorem markFailed_throws {cfg : Config} {env : Env} {id token : Uuid} :
    Throws (fun e => e.Foreign ∨ e = ownershipLost) (IdempotencyService.markFailed cfg env db id token) :=
  requireOwned_throws (dateColumn_throws.bind fun _ => .ok)

/-- A statement of a call fails for a reason of the database, or for want of a record that the call owns. -/
theorem Call.run_throws {cfg : Config} {env : Env} (call : Call) :
    Throws (fun e => e.Foreign ∨ e = ownershipLost) (call.run cfg env db) := by
  have hforeign : ∀ {γ : Type} {x : Except Err γ}, Throws Err.Foreign x →
      Throws (fun e => e.Foreign ∨ e = ownershipLost) x :=
    fun hx e he => .inl (hx e he)
  unfold Call.run
  split
  · split <;> exact .ok
  · exact (hforeign tryInsertProcessing_throws).map
  · split <;> exact .ok
  · exact (hforeign reactivateFailed_throws).map
  · exact (hforeign takeoverExpiredProcessing_throws).map
  · exact (hforeign insert_throws).map
  · exact (hforeign uuidColumn_throws).map
  · exact (hforeign updateStatusIfAuthorized_throws).map
  · exact (hforeign record_throws).map
  · exact markCompleted_throws.map
  · exact .ok
  · exact .ok
  · exact markFailed_throws.map
  all_goals exact .ok

end Statements

/-! ## The errors of a command -/

/-- The errors that a call of a kind can settle with. -/
inductive Rejects : Kind → Err → Prop
  /-- An error of the database or of a provider. -/
  | other {kind m} : Rejects kind (.other m)
  | keyReused {kind} : Rejects kind keyReused
  | requestInProgress {kind} : Rejects kind requestInProgress
  | ownershipLost {kind} : Rejects kind ownershipLost
  | paymentNotFound : Rejects .capture paymentNotFound
  | paymentNotCapturable : Rejects .capture paymentNotCapturable
  /-- The payment was authorized with a provider that is no longer registered. -/
  | providerNotConfigured {cfg name e} : getProvider cfg name = .error e → Rejects .capture e

/-- The errors that a call has on its way are its kind's. -/
def Await.Rejecting (kind : Kind) : Await → Prop
  | .refused e | .rollback _ e | .markFailed _ e => Rejects kind e
  | .failed _ error rejection => Rejects kind error ∧ Rejects kind rejection
  | _ => True

/-- The record that an insert conflicted with. -/
def Call.Found (db : Db) (call : Call) : Prop := call.await = .findAfterConflict →
  (IdempotencyDataAccess.findByScopeAndKey db call.command.scope call.command.idempotencyKey).isSome = true

section Decisions

variable {cfg : Config} {kind : Kind} {call : Call} {db : Db}

theorem decideFromExisting_throws {now : Millis} {r : IdempotencyRecord} {requestHash : String} :
    Throws (Rejects kind) (decideFromExisting cfg now r requestHash) := by
  refine .ite (.error .keyReused) ?_
  split
  · exact .ok
  · exact .ok
  · exact .ite .ok (.error .requestInProgress)

/-- A decision fails only for want of a record that it could acquire. -/
theorem decideFromAcquired_throws {record : Option IdempotencyRecord}
    (h : ∀ r, record = some r → r.resourceId.isSome = true) : Throws (Rejects kind) (decideFromAcquired record) := by
  cases record with
  | none => exact .error .requestInProgress
  | some r =>
    obtain ⟨u, hu⟩ := Option.isSome_iff_exists.1 (h r rfl)
    simp only [decideFromAcquired, buildStartedDecision, hu]
    exact .ok

theorem Call.afterStarted_rejecting {d : Started} : (call.afterStarted d).Rejecting kind := by
  unfold Call.afterStarted
  split <;> trivial

theorem Call.afterDeciding_rejecting {x : Except Err Deciding} (h : Throws (Rejects kind) x) :
    (call.afterDeciding x).Rejecting kind := by
  unfold Call.afterDeciding
  split
  · exact h _ rfl
  · exact afterStarted_rejecting
  all_goals trivial

theorem Call.afterAcquired_rejecting {x : Except Err Started} (h : Throws (Rejects kind) x) :
    (call.afterAcquired x).Rejecting kind := by
  unfold Call.afterAcquired
  split
  · exact h _ rfl
  · exact afterStarted_rejecting

/-- A payment that cannot be captured is not AUTHORIZED, or its provider is not registered: its reference is there. -/
theorem beforeCapture_throws {p : PaymentRecord} (h : p.Shape) : Throws (Rejects .capture) (beforeCapture cfg p) := by
  intro e he
  unfold beforeCapture ensureCanCapture at he
  split at he
  swap
  · cases he; exact .paymentNotCapturable
  rename_i hstatus
  obtain ⟨reference, href, hne⟩ := h.reference (h.authorizedAt.2 (by rw [hstatus]; decide))
  cases hprovider : getProvider cfg p.provider with
  | error e' =>
    rw [hprovider] at he
    cases he
    exact .providerNotConfigured hprovider
  | ok provider =>
    rw [hprovider, href] at he
    simp only [hne, if_false] at he
    cases he

/-- The record that an insert conflicts with is found under the scope and the key of the call. -/
theorem found_of_conflict {input : TryInsertProcessingInput} {id : Uuid} {now : Timestamp} {ws : List Write}
    (h : IdempotencyDataAccess.tryInsertProcessing db input id now = .ok ⟨none, ws⟩)
    (hscope : input.scope.toList.length ≤ 120) (hkey : input.idempotencyKey.toList.length ≤ 160) :
    (IdempotencyDataAccess.findByScopeAndKey db input.scope input.idempotencyKey).isSome = true := by
  unfold IdempotencyDataAccess.tryInsertProcessing at h
  obtain ⟨r, hr, h⟩ := ok_of_bind h
  have hadm := TryInsertProcessingInput.accept_ok hr
  rw [← varcharIn_eq hadm.scope hscope, ← varcharIn_eq hadm.idempotencyKey hkey]
  split at h
  · assumption
  · split at h <;> cases h

/-- A record that was found is still there. -/
theorem Ledger.Evolves.found {l l' : Ledger} (h : l.Evolves l') {scope key : String}
    (hfound : (IdempotencyDataAccess.findByScopeAndKey l.db scope key).isSome = true) :
    (IdempotencyDataAccess.findByScopeAndKey l'.db scope key).isSome = true := by
  obtain ⟨r, hr⟩ := Option.isSome_iff_exists.1 hfound
  obtain ⟨hmem, rfl, rfl⟩ := IdempotencyDataAccess.findByScopeAndKey_some hr
  obtain ⟨r', hr', hsame, -, -⟩ := h.record r.id r (Table.mem_iff.1 hmem)
  by_contra hnone
  refine IdempotencyDataAccess.findByScopeAndKey_none (Option.not_isSome_iff_eq_none.1 hnone) r'
    (Table.mem_of_get? hr') ?_
  exact ⟨hsame.scope, hsame.idempotencyKey⟩

end Decisions

/-! ## Runs -/

/-- Calls from the routes, and providers that throw none of the service's own errors. -/
def orderly (s : State) (a : Action) : Prop := accepted s a ∧ ∀ c now e, a = .provider c now (.threw e) → e.Foreign

/-- What a call has settled with. -/
def Await.settled? : Await → Option (Except Err (Int × Json String))
  | .returned statusCode body => some (.ok (statusCode, body))
  | .refused e | .failed _ _ e => some (.error e)
  | _ => none

/-- How a call of a kind settles: with the status of its first answer, or with one of the kind's errors. -/
inductive Settled (kind : Kind) : Except Err (Int × Json String) → Prop
  | answered {body} : Settled kind (.ok (kind.statusCode, body))
  | rejected {e} : Rejects kind e → Settled kind (.error e)

section Runs

variable {cfg : Config} {s s' : State} {a : Action} {c : CallId} {call call' : Call} {env : Env} {o : Outcome} {e : Err}

theorem Rejects.foreign {kind : Kind} (h : e.Foreign) : Rejects kind e := by
  obtain ⟨m, rfl⟩ := h
  exact .other

/-- What a statement makes a call await next. -/
theorem Call.next_rejecting (hi : Inv cfg s) (hc : s.calls c = some call) (haw : call.await.Rejecting call.command.kind)
    (hfound : call.Found s.db) (hrun : call.run cfg env s.db = .ok o) : o.next.Rejecting call.command.kind := by
  have htx := (hi.calls c call hc).tx
  -- a record that is acquired has a resource
  have hresource : ∀ {ans : Answer (Option IdempotencyRecord)}, (ans = ⟨none, []⟩ ∨ ∃ id r lease,
      s.db.idempotency.get? id = some r ∧ ans.returned = some (r.acquired lease env.uuid env.dbNow)) →
      ∀ r, ans.returned = some r → r.resourceId.isSome = true := by
    rintro ans (rfl | ⟨id, r, lease, hr, heq⟩) r' hr'
    · cases hr'
    · obtain ⟨u, hu, -⟩ := hi.records.resource r (Table.mem_of_get? hr)
      obtain rfl := Option.some.inj (heq.symm.trans hr')
      exact Option.isSome_iff_exists.2 ⟨u, hu⟩
  unfold Call.run at hrun
  split at hrun
  · split at hrun <;> cases hrun
    · exact afterDeciding_rejecting decideFromExisting_throws
    · trivial
  · obtain ⟨ans, hans, rfl⟩ := map_eq_ok hrun
    rcases IdempotencyDataAccess.tryInsertProcessing_ok hans with rfl | ⟨r, hadm, -, -, rfl⟩
    · trivial
    · obtain ⟨u, -, hu⟩ := hadm.resourceId
      simp only [buildStartedDecision, hu]
      exact afterStarted_rejecting
  · rename_i hawait
    split at hrun <;> cases hrun
    · exact afterDeciding_rejecting decideFromExisting_throws
    · rename_i hnone
      have hsome := hfound hawait
      rw [hnone] at hsome
      cases hsome
  · obtain ⟨ans, hans, rfl⟩ := map_eq_ok hrun
    refine afterAcquired_rejecting (decideFromAcquired_throws (hresource ?_))
    rcases IdempotencyDataAccess.reactivateFailed_ok hans with rfl | ⟨r, lease, hr, -, -, rfl⟩
    · exact .inl rfl
    · exact .inr ⟨_, r, lease, hr, rfl⟩
  · obtain ⟨ans, hans, rfl⟩ := map_eq_ok hrun
    refine afterAcquired_rejecting (decideFromAcquired_throws (hresource ?_))
    rcases IdempotencyDataAccess.takeoverExpiredProcessing_ok hans with rfl | ⟨r, lease, hr, -, -, rfl⟩
    · exact .inl rfl
    · exact .inr ⟨_, r, lease, hr, rfl⟩
  · obtain ⟨ans, -, rfl⟩ := map_eq_ok hrun
    trivial
  · rename_i d paymentId hawait
    rw [hawait] at htx
    obtain ⟨-, cmd, hcommand, -⟩ := htx
    rw [hcommand]
    obtain ⟨id, -, hrun⟩ := map_eq_ok hrun
    split at hrun <;> cases hrun
    · exact .paymentNotFound
    · rename_i p hp
      rcases Call.afterLock_cases cfg d p with ⟨e, he, hnext⟩ | ⟨provider, input, -, hnext⟩
      · rw [hnext]
        exact beforeCapture_throws (Ledger.shapes hi.ledger p (Table.mem_of_get? hp)) e he
      · rw [hnext]
        trivial
  · rename_i hawait
    rw [hawait] at htx
    obtain ⟨cmd, -, -, -, hcommand, -⟩ := htx
    rw [hcommand]
    obtain ⟨ans, -, rfl⟩ := map_eq_ok hrun
    unfold Call.afterUpdate
    split
    · exact .paymentNotCapturable
    · trivial
  · obtain ⟨ans, -, rfl⟩ := map_eq_ok hrun
    trivial
  · obtain ⟨ans, -, rfl⟩ := map_eq_ok hrun
    trivial
  · cases hrun; trivial
  · rename_i hawait
    rw [hawait] at haw
    cases hrun
    exact haw
  · rename_i hawait
    rw [hawait] at haw
    obtain ⟨ans, -, rfl⟩ := map_eq_ok hrun
    exact ⟨haw, haw⟩
  all_goals
    cases hrun
    exact haw

theorem Call.reject_rejecting (haw : call.await.Rejecting call.command.kind) (he : Rejects call.command.kind e) :
    (call.reject e).Rejecting call.command.kind := by
  unfold Call.reject
  cases hawait : call.await with
  | markFailed d error =>
    rw [hawait] at haw
    cases hcommand : call.command with
    | create command =>
      rw [hcommand] at haw he
      show Rejects _ _ ∧ Rejects _ _
      exact ⟨haw, by unfold createCatch; split <;> assumption⟩
    | capture command =>
      rw [hcommand] at haw he
      show Rejects _ _ ∧ Rejects _ _
      exact ⟨haw, by unfold captureCatch; split <;> assumption⟩
  | returned | refused | failed | crashed => rw [hawait] at haw; exact haw
  | _ => exact he

theorem Ran.conflicted {db : Db} {aw : Await} (h : Ran cfg env db call aw o) (hnext : o.next = .findAfterConflict) :
    aw = .tryInsertProcessing := by
  have hstarted : ∀ d, call.afterStarted d ≠ .findAfterConflict := by
    intro d hd
    unfold Call.afterStarted at hd
    split at hd <;> cases hd
  cases h with
  | conflict => rfl
  | inserted => exact absurd hnext (hstarted _)
  | acquired =>
    unfold Call.afterAcquired at hnext
    split at hnext
    · cases hnext
    · exact absurd hnext (hstarted _)
  | lockedPayment =>
    unfold Call.afterLock at hnext
    split at hnext
    · cases hnext
    · split at hnext <;> cases hnext
  | idle hmode =>
    obtain rfl : aw = .findAfterConflict := hnext
    cases hmode
  | _ => cases hnext

/-- What a call has conflicted with is found. -/
theorem Call.next_found {db : Db} (hfit : call.command.Fits) (hrun : call.run cfg env db = .ok o)
    (hnext : o.next = .findAfterConflict) :
    (IdempotencyDataAccess.findByScopeAndKey db call.command.scope call.command.idempotencyKey).isSome = true := by
  have hawait := (ran_of_run hrun).conflicted hnext
  rw [Call.run, hawait] at hrun
  obtain ⟨⟨returned, ws⟩, hans, rfl⟩ := map_eq_ok hrun
  cases returned with
  | none => exact found_of_conflict hans hfit.scope hfit.idempotencyKey
  | some r =>
    rcases IdempotencyDataAccess.tryInsertProcessing_ok hans with heq | ⟨r', hadm, -, -, heq⟩
    · cases heq
    · cases heq
      obtain ⟨u, -, hu⟩ := hadm.resourceId
      simp only [buildStartedDecision, hu, Call.afterAcquired, Call.afterStarted] at hnext
      split at hnext <;> cases hnext

theorem Call.reject_ne_found : call.reject e ≠ .findAfterConflict := by
  unfold Call.reject
  split
  all_goals try exact fun h => (by cases h)
  split <;> exact fun h => (by cases h)

/-- What holds of the errors of every call of a run. -/
structure RejectInv (s : State) : Prop where
  rejecting : ∀ c call, s.calls c = some call → call.await.Rejecting call.command.kind
  found : ∀ c call, s.calls c = some call → call.Found s.db

theorem RejectInv.step (hi : Inv cfg s) (h : RejectInv s)
    (haccepted : ∀ c call, s.calls c = some call → call.command.Accepted)
    (hok : orderly s a) (hstep : (service cfg).step s a = some s') : RejectInv s' := by
  have hs := step_cases hstep
  have hsteps : (service cfg).Steps System.anyStep s s' := .single trivial hstep
  have hevolves := evolves_of_steps hi hsteps
  constructor
  · intro c call' hc'
    rcases hs.call_origin hc' with ⟨call, hc, hk⟩ | ⟨-, command, reserved, rfl, -, -, rfl⟩
    swap
    · trivial
    rw [hk.command]
    have haw := h.rejecting c call hc
    rcases hs.call_cases hc hc' with ⟨rfl, -⟩ | ⟨-, hcase⟩
    · exact haw
    generalize call'.await = next, s'.server = server at hcase
    cases hcase with
    | answered _ _ hrun | staged _ _ hrun => exact call.next_rejecting hi hc haw (h.found c call hc) hrun
    | answerLost | unanswered => exact call.reject_rejecting haw .other
    | failed _ hrun =>
      refine call.reject_rejecting haw ?_
      rcases call.run_throws _ hrun with hforeign | rfl
      · exact .foreign hforeign
      · exact .ownershipLost
    | rolledBack hawait => rw [hawait] at haw; exact haw
    | commitLost => exact Rejects.other
    | committed | crashed => trivial
    | lateCommit | sessionLost => exact haw
    | provider hp =>
      generalize call.await = aw at hp haw
      cases hp with
      | authorized | captured => trivial
      | authorizeThrew | captureThrew => exact Rejects.foreign (hok.2 _ _ _ rfl)
  · intro c call' hc' hawait
    rcases hs.call_origin hc' with ⟨call, hc, hk⟩ | ⟨-, command, reserved, rfl, -, -, rfl⟩
    swap
    · cases hawait
    have hthen : call.Found s.db := h.found c call hc
    refine hevolves.found ?_
    rw [hk.command]
    rcases hs.call_cases hc hc' with ⟨rfl, -⟩ | ⟨-, hcase⟩
    · exact hthen hawait
    generalize call'.await = next, s'.server = server at hcase hawait
    subst hawait
    generalize hnext : Await.findAfterConflict = next at hcase
    cases hcase with
    | answered _ _ hrun | staged _ _ hrun => exact call.next_found (haccepted c call hc).fits hrun hnext.symm
    | answerLost | unanswered | failed => exact absurd hnext.symm call.reject_ne_found
    | lateCommit | sessionLost => exact hthen hnext.symm
    | committed | rolledBack | commitLost | crashed => cases hnext
    | provider hp =>
      generalize call.await = aw at hp
      cases hp <;> cases hnext

theorem reject_of_reach (h : (service cfg).Reach orderly s) : RejectInv s := by
  have hinv : Inv cfg s ∧ (∀ c call, s.calls c = some call → call.command.Accepted) ∧ RejectInv s := by
    refine h.invariant (P := fun s => Inv cfg s ∧ (∀ c call, s.calls c = some call → call.command.Accepted) ∧
      RejectInv s)
      ⟨Inv.init cfg, fun _ _ hc => (by cases hc), fun _ _ hc => (by cases hc), fun _ _ hc => (by cases hc)⟩ ?_
    rintro s a s' ⟨hi, haccepted, hr⟩ hok hs
    refine ⟨hi.step hs, fun c call' hc' => ?_, hr.step hi haccepted hok hs⟩
    rcases (step_cases hs).call_origin hc' with ⟨call, hc, hk⟩ | ⟨-, command, reserved, rfl, -, -, rfl⟩
    · rw [hk.command]; exact haccepted c call hc
    · exact hok.1
  exact hinv.2.2

/-- In every run every call that has settled has done so in one of these ways. -/
theorem settled_of_reach (h : (service cfg).Reach orderly s) (hc : s.calls c = some call)
    {outcome : Except Err (Int × Json String)} (hsettled : call.await.settled? = some outcome) :
    Settled call.command.kind outcome := by
  have hrejecting := (reject_of_reach h).rejecting c call hc
  have hi := inv_of_reach h
  have htx := (hi.calls c call hc).tx
  generalize call.await = aw at hsettled hrejecting htx
  cases aw with
  | returned statusCode body =>
    cases hsettled
    obtain ⟨r, b, hr, hm, hs, hstatus, -, -⟩ := htx
    obtain ⟨command, p, hm', hstatus', -, -⟩ := hi.records.completed r (Table.mem_of_get? hr) hs
    have hkind : call.command.kind = command.kind := IdempotencyRecord.kind_unique hm.isOf hm'.isOf
    obtain rfl : statusCode = call.command.kind.statusCode := by
      rw [hkind, Option.some.inj (hstatus.symm.trans hstatus')]
      cases command <;> rfl
    exact .answered
  | refused e => cases hsettled; exact .rejected hrejecting
  | failed d error rejection => cases hsettled; exact .rejected hrejecting.2
  | _ => cases hsettled

end Runs

end PaymentOrchestration
