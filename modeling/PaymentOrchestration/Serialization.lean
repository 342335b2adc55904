/-
Serialization of captures: the provider's `capture` is called for a payment by one call at a time, under
the lock of its row, and never again once a transaction has moved the payment out of AUTHORIZED. A call
that reaches the lock after that is rejected.
-/
import PaymentOrchestration.ErrorAtomicity
import PaymentOrchestration.Lifecycle

namespace PaymentOrchestration

open Lib IdempotencyService OutboxService PaymentsService

/-! ## Calls of the provider's `capture` -/

/-- The provider and the input of the `capture` a call awaits or awaited when its process died. -/
def Await.capturing? : Await → Option (String × CapturePaymentInput)
  | .capture _ _ provider input => some (provider, input)
  | .crashed last => last.capturing?
  | _ => none

/-- A call of the provider's `capture` for the payment `P` may be in progress, made by the call `c`. The
request of a dead process is, as long as its session is there. -/
def State.InFlight (s : State) (c : CallId) (P : Uuid) : Prop :=
  ∃ call provider input, s.calls c = some call ∧ call.await.capturing? = some (provider, input) ∧
    input.paymentId = P ∧ (call.await.isOver = false ∨ (s.server.pending (.tx c)).isSome = true)

/-- From `s` to `s'` the call `c` has called the provider's `capture`. -/
def State.Starts (s s' : State) (c : CallId) (provider : String) (input : CapturePaymentInput) : Prop :=
  (∀ call, s.calls c = some call → call.await.capturing? = none) ∧
    ∃ call', s'.calls c = some call' ∧ call'.await.capturing? = some (provider, input)

/-- No session is lost while its call awaits the provider's `capture`. -/
def sessionsKept (s : State) : Action → Prop
  | .sessionLost c => ∀ call, s.calls c = some call → call.await.isOver = false → call.await.capturing? = none
  | _ => True

/-- The provider is called under the lock of the payment's row, which is held as long as the session is
there, and it is there while the call is awaited. -/
def CapturingInv (s : State) : Prop := ∀ c call provider input, s.calls c = some call →
  call.await.capturing? = some (provider, input) →
  (call.await.isOver = false → (s.server.pending (.tx c)).isSome = true) ∧
    ((s.server.pending (.tx c)).isSome = true → s.server.locks (.payment input.paymentId) = some (.tx c))

section Capturing

variable {cfg : Config} {s s' : State} {a : Action} {c : CallId} {call : Call} {provider : String}
  {input : CapturePaymentInput}

theorem Call.reject_capturing (h : call.await.mode ≠ .idle) (e : Err) : (call.reject e).capturing? = none := by
  unfold Call.reject
  cases hawait : call.await with
  | markFailed => cases call.command <;> rfl
  | authorize | capture | returned | refused | failed | crashed => rw [hawait] at h; exact absurd rfl h
  | _ => rfl

/-- The statement that leads to the provider's `capture` is the one that locks the payment's row. -/
theorem Ran.capturing {env : Env} {db : Db} {aw : Await} {o : Outcome} (h : Ran cfg env db call aw o)
    (hmode : aw.mode ≠ .idle) (hnext : o.next.capturing? = some (provider, input)) :
    ∃ d paymentId id p, aw = .findByIdForUpdate d paymentId ∧ Uuid.uuidIn paymentId = some id ∧
      db.payments.get? id = some p ∧ beforeCapture cfg p = .ok (provider, input) ∧ o.locks = [.payment id] := by
  have hstart : ∀ d, (call.afterStarted d).capturing? ≠ some (provider, input) := by
    intro d
    unfold Call.afterStarted
    split <;> nofun
  cases h with
  | @lockedPayment d paymentId id p hid hg =>
    rcases Call.afterLock_cases cfg d p with ⟨e, -, he⟩ | ⟨provider', input', hb, he⟩
    · simp only [he, Await.capturing?, reduceCtorEq] at hnext
    · simp only [he, Await.capturing?, Option.some.injEq] at hnext
      exact ⟨d, paymentId, id, p, rfl, hid, hg, by rw [hb, hnext], rfl⟩
  | inserted => exact absurd hnext (hstart _)
  | @acquired _ _ r lease =>
    cases hb : buildStartedDecision (r.acquired lease env.uuid env.dbNow) with
    | error e => simp only [hb, Call.afterAcquired, Await.capturing?, reduceCtorEq] at hnext
    | ok d => simp only [hb, Call.afterAcquired] at hnext; exact absurd hnext (hstart _)
  | idle hidle => exact absurd hidle hmode
  | _ => cases hnext

/-- A call starts the provider's `capture` at its row lock. -/
theorem StepCase.starts (h : StepCase cfg s a s') (hs : s.Starts s' c provider input) :
    ∃ call d paymentId id p env o server, s.calls c = some call ∧ call.await = .findByIdForUpdate d paymentId ∧
      Uuid.uuidIn paymentId = some id ∧ s.db.payments.get? id = some p ∧ beforeCapture cfg p = .ok (provider, input) ∧
      o.locks = [.payment id] ∧ call.run cfg env s.db = .ok o ∧
      (s.opened c .opening).stage (.tx c) o.writes o.locks = some server ∧ s'.server = server := by
  obtain ⟨hnone, call', hc', hcap⟩ := hs
  rcases h.call_origin hc' with ⟨call, hc, -⟩ | ⟨-, command, reserved, -, -, -, rfl⟩
  swap
  · cases hcap
  have hbefore := hnone call hc
  rcases h.call_cases hc hc' with ⟨rfl, -⟩ | ⟨-, hcase⟩
  · rw [hbefore] at hcap; cases hcap
  generalize call'.await = next at hcase hcap
  generalize hserver : s'.server = server at hcase
  cases hcase with
  | answered _ hmode hrun =>
    obtain ⟨d, paymentId, id, p, hawait, -⟩ := (ran_of_run hrun).capturing (by rw [hmode]; decide) hcap
    rw [hawait] at hmode; cases hmode
  | answerLost _ hmode => rw [Call.reject_capturing (by rw [hmode]; decide)] at hcap; cases hcap
  | @staged env o _ _ hmode hrun hstage =>
    obtain ⟨d, paymentId, id, p, hawait, hid, hg, hb, hlocks⟩ :=
      (ran_of_run hrun).capturing (by rcases hmode with h | h <;> rw [h] <;> decide) hcap
    rw [hawait] at hstage
    exact ⟨call, d, paymentId, id, p, env, o, server, hc, hawait, hid, hg, hb, hlocks, hrun, hstage, rfl⟩
  | failed hmode | unanswered hmode => rw [Call.reject_capturing hmode] at hcap; cases hcap
  | provider hcase =>
    generalize call.await = aw at hcase
    cases hcase <;> cases hcap
  | committed | rolledBack | commitLost => cases hcap
  | lateCommit | sessionLost | crashed => exact nomatch hbefore.symm.trans hcap

theorem CapturingInv.step (hi : Inv cfg s) (hinv : CapturingInv s) (hok : sessionsKept s a) (h : StepCase cfg s a s') :
    CapturingInv s' := by
  intro c call' provider input hc' hcap
  by_cases hnew : ∀ call, s.calls c = some call → call.await.capturing? = none
  · -- the call has just got the lock
    obtain ⟨call, d, paymentId, id, p, env, o, server, hc, -, -, hg, hb, hlocks, -, hstage, rfl⟩ :=
      h.starts ⟨hnew, call', hc', hcap⟩
    obtain ⟨ws₀, -, -, -, -, hpend, hlock⟩ := Server.stage_eq_some hstage
    obtain ⟨-, -, reference, -, -, rfl⟩ := beforeCapture_ok hb
    have hid : p.id = id := Table.key_of_get? hg
    refine ⟨fun _ => by rw [hpend, Function.update_self]; rfl, fun _ => ?_⟩
    rw [hlock, hlocks]
    simp [captureInput, hid]
  · simp only [not_forall] at hnew
    obtain ⟨call, hc, hcapc⟩ := hnew
    rcases h.call_cases hc hc' with ⟨rfl, hca⟩ | ⟨hca, hcase⟩
    · -- another call goes on
      obtain ⟨hopen, hlock⟩ := hinv c call' provider input hc hcap
      have hu := h.undisturbed hca
      rw [hu.pending]
      exact ⟨hopen, fun ho => hu.locks _ (hlock ho)⟩
    obtain ⟨⟨provider₀, input₀⟩, hcap₀⟩ := Option.ne_none_iff_exists'.1 hcapc
    have hidle : call.await.mode = .idle := by
      revert hcap₀
      cases call.await <;> simp [Await.capturing?, Await.mode]
    generalize call'.await = next at hcase hcap ⊢
    generalize s'.server = server at hcase ⊢
    cases hcase with
    | answered _ hmode | answerLost _ hmode => rw [hidle] at hmode; cases hmode
    | staged _ hmode => rw [hidle] at hmode; simp at hmode
    | failed hmode | unanswered hmode => exact absurd hidle hmode
    | committed hawait | rolledBack hawait | commitLost hawait => rw [hawait] at hidle; cases hidle
    | provider hcase =>
      generalize call.await = aw at hcase
      cases hcase <;> cases hcap
    | lateCommit hdoubt =>
      have hpast := (hi.calls c call hc).past hdoubt
      refine ⟨fun hover => ?_, fun ho => by simp at ho⟩
      revert hcap hover hpast
      cases call.await <;> simp [Await.capturing?, Await.isOver, Await.afterTransaction]
    | sessionLost =>
      refine ⟨fun hover => ?_, fun ho => by simp at ho⟩
      rw [hok call hc hover] at hcap; cases hcap
    | crashed =>
      obtain ⟨-, hlock⟩ := hinv c call provider input hc hcap
      exact ⟨fun h => (by cases h), hlock⟩

theorem capturing_of_reach (h : (service cfg).Reach sessionsKept s) : CapturingInv s :=
  reach_induction h (fun _ _ _ _ hc => nomatch hc) fun _ _ _ hi hinv hok hs => hinv.step hi hok hs

end Capturing

/-! ## Calls that come too late -/

/-- What has become in the state `t` of the call `c`, which found at `s` under the decision `d` that its
payment is not capturable. -/
structure TurnedAway (cfg : Config) (s t : State) (c : CallId) (call : Call) (d : Started) : Prop where
  notReturned : ∀ statusCode body, call.await ≠ .returned statusCode body
  /-- The tables are what the history wrote, which holds no payment and no event of the call. -/
  noEffect : t.db = schema.applyAll .empty (t.server.log.map Prod.snd) ∧
    ∀ e ∈ t.server.log, e.1 = .tx c ∨ e.1 = .pool c → e.2.isBusiness = false
  /-- Its error is PAYMENT_NOT_CAPTURABLE, or that of its ROLLBACK. The call rejects with it, unless its
  `markFailed` finds that it does not own its record any more: then it rejects with that. -/
  rejection : ∀ d' error rejection, call.await = .failed d' error rejection →
    (error = paymentNotCapturable ∨ RollbackFailed cfg s t c error) ∧
    ∃ u a u' callu, (service cfg).Steps System.anyStep s u ∧ u.calls c = some callu ∧
      callu.await = .markFailed d error ∧ (service cfg).step u a = some u' ∧ u'.calls c = some call ∧
      (service cfg).Steps System.anyStep u' t ∧
      (LosesRecord cfg u a c d → rejection = ownershipLost) ∧ (¬ LosesRecord cfg u a c d → rejection = error)

section Late

variable {cfg : Config} {s s' t : State} {c : CallId} {call call' callt : Call} {d : Started}
  {env : Env} {p : PaymentRecord} {P : Uuid} {paymentId : String}

/-- The row lock of a payment that is not AUTHORIZED leads to the rejection. -/
theorem StepCase.turnedAway (hi : Inv cfg s) (h : StepCase cfg s (.query c env) s') (hc : s.calls c = some call)
    (hawait : call.await = .findByIdForUpdate d paymentId) (hid : Uuid.uuidIn paymentId = some P)
    (hp : s.db.payments.get? P = some p) (hst : p.status ≠ .authorized) (hc' : s'.calls c = some call') :
    call'.await = .rollback d paymentNotCapturable ∧ call'.inDoubt = false := by
  constructor
  · rcases h.call_cases hc hc' with ⟨-, hca⟩ | ⟨-, hcase⟩
    · exact absurd rfl hca
    have huuid : uuidColumn paymentId = .ok P := by simp only [uuidColumn, hid]
    have hrun : call.run cfg env s.db = .ok ⟨[], [.payment P], .rollback d paymentNotCapturable⟩ := by
      simp only [Call.run, hawait, huuid, Except.map, hp, Call.afterLock, beforeCapture_of_ne hst]
    generalize call'.await = next at hcase ⊢
    generalize s'.server = server at hcase
    cases hcase with
    | staged _ _ hrun' => rw [Except.ok.inj (hrun'.symm.trans hrun)]
    | answered _ hmode => rw [hawait] at hmode; cases hmode
    | failed _ hrun' => cases hrun'.symm.trans hrun
    | committed haw | rolledBack haw => rw [hawait] at haw; cases haw
  · have hdoubt := (hi.calls c call hc).not_inDoubt (by rw [hawait]; rfl)
    by_contra hd
    rcases h.inDoubt_origin hc hc' (by simpa using hd) with hd | ⟨d', body, haw⟩
    · rw [hdoubt] at hd; cases hd
    · rw [hawait] at haw; cases haw

/-- A call that has been turned away stays so. -/
theorem turnedAway_of_steps (h : (service cfg).Reach System.anyStep s) (hc : s.calls c = some call)
    (hawait : call.await = .rollback d paymentNotCapturable) (hdoubt : call.inDoubt = false)
    (ht : (service cfg).Steps System.anyStep s t) (hct : t.calls c = some callt) : TurnedAway cfg s t c callt d := by
  have hi := inv_of_reach h
  have hreach : (service cfg).Reach System.anyStep t := h.steps ht
  obtain ⟨hdoubtt, e, he, hor⟩ := error_of_steps hc (by rw [hawait]; rfl) hdoubt ht hct
  have hret : ∀ statusCode body, callt.await ≠ .returned statusCode body := by
    intro statusCode body hret
    rw [hret] at he; cases he
  refine ⟨hret, ⟨Ledger.db_eq (inv_of_reach hreach).ledger, (history_of_reach hreach).noEffect hct hdoubtt hret⟩,
    fun d' error rejection hfailed => ?_⟩
  obtain ⟨callt', hct', hk⟩ := call_of_steps hc ht
  obtain rfl := Option.some.inj (hct.symm.trans hct')
  obtain rfl : d' = d := by
    rcases hk.advances.started d (by rw [hawait]; rfl) with hd | ⟨statusCode, body, hd⟩
    · rw [hfailed] at hd; exact Option.some.inj hd
    · exact absurd hd (hret _ _)
  obtain rfl : error = e := by
    rw [hfailed] at he; exact Option.some.inj he
  obtain ⟨u, a, u', callu, hu, hcu, hawaitu, hs, hcu', hu', hcleanup⟩ :=
    cleanup_of_steps hi hc (by rw [hawait]; rfl) ht hct hfailed
  exact ⟨hor, u, a, u', callu, hu, hcu, hawaitu, hs, hcu', hu', hcleanup.rejects⟩

end Late

/-! ## Serialization -/

/-- Captures of the payment `P` are serialized, from the state `s` on. -/
structure CaptureSerialized (cfg : Config) (s : State) (P : Uuid) : Prop where
  /-- At most one call of the provider's `capture` is in progress. -/
  exclusive : ∀ c c', s.InFlight c P → s.InFlight c' P → c = c'
  /-- One starts only while the committed payment is AUTHORIZED and has a provider reference. -/
  starts : ∀ a s' c provider input, (service cfg).step s a = some s' → s.Starts s' c provider input →
    input.paymentId = P → s'.db = s.db ∧ ∃ p reference, s.db.payments.get? P = some p ∧ p.status = .authorized ∧
      p.providerPaymentId = some reference ∧ reference.toList ≠ []
  /-- Once the payment has left AUTHORIZED, none ever starts again. -/
  settled : ∀ p, s.db.payments.get? P = some p → p.status ≠ .authorized →
    ∀ t a t', (service cfg).Steps sessionsKept s t → (service cfg).step t a = some t' →
    ∀ c provider input, t.Starts t' c provider input → input.paymentId ≠ P
  /-- A call that reaches the row lock after that is turned away. -/
  late : ∀ p, s.db.payments.get? P = some p → p.status ≠ .authorized → ∀ c call d paymentId env s',
    s.calls c = some call → call.await = .findByIdForUpdate d paymentId → Uuid.uuidIn paymentId = some P →
    (service cfg).step s (.query c env) = some s' →
    ∀ t callt, (service cfg).Steps sessionsKept s' t → t.calls c = some callt → TurnedAway cfg s' t c callt d

/-- Captures of every payment are serialized in every state of a run that loses no session during a call of
the provider. -/
theorem capture_serialized {cfg : Config} {s : State} (h : (service cfg).Reach sessionsKept s) (P : Uuid) :
    CaptureSerialized cfg s P := by
  have hi := inv_of_reach h
  have hinv := capturing_of_reach h
  have hstarts : ∀ {t a t' c provider input}, (service cfg).step t a = some t' → t.Starts t' c provider input →
      t'.db = t.db ∧ ∃ p reference, t.db.payments.get? input.paymentId = some p ∧ p.status = .authorized ∧
        p.providerPaymentId = some reference ∧ reference.toList ≠ [] := by
    intro t a t' c provider input hs hst
    obtain ⟨call, d, paymentId, id, p, env, o, server, -, -, -, hg, hb, -, -, hstage, hserver⟩ :=
      (step_cases hs).starts hst
    obtain ⟨-, -, -, hdb, -⟩ := Server.stage_eq_some hstage
    obtain ⟨hauthorized, -, reference, href, hne, rfl⟩ := beforeCapture_ok hb
    refine ⟨by rw [State.db, hserver]; exact hdb.trans (opened_committed ..).1, p,
      reference, ?_, hauthorized, href, hne⟩
    change t.db.payments.get? p.id = some p
    rw [Table.key_of_get? hg]; exact hg
  refine ⟨?_, ?_, ?_, ?_⟩
  · -- both calls hold the lock of the payment's row
    have hlock : ∀ c, s.InFlight c P → s.server.locks (.payment P) = some (.tx c) := by
      rintro c ⟨call, provider, input, hc, hcap, rfl, hor⟩
      obtain ⟨hopen, hlock⟩ := hinv c call provider input hc hcap
      exact hlock (hor.elim hopen id)
    intro c c' hc hc'
    have hsame := (hlock c hc).symm.trans (hlock c' hc')
    exact Session.tx.inj (Option.some.inj hsame)
  · rintro a s' c provider input hs hst rfl
    exact hstarts hs hst
  · rintro p hp hne t a t' ht hs c provider input hst rfl
    obtain ⟨-, p', reference, hp', hauthorized, -⟩ := hstarts hs hst
    obtain ⟨p'', hp'', -, hstay⟩ := (evolves_of_steps hi ht).payment _ p hp
    have hp' : t.ledger.db.payments.get? input.paymentId = some p' := hp'
    rw [hp''] at hp'
    rw [← Option.some.inj hp', hstay hne] at hauthorized
    exact hne hauthorized
  · intro p hp hne c call d paymentId env s' hc hawait hid hs t callt ht hct
    have hstep : StepCase cfg s (.query c env) s' := step_cases hs
    obtain ⟨call', hc', -⟩ := hstep.call_kept hc
    obtain ⟨hawait', hdoubt⟩ := hstep.turnedAway hi hc hawait hid hp hne hc'
    exact turnedAway_of_steps (h.any.step trivial hs) hc' hawait' hdoubt (ht.mono fun _ _ _ => trivial) hct

namespace Sample

theorem captured_kept : (service cfg).Reach sessionsKept captured := by
  have hcreated : (service cfg).Reach sessionsKept created := by
    refine System.steps_of_runFrom createRun ?_ (Option.some_get _).symm
    simp only [createRun, List.forall_mem_cons, sessionsKept, List.not_mem_nil, false_implies, implies_true, and_true]
  refine hcreated.steps (System.steps_of_runFrom captureRun ?_ (Option.some_get _).symm)
  simp only [captureRun, List.forall_mem_cons, sessionsKept, List.not_mem_nil, false_implies, implies_true, and_true]

theorem captured_spec : captured.db.status? paymentId = some .captured ∧ captured.calls 2 = none ∧
    hasReturned captured 1 (capture "capture-0001") 200 = true :=
  captured_run

/-- The call 2 is started under another key. Its lease runs out before it gets the row lock, and the call
3 takes its record over. -/
def takenOverRun : List Action :=
  [.start 2 (capture "capture-0002") (.ofNat 2001), .query 2 (env 21), .query 2 (env 22),
    .start 3 (capture "capture-0002") (.ofNat 3001), .query 3 (env 90), .query 3 (env 91),
    .query 2 (env 92), .query 2 (env 93), .query 2 (env 94)]

/-- The call `c` has `command` and has rejected with `rejection`. -/
def hasRejected (s : State) (c : CallId) (command : Command) (rejection : Err) : Bool :=
  match s.calls c with
  | some ⟨command', _, _, .failed _ _ rejection'⟩ => command' = command ∧ rejection' = rejection
  | _ => false

theorem takenOverRun_ends : ((service cfg).runFrom captured takenOverRun).any (fun s =>
    hasRejected s 2 (capture "capture-0002") ownershipLost) = true := by
  decide +kernel

def takenOver : State := ((service cfg).runFrom captured takenOverRun).get (Option.isSome_of_any takenOverRun_ends)

theorem takenOver_rejected : hasRejected takenOver 2 (capture "capture-0002") ownershipLost = true := by
  have hrun : (service cfg).runFrom captured takenOverRun = some takenOver := (Option.some_get _).symm
  have hends := System.of_ends hrun takenOverRun_ends
  exact hends

theorem takenOver_steps : (service cfg).Steps sessionsKept captured takenOver := by
  refine System.steps_of_runFrom takenOverRun ?_ (Option.some_get _).symm
  simp only [takenOverRun, List.forall_mem_cons, sessionsKept, List.not_mem_nil, false_implies, implies_true, and_true]

end Sample

/-- The payment has been captured. -/
theorem capture_serialized_captured : CaptureSerialized Sample.cfg Sample.captured Sample.paymentId ∧
    Sample.captured.db.status? Sample.paymentId = some .captured :=
  ⟨capture_serialized Sample.captured_kept Sample.paymentId, Sample.captured_spec.1⟩

/-- A call that reaches the row lock of a captured payment under another key rejects with the loss of its
record, not with PAYMENT_NOT_CAPTURABLE. -/
theorem late_capture_taken_over : (service Sample.cfg).Reach sessionsKept Sample.captured ∧
    Sample.captured.db.status? Sample.paymentId = some .captured ∧ Sample.captured.calls 2 = none ∧
    (service Sample.cfg).Steps sessionsKept Sample.captured Sample.takenOver ∧
    Sample.hasRejected Sample.takenOver 2 (Sample.capture "capture-0002") ownershipLost = true ∧
    ownershipLost ≠ paymentNotCapturable :=
  ⟨Sample.captured_kept, Sample.captured_spec.1, Sample.captured_spec.2.1, Sample.takenOver_steps,
    Sample.takenOver_rejected, by decide⟩

end PaymentOrchestration
