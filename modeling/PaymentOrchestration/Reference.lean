/-
The provider reference of a payment is stable: whatever fails, is taken over or is retried, all calls of
`authorize` under one record ask for the same payment with the same amount, calls under different records
for different payments, and what is stored and captured later is what was authorized.
-/
import PaymentOrchestration.Serialization
import PaymentOrchestration.Consistency

namespace PaymentOrchestration

open Lib IdempotencyService OutboxService PaymentsService

/-! ## What was sent -/

/-- The call `c` awaits the provider's `authorize` with `input`, under the record `id`. -/
def State.Authorizing (s : State) (c : CallId) (id : Uuid) (input : AuthorizePaymentInput) : Prop :=
  ∃ call d cmd, s.calls c = some call ∧ call.await = .authorize d cmd ∧ d.recordId = id ∧ authorizeInput cmd d = input

/-- The stored payment is the one the provider was asked to authorize. -/
structure AuthorizePaymentInput.For (input : AuthorizePaymentInput) (p : PaymentRecord) : Prop where
  paymentId : input.paymentId = p.id
  merchantId : Uuid.uuidIn input.merchantId = some p.merchantId
  amountMinor : input.amountMinor = Number.ofInt p.amountMinor
  currency : input.currency = p.currency

/-- The payment stores the command's merchant, amount and currency. -/
structure CreatePaymentCommand.StoredAs (cmd : CreatePaymentCommand) (p : PaymentRecord) : Prop where
  merchantId : Uuid.uuidIn cmd.merchantId = some p.merchantId
  amountMinor : cmd.amountMinor = Number.ofInt p.amountMinor
  currency : varcharIn 3 cmd.currency = .ok p.currency

/-- On the way to `t` the provider was asked to authorize for `cmd`, under the record `id`. -/
def Sent (cfg : Config) (t : State) (id : Uuid) (cmd : CreatePaymentCommand) : Prop :=
  ∃ u c call d, (service cfg).Reach accepted u ∧ (service cfg).Steps accepted u t ∧ u.calls c = some call ∧
    call.await = .authorize d cmd ∧ d.recordId = id

/-- Where a payment comes from: a call of `create`, under the record it has completed. -/
def Sourced (cfg : Config) (t : State) (p : PaymentRecord) : Prop :=
  ∃ c call cmd r, t.calls c = some call ∧ call.command = .create cmd ∧ r ∈ t.db.idempotency.rows ∧
    (Command.create cmd).Matches cfg r ∧ r.settles .create p.id = true ∧ cmd.StoredAs p ∧ Sent cfg t r.id cmd

section Sources

variable {cfg : Config} {s t t' : State} {a : Action} {c : CallId} {call : Call} {cmd cmd' : CreatePaymentCommand}
  {d : Started} {id : Uuid} {p p' : PaymentRecord} {r : IdempotencyRecord}

theorem Sent.step (h : Sent cfg t id cmd) (hok : accepted t a) (hs : (service cfg).step t a = some t') :
    Sent cfg t' id cmd := by
  obtain ⟨u, c, call, d, hu, hsteps, hc, hawait, hid⟩ := h
  exact ⟨u, c, call, d, hu, hsteps.tail hok hs, hc, hawait, hid⟩

/-- A call of `create` that gets its decision asks the provider at once. -/
theorem Ran.started_create {env : Env} {db : Db} {aw : Await} {o : Outcome} (h : Ran cfg env db call aw o)
    (hcmd : call.command = .create cmd) (hnone : aw.started? = none) (hd : o.next.started? = some d) :
    o.next = .authorize d cmd := by
  have hstart : ∀ {d'}, (call.afterStarted d').started? = some d → call.afterStarted d' = .authorize d cmd := by
    intro d' hd'
    rw [call.afterStarted_started] at hd'
    obtain rfl := Option.some.inj hd'
    unfold Call.afterStarted
    rw [hcmd]
  cases h with
  | inserted => exact hstart hd
  | @acquired _ _ r lease =>
    cases hb : buildStartedDecision (r.acquired lease env.uuid env.dbNow) with
    | error e => simp only [hb, Call.afterAcquired, Await.started?, reduceCtorEq] at hd
    | ok d' =>
      simp only [hb, Call.afterAcquired] at hd ⊢
      exact hstart hd
  | idle => rw [hnone] at hd; cases hd
  | replayed | refused | toInsert | toReactivate | toTakeover | conflict | committed => cases hd
  | _ => cases hnone

theorem StepCase.started_create (h : StepCase cfg s a t) (hc : s.calls c = some call) {call' : Call}
    (hc' : t.calls c = some call') (hcmd : call.command = .create cmd) (hnone : call.await.started? = none)
    (hd : call'.await.started? = some d) : call'.await = .authorize d cmd := by
  rcases h.call_cases hc hc' with ⟨rfl, -⟩ | ⟨-, hcase⟩
  · rw [hnone] at hd; cases hd
  generalize call'.await = next at hcase hd ⊢
  generalize t.server = server at hcase
  cases hcase with
  | answered _ _ hrun | staged _ _ hrun => exact (ran_of_run hrun).started_create hcmd hnone hd
  | answerLost | failed | unanswered =>
    rw [Call.reject_started, hnone] at hd; cases hd
  | committed hawait | rolledBack hawait | commitLost hawait => rw [hawait] at hnone; cases hnone
  | provider hcase =>
    generalize call.await = aw at hcase hnone
    cases hcase <;> cases hnone
  | lateCommit | sessionLost | crashed => exact nomatch hnone.symm.trans hd

theorem CreatePaymentCommand.StoredAs.same (h : cmd.StoredAs p) (hs : p.SameAuthorization p') : cmd.StoredAs p' :=
  ⟨by rw [hs.merchantId]; exact h.merchantId, by rw [hs.amountMinor]; exact h.amountMinor,
    by rw [hs.currency]; exact h.currency⟩

theorem storedAs_of_admitted {now : Millis} {dbNow : Timestamp} {authorization : AuthorizePaymentResult}
    (h : (insertRecord cmd d now authorization).Admitted dbNow p) : cmd.StoredAs p :=
  ⟨h.merchantId, bigintIn_toText h.amountMinor, h.currency⟩

theorem Sourced.step (hi : Inv cfg t) (h : Sourced cfg t p) (hok : accepted t a) (hs : (service cfg).step t a = some t')
    (hsame : p.SameAuthorization p') : Sourced cfg t' p' := by
  obtain ⟨c, call, cmd, r, hc, hcmd, hr, hm, hset, hst, hsent⟩ := h
  have hstep : StepCase cfg t a t' := step_cases hs
  obtain ⟨call', hc', hk⟩ := hstep.call_kept hc
  have hstatus : r.status = .completed := by
    simp only [IdempotencyRecord.settles, decide_eq_true_eq] at hset
    exact hset.2.2
  -- the completed record stays as it is
  obtain ⟨r', hr', -, hfinal, -⟩ := (Ledger.Evolves.of_step (ledger_step hi hstep)).record r.id r (Table.mem_iff.1 hr)
  obtain rfl := hfinal hstatus
  exact ⟨c, call', cmd, r', hc', by rw [hk.command]; exact hcmd, Table.mem_of_get? hr', hm,
    by rw [hsame.id]; exact hset, hst.same hsame, hsent.step hok hs⟩

/-- Every call of `create` under a decision has asked the provider, and every payment has its source. -/
structure SourceInv (cfg : Config) (t : State) : Prop where
  reach : (service cfg).Reach accepted t
  sent : ∀ c call cmd d, t.calls c = some call → call.command = .create cmd → call.await.started? = some d →
    Sent cfg t d.recordId cmd
  payment : ∀ p ∈ t.db.payments.rows, Sourced cfg t p

theorem SourceInv.step (h : SourceInv cfg t) (hok : accepted t a) (hs : (service cfg).step t a = some t') :
    SourceInv cfg t' := by
  have hi := inv_of_reach h.reach
  have hstep : StepCase cfg t a t' := step_cases hs
  have hreach' := h.reach.step hok hs
  refine ⟨hreach', fun c call' cmd d hc' hcmd hd => ?_, fun p hp => ?_⟩
  · rcases hstep.call_origin hc' with ⟨call, hc, hk⟩ | ⟨-, command, reserved, -, -, -, rfl⟩
    swap
    · cases hd
    rw [hk.command] at hcmd
    cases hd₀ : call.await.started? with
    | none =>
      exact ⟨t', c, call', d, hreach', .refl, hc', hstep.started_create hc hc' hcmd hd₀ hd, rfl⟩
    | some d₀ =>
      obtain rfl : d₀ = d := by
        rcases hk.advances.started d₀ hd₀ with hd' | ⟨statusCode, body, hret⟩
        · exact Option.some.inj (hd'.symm.trans hd)
        · rw [hret] at hd; cases hd
      exact (h.sent c call cmd d₀ hc hcmd hd₀).step hok hs
  · have hold : ∀ p₀ ∈ t.db.payments.rows, p₀.SameAuthorization p → Sourced cfg t' p :=
      fun p₀ hp₀ hsame => (h.payment p₀ hp₀).step hi hok hs hsame
    cases log_cases hi hstep with
    | silent hdb => rw [hdb] at hp; exact hold p hp (.refl p)
    | pool _ _ hmode hran hdb =>
      rw [hdb, (payments_of_not_business (hran.pool_writes hmode) t.db).1] at hp
      exact hold p hp (.refl p)
    | @commit call d body ws hc hd hset hdb =>
      obtain ⟨q, recording, w, env, e, r, expiresAt, now, hch, -, -, hg, hm, hres, -, hrid, -, -, rfl⟩ := hset
      have hpay : t'.db.payments = (w.apply t.db).payments := by rw [hdb]; rfl
      rw [hpay] at hp
      cases hch with
      | @create cmd _ _ authorization _ hcmd hadm hn =>
        rcases (Table.mem_insert hn).1 hp with hp | rfl
        · exact hold p hp (.refl p)
        -- the new payment: its call has completed the record
        obtain ⟨call', hc', hk⟩ := hstep.call_kept hc
        have hsame := IdempotencyRecord.SameIdentity.markedCompleted hres call.command.statusCode
            (toDto p).jsonb expiresAt now
        rw [hcmd] at hm
        refine ⟨_, call', cmd, r.markedCompleted call.command.statusCode (toDto p).jsonb p.id expiresAt now, hc',
          by rw [hk.command]; exact hcmd, ?_, hm.of_same hsame, ?_, storedAs_of_admitted hadm, ?_⟩
        · rw [hdb]
          exact Table.mem_of_get? (Table.get?_put_self (x := r) hg)
        · have hkind : r.isOf .create = true := hm.isOf
          have hkind' := (hsame.isOf .create).trans hkind
          simp only [IdempotencyRecord.settles, hkind']
          simp [IdempotencyRecord.markedCompleted]
        · rw [show (r.markedCompleted call.command.statusCode (toDto p).jsonb p.id expiresAt now).id =
            d.recordId from hrid]
          exact (h.sent _ call cmd d hc hcmd hd).step hok hs
      | @capture _ _ _ p₀ _ _ hg₀ _ hu =>
        have hid := Table.key_of_get? hg₀
        have hg' : t.db.payments.get? q.id = some p₀ := by rw [hu.same.id, hid]; exact hg₀
        rcases (Table.mem_put hg').1 hp with rfl | ⟨hp, -⟩
        · exact hold p₀ (Table.mem_of_get? hg₀) hu.same
        · exact hold p hp (.refl p)

theorem source_of_reach (h : (service cfg).Reach accepted t) : SourceInv cfg t :=
  h.invariant ⟨.init, (fun _ _ _ _ hc => nomatch hc), (fun _ hp => nomatch hp)⟩ fun _ _ _ hinv hok hs =>
    hinv.step hok hs

end Sources

/-! ## The law -/

/-- The provider reference is stable from the state `s` to the state `t`. -/
structure StableReference (cfg : Config) (s t : State) : Prop where
  /-- Calls of `authorize` under one record carry the same input. -/
  same : ∀ c id input c' input', s.Authorizing c id input → t.Authorizing c' id input' → input = input'
  /-- Calls under different records carry different payment ids. -/
  distinct : ∀ c id input c' id' input', s.Authorizing c id input → t.Authorizing c' id' input' → id ≠ id' →
    input.paymentId ≠ input'.paymentId
  /-- A committed payment is what was sent to the provider under the record that completed it. -/
  committed : ∀ P p, t.db.payments.get? P = some p → ∃ r ∈ t.db.idempotency.rows, r.settles .create P = true ∧
    (∀ c input, s.Authorizing c r.id input → input.For p) ∧
    ∃ u c input, (service cfg).Steps accepted u t ∧ u.Authorizing c r.id input ∧ input.For p
  /-- A call of `capture` goes to the row's provider and carries what was committed. -/
  captured : ∀ a t' c provider input, (service cfg).step t a = some t' → t.Starts t' c provider input →
    ∃ p₀ p, insertions input.paymentId t.server.log = [p₀] ∧ t.db.payments.get? input.paymentId = some p ∧
      p₀.SameAuthorization p ∧ provider = p.provider ∧ p.providerPaymentId = some input.providerPaymentId ∧
      input.amountMinor = Number.ofInt p.amountMinor ∧ input.currency = p.currency

section Law

variable {cfg : Config} {s t : State} {c : CallId} {id : Uuid} {input : AuthorizePaymentInput}
  {cmd cmd' : CreatePaymentCommand}

/-- Commands of `create` that begin records with one hash are one request. -/
theorem create_eq_of_hash (hfree : CollisionFree cfg (.create cmd) (.create cmd'))
    (h : (Command.create cmd).requestHash cfg = (Command.create cmd').requestHash cfg) :
    cmd.merchantId = cmd'.merchantId ∧ cmd.amountMinor = cmd'.amountMinor ∧ cmd.currency = cmd'.currency := by
  have hrequest := request_of_canonical (hfree (Digest.hex_inj h))
  simp only [Command.request, Json.obj.injEq, List.cons.injEq, Prod.mk.injEq, Json.str.injEq, Json.num.injEq, true_and,
    and_true] at hrequest
  obtain ⟨h1, h2, h3⟩ := hrequest
  exact ⟨JsString.utf16_inj h1, h2, JsString.utf16_inj h3⟩

/-- The record of a call of `authorize`, as it is in a later state. -/
theorem State.Authorizing.record (hi : Inv cfg s) (ht : (service cfg).Steps accepted s t)
    (h : s.Authorizing c id input) :
    ∃ call d cmd r, t.calls c = some call ∧ call.command = .create cmd ∧ authorizeInput cmd d = input ∧
      t.db.idempotency.get? id = some r ∧ (Command.create cmd).Matches cfg r ∧ r.resourceId = some input.paymentId := by
  obtain ⟨call, d, cmd, hc, hawait, rfl, rfl⟩ := h
  have hcall := hi.calls c call hc
  have hcmd : call.command = .create cmd := by
    have htx := hcall.tx
    rw [hawait] at htx
    exact htx.2
  obtain ⟨hown, -⟩ := hcall.owns d (by rw [hawait]; rfl)
  obtain ⟨r, hr, hm, hres⟩ := hown.evolves (evolves_of_steps hi ht)
  obtain ⟨call', hc', hk⟩ := call_of_steps hc ht
  rw [hcmd] at hm
  exact ⟨call', d, cmd, r, hc', by rw [hk.command]; exact hcmd, rfl, hr, hm, hres⟩

/-- The provider reference of every payment is stable, in every run of accepted requests whose hashes do not
collide. -/
theorem stable_reference (h : (service cfg).Reach accepted s) (ht : (service cfg).Steps accepted s t)
    (hfree : ∀ c call cmd c' call' cmd', t.calls c = some call → t.calls c' = some call' → call.command = .create cmd →
      call'.command = .create cmd' → CollisionFree cfg (.create cmd) (.create cmd')) : StableReference cfg s t := by
  have hi := inv_of_reach h
  have hreach : (service cfg).Reach accepted t := h.steps ht
  have hit := inv_of_reach hreach
  have hsource := source_of_reach hreach
  -- an input sent under the record a payment was completed under is the one that is stored
  have hfor : ∀ {u c input r p cmd c₀ call₀}, Inv cfg u → (service cfg).Steps accepted u t →
      u.Authorizing c r.id input → r ∈ t.db.idempotency.rows → t.calls c₀ = some call₀ → call₀.command = .create cmd →
      (Command.create cmd).Matches cfg r → r.resourceId = some p.id → cmd.StoredAs p → input.For p := by
    intro u c input r p cmd c₀ call₀ hiu hut hauth hr hc₀ hcmd hm hres hst
    obtain ⟨call, d, cmd', r', hc, hcmd', rfl, hr', hm', hres'⟩ := hauth.record hiu hut
    obtain rfl : r = r' := by
      rw [Table.mem_iff.1 hr] at hr'; exact Option.some.inj hr'
    obtain ⟨h1, h2, h3⟩ := create_eq_of_hash (hfree c call cmd' c₀ call₀ cmd hc hc₀ hcmd' hcmd)
      (hm'.requestHash.symm.trans hm.requestHash)
    have hfits : cmd.currency.toList.length ≤ 3 := by
      have haccepted := accepted_calls hreach c₀ call₀ hc₀
      rw [hcmd] at haccepted
      have hknown := haccepted.currency
      simp only [List.mem_cons, List.not_mem_nil, or_false] at hknown
      rcases hknown with hk | hk | hk <;> rw [hk] <;> decide
    exact ⟨Option.some.inj (hres'.symm.trans hres), (congrArg Uuid.uuidIn h1).trans hst.merchantId,
      h2.trans hst.amountMinor, h3.trans (varcharIn_eq hst.currency hfits).symm⟩
  refine ⟨?_, ?_, ?_, ?_⟩
  · intro c id input c' input' hs hs'
    obtain ⟨call, d, cmd, r, hc, hcmd, rfl, hr, hm, hres⟩ := hs.record hi ht
    obtain ⟨call', d', cmd', r', hc', hcmd', rfl, hr', hm', hres'⟩ := hs'.record hit (.refl)
    obtain rfl := Option.some.inj (hr.symm.trans hr')
    obtain ⟨h1, h2, h3⟩ := create_eq_of_hash (hfree c call cmd c' call' cmd' hc hc' hcmd hcmd')
      (hm.requestHash.symm.trans hm'.requestHash)
    have hid : d.resourceId = d'.resourceId := Option.some.inj (hres.symm.trans hres')
    simp only [authorizeInput, h1, h2, h3, hid]
  · intro c id input c' id' input' hs hs' hne heq
    obtain ⟨call, d, cmd, r, -, -, -, hr, hm, hres⟩ := hs.record hi ht
    obtain ⟨call', d', cmd', r', -, -, -, hr', hm', hres'⟩ := hs'.record hit (.refl)
    have hrr : r = r' := hit.records.distinct r (Table.mem_of_get? hr) r' (Table.mem_of_get? hr') hm.isOf hm'.isOf
      (by rw [hres, hres', heq])
    have hid := Table.key_of_get? hr
    have hid' := Table.key_of_get? hr'
    rw [hrr] at hid
    exact hne (hid.symm.trans hid')
  · intro P p hp
    obtain ⟨c₀, call₀, cmd, r, hc₀, hcmd, hr, hm, hset, hst, u, c, call, d, hu, hut, hc, hawait, hid⟩ :=
      hsource.payment p (Table.mem_of_get? hp)
    have hP : p.id = P := Table.key_of_get? hp
    have hres : r.resourceId = some p.id := by
      simp only [IdempotencyRecord.settles, decide_eq_true_eq] at hset
      exact hset.2.1
    rw [hP] at hset
    have hsent : u.Authorizing c r.id (authorizeInput cmd d) := ⟨call, d, cmd, hc, hawait, hid, rfl⟩
    exact ⟨r, hr, hset, fun c input hs => hfor hi ht hs hr hc₀ hcmd hm hres hst, u, c, _, hut, hsent,
      hfor (inv_of_reach hu) hut hsent hr hc₀ hcmd hm hres hst⟩
  · intro a t' c provider input hs hst
    obtain ⟨call, d, paymentId, id, p, env, o, server, -, -, -, hg, hb, -⟩ := (step_cases hs).starts hst
    obtain ⟨-, rfl, reference, href, -, rfl⟩ := beforeCapture_ok hb
    have hrow : t.db.payments.get? p.id = some p := by rw [Table.key_of_get? hg]; exact hg
    rcases Ledger.inserted hit.ledger p.id with ⟨hn, -⟩ | ⟨p₀, p', hins⟩
    · cases hrow.symm.trans hn
    · obtain rfl := Option.some.inj (hrow.symm.trans hins.row)
      exact ⟨p₀, p, hins.once, hrow, hins.same, rfl, href, rfl, rfl⟩

end Law

namespace Sample

theorem authorizing_accepted : (service cfg).Reach accepted authorizing := by
  refine System.steps_of_runFrom authorizeRun ?_ (Option.some_get _).symm
  simp only [authorizeRun, List.forall_mem_cons, List.not_mem_nil, false_implies, implies_true, and_true]
  exact ⟨fun _ => create_accepted, fun _ => trivial, fun _ => trivial⟩

/-- The run goes on from the call of `authorize` to the captured payment. -/
theorem authorizing_steps : (service cfg).Steps accepted authorizing captured := by
  have hrun : (service cfg).runFrom authorizing (createRun.drop 3) = some created := by
    have hcreated : (service cfg).runFrom (service cfg).init (authorizeRun ++ createRun.drop 3) = some created :=
      (Option.some_get _).symm
    have hauthorizing : (service cfg).runFrom (service cfg).init authorizeRun = some authorizing :=
      (Option.some_get _).symm
    rw [System.runFrom_append, hauthorizing, Option.bind_some] at hcreated
    exact hcreated
  refine (System.steps_of_runFrom (createRun.drop 3) ?_ hrun).trans captured_accepted
  simp only [createRun, List.drop_succ_cons, List.drop_zero, List.forall_mem_cons, List.not_mem_nil, false_implies,
    implies_true, and_true]
  exact ⟨fun _ => trivial, fun _ => trivial, fun _ => trivial, fun _ => trivial, fun _ => trivial⟩

/-- A run concerns the calls of its actions. -/
theorem calls_of_runFrom {c : CallId} : ∀ {as : List Action} {s s' : State}, (service cfg).runFrom s as = some s' →
    (∀ a ∈ as, c ≠ a.call) → s'.calls c = s.calls c
  | [], _, _, h, _ => by cases h; rfl
  | a :: as, s, s', h, hne => by
    obtain ⟨t, ht, h⟩ := Option.bind_eq_some_iff.1 h
    have hstep : StepCase cfg s a t := step_cases ht
    rw [calls_of_runFrom h fun b hb => hne b (List.mem_cons_of_mem _ hb), hstep.calls_of_ne (hne a List.mem_cons_self)]

/-- The one call of `create` of the run. -/
theorem captured_create {c : CallId} {call : Call} {cmd : CreatePaymentCommand} (hc : captured.calls c = some call)
    (hcmd : call.command = .create cmd) : create = .create cmd := by
  by_cases h0 : c = 0
  · subst h0
    obtain ⟨call₀, body, hc₀, hcommand, -⟩ := hasReturned_call created_spec.1
    obtain ⟨call', hc', hk⟩ := call_of_steps hc₀ captured_steps
    obtain rfl := Option.some.inj (hc.symm.trans hc')
    rw [← hcmd, hk.command, hcommand]
  by_cases h1 : c = 1
  · subst h1
    obtain ⟨call₁, body, hc₁, hcommand, -⟩ := hasReturned_call captured_spec.2.2
    obtain rfl := Option.some.inj (hc.symm.trans hc₁)
    rw [hcommand] at hcmd; cases hcmd
  · have hrun : (service cfg).runFrom (service cfg).init createRun = some created := (Option.some_get _).symm
    have hcreated : created.calls c = none := calls_of_runFrom hrun (by simp [createRun, Action.call, h0])
    have hcaptured : captured.calls c = created.calls c :=
      calls_of_runFrom (Option.some_get _).symm (by simp [captureRun, Action.call, h1])
    rw [hcaptured, hcreated] at hc; cases hc

end Sample

/-- A payment is authorized, stored and captured. -/
theorem stable_reference_captured : StableReference Sample.cfg Sample.authorizing Sample.captured :=
  stable_reference Sample.authorizing_accepted Sample.authorizing_steps fun _ _ _ _ _ _ hc hc' hcmd hcmd' => by
    obtain rfl := Command.create.inj ((Sample.captured_create hc hcmd).symm.trans (Sample.captured_create hc' hcmd'))
    exact fun _ => rfl

end PaymentOrchestration
