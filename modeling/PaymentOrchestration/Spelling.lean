/-
The identity of a request is its text. The scope and the hash of a request hold the id as it was spelled,
the tables hold the uuid: a request that spells the id of an answered one otherwise is not answered from
its record, and only such a request.
-/
import PaymentOrchestration.Serialization

namespace PaymentOrchestration

open Lib IdempotencyService OutboxService PaymentsService

/-! ## Spellings -/

/-- The id in a command, as it was spelled. -/
def Command.spelling : Command → String
  | .create command => command.merchantId
  | .capture command => command.paymentId

/-- The same request, but for the spelling of its id: PostgreSQL reads the same uuid. -/
inductive Respelled : Command → Command → Prop
  | create {command command' : CreatePaymentCommand} (u : Uuid) : Uuid.uuidIn command.merchantId = some u →
      Uuid.uuidIn command'.merchantId = some u → command'.idempotencyKey = command.idempotencyKey →
      command'.amountMinor = command.amountMinor → command'.currency = command.currency →
      Respelled (.create command) (.create command')
  | capture {command command' : CapturePaymentCommand} (u : Uuid) : Uuid.uuidIn command.paymentId = some u →
      Uuid.uuidIn command'.paymentId = some u → command'.idempotencyKey = command.idempotencyKey →
      Respelled (.capture command) (.capture command')

namespace Respelled

variable {command command' : Command}

theorem kind (h : Respelled command command') : command'.kind = command.kind := by
  cases h <;> rfl

theorem idempotencyKey (h : Respelled command command') : command'.idempotencyKey = command.idempotencyKey := by
  cases h <;> assumption

theorem request (h : Respelled command command') (hs : command'.spelling = command.spelling) :
    command'.request = command.request := by
  cases h with
  | @create command command' _ _ _ _ hamount hcurrency =>
    have hs : command'.merchantId = command.merchantId := hs
    simp only [Command.request, hs, hamount, hcurrency]
  | @capture command command' =>
    have hs : command'.paymentId = command.paymentId := hs
    simp only [Command.request, hs]

/-- The scopes agree exactly when the spellings do. -/
theorem scope_iff (h : Respelled command command') :
    command'.scope = command.scope ↔ command'.spelling = command.spelling := by
  have hcancel : ∀ p a b : String, p ++ a = p ++ b ↔ a = b := by
    intro p a b
    rw [← String.toList_inj, String.toList_append, String.toList_append, List.append_cancel_left_eq, String.toList_inj]
  cases h with
  | create => exact hcancel _ _ _
  | capture => exact hcancel _ _ _

end Respelled

/-! ## Which record an answer is from -/

section Records

variable {cfg : Config} {l : Ledger} {r r' : IdempotencyRecord} {k : Kind} {P : Uuid} {p p' : PaymentRecord}

/-- At most one record completes an operation on a payment. -/
theorem settles_unique (h : Ledger.Reachable cfg l) (hr : r ∈ l.db.idempotency.rows) (hr' : r' ∈ l.db.idempotency.rows)
    (hs : r.settles k P = true) (hs' : r'.settles k P = true) : r = r' := by
  have hcount : l.db.idempotency.count (IdempotencyRecord.settles k P) = (Facets.of (l.db.status? P)).records k :=
    congrArg (Facets.records · k) (Ledger.facets_eq h P)
  have hle : (Facets.of (l.db.status? P)).records k = 0 ∨ (Facets.of (l.db.status? P)).records k = 1 := by
    cases k <;> simp only [Facets.of] <;> split <;> simp
  rcases hle with h0 | h1
  · rw [h0, Table.count_eq_zero] at hcount
    rw [hcount r hr] at hs; cases hs
  · rw [h1, Table.count_eq_one] at hcount
    obtain ⟨x, -, -, hx⟩ := hcount
    exact (hx r hr hs).trans (hx r' hr' hs').symm

/-- Answers about different payments differ. -/
theorem id_of_same (h : Json.Same (toDto p).jsonb (toDto p').jsonb) : p.id = p'.id := by
  have h : Json.Same (toDto p) (toDto p') := (Json.same_jsonb (toDto_distinct p)).symm.trans
      (h.trans (Json.same_jsonb (toDto_distinct p')))
  have hid := Json.Same.lookup h (toDto_distinct p).nodup (toDto_distinct p').nodup "id"
  change some (Json.str p.id.uuidOut) = some (Json.str p'.id.uuidOut) at hid
  exact Uuid.uuidOut_inj (Json.str.inj (Option.some.inj hid))

/-- Records of one kind with the same answer are one record. -/
theorem eq_of_same_answer {command command' : Command} {b b' : Json String} (h : Ledger.Reachable cfg l)
    (hkind : command'.kind = command.kind) (hr : r ∈ l.db.idempotency.rows) (hr' : r' ∈ l.db.idempotency.rows)
    (hm : command.Matches cfg r) (hm' : command'.Matches cfg r') (hs : r.status = .completed)
    (hs' : r'.status = .completed)
    (hb : r.responseBody = some b) (hb' : r'.responseBody = some b') (hsame : Json.Same b b') : r = r' := by
  have hi := Ledger.RecordsInv.of_reachable h
  obtain ⟨_, p, -, -, hbody, hres⟩ := hi.completed r hr hs
  obtain ⟨_, p', -, -, hbody', hres'⟩ := hi.completed r' hr' hs'
  obtain rfl := Option.some.inj (hb.symm.trans hbody)
  obtain rfl := Option.some.inj (hb'.symm.trans hbody')
  have hid := id_of_same hsame
  refine settles_unique (k := command.kind) (P := p.id) h hr hr' ?_ ?_
  · simp only [IdempotencyRecord.settles, decide_eq_true_eq]
    exact ⟨hm.isOf, hres, hs⟩
  · simp only [IdempotencyRecord.settles, decide_eq_true_eq]
    exact ⟨hkind ▸ hm'.isOf, by rw [hid]; exact hres', hs'⟩

end Records

/-! ## Replays -/

/-- Whatever follows, the call `c` is answered from a record with this answer. -/
def Replays (cfg : Config) (s : State) (c : CallId) (statusCode : Int) (body : Json String) : Prop :=
  ∀ t, (service cfg).Steps accepted s t → ∀ call, t.calls c = some call →
    AnsweredFromRecord cfg t c call fun a => ∃ b, a = .returned statusCode b ∧ Json.Same b body

section Theorem

variable {cfg : Config} {s s' : State} {c c₀ : CallId} {call₀ : Call} {command : Command} {statusCode : Int}
  {body : Json String}

/-- A read that gives the answer of another call has found the other call's record. -/
theorem scope_of_read {env : Env} {o : Outcome} {call : Call} {b : Json String} (hi : Inv cfg s)
    (hans : Answered cfg s.db call₀.command statusCode body) (hfit₀ : call₀.command.Fits) (hfit : call.command.Fits)
    (hkind : call.command.kind = call₀.command.kind) (hawait : call.await = .findByScopeAndKey)
    (hrun : call.run cfg env s.db = .ok o) (hnext : o.next = .returned statusCode b) (hsame : Json.Same b body) :
    call.command.scope = call₀.command.scope := by
  obtain ⟨r, b₀, hr, hm, hs, -, hb, hsame₀⟩ := hans
  have hran : Ran cfg env s.db call .findByScopeAndKey o := hawait ▸ ran_of_run hrun
  generalize haw : Await.findByScopeAndKey = aw at hran
  cases hran with
  | @replayed _ r' ha hr' hh' hs' =>
    have hm' := hi.records.matches_of_find hr' hh'
    have hmem' := Table.mem_of_get? hm'.1
    obtain ⟨_, p, -, -, hb', -⟩ := hi.records.completed r' hmem' hs'
    have hbody : normalizeResponseBody cfg r'.responseBody = (toDto p).jsonb := by rw [hb']; rfl
    simp only [hbody, Await.returned.injEq] at hnext
    obtain ⟨-, rfl⟩ := hnext
    obtain rfl := eq_of_same_answer hi.ledger hkind (Table.mem_of_get? hr) hmem' hm hm'.2 hs hs' hb hb'
      (hsame₀.trans hsame.symm)
    exact (varcharIn_eq hm'.2.scope hfit.scope).symm.trans (varcharIn_eq hm.scope hfit₀.scope)
  | refused | toInsert | toReactivate | toTakeover => cases hnext
  | idle hmode => rw [← haw] at hmode; cases hmode
  | acquired hor => rcases hor with ⟨rfl, -⟩ | ⟨rfl, -⟩ <;> cases haw
  | _ => cases haw

/-- A request that follows an answered one, the same but for the spelling of its id, is answered with that
answer exactly when it spells the id alike. -/
theorem replays_iff (h : (service cfg).Reach accepted s) (hc₀ : s.calls c₀ = some call₀)
    (hreturned : call₀.await = .returned statusCode body) (hcommand : Respelled call₀.command command)
    (haccepted : command.Accepted) {reserved : Uuid}
    (hs : (service cfg).step s (.start c command reserved) = some s') {env : Env} (hfresh : s'.fresh env = true) :
    Replays cfg s' c statusCode body ↔ command.spelling = call₀.command.spelling := by
  have hi := inv_of_reach h
  have hfit₀ := (accepted_calls h c₀ call₀ hc₀).fits
  have hstart : (service cfg).Steps accepted s s' := .single (a := .start c command reserved) haccepted hs
  have hnew : s.calls c = none := by
    by_contra hne
    simp only [service, State.step, hne, false_and, if_false] at hs
    cases hs
  have hc : s'.calls c = some ⟨command, State.reservedId command reserved, false, .findByScopeAndKey⟩ := by
    simp only [service, State.step] at hs
    split at hs
    · cases hs; exact Function.update_self ..
    · cases hs
  constructor
  · intro hreplays
    have his := inv_of_steps hi hstart
    have hans : Answered cfg s'.db call₀.command statusCode body := by
      have hans := (hi.calls c₀ call₀ hc₀).tx
      rw [hreturned] at hans
      exact hans.evolves (evolves_of_steps hi hstart)
    obtain ⟨t', call', hstep, hc', b, hnext, hsame⟩ := (hreplays s' .refl _ hc).answers rfl env hfresh
    refine hcommand.scope_iff.1 ?_
    -- the call's first read has found the record of the answer
    have hread : StepCase cfg s' (.query c env) t' := step_cases hstep
    rcases hread.call_cases hc hc' with ⟨rfl, -⟩ | ⟨-, hcase⟩
    · cases hnext
    rw [hnext] at hcase
    generalize hnext' : Await.returned statusCode b = next at hcase
    generalize t'.server = server at hcase
    cases hcase with
    | answered _ _ hrun =>
      exact scope_of_read his hans hfit₀
        haccepted.fits hcommand.kind rfl hrun hnext'.symm hsame
    | staged _ hmode => rcases hmode with hmode | hmode <;> cases hmode
    | committed hawait => cases hawait
    | failed | rolledBack => cases hnext'
  · intro hspelling t ht call hct
    obtain ⟨call', hct', hk⟩ := call_of_steps hc ht
    obtain rfl := Option.some.inj (hct.symm.trans hct')
    have hcmd : call.command = command := hk.command
    have hscope : call.command.scope = call₀.command.scope := by rw [hcmd]; exact hcommand.scope_iff.2 hspelling
    have hkey : call.command.idempotencyKey = call₀.command.idempotencyKey := by
      rw [hcmd]; exact hcommand.idempotencyKey
    obtain ⟨hans, hr⟩ := replaying_of_returned h hc₀ hreturned hnew (hstart.trans ht) hct hscope hkey
    have hit := inv_of_steps hi (hstart.trans ht)
    have hall := answeredFromRecord hit hans hfit₀ hct hscope hkey hr
    have hreplies : Replies cfg call₀.command statusCode body call = fun a => ∃ b, a = .returned statusCode b ∧
        Json.Same b body := by
      funext a
      unfold Replies
      rw [if_pos (requestHash_eq (by rw [hcmd]; exact hcommand.request hspelling))]
    rwa [hreplies] at hall

end Theorem

namespace Sample

/-- The merchant's id of the run without its hyphens. -/
def respelledCreate : Command := .create { createCommand with merchantId := "11111111111141118111111111111111" }

/-- The payment's id of the run without its hyphens. -/
def respelledCapture : Command := .capture ⟨"corr-0003", "capture-0001", "00000000000000000000000000000001"⟩

theorem create_respelled : Respelled create respelledCreate :=
  .create ((Uuid.uuidIn merchantId).get (by decide)) (Option.some_get _).symm (by decide) rfl rfl rfl

theorem create_same : Respelled create create :=
  .create ((Uuid.uuidIn merchantId).get (by decide)) (Option.some_get _).symm (Option.some_get _).symm rfl rfl rfl

theorem retried_step : (service cfg).step created (.start 2 create (.ofNat 2000)) = some retried := by
  simp only [service, State.step, if_pos created_spec.2]
  rfl

theorem retried_fresh : retried.fresh (env 21) = true := by
  change decide ((env 21).uuid ∉ .ofNat 2000 :: created.minted ∧ (env 21).uuid' ∉ .ofNat 2000 :: created.minted ∧
    (env 21).uuid ≠ (env 21).uuid') = true
  rw [created_run.2.2.1]
  decide +kernel

theorem capture_respelled : Respelled (capture "capture-0001") respelledCapture :=
  .capture paymentId (Uuid.uuidIn_uuidOut _) (by decide) rfl

theorem respelledCreate_accepted : respelledCreate.Accepted where
  correlationId := ⟨by decide, by decide, by decide⟩
  idempotencyKey := ⟨by decide, by decide⟩
  merchantId := by decide
  amountMinor := ⟨1250, by decide, by decide, rfl⟩
  currency := by decide

theorem respelledCapture_accepted : respelledCapture.Accepted where
  correlationId := ⟨by decide, by decide, by decide⟩
  idempotencyKey := ⟨by decide, by decide⟩
  paymentId := by decide

def respelledStart : Action := .start 2 respelledCreate (.ofNat 2000)

def respelledReads : List Action := [.query 2 (env 21), .query 2 (env 22)]

def secondAuthorization : Action := .provider 2 (env 22).now (.authorized (.success "mock" "mock_2"))

def respelledRun : List Action := [.query 2 (env 23), .query 2 (env 24), .query 2 (env 25), .query 2 (env 26)]

/-- The payment is created once more. -/
theorem created_twice :
    ((service cfg).runFrom created (respelledStart :: (respelledReads ++ secondAuthorization :: respelledRun))).any
    fun t => hasReturned t 2 respelledCreate 201 ∧ t.db.payments.rows.length = 2 := by
  decide +kernel

def lateStart : Action := .start 3 respelledCapture (.ofNat 3000)

def lateRun : List Action :=
  [.query 3 (env 31), .query 3 (env 32), .query 3 (env 33), .query 3 (env 34), .query 3 (env 35)]

/-- The second capture begins a record of its own, finds the payment captured, and is rejected. -/
theorem captured_twice : ((service cfg).runFrom captured (lateStart :: lateRun)).any
    fun t => hasRejected t 3 respelledCapture paymentNotCapturable ∧ t.db.idempotency.rows.length = 3 := by
  decide +kernel

/-- No call begins in the rest of a run. -/
theorem steps_of_rest {as : List Action} {s t : State} (h : (service cfg).runFrom s as = some t)
    (hne : ∀ a ∈ as, ∀ c command reserved, a ≠ .start c command reserved) : (service cfg).Steps accepted s t := by
  refine System.steps_of_runFrom as (fun a ha _ => ?_) h
  cases a with
  | start => exact absurd rfl (hne _ ha _ _ _)
  | _ => trivial

end Sample

/-- From `s`, where the call `c₀` has returned, the call `c` makes the request again with another spelling
of its id, and is not answered with the response of `c₀`. The run goes on to `t`. -/
structure NotReplayed (cfg : Config) (s : State) (c₀ c : CallId) (command : Command) (reserved : Uuid) (t : State) :
    Prop where
  reach : (service cfg).Reach accepted s
  accepted : command.Accepted
  notReplayed : ∃ call₀ statusCode body s', s.calls c₀ = some call₀ ∧ call₀.await = .returned statusCode body ∧
    Respelled call₀.command command ∧ (service cfg).step s (.start c command reserved) = some s' ∧
    ¬ Replays cfg s' c statusCode body ∧ (service cfg).Steps PaymentOrchestration.accepted s' t

namespace Sample

theorem create_not_replayed : ∃ t, NotReplayed cfg created 0 2 respelledCreate (.ofNat 2000) t ∧
    hasReturned t 2 respelledCreate 201 = true ∧ t.db.payments.rows.length = 2 := by
  obtain ⟨t, ht, hfacts⟩ := (Option.any_eq_true _ _).1 created_twice
  simp only [decide_eq_true_eq] at hfacts
  obtain ⟨call₀, body, hc₀, hcommand, hawait⟩ := hasReturned_call created_spec.1
  obtain ⟨s', hs', hrun⟩ := Option.bind_eq_some_iff.1 ht
  refine ⟨t, ⟨created_accepted, respelledCreate_accepted, call₀, 201, body, s', hc₀, hawait,
    by rw [hcommand]; exact create_respelled, hs', fun hreplays => ?_, steps_of_rest hrun (by
      simp [respelledReads, secondAuthorization, respelledRun])⟩, hfacts⟩
  -- the provider is asked again
  rw [System.runFrom_append] at hrun
  obtain ⟨u, hu, hrun⟩ := Option.bind_eq_some_iff.1 hrun
  obtain ⟨u', hu', -⟩ := Option.bind_eq_some_iff.1 hrun
  have hstep : StepCase cfg u secondAuthorization u' := step_cases hu'
  cases hstep with
  | answered hc hnext =>
    have hnone := (hreplays u (steps_of_rest hu (by simp [respelledReads])) _ hc).noProvider (env 22).now
      (.authorized (.success "mock" "mock_2"))
    exact nomatch hnone.symm.trans hu'
  | pool _ _ _ _ _ ha => rcases ha with ⟨h, -⟩ | ⟨_, h, -⟩ <;> cases h
  | rejected _ _ ha => rcases ha with ⟨_, h, -⟩ | ⟨_, h, -⟩ <;> cases h

theorem capture_not_replayed : ∃ t, NotReplayed cfg captured 1 3 respelledCapture (.ofNat 3000) t ∧
    hasRejected t 3 respelledCapture paymentNotCapturable = true ∧ t.db.idempotency.rows.length = 3 := by
  obtain ⟨t, ht, hfacts⟩ := (Option.any_eq_true _ _).1 captured_twice
  simp only [decide_eq_true_eq] at hfacts
  obtain ⟨call₀, body, hc₀, hcommand, hawait⟩ := hasReturned_call captured_spec.2.2
  obtain ⟨s', hs', hrun⟩ := Option.bind_eq_some_iff.1 ht
  have hsteps := steps_of_rest hrun (by simp [lateRun])
  refine ⟨t, ⟨created_accepted.steps captured_accepted, respelledCapture_accepted, call₀, 200, body, s', hc₀, hawait,
    by rw [hcommand]; exact capture_respelled, hs', fun hreplays => ?_, hsteps⟩, hfacts⟩
  -- the call is rejected
  have hrejected := hfacts.1
  unfold hasRejected at hrejected
  split at hrejected
  · rename_i hc
    rcases (hreplays t hsteps _ hc).await with h | ⟨b, h, -⟩ | ⟨m, h⟩ | h <;> cases h
  · cases hrejected

end Sample

/-- The create of the run is made again, with the same spelling. -/
theorem replays_retried : ∃ body, Replays Sample.cfg Sample.retried 2 201 body := by
  obtain ⟨call₀, body, hc₀, hcommand, hawait⟩ := Sample.hasReturned_call Sample.created_spec.1
  have hsame : Respelled call₀.command Sample.create := by rw [hcommand]; exact Sample.create_same
  refine ⟨body, (replays_iff Sample.created_accepted hc₀ hawait hsame Sample.create_accepted Sample.retried_step
    Sample.retried_fresh).2 ?_⟩
  rw [hcommand]

/-- Neither a create nor a capture that spells an id otherwise is answered with the response of the first:
a second payment is authorized and inserted, and the capture begins a record and is rejected. -/
theorem respelled_not_replayed :
    (∃ t, NotReplayed Sample.cfg Sample.created 0 2 Sample.respelledCreate (.ofNat 2000) t ∧
      Sample.hasReturned t 2 Sample.respelledCreate 201 = true ∧ t.db.payments.rows.length = 2) ∧
    ∃ t, NotReplayed Sample.cfg Sample.captured 1 3 Sample.respelledCapture (.ofNat 3000) t ∧
      Sample.hasRejected t 3 Sample.respelledCapture paymentNotCapturable = true ∧ t.db.idempotency.rows.length = 3 :=
  ⟨Sample.create_not_replayed, Sample.capture_not_replayed⟩

end PaymentOrchestration
