/-
Stable replay: once a call has returned, every later call with its scope and key is answered from the
stored record, with the same answer for the same request and a conflict for another, and does nothing
else.
-/
import PaymentOrchestration.Invariant
import PaymentOrchestration.Routes

namespace PaymentOrchestration

open Lib IdempotencyService OutboxService PaymentsService

/-! ## Requests and their hashes -/

/-- The string whose hash identifies the request. -/
def Command.canonical (command : Command) : JsString := Json.stringify (canonicalize command.request)

/-- The two requests' hashes collide only if their canonical strings are equal. -/
def CollisionFree (cfg : Config) (command command' : Command) : Prop :=
  cfg.sha256 command.canonical = cfg.sha256 command'.canonical → command.canonical = command'.canonical

theorem canonicalize_create (command : CreatePaymentCommand) : canonicalize (Command.create command).request =
    .obj [(JsString.utf16 "amountMinor", .num command.amountMinor),
      (JsString.utf16 "currency", .str (JsString.utf16 command.currency)),
      (JsString.utf16 "merchantId", .str (JsString.utf16 command.merchantId))] := by
  rfl

theorem canonicalize_capture (command : CapturePaymentCommand) : canonicalize (Command.capture command).request =
    .obj [(JsString.utf16 "paymentId", .str (JsString.utf16 command.paymentId))] := by
  rfl

/-- A canonical string determines its request. -/
theorem request_of_canonical {command command' : Command} (h : command.canonical = command'.canonical) :
    command.request = command'.request := by
  have h := Json.stringify_inj h
  cases command <;> cases command'
  · rw [canonicalize_create, canonicalize_create] at h
    simp only [Json.obj.injEq, List.cons.injEq, Prod.mk.injEq, Json.num.injEq, Json.str.injEq, true_and, and_true] at h
    obtain ⟨h1, h2, h3⟩ := h
    simp only [Command.request, h1, h2, h3]
  · rw [canonicalize_create, canonicalize_capture] at h
    simp at h
  · rw [canonicalize_create, canonicalize_capture] at h
    simp at h
  · rw [canonicalize_capture, canonicalize_capture] at h
    simp only [Json.obj.injEq, List.cons.injEq, Prod.mk.injEq, Json.str.injEq, true_and, and_true] at h
    simp only [Command.request, h]

theorem Digest.hex_inj {d d' : Digest} (h : d.hex = d'.hex) : d = d' := by
  have hdigits : d.digits.map Uuid.hexChar = d'.digits.map Uuid.hexChar := String.ofList_injective h
  have hinj : Function.Injective Uuid.hexChar := fun a b hab => by
    have := congrArg Uuid.hexDigit? hab
    simpa using this
  cases d; cases d'
  obtain rfl := hinj.list_map hdigits
  rfl

/-- Different requests have different hashes, if their hashes do not collide. -/
theorem requestHash_ne {cfg : Config} {command command' : Command} (hne : command.request ≠ command'.request)
    (hfree : CollisionFree cfg command command') : command.requestHash cfg ≠ command'.requestHash cfg :=
  fun h => hne (request_of_canonical (hfree (Digest.hex_inj h)))

theorem requestHash_eq {cfg : Config} {command command' : Command} (h : command.request = command'.request) :
    command.requestHash cfg = command'.requestHash cfg := by
  rw [Command.requestHash, Command.requestHash, h]

/-! ## The stored answer -/

section Stored

variable {cfg : Config} {s s' t : State} {a : Action} {c : CallId} {call : Call} {command : Command} {statusCode : Int}
  {body : Json String}

/-- Every call of a run from the routes is an accepted one. -/
theorem accepted_calls (h : (service cfg).Reach accepted s) :
    ∀ c call, s.calls c = some call → call.command.Accepted := by
  refine h.invariant (P := fun s => ∀ c call, s.calls c = some call → call.command.Accepted)
    (fun _ _ hc => nomatch hc) fun s a s' ih hok hs c call' hc => ?_
  rcases (step_cases hs).call_origin hc with ⟨call, hcall, hk⟩ | ⟨-, command, reserved, rfl, -, -, rfl⟩
  · rw [hk.command]; exact ih c call hcall
  · exact hok

/-- A record that was begun for an accepted command is what a lookup by the command's scope and key finds. -/
theorem Ledger.RecordsInv.find {l : Ledger} {r : IdempotencyRecord} (hi : l.RecordsInv cfg)
    (hr : r ∈ l.db.idempotency.rows) (hm : command.Matches cfg r) (hfit : command.Fits) :
    IdempotencyDataAccess.findByScopeAndKey l.db command.scope command.idempotencyKey = some r := by
  have hscope : r.scope = command.scope := varcharIn_eq hm.scope hfit.scope
  have hkey : r.idempotencyKey = command.idempotencyKey := varcharIn_eq hm.idempotencyKey hfit.idempotencyKey
  cases hf : IdempotencyDataAccess.findByScopeAndKey l.db command.scope command.idempotencyKey with
  | none => exact absurd ⟨hscope, hkey⟩ (IdempotencyDataAccess.findByScopeAndKey_none hf r hr)
  | some r' =>
    obtain ⟨hmem', hscope', hkey'⟩ := IdempotencyDataAccess.findByScopeAndKey_some hf
    rw [hi.key r' hmem' r hr (hscope'.trans hscope.symm) (hkey'.trans hkey.symm)]

/-- The stored answer is what a lookup by the command's scope and key finds. -/
theorem Answered.find {l : Ledger} (hi : l.RecordsInv cfg) (h : Answered cfg l.db command statusCode body)
    (hfit : command.Fits) :
    ∃ r b, IdempotencyDataAccess.findByScopeAndKey l.db command.scope command.idempotencyKey = some r ∧
      r.requestHash = command.requestHash cfg ∧ r.status = .completed ∧ r.responseStatusCode = some statusCode ∧
      normalizeResponseBody cfg r.responseBody = b ∧ Json.Same b body := by
  obtain ⟨r, b, hr, hm, hs, hcode, hb, hsame⟩ := h
  have hmem := Table.mem_of_get? hr
  refine ⟨r, b, hi.find hmem hm hfit, hm.requestHash, hs, hcode, ?_, hsame⟩
  · -- a stored body is an object, which is returned as it is
    obtain ⟨_, p, -, -, hbody, -⟩ := hi.completed r hmem hs
    obtain rfl := Option.some.inj (hbody.symm.trans hb)
    rw [hb]; rfl

/-- What a call with the scope and key of a stored answer is answered. -/
def Replies (cfg : Config) (command : Command) (statusCode : Int) (body : Json String) (call : Call) (a : Await) :
    Prop :=
  if call.command.requestHash cfg = command.requestHash cfg then ∃ b, a = .returned statusCode b ∧ Json.Same b body
  else a = .refused keyReused

/-- The read of a call whose scope and key have a stored answer. -/
theorem Answered.run {l : Ledger} (env : Env) (hi : l.RecordsInv cfg) (h : Answered cfg l.db command statusCode body)
    (hfit : command.Fits) (hscope : call.command.scope = command.scope)
    (hkey : call.command.idempotencyKey = command.idempotencyKey) (hawait : call.await = .findByScopeAndKey) :
    ∃ next, call.run cfg env l.db = .ok ⟨[], [], next⟩ ∧ Replies cfg command statusCode body call next := by
  obtain ⟨r, b, hf, hh, hs, hcode, hb, hsame⟩ := h.find hi hfit
  rw [← hscope, ← hkey] at hf
  simp only [Call.run, hawait, hf]
  refine ⟨_, rfl, ?_⟩
  unfold Replies decideFromExisting
  rw [hh]
  by_cases heq : call.command.requestHash cfg = command.requestHash cfg
  · rw [if_pos heq, if_neg (fun hne => hne heq.symm)]
    simp only [hs, hcode, Option.getD_some, hb]
    exact ⟨b, rfl, hsame⟩
  · rw [if_neg heq, if_pos (fun h => heq h.symm)]; rfl

/-- Where a call can be whose scope and key have a stored answer: before its read, answered from it, or
at the end of a read that failed. -/
def Replaying (cfg : Config) (command : Command) (statusCode : Int) (body : Json String) (call : Call) : Prop :=
  call.await = .findByScopeAndKey ∨ Replies cfg command statusCode body call call.await ∨
    (∃ m, call.await = .refused (.other m)) ∨ call.await = .crashed .findByScopeAndKey

theorem Replaying.started (h : Replaying cfg command statusCode body call) : call.await.started? = none := by
  rcases h with h | h | ⟨m, h⟩ | h
  · rw [h]; rfl
  · unfold Replies at h
    split at h
    · obtain ⟨b, h, -⟩ := h; rw [h]; rfl
    · rw [h]; rfl
  · rw [h]; rfl
  · rw [h]; rfl

theorem Replaying.await_of_mode (h : Replaying cfg command statusCode body call) (hm : call.await.mode ≠ .idle) :
    call.await = .findByScopeAndKey := by
  rcases h with h | h | ⟨m, h⟩ | h
  · exact h
  · unfold Replies at h
    split at h
    · obtain ⟨b, h, -⟩ := h; rw [h] at hm; exact absurd rfl hm
    · rw [h] at hm; exact absurd rfl hm
  · rw [h] at hm; exact absurd rfl hm
  · rw [h] at hm; exact absurd rfl hm

theorem Replaying.await_of_not_over (h : Replaying cfg command statusCode body call) (hm : call.await.isOver = false) :
    call.await = .findByScopeAndKey := by
  rcases h with h | h | ⟨m, h⟩ | h
  · exact h
  · unfold Replies at h
    split at h
    · obtain ⟨b, h, -⟩ := h; rw [h] at hm; cases hm
    · rw [h] at hm; cases hm
  · rw [h] at hm; cases hm
  · rw [h] at hm; cases hm

/-- Such a call changes no row. -/
theorem Replaying.keeps (hi : Inv cfg s) (h : StepCase cfg s a s') (hc : s.calls a.call = some call)
    (hr : Replaying cfg command statusCode body call) : s'.db = s.db := by
  have hsame : ∀ {call₀ : Call}, s.calls a.call = some call₀ → call = call₀ :=
    fun h₀ => Option.some.inj (hc.symm.trans h₀)
  cases log_cases hi h with
  | silent hdb => exact hdb
  | @pool env call₀ o hc₀ _ hmode hran hdb =>
    obtain rfl := hsame hc₀
    have hawait := hr.await_of_mode (by rw [hmode]; decide)
    have hwrites : o.writes = [] := by
      rw [hawait] at hran
      cases hran with
      | acquired hor => rcases hor with ⟨h, -⟩ | ⟨h, -⟩ <;> cases h
      | _ => rfl
    rw [hdb, hwrites]; rfl
  | commit hc₀ hd =>
    obtain rfl := hsame hc₀
    rw [hr.started] at hd; cases hd

variable (hrec : s.ledger.RecordsInv cfg) (hans : Answered cfg s.db command statusCode body) (hfit : command.Fits)

include hrec hans hfit

/-- A call with the scope and key of a stored answer goes on to be answered from it. -/
theorem Replaying.step (h : StepCase cfg s a s') (hc : s.calls c = some call)
    (hscope : call.command.scope = command.scope)
    (hkey : call.command.idempotencyKey = command.idempotencyKey) (hr : Replaying cfg command statusCode body call)
    {call' : Call} (hc' : s'.calls c = some call') : Replaying cfg command statusCode body call' := by
  rcases h.call_cases hc hc' with ⟨rfl, -⟩ | ⟨-, hcase⟩
  · exact hr
  have hk : call'.command = call.command := by
    obtain ⟨call'', hc'', hk⟩ := h.call_kept hc
    obtain rfl := Option.some.inj (hc''.symm.trans hc')
    exact hk.command
  have hreplies : Replies cfg command statusCode body call' = Replies cfg command statusCode body call := by
    unfold Replies; rw [hk]
  unfold Replaying
  rw [hreplies]
  -- all that such a call ever sends to the database is its first read
  have hfind : ∀ {aw : Await}, call.await = aw → aw.mode ≠ .idle → aw = .findByScopeAndKey := fun haw hm => by
    subst haw; exact hr.await_of_mode hm
  have hrefused : ∀ m, call.await.mode ≠ .idle → call.reject (.other m) = .refused (.other m) := by
    intro m hm
    simp only [Call.reject, hfind rfl hm]
  generalize call'.await = next at hcase ⊢
  generalize s'.server = server at hcase
  cases hcase with
  | @answered env _ _ _ hmode hrun =>
    obtain ⟨next', hrun', hreplies⟩ := hans.run env hrec hfit hscope hkey (hfind rfl (by rw [hmode]; decide))
    obtain rfl := Except.ok.inj (hrun.symm.trans hrun')
    exact .inr (.inl hreplies)
  | answerLost _ hmode => exact .inr (.inr (.inl ⟨_, hrefused _ (by rw [hmode]; decide)⟩))
  | staged _ hmode =>
    rw [hfind rfl (by rcases hmode with h | h <;> rw [h] <;> decide)] at hmode
    simp [Await.mode] at hmode
  | committed hawait | rolledBack hawait | commitLost hawait => cases hfind hawait fun h => by cases h
  | @failed env _ hmode hrun =>
    obtain ⟨next', hrun', -⟩ := hans.run env hrec hfit hscope hkey (hfind rfl hmode)
    cases hrun.symm.trans hrun'
  | unanswered hmode => exact .inr (.inr (.inl ⟨_, hrefused _ hmode⟩))
  | provider hcase =>
    have hstart := hr.started
    generalize call.await = aw at hstart hcase
    cases hcase <;> cases hstart
  | lateCommit | sessionLost => exact hr
  | crashed hover => exact .inr (.inr (.inr (by rw [hr.await_of_not_over hover])))

end Stored

/-! ## Stable replay -/

/-- The call `c` with the command of `call` is answered from a stored record: `answer` is what it
returns or rejects with, unless its one read fails, and it neither reaches a provider nor changes a row. -/
structure AnsweredFromRecord (cfg : Config) (t : State) (c : CallId) (call : Call) (answer : Await → Prop) : Prop where
  await : call.await = .findByScopeAndKey ∨ answer call.await ∨ (∃ m, call.await = .refused (.other m)) ∨
    call.await = .crashed .findByScopeAndKey
  /-- When its read runs, the call has its answer. -/
  answers : call.await = .findByScopeAndKey → ∀ env, t.fresh env = true → ∃ t' call',
    (service cfg).step t (.query c env) = some t' ∧ t'.calls c = some call' ∧ answer call'.await
  noProvider : ∀ now answer, (service cfg).step t (.provider c now answer) = none
  noChange : ∀ a t', a.call = c → (service cfg).step t a = some t' → t'.db = t.db

section Theorem

variable {cfg : Config} {s t : State} {c c₀ : CallId} {call call₀ : Call} {statusCode : Int} {body : Json String}

/-- A later call with the scope and key of a call that has returned is answered from its record. -/
theorem replaying_of_returned (h : (service cfg).Reach accepted s) (hc₀ : s.calls c₀ = some call₀)
    (hreturned : call₀.await = .returned statusCode body) (hnew : s.calls c = none)
    (ht : (service cfg).Steps accepted s t) (hc : t.calls c = some call)
    (hscope : call.command.scope = call₀.command.scope)
    (hkey : call.command.idempotencyKey = call₀.command.idempotencyKey) :
    Answered cfg t.db call₀.command statusCode body ∧ Replaying cfg call₀.command statusCode body call := by
  have hi := inv_of_reach h
  have hans : Answered cfg s.db call₀.command statusCode body := by
    have := (hi.calls c₀ call₀ hc₀).tx
    rwa [hreturned] at this
  have hfit := (accepted_calls h c₀ call₀ hc₀).fits
  induction ht generalizing call with
  | refl => rw [hnew] at hc; cases hc
  | @tail t t' a hpre hok hs ih =>
    have hit := inv_of_steps hi hpre
    have hstep : StepCase cfg t a t' := step_cases hs
    have hanst : Answered cfg t.db call₀.command statusCode body := hans.evolves (evolves_of_steps hi hpre)
    refine ⟨hanst.evolves (.of_step (ledger_step hit hstep)), ?_⟩
    rcases hstep.call_origin hc with ⟨callt, hct, hk⟩ | ⟨-, command, reserved, -, -, -, rfl⟩
    · have hscope' : callt.command.scope = call₀.command.scope := by rw [← hk.command]; exact hscope
      have hkey' : callt.command.idempotencyKey = call₀.command.idempotencyKey := by rw [← hk.command]; exact hkey
      exact .step hit.records hanst hfit hstep hct hscope' hkey' (ih hct hscope' hkey').2 hc
    · exact .inl rfl

theorem answeredFromRecord (hi : Inv cfg t) (hans : Answered cfg t.db call₀.command statusCode body)
    (hfit : call₀.command.Fits) (hc : t.calls c = some call) (hscope : call.command.scope = call₀.command.scope)
    (hkey : call.command.idempotencyKey = call₀.command.idempotencyKey)
    (hr : Replaying cfg call₀.command statusCode body call) :
    AnsweredFromRecord cfg t c call (Replies cfg call₀.command statusCode body call) where
  await := hr
  answers hawait env hfresh := by
    obtain ⟨next, hrun, hreplies⟩ := hans.run (l := t.ledger) env hi.records hfit hscope hkey hawait
    have hrun : call.run cfg env t.db = .ok ⟨[], [], next⟩ := hrun
    refine ⟨{ (t.mint env).goOn c call next with server := { t.server with log := t.server.log ++ [] } },
      { call with await := next }, ?_, Function.update_self .., hreplies⟩
    simp only [service, State.step, hc, hfresh, if_true, hrun, hawait, Await.mode, State.execute]
    rfl
  noProvider now answer := by
    simp only [service, State.step, hc]
    cases hnext : State.afterProvider now call answer with
    | none => rfl
    | some next =>
      have hstart := hr.started
      have hcase := provider_cases hnext
      generalize call.await = aw at hstart hcase
      cases hcase <;> cases hstart
  noChange a t' hac hs := by
    subst hac
    exact hr.keeps hi (step_cases hs) hc

/-- Once a call has returned, every later call with its scope and key is answered from its record: with
the same status and a JSON-equal body for the same request, and with a conflict for another. -/
theorem stable_replay (h : (service cfg).Reach accepted s) (hc₀ : s.calls c₀ = some call₀)
    (hreturned : call₀.await = .returned statusCode body) (hnew : s.calls c = none)
    (ht : (service cfg).Steps accepted s t) (hc : t.calls c = some call)
    (hscope : call.command.scope = call₀.command.scope)
    (hkey : call.command.idempotencyKey = call₀.command.idempotencyKey) :
    (call.command.request = call₀.command.request →
      AnsweredFromRecord cfg t c call fun a => ∃ b, a = .returned statusCode b ∧ Json.Same b body) ∧
    (call.command.request ≠ call₀.command.request → CollisionFree cfg call.command call₀.command →
      AnsweredFromRecord cfg t c call fun a => a = .refused keyReused) := by
  have hit := inv_of_steps (inv_of_reach h) ht
  have hfit := (accepted_calls h c₀ call₀ hc₀).fits
  obtain ⟨hans, hr⟩ := replaying_of_returned h hc₀ hreturned hnew ht hc hscope hkey
  have hall := answeredFromRecord hit hans hfit hc hscope hkey hr
  constructor
  · intro heq
    have hreplies : Replies cfg call₀.command statusCode body call =
        fun a => ∃ b, a = .returned statusCode b ∧ Json.Same b body := by
      funext a; unfold Replies; rw [if_pos (requestHash_eq heq)]
    rwa [hreplies] at hall
  · intro hne hfree
    have hreplies : Replies cfg call₀.command statusCode body call = fun a => a = .refused keyReused := by
      funext a; unfold Replies; rw [if_neg (requestHash_ne hne hfree)]
    rwa [hreplies] at hall

end Theorem

namespace Sample

theorem hasReturned_call {s : State} {c : CallId} {command : Command} {statusCode : Int}
    (h : hasReturned s c command statusCode = true) :
    ∃ call body, s.calls c = some call ∧ call.command = command ∧ call.await = .returned statusCode body := by
  unfold hasReturned at h
  split at h
  · rename_i hcall
    simp only [decide_eq_true_eq] at h
    exact ⟨_, _, hcall, h.1, by rw [h.2]⟩
  · cases h

/-- The request of the call 0 is made again, by the call 2. -/
def retry : Call := ⟨create, (Uuid.ofNat 2000).uuidOut, false, .findByScopeAndKey⟩

def retried : State :=
  { created with calls := Function.update created.calls 2 (some retry), minted := .ofNat 2000 :: created.minted }

theorem created_spec : hasReturned created 0 create 201 = true ∧ created.calls 2 = none ∧
    Uuid.ofNat 2000 ∉ created.minted := by
  refine ⟨created_run.1, created_run.2.1, ?_⟩
  rw [created_run.2.2.1]
  decide +kernel

theorem retried_steps : (service cfg).Steps accepted created retried := by
  refine System.Steps.single (a := .start 2 create (.ofNat 2000)) create_accepted ?_
  simp only [service, State.step, if_pos created_spec.2]
  rfl

theorem retried_calls : retried.calls 2 = some retry := by simp [retried]

end Sample

/-- A payment is created again with the same key and request. -/
theorem stable_replay_retried : ∃ body, AnsweredFromRecord Sample.cfg Sample.retried 2 Sample.retry fun a =>
    ∃ b, a = .returned 201 b ∧ Json.Same b body := by
  obtain ⟨hreturned, hnew, -⟩ := Sample.created_spec
  obtain ⟨call, body, hcall, hcommand, hawait⟩ := Sample.hasReturned_call hreturned
  refine ⟨body, (stable_replay Sample.created_accepted hcall hawait hnew Sample.retried_steps Sample.retried_calls
    ?_ ?_).1 ?_⟩ <;> rw [hcommand] <;> rfl

end PaymentOrchestration
