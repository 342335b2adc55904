/-
What the clients of the gateway observe. They see payments only through the gateway's responses, which the
payment service has made in states of its run. `client_view` compares any two responses with data, the
second from a state no earlier than the first: a retry is given the same data, a read agrees with what the
client was told before, and no read goes back.
-/
import PaymentOrchestration.Relay

namespace PaymentOrchestration

open Lib Lib.JsString Http PaymentsService GatewayServer

/-- A gateway and a payment service that have the internal token in common. -/
structure Deployment where
  cfg : Config
  gatewayJoi : JoiRuntime
  serviceJoi : JoiRuntime
  apiAuth : Auth
  internalAuth : Auth
  client : Gateway.PaymentServiceClient
  accepts : ℚ → Bool
  shared : PaymentServer.internalAuthMiddleware (some client.internalToken) = .ok internalAuth

namespace Deployment

/-- A step of the payment service in its deployment. -/
def steady (s : State) (a : Action) : Prop := orderly s a ∧ timely s a

/-- The gateway responds with data to a request for an operation: to its last attempt the service has
responded in the state `s`, and the response has been read to its end. -/
inductive Gives (d : Deployment) (s : State) (op : PaymentServer.Operation) (data : Json JsString) : Prop
  | intro {transport route uuid req requests response f r v correlationId}
      (spells : PaymentServer.Spells d.gatewayJoi uuid req route op)
      (handled : handle d.gatewayJoi d.apiAuth d.client d.accepts transport route uuid req = some (requests, response))
      (mem : f ∈ requests) (served : ServedIn d.cfg d.serviceJoi d.internalAuth d.client.baseUrl s f r)
      (last : transport requests.length = .response r.statusCode.toNat (.json v))
      (sent : Json.stringify v = Json.stringify r.body)
      (body : response.body = .obj [(utf16 "data", data), (utf16 "correlationId", .str correlationId)])

section Runs

variable {d : Deployment} {s s' : State} {op : PaymentServer.Operation} {data : Json JsString}

/-- The data are the answer of the operation in the state. -/
theorem Gives.source (hreach : (service d.cfg).Reach steady s) (h : d.Gives s op data) :
    ∃ body, Source s op body ∧ data = body.inUtf16 := by
  obtain ⟨hspells, hhandle, hmem, hserved, hlast, hsent, hdata⟩ := h
  rename_i transport route uuid req requests response f r v correlationId
  cases handled_of_handle hhandle with
  | refused | unsent => cases hmem
  | @sent x c hdispatch =>
    obtain ⟨_, hsame, hsecret, -⟩ := spells_of_dispatch hdispatch
    obtain rfl := Option.some.inj hsame
    -- the call is for the operation that the request spells
    obtain ⟨x', c', hdispatch', rfl⟩ := GatewayServer.dispatch_of_spells hsecret hspells
    rw [hdispatch] at hdispatch'
    obtain ⟨-, hc⟩ := Prod.mk.inj (Except.ok.inj hdispatch')
    obtain rfl := Option.some.inj hc
    obtain rfl := Json.stringify_inj hsent
    have hanswers := answers_of_served hdispatch d.shared hmem hreach hserved
    rw [hlast, respond_answered (bears_of_dispatch hdispatch) hanswers fun v hv => by cases hv; rfl] at hdata
    cases hanswers with
    | @ok statusCode body hsource hdocumented hvalid =>
      unfold relay at hdata
      rw [if_pos (isOk_success hdocumented)] at hdata
      cases hdata
      exact ⟨body, hsource, rfl⟩
    | @error statusCode code message hstatus =>
      -- an error has one member, and data come with the correlation id
      unfold relay at hdata
      rw [if_neg (by rw [(isOk_error hstatus).1]; exact Bool.false_ne_true)] at hdata
      simp [errorBody] at hdata

end Runs

/-! ## What a response tells -/

section Views

variable {cfg : Config} {s s' : State} {op op' : PaymentServer.Operation} {body body' : Json String}
  {p p' : PaymentRecord}

/-- The answer of an operation in a state tells of the payment `p`: as the row is, if it is read, or as a
call has left it. -/
structure Tells (s : State) (op : PaymentServer.Operation) (body : Json String) (p : PaymentRecord) : Prop where
  same : Json.Same body (toDto p)
  row : ∃ p', s.db.payments.get? p.id = some p' ∧ p.Follows p'
  shape : p.Shape
  read : ∀ query, op = .getById query → s.db.payments.get? p.id = some p
  captured : ∀ command, op = .command (.capture command) → p.status ≠ .authorized

theorem tells_of_source (hi : Inv cfg s) (h : Source s op body) : ∃ p, Tells s op body p := by
  cases h with
  | @returned c call statusCode _ hc hreturned =>
    obtain ⟨-, p, p', -, -, -, hsame, hp', hf, hk, hshape⟩ := (answered_of_returned hi hc hreturned).payment hi.ledger
    refine ⟨p, hsame, ⟨p', hp', hf⟩, hshape, fun _ h => (by cases h), fun command h => hk ?_⟩
    rw [PaymentServer.Operation.command.inj h]
    rfl
  | @read query _ hread =>
    obtain ⟨id, p, -, hp, rfl⟩ := row_of_getById hread
    have hp : s.db.payments.get? p.id = some p := by rw [Table.key_of_get? hp]; exact hp
    exact ⟨p, .refl _, ⟨p, hp, .refl p⟩, Ledger.shapes hi.ledger p (Table.mem_of_get? hp),
      fun _ _ => hp, fun _ h => (by cases h)⟩

/-- Two payments of which a third is what has become look alike, or one has become the other. -/
theorem agree_of_follows {q : PaymentRecord} (hshape : p.Shape) (hshape' : p'.Shape)
    (h : p.Follows q) (h' : p'.Follows q) : toDto p = toDto p' ∨ p.Follows p' ∨ p'.Follows p := by
  rcases h.settled with rfl | ⟨hs, hq⟩
  · exact .inr (.inr h')
  rcases h'.settled with rfl | ⟨hs', -⟩
  · exact .inr (.inl h)
  -- both are AUTHORIZED, and nothing else is in a row of theirs
  have hbare : ∀ {p : PaymentRecord}, p.Shape → p.status = .authorized →
      p.failureCode = none ∧ p.failureMessage = none ∧ p.capturedAt = none := by
    intro p hshape hs
    obtain ⟨hcode, hmessage⟩ := hshape.noFailure (by rw [hs]; decide)
    refine ⟨hcode, hmessage, Option.not_isSome_iff_eq_none.1 fun h => ?_⟩
    rw [hshape.capturedAt.1 h] at hs
    cases hs
  obtain ⟨hcode, hmessage, hcaptured⟩ := hbare hshape hs
  obtain ⟨hcode', hmessage', hcaptured'⟩ := hbare hshape' hs'
  left
  rw [toDto, toDto, hcode, hmessage, hcaptured, hcode', hmessage', hcaptured', hs, hs', ← h.same.id, ← h'.same.id,
    ← h.same.merchantId, ← h'.same.merchantId, ← h.same.amountMinor, ← h'.same.amountMinor, ← h.same.currency,
    ← h'.same.currency, ← h.same.provider, ← h'.same.provider, ← h.same.providerPaymentId,
    ← h'.same.providerPaymentId, ← h.same.createdAt, ← h'.same.createdAt]

/-- Answers to one scope and key are the same, and are given to requests of one hash. -/
theorem answered_same {l : Ledger} {k k' : Command} {statusCode statusCode' : Int} (hi : l.RecordsInv cfg)
    (h : Answered cfg l.db k statusCode body) (h' : Answered cfg l.db k' statusCode' body')
    (hfit : k.Fits) (hfit' : k'.Fits) (hscope : k.scope = k'.scope) (hkey : k.idempotencyKey = k'.idempotencyKey) :
    Json.Same body body' ∧ k.requestHash cfg = k'.requestHash cfg := by
  obtain ⟨r, b, hf, hh, -, -, hb, hsame⟩ := h.find hi hfit
  obtain ⟨r', b', hf', hh', -, -, hb', hsame'⟩ := h'.find hi hfit'
  rw [hscope, hkey, hf'] at hf
  obtain rfl := Option.some.inj hf
  obtain rfl := hb.symm.trans hb'
  exact ⟨hsame.symm.trans hsame', hh.symm.trans hh'⟩

end Views

end Deployment

open Deployment

/-- What clients are told through the gateway, in any two states of a run of the payment service. What two
responses tell of one payment never conflicts; a read tells of what any earlier response has told of, or of
what has become of it; and two commands with one scope and key are given the same data, for the same
request. -/
theorem client_view {d : Deployment} {s s' : State} (hreach : (service d.cfg).Reach steady s)
    (hsteps : (service d.cfg).Steps steady s s')
    {op op' : PaymentServer.Operation} {data data' : Json JsString} (h : d.Gives s op data)
    (h' : d.Gives s' op' data') :
    ∃ body body' p p', data = body.inUtf16 ∧ data' = body'.inUtf16 ∧ Tells s op body p ∧ Tells s' op' body' p' ∧
      (p.id = p'.id → (toDto p = toDto p' ∨ p.Follows p' ∨ p'.Follows p) ∧
        ∀ query, op' = .getById query → p.Follows p') ∧
      ∀ k k', op = .command k → op' = .command k' → k.scope = k'.scope → k.idempotencyKey = k'.idempotencyKey →
        Json.Same body body' ∧ (CollisionFree d.cfg k k' → k.request = k'.request) := by
  have hreach' := hreach.trans hsteps
  have hi := inv_of_reach hreach
  have hi' := inv_of_reach hreach'
  obtain ⟨body, hsource, rfl⟩ := h.source hreach
  obtain ⟨body', hsource', rfl⟩ := h'.source hreach'
  obtain ⟨p, htells⟩ := tells_of_source hi hsource
  obtain ⟨p', htells'⟩ := tells_of_source hi' hsource'
  refine ⟨body, body', p, p', rfl, rfl, htells, htells', fun hid => ?_, ?_⟩
  · obtain ⟨q, hq, hf⟩ := htells.row
    obtain ⟨q', hq', hf'⟩ := Ledger.follows_of_steps (ledger_of_steps hi hsteps) hq
    change s'.db.payments.get? p.id = some q' at hq'
    rw [hid] at hq'
    constructor
    · obtain ⟨q'', hq'', hf''⟩ := htells'.row
      obtain rfl := Option.some.inj (hq'.symm.trans hq'')
      exact agree_of_follows htells.shape htells'.shape (hf.trans hf') hf''
    · intro query hop
      obtain rfl := Option.some.inj (hq'.symm.trans (htells'.read query hop))
      exact hf.trans hf'
  · rintro k k' rfl rfl hscope hkey
    cases hsource with | returned hc hreturned =>
    cases hsource' with | returned hc' hreturned' =>
    have hanswered := (answered_of_returned hi hc hreturned).evolves (evolves_of_steps hi hsteps)
    have hanswered' := answered_of_returned hi' hc' hreturned'
    have hfit := (accepted_calls (hreach.mono fun _ _ hok => hok.1.1) _ _ hc).fits
    have hfit' := (accepted_calls (hreach'.mono fun _ _ hok => hok.1.1) _ _ hc').fits
    obtain ⟨hsame, hhash⟩ := answered_same hi'.records hanswered hanswered' hfit hfit' hscope hkey
    exact ⟨hsame, fun hfree => request_of_canonical (hfree (Digest.hex_inj hhash))⟩

namespace Sample

def deployment : Deployment where
  cfg := cfg
  gatewayJoi := joi
  serviceJoi := joi
  apiAuth := apiAuth
  internalAuth := internalAuth
  client := Gateway.Sample.client
  accepts := Gateway.Sample.accepts
  shared := rfl

/-- The client is told of the payment that was created. -/
theorem created_given : ∃ data, deployment.Gives created (.command create) data := by
  obtain ⟨x, c, x', body, hdispatch, hop, hmade, hserved⟩ := created_served
  obtain ⟨-, hspells⟩ := PaymentServer.spells_requestOf joi apiAuth (.ofNat 1) create_accepted
  have ha : Gateway.Sample.accepts Gateway.Sample.client.timeoutMs = true := by decide +kernel
  obtain ⟨hne, hresult⟩ := @run_last Gateway.Sample.client Gateway.Sample.accepts
    (fun _ => .response 201 (.json body.inUtf16)) ha c
  obtain ⟨f, hf⟩ := List.exists_mem_of_ne_nil _ hne
  obtain rfl := hmade _ f hf
  have hhandle : handle joi apiAuth Gateway.Sample.client Gateway.Sample.accepts
      (fun _ => .response 201 (.json body.inUtf16)) .create
      (.ofNat 1) createRequest = some ((c.run Gateway.Sample.client Gateway.Sample.accepts
        fun _ => .response 201 (.json body.inUtf16)).requests,
        respond x c ((Gateway.Transport.response 201 (.json body.inUtf16)).result c.answer)) := by
    rw [handle, hdispatch, ← hresult]
    rfl
  have hx := bears_of_dispatch hdispatch
  have hresponse : (respond x c ((Gateway.Transport.response 201 (.json body.inUtf16)).result c.answer)).body =
      .obj [(utf16 "data", body.inUtf16), (utf16 "correlationId", .str (utf16 (GatewayServer.correlationId c)))] := by
    cases c with
    | create command => exact congrArg Response.body (respond_data hx)
    | getById query => cases hop
    | capture command => cases hop
  exact ⟨_, .intro hspells hhandle hf hserved rfl rfl hresponse⟩

end Sample

/-- It is told the same again. -/
theorem client_view_created : ∃ body body' p p', Tells Sample.created (.command Sample.create) body p ∧
    Tells Sample.created (.command Sample.create) body' p' ∧ Json.Same body body' := by
  obtain ⟨data, hgives⟩ := Sample.created_given
  have hreach : (service Sample.deployment.cfg).Reach steady Sample.created := Sample.created_timely
  obtain ⟨body, body', p, p', -, -, htells, htells', -, hretried⟩ := client_view hreach .refl hgives hgives
  exact ⟨body, body', p, p', htells, htells', (hretried _ _ rfl rfl rfl rfl).1⟩

end PaymentOrchestration
