/-
Whether what the provider is asked to authorize can be stored. The routes accept some spellings of a
merchant's id that PostgreSQL does not read: in parentheses or square brackets, or separated by colons.
For these, and no others, the insert fails after the authorization.
-/
import PaymentOrchestration.Reference

namespace PaymentOrchestration

open Lib IdempotencyService PaymentsService

/-- `MOCK_PROVIDER_NAME`: 1 to 50 characters, which cannot hold U+0000 as an environment variable. -/
structure ProviderName (name : String) : Prop where
  min : 1 ≤ jsLength name
  max : jsLength name ≤ 50
  nul : '\x00' ∉ name.toList

/-- The values a call of `create` under the decision `d` passes to `tryInsertProcessing` and, whatever
the mock provider answers, to the insert of the payment fit their columns and meet the constraints. -/
structure Storable (cfg : Config) (call : Call) (cmd : CreatePaymentCommand) (d : Started) : Prop where
  record : ∀ env id, (buildExpiresAt cfg.processingLeaseMs env.now).isSome = true →
    ∃ r, (call.insertInput cfg env).accept id env.dbNow = .ok r
  payment : ∀ input now dbNow, ∃ p,
    (insertRecord cmd d now (MockPaymentProvider.authorize cfg.providerName input)).accept dbNow = .ok p

/-- PostgreSQL reads the spelling of an id. -/
def ReadableId (s : String) : Prop := ∃ g, Uuid.guid? s = some g ∧ g.readable

section Storing

variable {cfg : Config} {s : State} {c : CallId} {call : Call} {cmd : CreatePaymentCommand} {d : Started}

theorem Digest.nul_not_mem_hex (h : Digest) : '\x00' ∉ h.hex.toList := by
  rw [Digest.hex, String.toList_ofList]
  intro hm
  obtain ⟨x, -, hx⟩ := List.mem_map.1 hm
  exact Uuid.hexChar_ne_nul x hx

theorem requestHash_stored (cfg : Config) (command : Command) :
    varcharIn 128 (command.requestHash cfg) = .ok (command.requestHash cfg) := by
  refine varcharIn_of_length (Digest.nul_not_mem_hex _) ?_
  have hlen : (command.requestHash cfg).toList.length = 64 := by
    simp only [Command.requestHash, buildRequestHash, Digest.hex, String.toList_ofList, List.length_map]
    exact Digest.length_eq _
  omega

/-- A call that has got its decision had values that its record could be begun with. -/
theorem record_storable (hi : Inv cfg s) (hc : s.calls c = some call) (hawait : call.await = .authorize d cmd)
    {env : Env} {id : Uuid} (hlease : (buildExpiresAt cfg.processingLeaseMs env.now).isSome = true) :
    ∃ r, (call.insertInput cfg env).accept id env.dbNow = .ok r := by
  obtain ⟨⟨r, hr, hm, hres⟩, -⟩ := (hi.calls c call hc).owns d (by rw [hawait]; rfl)
  have hcmd : call.command = .create cmd := by
    have htx := (hi.calls c call hc).tx
    rw [hawait] at htx; exact htx.2
  obtain ⟨u, -, hu⟩ := hi.reserved.minted c call hc (by rw [hcmd]; rfl)
  obtain ⟨lease, hlease⟩ := Option.isSome_iff_exists.1 hlease
  have h1 : varcharIn 80 "payment" = .ok "payment" := by decide
  have h2 : uuidColumn call.resourceId = .ok u := by simp only [hu, uuidColumn, Uuid.uuidIn_uuidOut]
  have h3 : dateColumn (buildExpiresAt cfg.processingLeaseMs env.now) = .ok (ofDate lease) := by rw [hlease]; rfl
  simp only [TryInsertProcessingInput.accept, Call.insertInput, hm.scope, hm.idempotencyKey,
    requestHash_stored, h1, h2, h3, bind, Except.bind]
  exact ⟨_, rfl⟩

/-- What the mock provider answers is stored with every merchant's id that PostgreSQL reads. -/
theorem payment_storable (haccepted : cmd.Accepted) (hname : ProviderName cfg.providerName) {merchantId : Uuid}
    (hmerchant : Uuid.uuidIn cmd.merchantId = some merchantId) (input : AuthorizePaymentInput) (now : Millis)
    (dbNow : Timestamp) : ∃ p,
      (insertRecord cmd d now (MockPaymentProvider.authorize cfg.providerName input)).accept dbNow = .ok p := by
  obtain ⟨n, h0, hn, hamount⟩ := haccepted.amountMinor
  have hbigint : bigintIn cmd.amountMinor.toText = some (n : Int) := by rw [hamount]; exact bigintIn_ofInt h0 hn
  have hpositive : (0 : Int) < n := by omega
  have hprovider : varcharIn 50 cfg.providerName = .ok cfg.providerName :=
    varcharIn_of_length hname.nul ((length_le_jsLength _).trans hname.max)
  have hreference : varcharIn 120 ("mock_" ++ input.paymentId.uuidOut) = .ok ("mock_" ++ input.paymentId.uuidOut) := by
    have hlen := Uuid.uuidOut_length input.paymentId
    have hmock : "mock_".toList.length = 5 := by decide
    have hnul : '\x00' ∉ "mock_".toList := by decide
    refine varcharIn_of_length ?_ ?_
    · rw [String.toList_append, List.mem_append]
      exact fun h => h.elim hnul (Uuid.nul_not_mem_uuidOut _)
    · rw [String.toList_append, List.length_append]; omega
  unfold MockPaymentProvider.authorize
  split
  · -- a failure has no reference, but a code and a message
    have hcode : nullable (varcharIn 80) (some "MOCK_AUTHORIZATION_FAILED") =
        .ok (some "MOCK_AUTHORIZATION_FAILED") := by
      decide
    have hmessage : nullable textIn (some "Mock provider authorization failure") =
        .ok (some "Mock provider authorization failure") := by decide
    exact InsertPaymentRecord.accept_of dbNow hmerchant hbigint hpositive haccepted.currency hprovider rfl
      hcode hmessage
  · have hreference : nullable (varcharIn 120) (some ("mock_" ++ input.paymentId.uuidOut)) =
        .ok (some ("mock_" ++ input.paymentId.uuidOut)) := by simp only [nullable, hreference, Except.map]
    exact InsertPaymentRecord.accept_of dbNow hmerchant hbigint hpositive haccepted.currency hprovider hreference
      rfl rfl

/-- The request of a call that has reached the provider's `authorize` can be stored exactly when PostgreSQL
reads the spelling of its merchant's id. -/
theorem storable_iff (h : (service cfg).Reach accepted s) (hc : s.calls c = some call)
    (hawait : call.await = .authorize d cmd) (hname : ProviderName cfg.providerName) :
    Storable cfg call cmd d ↔ ReadableId cmd.merchantId := by
  have hi := inv_of_reach h
  have haccepted : cmd.Accepted := by
    have htx := (hi.calls c call hc).tx
    rw [hawait] at htx
    have := accepted_calls h c call hc
    rwa [htx.2] at this
  obtain ⟨g, hg⟩ := Option.isSome_iff_exists.1 haccepted.merchantId
  have hread := Uuid.uuidIn_of_guid hg
  constructor
  · rintro ⟨-, hpayment⟩
    obtain ⟨p, hp⟩ := hpayment (authorizeInput cmd d) 0 0
    have hmerchant : Uuid.uuidIn cmd.merchantId = some p.merchantId := (InsertPaymentRecord.accept_ok hp).merchantId
    refine ⟨g, hg, ?_⟩
    by_contra hr
    rw [hread, if_neg hr] at hmerchant; cases hmerchant
  · rintro ⟨g', hg', hr⟩
    obtain rfl := Option.some.inj (hg.symm.trans hg')
    rw [if_pos hr] at hread
    exact ⟨fun env id hlease => record_storable hi hc hawait hlease, payment_storable haccepted hname hread⟩

end Storing

namespace Sample

theorem cfg_providerName : ProviderName cfg.providerName := ⟨by decide, by decide, by decide⟩

/-- The merchant's id in parentheses, which the routes accept. -/
def parenthesized : CreatePaymentCommand :=
  ⟨"corr-0001", "create-0001", "(11111111-1111-4111-8111-111111111111)", Number.ofInt 1250, "TRY"⟩

theorem parenthesized_accepted : (Command.create parenthesized).Accepted where
  correlationId := ⟨by decide, by decide, by decide⟩
  idempotencyKey := ⟨by decide, by decide⟩
  merchantId := by decide
  amountMinor := ⟨1250, by decide, by decide, rfl⟩
  currency := by decide

def parenthesizedRun : List Action := [.start 0 (.create parenthesized) paymentId, .query 0 (env 1), .query 0 (env 2)]

/-- The answer of the mock provider, and the insert that follows. -/
def unstoredRun : List Action :=
  [.provider 0 (env 2).now
    (.authorized (MockPaymentProvider.authorize cfg.providerName (authorizeInput parenthesized decision))),
    .query 0 (env 3)]

def asked : State := ((service cfg).runFrom (service cfg).init parenthesizedRun).get (by decide +kernel)

def unstored : State := ((service cfg).runFrom asked unstoredRun).get (by decide +kernel)

def notUuid : Err := .other "invalid input syntax for type uuid: (11111111-1111-4111-8111-111111111111)"

theorem unstored_spec :
    (∃ call, asked.calls 0 = some call ∧ call.await = .authorize decision parenthesized) ∧
    ∃ call, unstored.calls 0 = some call ∧ call.await = .rollback decision notUuid := by
  have h : isAuthorizing asked 0 decision parenthesized ∧
      (unstored.calls 0).any fun call => match call.await with
        | .rollback d e => d = decision ∧ e = notUuid
        | _ => false := by decide +kernel
  refine ⟨isAuthorizing_call h.1, ?_⟩
  obtain ⟨call, hc, hawait⟩ := (Option.any_eq_true _ _).1 h.2
  refine ⟨call, hc, ?_⟩
  split at hawait
  · rename_i haw
    simp only [decide_eq_true_eq] at hawait
    rw [haw, hawait.1, hawait.2]
  · cases hawait

theorem asked_reach : (service cfg).Reach accepted asked := by
  refine System.steps_of_runFrom parenthesizedRun ?_ (Option.some_get _).symm
  simp only [parenthesizedRun, List.forall_mem_cons, List.not_mem_nil, false_implies, implies_true, and_true]
  exact ⟨fun _ => parenthesized_accepted, fun _ => trivial, fun _ => trivial⟩

theorem unstored_run : (service cfg).runFrom asked unstoredRun = some unstored := (Option.some_get _).symm

end Sample

/-- The request of the run can be stored. -/
theorem storable_authorizing : ∃ call, Storable Sample.cfg call Sample.createCommand Sample.decision := by
  obtain ⟨call, hc, hawait⟩ := Sample.authorizing_spec
  refine ⟨call, (storable_iff Sample.authorizing_accepted hc hawait Sample.cfg_providerName).2 ?_⟩
  exact ⟨(Uuid.guid? Sample.merchantId).get (by decide), (Option.some_get _).symm, by decide⟩

/-- An accepted request makes the mock provider authorize and cannot be stored: the insert that follows fails
on the type of its merchant's id. -/
theorem authorized_not_storable : ∃ call, Sample.asked.calls 0 = some call ∧
    call.await = .authorize Sample.decision Sample.parenthesized ∧ (service Sample.cfg).Reach accepted Sample.asked ∧
    ProviderName Sample.cfg.providerName ∧ ¬ Storable Sample.cfg call Sample.parenthesized Sample.decision ∧
    (service Sample.cfg).runFrom Sample.asked Sample.unstoredRun = some Sample.unstored ∧
    ∃ call', Sample.unstored.calls 0 = some call' ∧ call'.await = .rollback Sample.decision Sample.notUuid := by
  obtain ⟨⟨call, hc, hawait⟩, hunstored⟩ := Sample.unstored_spec
  refine ⟨call, hc, hawait, Sample.asked_reach, Sample.cfg_providerName, fun h => ?_, Sample.unstored_run, hunstored⟩
  obtain ⟨p, hp⟩ := h.payment (authorizeInput Sample.parenthesized Sample.decision) 0 0
  have hmerchant : Uuid.uuidIn Sample.parenthesized.merchantId = some p.merchantId :=
    (InsertPaymentRecord.accept_ok hp).merchantId
  have hnone : Uuid.uuidIn Sample.parenthesized.merchantId = none := by decide
  rw [hnone] at hmerchant; cases hmerchant

end PaymentOrchestration
