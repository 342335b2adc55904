/-
The running service: any number of calls of `create` and `capture`, in any number of processes, over
one database. An action lets one call go on by one await, or is a fault: a failing statement, a lost
answer, a lost session, a dead process. Statements outside a transaction use a session of their own,
so a call's `markFailed` waits like any other for the rows its own transaction still holds.
-/
import PaymentOrchestration.Payments
import PaymentOrchestration.Lib.Run

namespace PaymentOrchestration

open Lib

abbrev CallId := Nat

/-- A database session: of a call's transaction, or of its other statements. -/
inductive Session
  | tx (c : CallId)
  | pool (c : CallId)
deriving DecidableEq

/-- `minted` are the values `randomUUID()` has returned so far. -/
structure State where
  server : Server schema Session
  calls : CallId → Option Call
  minted : List Uuid

namespace State

/-- No calls, empty tables. -/
def initial : State := ⟨.start .empty, fun _ => none, []⟩

/-- The committed tables. -/
abbrev db (s : State) : Db := s.server.committed

/-- The call `c` goes on to `await`. -/
def goOn (s : State) (c : CallId) (call : Call) (await : Await) : State :=
  { s with calls := Function.update s.calls c (some { call with await := await }) }

/-- The identifiers a step takes from `randomUUID()` are new. -/
def fresh (s : State) (env : Env) : Bool :=
  env.uuid ∉ s.minted ∧ env.uuid' ∉ s.minted ∧ env.uuid ≠ env.uuid'

def mint (s : State) (env : Env) : State := { s with minted := env.uuid :: env.uuid' :: s.minted }

/-- The database carries out what a statement of the call `c` writes and locks, once the rows are free. -/
def execute (server : Server schema Session) (c : CallId) (o : Outcome) : Mode → Option (Server schema Session)
  | .pool => server.autocommit (.pool c) o.writes
  | .opening => (server.begin (.tx c)).stage (.tx c) o.writes o.locks
  | .inside => server.stage (.tx c) o.writes o.locks
  | .commit => if (server.pending (.tx c)).isSome then some (server.commit (.tx c)) else none
  | .rollback => some (server.rollback (.tx c))
  | .idle => none

/-- What a failing statement does to the database: a failing COMMIT or ROLLBACK ends the transaction. -/
def abandon (server : Server schema Session) (c : CallId) : Mode → Server schema Session
  | .commit | .rollback => server.rollback (.tx c)
  | .pool | .opening | .inside | .idle => server

end State

/-- A provider's answer. -/
inductive ProviderAnswer
  | authorized (result : AuthorizePaymentResult)
  | captured (result : CapturePaymentResult)
  | threw (error : Err)

/-- One step of the service. -/
inductive Action
  /-- A call begins. -/
  | start (c : CallId) (command : Command) (reserved : Uuid)
  /-- The statement a call awaits runs, and the call goes on. -/
  | query (c : CallId) (env : Env)
  /-- The statement a call awaits fails without an effect. -/
  | queryError (c : CallId) (message : String)
  /-- A statement outside a transaction takes effect, but its answer is lost. -/
  | queryLost (c : CallId) (env : Env) (message : String)
  /-- The provider answers. -/
  | provider (c : CallId) (now : Millis) (answer : ProviderAnswer)
  /-- The answer to a COMMIT is lost before the database has decided on it. -/
  | commitLost (c : CallId) (message : String)
  /-- The database commits a transaction whose COMMIT got no answer. -/
  | lateCommit (c : CallId)
  /-- The database drops the session of a transaction. -/
  | sessionLost (c : CallId)
  /-- The process of a call dies. -/
  | crash (c : CallId)

/-- The call an action concerns. -/
def Action.call : Action → CallId
  | .start c _ _ | .query c _ | .queryError c _ | .queryLost c _ _ | .provider c _ _ | .commitLost c _
  | .lateCommit c | .sessionLost c | .crash c => c

namespace State

variable (cfg : Config)

/-- The id a call offers to reserve: `create` has just taken it from `randomUUID()`. -/
def reservedId (command : Command) (reserved : Uuid) : String :=
  match command with
  | .create _ => reserved.uuidOut
  | .capture command => command.paymentId

/-- What the call does with a provider's answer. -/
def afterProvider (now : Millis) (call : Call) : ProviderAnswer → Option Await
  | .authorized result =>
    match call.await with
    | .authorize d command => some (Call.afterAuthorize now d command result)
    | _ => none
  | .captured result =>
    match call.await with
    | .capture d payment _ _ => some (Call.afterCapture now d payment result)
    | _ => none
  | .threw e =>
    match call.await with
    | .authorize .. | .capture .. => some (call.reject e)
    | _ => none

def step (s : State) : Action → Option State
  | .start c command reserved =>
    if s.calls c = none ∧ reserved ∉ s.minted then
      some { s with
        calls := Function.update s.calls c (some ⟨command, reservedId command reserved, false, .findByScopeAndKey⟩)
        minted := reserved :: s.minted }
    else none
  | .query c env =>
    match s.calls c with
    | none => none
    | some call =>
      if s.fresh env then
        match call.run cfg env s.db with
        | .ok o =>
          (execute s.server c o call.await.mode).map fun server =>
            { (s.mint env).goOn c call o.next with server := server }
        | .error e =>
          some { (s.mint env).goOn c call (call.reject e) with server := abandon s.server c call.await.mode }
      else none
  | .queryError c message =>
    match s.calls c with
    | none => none
    | some call =>
      if call.await.mode = .idle then none
      else some { s.goOn c call (call.reject (.other message)) with server := abandon s.server c call.await.mode }
  | .queryLost c env message =>
    match s.calls c with
    | none => none
    | some call =>
      if s.fresh env ∧ call.await.mode = .pool then
        match call.run cfg env s.db with
        | .ok o =>
          (execute s.server c o .pool).map fun server =>
            { (s.mint env).goOn c call (call.reject (.other message)) with server := server }
        | .error _ => none
      else none
  | .provider c now answer =>
    match s.calls c with
    | none => none
    | some call => (afterProvider now call answer).map (s.goOn c call)
  | .commitLost c message =>
    match s.calls c with
    | none => none
    | some call =>
      if call.await.mode = .commit ∧ (s.server.pending (.tx c)).isSome then
        some (s.goOn c { call with inDoubt := true } (call.reject (.other message)))
      else none
  | .lateCommit c =>
    match s.calls c with
    | none => none
    | some call =>
      if call.inDoubt ∧ (s.server.pending (.tx c)).isSome then some { s with server := s.server.commit (.tx c) }
      else none
  | .sessionLost c =>
    if (s.server.pending (.tx c)).isSome then some { s with server := s.server.rollback (.tx c) } else none
  | .crash c =>
    match s.calls c with
    | none => none
    | some call => if call.await.isOver then none else some (s.goOn c call (.crashed call.await))

end State

/-- The payment service as a transition system. -/
def service (cfg : Config) : System State Action := ⟨State.initial, State.step cfg⟩

/-! ## A run -/

namespace Sample

/-- A polynomial in the place of SHA-256, for runs that the kernel evaluates. -/
def sha256 (s : JsString) : Digest :=
  ⟨(List.range 64).map fun i =>
    Fin.ofNat 16 (s.foldl (fun n u => (n * 1000003 + u.toNat) % 2 ^ 256) 7 / 16 ^ i), by simp⟩

/-- The mock provider, and the durations of the service's defaults. -/
def cfg : Config where
  sha256 := sha256
  jsonParse := fun _ => none
  providerName := "mock"
  processingLeaseMs := 60000
  completedTtlMs := 86400000
  failedTtlMs := 3600000
  processingLeaseMs_pos := Nat.cast_pos.2 (Nat.succ_pos 59999)
  completedTtlMs_pos := Nat.cast_pos.2 (Nat.succ_pos 86399999)
  failedTtlMs_pos := Nat.cast_pos.2 (Nat.succ_pos 3599999)

/-- The clocks `n` seconds into the run, and two identifiers of their own. -/
def env (n : Nat) : Env :=
  ⟨1700000000000 + 1000 * n, 1000 * (1700000000000 + 1000 * n), .ofNat (2 * n), .ofNat (2 * n + 1)⟩

def merchantId : String := "11111111-1111-4111-8111-111111111111"

/-- The id of the payment of the run. -/
def paymentId : Uuid := .ofNat 1

def createCommand : CreatePaymentCommand := ⟨"corr-0001", "create-0001", merchantId, Number.ofInt 1250, "TRY"⟩

def create : Command := .create createCommand

def capture (idempotencyKey : String) : Command := .capture ⟨"corr-0002", idempotencyKey, paymentId.uuidOut⟩

/-- A payment is created by the call 0. -/
def createRun : List Action :=
  [.start 0 create paymentId, .query 0 (env 1), .query 0 (env 2),
    .provider 0 (env 2).now (.authorized (.success "mock" "mock_1")),
    .query 0 (env 3), .query 0 (env 4), .query 0 (env 5), .query 0 (env 6)]

/-- The call 1 captures the payment. -/
def captureRun : List Action :=
  [.start 1 (capture "capture-0001") (.ofNat 1001), .query 1 (env 11), .query 1 (env 12), .query 1 (env 13),
    .provider 1 (env 13).now (.captured (.success "mock")), .query 1 (env 14), .query 1 (env 15), .query 1 (env 16),
    .query 1 (env 17)]

/-- The call `c` has `command` and has returned with the status code. -/
def hasReturned (s : State) (c : CallId) (command : Command) (statusCode : Int) : Bool :=
  match s.calls c with
  | some ⟨command', _, _, .returned statusCode' _⟩ => command' = command ∧ statusCode' = statusCode
  | _ => false

/-! The kernel carries out each run once: the lemmas about the states that the runs lead to rest on these two. -/

theorem createRun_ends : ((service cfg).runFrom (service cfg).init createRun).any (fun s =>
    hasReturned s 0 create 201 = true ∧ s.calls 2 = none ∧
      s.minted = [12, 13, 10, 11, 8, 9, 6, 7, 4, 5, 2, 3, 1].map Uuid.ofNat ∧
      s.db.idempotency.rows.map IdempotencyRecord.id = [.ofNat 5] ∧ 0 < s.db.outbox.rows.length) = true := by
  decide +kernel

/-- The state after `createRun`. -/
def created : State := ((service cfg).runFrom (service cfg).init createRun).get (Option.isSome_of_any createRun_ends)

theorem captureRun_ends : ((service cfg).runFrom created captureRun).any (fun s =>
    (s.db.payments.get? paymentId).map PaymentRecord.status = some .captured ∧ s.calls 2 = none ∧
      hasReturned s 1 (capture "capture-0001") 200 = true) = true := by
  decide +kernel

/-- The state after `createRun` and `captureRun`. -/
def captured : State := ((service cfg).runFrom created captureRun).get (Option.isSome_of_any captureRun_ends)

theorem created_run : hasReturned created 0 create 201 = true ∧ created.calls 2 = none ∧
    created.minted = [12, 13, 10, 11, 8, 9, 6, 7, 4, 5, 2, 3, 1].map Uuid.ofNat ∧
    created.db.idempotency.rows.map IdempotencyRecord.id = [.ofNat 5] ∧
    0 < created.db.outbox.rows.length := by
  have hrun : (service cfg).runFrom (service cfg).init createRun = some created := (Option.some_get _).symm
  have hends := System.of_ends hrun createRun_ends
  exact of_decide_eq_true hends

theorem captured_run : (captured.db.payments.get? paymentId).map PaymentRecord.status = some .captured ∧
    captured.calls 2 = none ∧ hasReturned captured 1 (capture "capture-0001") 200 = true := by
  have hrun : (service cfg).runFrom created captureRun = some captured := (Option.some_get _).symm
  have hends := System.of_ends hrun captureRun_ends
  exact of_decide_eq_true hends

theorem created_reach : (service cfg).Reach System.anyStep created :=
  System.reach_of_run (Option.some_get _).symm

theorem captured_steps : (service cfg).Steps System.anyStep created captured :=
  System.steps_of_runFrom _ (fun _ _ _ => trivial) (Option.some_get _).symm

theorem captured_reach : (service cfg).Reach System.anyStep captured := created_reach.steps captured_steps

end Sample

end PaymentOrchestration
