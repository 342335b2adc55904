/-
`OutboxPublisherWorker`: any number of workers, each of which polls outbox_events in a transaction of its own and
records there what became of the events it has published. An action lets a worker go on by one await, adds an event,
or is a fault: a failing statement, a lost session, a dead process. What `publish` answers is up to the environment.
-/
import PaymentOrchestration.OutboxEvents
import PaymentOrchestration.Publisher

namespace PaymentOrchestration

open Lib

namespace OutboxPublisherWorker

abbrev WorkerId := Nat
abbrev TxId := Nat

/-! ## Configuration -/

/-- `WorkerConfig`, whose numbers `parsePositiveInteger` has accepted. -/
structure WorkerConfig where
  batchSize : Nat
  maxAttempts : Nat
  retryBaseDelayMs : Nat
  retryMaxDelayMs : Nat
  batchSize_pos : 0 < batchSize
  maxAttempts_pos : 0 < maxAttempts
  retryBaseDelayMs_pos : 0 < retryBaseDelayMs
  retryMaxDelayMs_pos : 0 < retryMaxDelayMs

variable (cfg : WorkerConfig)

def retryDelayFor (attempts : Nat) : Nat :=
  let exponent := min attempts 52
  min cfg.retryMaxDelayMs (cfg.retryBaseDelayMs * 2 ^ exponent)

/-- What `publishEvent` passes to `markPublishFailed`. -/
def publishFailed (now : Millis) (event : OutboxEventRecord) (error : String) : MarkPublishFailedInput where
  id := event.id
  lastError := error
  maxAttempts := cfg.maxAttempts
  nextRetryAt := IdempotencyService.newDate (now + retryDelayFor cfg event.attempts)

/-! ## The state -/

/-- A poll transaction, and what `now()` is in it. -/
structure Tx where
  id : TxId
  now : Timestamp

/-- What `pollOnce` awaits; the events that are still to be published come last. -/
inductive Await
  /-- No iteration is in progress. -/
  | idle
  | getConfirmChannel
  /-- BEGIN. -/
  | transaction
  | fetchPendingBatch (x : Tx)
  | publish (x : Tx) (event : OutboxEventRecord) (events : List OutboxEventRecord)
  | markPublished (x : Tx) (event : OutboxEventRecord) (events : List OutboxEventRecord)
  | markPublishFailed (x : Tx) (event : OutboxEventRecord) (input : MarkPublishFailedInput)
      (events : List OutboxEventRecord)
  | commit (x : Tx)
  | rollback (x : Tx)
  /-- The process has died. -/
  | crashed

/-- The loop over the batch goes on, or the transaction ends. -/
def forEvents (x : Tx) : List OutboxEventRecord → Await
  | [] => .commit x
  | event :: events => .publish x event events

/-- A session of the service that adds events, or of a poll transaction. -/
inductive Session
  | service
  | poll (t : TxId)
deriving DecidableEq

/-- `transactions` are the poll transactions that have been opened, and `inDoubt` those whose COMMIT got no answer.
`handed` is the history of the events that were handed to `channel.publish` and what came of it: a confirm, or the
error of a failed attempt. -/
structure State where
  server : Server outboxSchema Session
  workers : WorkerId → Await
  transactions : List TxId
  inDoubt : List TxId
  handed : List (OutboxEventRecord × Option String)

namespace State

/-- No events, idle workers. -/
def initial : State := ⟨.start .empty, fun _ => .idle, [], [], []⟩

variable (s : State)

/-- The committed table. -/
abbrev table : OutboxEvents := s.server.committed

/-- The transaction is open. -/
def isOpen (t : TxId) : Bool := (s.server.pending (.poll t)).isSome

/-- The table as the statements of the transaction see it. -/
def view (t : TxId) : OutboxEvents := outboxSchema.applyAll s.table ((s.server.pending (.poll t)).getD [])

/-- The worker `w` goes on to `await`. -/
def goOn (w : WorkerId) (await : Await) : State := { s with workers := Function.update s.workers w await }

end State

/-! ## Steps -/

/-- What a statement writes and locks, and what the worker awaits after it. -/
structure Executed where
  writes : List OutboxWrite
  locks : List Uuid
  next : Await

/-- The statement a worker awaits within its transaction. -/
def State.statement (s : State) : Await → Option (Tx × Except Err Executed)
  | .fetchPendingBatch x => some (x,
      (OutboxEventsDataAccess.fetchPendingBatch (s.view x.id) cfg.batchSize x.now (s.server.free (.poll x.id))).map
        fun events => ⟨[], events.map (·.id), forEvents x events⟩)
  | .markPublished x event events => some (x,
      .ok ⟨(OutboxEventsDataAccess.markPublished (s.view x.id) event.id x.now).toList.map .published,
        [], forEvents x events⟩)
  | .markPublishFailed x _ input events => some (x,
      (OutboxEventsDataAccess.markPublishFailed (s.view x.id) input).map
        fun r => ⟨r.toList.map .publishFailed, [], forEvents x events⟩)
  | _ => none

inductive Action
  /-- A transaction of the service that adds an event commits. -/
  | insertPending (event : InsertPendingOutboxEvent) (now : Timestamp)
  /-- `pollOnce` is called. -/
  | poll (w : WorkerId)
  /-- `getConfirmChannel` resolves in `pollOnce`. -/
  | channelObtained (w : WorkerId)
  /-- It rejects, and with it the iteration. -/
  | channelRejected (w : WorkerId)
  /-- The transaction has begun. -/
  | begun (w : WorkerId) (x : Tx)
  /-- The statement a worker awaits runs. -/
  | query (w : WorkerId)
  /-- It fails without an effect. -/
  | queryError (w : WorkerId)
  /-- `publish` settles. -/
  | published (w : WorkerId) (now : Millis) (error : Option PublishError)
  /-- The answer to COMMIT or ROLLBACK is lost before the database has seen it. -/
  | endLost (w : WorkerId)
  /-- The database commits a transaction whose COMMIT got no answer. -/
  | lateCommit (t : TxId)
  /-- The database drops the session of a transaction. -/
  | sessionLost (t : TxId)
  /-- The process of a worker dies. -/
  | crash (w : WorkerId)

namespace State

/-- What the worker does with the outcome of `publish`. -/
def afterPublish (s : State) (w : WorkerId) (x : Tx) (event : OutboxEventRecord) (events : List OutboxEventRecord)
    (now : Millis) : Option PublishError → State
  | none => { s.goOn w (.markPublished x event events) with handed := s.handed ++ [(event, none)] }
  | some (.notAttempted _) => s.goOn w (.rollback x)
  | some (.other error) =>
    { s.goOn w (.markPublishFailed x event (publishFailed cfg now event error) events) with
      handed := s.handed ++ [(event, some error)] }

def step (s : State) : Action → Option State
  | .insertPending event now =>
    match OutboxEventsDataAccess.insertPending { Db.empty with outbox := s.table } event now with
    | .ok a => (s.server.autocommit .service [.insert a.returned]).map fun server => { s with server := server }
    | .error _ => none
  | .poll w =>
    match s.workers w with
    | .idle => some (s.goOn w .getConfirmChannel)
    | _ => none
  | .channelObtained w =>
    match s.workers w with
    | .getConfirmChannel => some (s.goOn w .transaction)
    | _ => none
  | .channelRejected w =>
    match s.workers w with
    | .getConfirmChannel => some (s.goOn w .idle)
    | _ => none
  | .begun w x =>
    match s.workers w with
    | .transaction =>
      if x.id ∈ s.transactions then none
      else some { s.goOn w (.fetchPendingBatch x) with
        server := s.server.begin (.poll x.id)
        transactions := x.id :: s.transactions }
    | _ => none
  | .query w =>
    match s.workers w with
    | .commit x =>
      if s.isOpen x.id then some { s.goOn w .idle with server := s.server.commit (.poll x.id) } else none
    | .rollback x => some { s.goOn w .idle with server := s.server.rollback (.poll x.id) }
    | await =>
      match s.statement cfg await with
      | some (x, .ok o) =>
        (s.server.stage (.poll x.id) o.writes o.locks).map fun server => { s.goOn w o.next with server := server }
      | some (x, .error _) => some (s.goOn w (.rollback x))
      | none => none
  | .queryError w =>
    match s.workers w with
    | .transaction => some (s.goOn w .idle)
    | .fetchPendingBatch x | .markPublished x _ _ | .markPublishFailed x _ _ _ => some (s.goOn w (.rollback x))
    | .commit x | .rollback x => some { s.goOn w .idle with server := s.server.rollback (.poll x.id) }
    | _ => none
  | .published w now error =>
    match s.workers w with
    | .publish x event events => some (s.afterPublish cfg w x event events now error)
    | _ => none
  | .endLost w =>
    match s.workers w with
    | .commit x => some { s.goOn w .idle with inDoubt := x.id :: s.inDoubt }
    | .rollback _ => some (s.goOn w .idle)
    | _ => none
  | .lateCommit t =>
    if t ∈ s.inDoubt ∧ s.isOpen t then some { s with server := s.server.commit (.poll t) } else none
  | .sessionLost t =>
    if s.isOpen t then some { s with server := s.server.rollback (.poll t) } else none
  | .crash w =>
    match s.workers w with
    | .commit x => some { s.goOn w .crashed with inDoubt := x.id :: s.inDoubt }
    | .crashed => none
    | _ => some (s.goOn w .crashed)

end State

/-- The workers and their table as a transition system. -/
def system : System State Action := ⟨State.initial, State.step cfg⟩

end OutboxPublisherWorker

end PaymentOrchestration
