/-
The whole way of an event to the broker: each process has a worker, a publisher and a connection manager of its own,
and all processes share outbox_events. An action is one of the workers and their database, of the connection to the
broker, or what the broker and the timers do to a message that was sent.

A step makes the calls between the three objects that the code makes: `pollOnce` and `publish` call
`getConfirmChannel`, `publishEvent` calls `publish` and waits for it, and a message that could not be sent or confirmed
gives up its channel.
-/
import PaymentOrchestration.WorkerHistory
import PaymentOrchestration.ConnectionCallers

namespace PaymentOrchestration

open Lib

namespace Delivery

open OutboxPublisherWorker (WorkerConfig WorkerId)
open RabbitMqPublisher (PublishId Message message messageId)
open RabbitMqConnectionManager (CallerId AttemptId)

/-! ## The state -/

/-- A call of `channel.publish` that did not throw: whether the broker has returned the message, and its answer, which
is an ack, or an error: a nack, or that the channel was closed. -/
structure Sent where
  channel : ChannelId
  message : Message
  returned : Bool := false
  answer : Option (Option String) := none

/-- A process: the call of `getConfirmChannel` its worker waits for, the call of `publish` it waits for, and the
messages it has sent. -/
structure Host where
  manager : RabbitMqConnectionManager.State
  publisher : RabbitMqPublisher.State
  caller : Option CallerId
  call : Option PublishId
  sent : PublishId → Option Sent

/-- The workers with their table, and the process of each worker. -/
structure State where
  workers : OutboxPublisherWorker.State
  hosts : WorkerId → Host

def Host.initial : Host := ⟨.initial, RabbitMqPublisher.initial, none, none, fun _ => none⟩

namespace State

def initial : State := ⟨.initial, fun _ => .initial⟩

/-- The committed table. -/
abbrev table (s : State) : OutboxEvents := s.workers.table

def setHost (s : State) (w : WorkerId) (h : Host) : State := { s with hosts := Function.update s.hosts w h }

end State

/-! ## Steps -/

inductive Action
  /-- An action of a worker or the database that does not concern the broker. -/
  | worker (a : OutboxPublisherWorker.Action)
  /-- `pollOnce` is called, and calls `getConfirmChannel`. -/
  | poll (w : WorkerId) (k : CallerId) (a : AttemptId)
  /-- That call has settled, and `pollOnce` goes on. -/
  | polled (w : WorkerId)
  /-- `publish` is called for the event in hand, and calls `getConfirmChannel`. -/
  | publish (w : WorkerId) (c : PublishId) (k : CallerId) (a : AttemptId)
  /-- That call has settled, and `publish` goes on to `channel.publish`, which may throw. -/
  | send (w : WorkerId) (thrown : Option String)
  /-- `publish` has settled, and `publishEvent` goes on. -/
  | settled (w : WorkerId) (now : Millis)
  /-- An answer or event that the connection manager waits for, or `close()`. -/
  | manager (w : WorkerId) (a : RabbitMqConnectionManager.Action)
  /-- The broker returns a message. -/
  | returned (w : WorkerId) (c : PublishId) (replyText : Option String)
  /-- The callback of `channel.publish` is called. -/
  | confirm (w : WorkerId) (c : PublishId) (error : Option String)
  /-- The confirm timer of a call fires. -/
  | timeout (w : WorkerId) (c : PublishId)

/-- The worker and database actions that concern neither the manager nor the publisher. -/
def isDatabase : OutboxPublisherWorker.Action → Bool
  | .insertPending _ _ | .begun _ _ | .query _ | .queryError _ | .endLost _ | .lateCommit _ | .sessionLost _
  | .crash _ => true
  | .poll _ | .channelObtained _ | .channelRejected _ | .published _ _ _ => false

/-- The manager's actions that its callers do not make. -/
def isEvent : RabbitMqConnectionManager.Action → Bool
  | .getConfirmChannel _ _ | .invalidateChannel _ => false
  | _ => true

variable (cfg : WorkerConfig)

namespace Host

variable (h : Host)

/-- `getConfirmChannel` is called, and waited for. -/
def getConfirmChannel (k : CallerId) (a : AttemptId) : Option Host :=
  (h.manager.step (.getConfirmChannel k a)).map fun manager => { h with manager := manager, caller := some k }

/-- `publish` goes on with the channel. -/
def send (c : PublishId) (channel : ChannelId) (thrown : Option String) : Option Host :=
  match h.publisher.publishes c with
  | none => none
  | some p =>
    (h.publisher.step (.channelObtained c channel thrown)).map fun publisher =>
      match thrown with
      | none => { h with
          publisher := publisher
          caller := none
          sent := Function.update h.sent c (some { channel := channel, message := message p.event }) }
      | some _ => { h with
          publisher := publisher
          caller := none
          manager := h.manager.invalidateChannel channel }

/-- The channel emits `return`, which its forwarder passes on to the publisher. -/
def returned (c : PublishId) (x : Sent) (replyText : Option String) : Host :=
  let heard := (h.manager.channels x.channel).any fun y => 0 < y.forwarders
  { h with
    sent := Function.update h.sent c (some { x with returned := true })
    publisher := if heard then h.publisher.handleReturnedMessage (some x.message.messageId) replyText else h.publisher }

end Host

namespace State

variable (s : State)

def step : Action → Option State
  | .worker a =>
    if isDatabase a then (s.workers.step cfg a).map fun workers => { s with workers := workers } else none
  | .poll w k a => do
    let workers ← s.workers.step cfg (.poll w)
    let host ← (s.hosts w).getConfirmChannel k a
    return { s.setHost w host with workers := workers }
  | .polled w => do
    let h := s.hosts w
    if h.call.isSome then none
    else
      let k ← h.caller
      match h.manager.callers k with
      | some (.returned _) =>
        let workers ← s.workers.step cfg (.channelObtained w)
        return { s.setHost w { h with caller := none } with workers := workers }
      | some (.threw _) =>
        let workers ← s.workers.step cfg (.channelRejected w)
        return { s.setHost w { h with caller := none } with workers := workers }
      | _ => none
  | .publish w c k a =>
    let h := s.hosts w
    match s.workers.workers w with
    | .publish _ event _ => do
      if h.call.isSome then none
      else
        let publisher ← h.publisher.step (.publish c event)
        let host ← { h with publisher := publisher, call := some c }.getConfirmChannel k a
        return s.setHost w host
    | _ => none
  | .send w thrown => do
    let h := s.hosts w
    let c ← h.call
    let k ← h.caller
    match h.manager.callers k with
    | some (.returned channel) => (h.send c channel thrown).map (s.setHost w)
    | some (.threw error) =>
      let publisher ← h.publisher.step (.channelRejected c error)
      return s.setHost w { h with publisher := publisher, caller := none }
    | _ => none
  | .settled w now => do
    let h := s.hosts w
    let c ← h.call
    let p ← h.publisher.publishes c
    match p.settlements with
    | [outcome] =>
      let workers ← s.workers.step cfg (.published w now outcome)
      return { s.setHost w { h with call := none } with workers := workers }
    | _ => none
  | .manager w a => do
    if isEvent a then
      let manager ← (s.hosts w).manager.step a
      return s.setHost w { s.hosts w with manager := manager }
    else none
  | .returned w c replyText => do
    let x ← (s.hosts w).sent c
    return s.setHost w ((s.hosts w).returned c x replyText)
  | .confirm w c error => do
    let h := s.hosts w
    let x ← h.sent c
    let publisher ← h.publisher.step (.confirm c error)
    if x.answer.isSome then none
    else return s.setHost w { h with
      publisher := publisher
      sent := Function.update h.sent c (some { x with answer := some error }) }
  | .timeout w c => do
    let h := s.hosts w
    let p ← h.publisher.publishes c
    let channel ← p.channel
    let publisher ← h.publisher.step (.timeout c)
    return s.setHost w { h with publisher := publisher, manager := h.manager.invalidateChannel channel }

end State

/-- The processes and the broker as a transition system. -/
def system : System State Action := ⟨State.initial, State.step cfg⟩

/-! ## The broker -/

/-- Messages are delivered on the channel: neither it nor its connection was closed or has ended. -/
def Host.delivers (h : Host) (channel : ChannelId) : Bool :=
  match h.manager.channels channel with
  | none => false
  | some y => !y.closeCalled && !y.ended && (h.manager.connections y.connection).all fun x => !x.closeCalled && !x.ended

/-- What is assumed of RabbitMQ and amqplib: a message is returned before it is answered, and a message is acked only
on a channel on which something can be delivered. -/
def asDocumented (s : State) : Action → Bool
  | .returned w c _ => ((s.hosts w).sent c).all fun x => x.answer.isNone
  | .confirm w c none => ((s.hosts w).sent c).all fun x => (s.hosts w).delivers x.channel
  | _ => true

end Delivery

end PaymentOrchestration
