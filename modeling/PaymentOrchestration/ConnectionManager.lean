/-
`RabbitMqConnectionManager`: one connection and one confirm channel, opened by attempts that any number of
callers wait for, and given up by four routines. A step of the model is the code from one await to the next,
or an event that a connection or a channel emits. What amqplib answers, and when, is up to the environment.
-/
import PaymentOrchestration.Lib.Run
import Mathlib.Logic.Function.Basic

namespace PaymentOrchestration

open Lib

abbrev ConnectionId := Nat
abbrev ChannelId := Nat

namespace RabbitMqConnectionManager

/-- A call of `connectConfirmChannel`. -/
abbrev AttemptId := Nat

/-- A call of `getConfirmChannel`. -/
abbrev CallerId := Nat

/-! ## The state -/

/-- A connection that `connect` has returned: whether `close` was called on it, and whether it has emitted
`error` or `close`. -/
structure Connection where
  closeCalled : Bool := false
  ended : Bool := false
deriving DecidableEq

/-- A channel: the connection it was created on, how often `forwardReturnedMessage` is attached to it, and
whether its `error` and `close` events are listened to. -/
structure Channel where
  connection : ConnectionId
  forwarders : Nat := 0
  listening : Bool := false
  closeCalled : Bool := false
  ended : Bool := false
deriving DecidableEq

/-- What `connectConfirmChannel` awaits. -/
inductive Attempt
  | connect
  /-- `safeClose` of a connection that came after `close()`. -/
  | closeLate (connection : ConnectionId)
  | createConfirmChannel (connection : ConnectionId)
  | assertExchange (connection : ConnectionId) (channel : ChannelId)
  /-- `safeClose` in the `catch` block. -/
  | closeFailed (connection : ConnectionId) (error : String)
  | resolved (channel : ChannelId)
  | rejected (error : String)
deriving DecidableEq

def Attempt.isSettled : Attempt → Bool
  | .resolved _ | .rejected _ => true
  | _ => false

/-- Where a call of `getConfirmChannel` is. -/
inductive Caller
  | awaiting (attempt : AttemptId)
  | returned (channel : ChannelId)
  | threw (error : String)
deriving DecidableEq

/-- Where `closeResources` is: `closed` when its promise has resolved. -/
inductive Closing
  | notCalled
  | awaitConnecting (attempt : AttemptId)
  | closeChannel (connection : Option ConnectionId)
  | closeConnection
  | closed
deriving DecidableEq

/-- The fields of the manager, its calls in progress, and the connections and channels it has obtained. -/
structure State where
  connection : Option ConnectionId
  channel : Option ChannelId
  connecting : Option AttemptId
  closed : Bool
  closing : Closing
  attempts : AttemptId → Option Attempt
  callers : CallerId → Option Caller
  connections : ConnectionId → Option Connection
  channels : ChannelId → Option Channel

def isClosed : String := "RabbitMQ connection manager is closed"

namespace State

def initial : State where
  connection := none
  channel := none
  connecting := none
  closed := false
  closing := .notCalled
  attempts := fun _ => none
  callers := fun _ => none
  connections := fun _ => none
  channels := fun _ => none

variable (s : State)

def setAttempt (a : AttemptId) (attempt : Attempt) : State :=
  { s with attempts := Function.update s.attempts a (some attempt) }

def setCaller (k : CallerId) (caller : Caller) : State :=
  { s with callers := Function.update s.callers k (some caller) }

def updateConnection (id : ConnectionId) (f : Connection → Connection) : State :=
  { s with connections := Function.update s.connections id ((s.connections id).map f) }

def updateChannel (id : ChannelId) (f : Channel → Channel) : State :=
  { s with channels := Function.update s.channels id ((s.channels id).map f) }

/-! ## Its methods -/

/-- `safeClose` of a connection, up to its await. -/
def safeCloseConnection (id : ConnectionId) : State := s.updateConnection id fun x => { x with closeCalled := true }

/-- `safeClose` of a channel, up to its await. -/
def safeCloseChannel (id : ChannelId) : State := s.updateChannel id fun x => { x with closeCalled := true }

def attachChannelListeners (channel : ChannelId) : State :=
  s.updateChannel channel fun x => { x with forwarders := x.forwarders + 1, listening := true }

def detachChannelListeners (channel : ChannelId) : State :=
  s.updateChannel channel fun x => { x with forwarders := x.forwarders - 1 }

def invalidateChannel (channel : ChannelId) : State :=
  if s.channel ≠ some channel then s
  else ({ s with channel := none }.detachChannelListeners channel).safeCloseChannel channel

def invalidateTransport (channel : ChannelId) (connection : ConnectionId) : State :=
  if s.channel ≠ some channel then s
  else
    let s := { s.detachChannelListeners channel with channel := none }
    let s := if s.connection = some connection then { s with connection := none } else s
    s.safeCloseConnection connection

def invalidateConnection (connection : ConnectionId) : State :=
  if s.connection ≠ some connection then s
  else
    let s := match s.channel with
      | some channel => s.detachChannelListeners channel
      | none => s
    { s with channel := none, connection := none }

/-- `closeResources` after it has waited for an attempt: up to its next await. -/
def takeResources : State :=
  let taken := { s with channel := none, connection := none }
  match s.channel, s.connection with
  | some channel, connection =>
    { (taken.detachChannelListeners channel).safeCloseChannel channel with closing := .closeChannel connection }
  | none, some connection => { taken.safeCloseConnection connection with closing := .closeConnection }
  | none, none => { taken with closing := .closed }

/-- `close`. -/
def close : State :=
  if s.closing ≠ .notCalled then s
  else
    let s := { s with closed := true }
    match s.connecting with
    | some attempt => { s with closing := .awaitConnecting attempt }
    | none => s.takeResources

/-- Where `connectConfirmChannel` begins. -/
def connectConfirmChannel : Attempt :=
  match s.connection with
  | some connection => .createConfirmChannel connection
  | none => .connect

/-- `getConfirmChannel` of the caller `k`, up to its await; `a` names the attempt that it may begin. -/
def getConfirmChannel (k : CallerId) (a : AttemptId) : Option State :=
  if s.callers k ≠ none then none
  else if s.closed then some (s.setCaller k (.threw isClosed))
  else match s.channel with
    | some channel => some (s.setCaller k (.returned channel))
    | none => match s.connecting with
      | some attempt => some (s.setCaller k (.awaiting attempt))
      | none =>
        if s.attempts a ≠ none then none
        else some ({ s.setAttempt a s.connectConfirmChannel with connecting := some a }.setCaller k (.awaiting a))

end State

/-! ## Steps -/

/-- What happens to the manager. -/
inductive Action
  | getConfirmChannel (k : CallerId) (a : AttemptId)
  | connected (a : AttemptId) (connection : ConnectionId)
  | connectFailed (a : AttemptId) (error : String)
  | channelCreated (a : AttemptId) (channel : ChannelId)
  | exchangeAsserted (a : AttemptId)
  /-- `createConfirmChannel` or `assertExchange` rejects. -/
  | failed (a : AttemptId) (error : String)
  /-- The `safeClose` an attempt awaits has settled. -/
  | safeClosed (a : AttemptId)
  /-- A caller goes on after its attempt has settled. -/
  | resumed (k : CallerId)
  | invalidateChannel (channel : ChannelId)
  | close
  /-- `closeResources` goes on. -/
  | closeResumed
  /-- A connection emits `error` or `close`. -/
  | connectionEnded (connection : ConnectionId)
  /-- A channel emits `error` or `close`. -/
  | channelEnded (channel : ChannelId)
deriving DecidableEq

namespace State

def step (s : State) : Action → Option State
  | .getConfirmChannel k a => s.getConfirmChannel k a
  | .connected a connection =>
    if s.attempts a = some .connect ∧ s.connections connection = none then
      let s := { s with connections := Function.update s.connections connection (some {}) }
      if s.closed then some ((s.safeCloseConnection connection).setAttempt a (.closeLate connection))
      else some ({ s with connection := some connection }.setAttempt a (.createConfirmChannel connection))
    else none
  | .connectFailed a error =>
    if s.attempts a = some .connect then some (s.setAttempt a (.rejected error)) else none
  | .channelCreated a channel =>
    match s.attempts a with
    | some (.createConfirmChannel connection) =>
      if s.channels channel = none then
        some ({ s with channels := Function.update s.channels channel (some { connection := connection }) }.setAttempt a
          (.assertExchange connection channel))
      else none
    | _ => none
  | .exchangeAsserted a =>
    match s.attempts a with
    | some (.assertExchange _ channel) =>
      some ({ s.attachChannelListeners channel with channel := some channel }.setAttempt a (.resolved channel))
    | _ => none
  | .failed a error =>
    match s.attempts a with
    | some (.createConfirmChannel connection) | some (.assertExchange connection _) =>
      let s := if s.connection = some connection then { s with connection := none } else s
      some ((s.safeCloseConnection connection).setAttempt a (.closeFailed connection error))
    | _ => none
  | .safeClosed a =>
    match s.attempts a with
    | some (.closeLate _) => some (s.setAttempt a (.rejected isClosed))
    | some (.closeFailed _ error) => some (s.setAttempt a (.rejected error))
    | _ => none
  | .resumed k =>
    match s.callers k with
    | some (.awaiting a) =>
      match s.attempts a with
      | some (.resolved channel) => some { s.setCaller k (.returned channel) with connecting := none }
      | some (.rejected error) => some { s.setCaller k (.threw error) with connecting := none }
      | _ => none
    | _ => none
  | .invalidateChannel channel => some (s.invalidateChannel channel)
  | .close => some s.close
  | .closeResumed =>
    match s.closing with
    | .awaitConnecting a => if (s.attempts a).any Attempt.isSettled then some s.takeResources else none
    | .closeChannel (some connection) => some { s.safeCloseConnection connection with closing := .closeConnection }
    | .closeChannel none | .closeConnection => some { s with closing := .closed }
    | _ => none
  | .connectionEnded connection =>
    if s.connections connection = none then none
    else some ((s.updateConnection connection fun x => { x with ended := true }).invalidateConnection connection)
  | .channelEnded channel =>
    match s.channels channel with
    | none => none
    | some x =>
      let s := s.updateChannel channel fun x => { x with ended := true }
      if x.listening then some (s.invalidateTransport channel x.connection) else some s

end State

/-- The manager as a transition system. -/
def system : System State Action := ⟨State.initial, State.step⟩

end RabbitMqConnectionManager

end PaymentOrchestration
