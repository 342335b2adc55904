/-
`RabbitMqPublisher`: every call of `publish` waits for its own confirm, while returned messages reach it
through a map that all calls share. What `getConfirmChannel` and the broker answer is up to the environment;
`publishes_settle` says how a run determines the outcome of each of its calls.
-/
import PaymentOrchestration.ConnectionManager
import PaymentOrchestration.Outbox
import PaymentOrchestration.Lib.Stringify

namespace PaymentOrchestration

open Lib

/-- What a call of `publish` rejects with: a `RabbitMqPublishNotAttemptedError`, or any other error. -/
inductive PublishError
  | notAttempted (message : String)
  | other (message : String)
deriving DecidableEq

namespace RabbitMqPublisher

/-- A call of `publish`. -/
abbrev PublishId := Nat

/-! ## The message -/

def paymentsExchange : String := "payments.events"

/-- The arguments of `channel.publish`. -/
structure Message where
  exchange : String
  routingKey : String
  content : JsString
  mandatory : Bool
  persistent : Bool
  contentType : String
  messageId : String
  correlationId : Option (Json String)
  type : String

def messageId (event : OutboxEventRecord) : String := event.id.uuidOut

/-- The message of a stored event. -/
def message (event : OutboxEventRecord) : Message where
  exchange := paymentsExchange
  routingKey := event.routingKey
  content := Json.stringify event.payload.inUtf16
  mandatory := true
  persistent := true
  contentType := "application/json"
  messageId := messageId event
  correlationId := event.payload.member "correlationId"
  type := event.eventType

/-! ## The state -/

/-- A call of `publish` and the variables of its closure. `timeout` is whether its timer is armed,
`settlements` are its calls of `resolve` (`none`) and `reject` so far. -/
structure Publish where
  event : OutboxEventRecord
  channel : Option ChannelId
  returnedError : Option String
  settled : Bool
  timeout : Bool
  settlements : List (Option PublishError)

/-- The calls, and the map `pendingPublishes`. -/
structure State where
  publishes : PublishId → Option Publish
  pendingPublishes : String → Option PublishId

def initial : State := ⟨fun _ => none, fun _ => none⟩

def notAttempted (message : String) : PublishError := .notAttempted s!"RabbitMQ publish was not attempted: {message}"

def timedOut (id : String) : PublishError := .other s!"RabbitMQ publish confirm timeout for message {id}"

/-- The text of a returned message's error. An empty reply text counts as missing. -/
def returnedText (id : String) (replyText : Option String) : String :=
  let text := match replyText with
    | none => "NO_ROUTE"
    | some text => if text.toList = [] then "NO_ROUTE" else text
  s!"RabbitMQ publish returned {text} for message {id}"

namespace State

variable (s : State)

def setPublish (c : PublishId) (p : Publish) : State := { s with publishes := Function.update s.publishes c (some p) }

/-- `settle` of the call `c`, whose closure is `p`. -/
def settle (c : PublishId) (p : Publish) (error : Option PublishError) : State :=
  if p.settled then s.setPublish c p
  else
    { publishes := Function.update s.publishes c
        (some { p with settled := true, timeout := false, settlements := p.settlements ++ [error] })
      pendingPublishes := Function.update s.pendingPublishes (messageId p.event) none }

/-- `handleReturnedMessage`. -/
def handleReturnedMessage (id : Option String) (replyText : Option String) : State :=
  match id with
  | none => s
  | some id =>
    match s.pendingPublishes id with
    | none => s
    | some c =>
      match s.publishes c with
      | none => s
      | some p => s.setPublish c { p with returnedError := some (returnedText id replyText) }

end State

/-! ## Steps -/

/-- What happens to the publisher. -/
inductive Action
  /-- `publish` is called, and awaits a channel. -/
  | publish (c : PublishId) (event : OutboxEventRecord)
  /-- `getConfirmChannel` rejects. -/
  | channelRejected (c : PublishId) (error : String)
  /-- `getConfirmChannel` resolves, and `channel.publish` is called, which may throw. -/
  | channelObtained (c : PublishId) (channel : ChannelId) (thrown : Option String)
  /-- The callback of the call's `channel.publish` is called. -/
  | confirm (c : PublishId) (error : Option String)
  /-- A returned message is forwarded; its `messageId` may be missing. -/
  | returned (id : Option String) (replyText : Option String)
  /-- The call's timer fires. -/
  | timeout (c : PublishId)

namespace State

/-- The call still awaits `getConfirmChannel`. -/
def awaitsChannel (p : Publish) : Bool := p.channel.isNone && p.settlements.isEmpty

def step (s : State) : Action → Option State
  | .publish c event =>
    match s.publishes c with
    | some _ => none
    | none => some (s.setPublish c ⟨event, none, none, false, false, []⟩)
  | .channelRejected c error =>
    match s.publishes c with
    | none => none
    | some p =>
      if awaitsChannel p then some (s.setPublish c { p with settlements := [some (notAttempted error)] }) else none
  | .channelObtained c channel thrown =>
    match s.publishes c with
    | none => none
    | some p =>
      if awaitsChannel p then
        let p := { p with channel := some channel, timeout := true }
        let s : State := {
          publishes := Function.update s.publishes c (some p)
          pendingPublishes := Function.update s.pendingPublishes (messageId p.event) (some c) }
        match thrown with
        | none => some s
        | some error => some (s.settle c p (some (notAttempted error)))
      else none
  | .confirm c error =>
    match s.publishes c with
    | none => none
    | some p =>
      if p.channel.isNone then none
      else match error with
        | some error => some (s.settle c p (some (.other error)))
        | none => some (s.settle c p (p.returnedError.map .other))
  | .returned id replyText => some (s.handleReturnedMessage id replyText)
  | .timeout c =>
    match s.publishes c with
    | none => none
    | some p =>
      if p.timeout then some (s.settle c { p with timeout := false } (some (timedOut (messageId p.event)))) else none

end State

/-- The publisher as a transition system. -/
def system : System State Action := ⟨initial, State.step⟩

/-! ## The phases of a call -/

/-- A call awaits its channel, was refused one, is in flight, or has settled. -/
inductive Phase : Publish → Prop
  | waiting {event} : Phase ⟨event, none, none, false, false, []⟩
  | refused {event error} : Phase ⟨event, none, none, false, false, [some (notAttempted error)]⟩
  | inFlight {event channel returned} : Phase ⟨event, some channel, returned, false, true, []⟩
  | settled {event channel returned outcome} : Phase ⟨event, some channel, returned, true, false, [outcome]⟩

/-- How an action moves the call `c`. -/
inductive Move (c : PublishId) : Action → Publish → Publish → Prop
  | refused {event error} : Move c (.channelRejected c error) ⟨event, none, none, false, false, []⟩
      ⟨event, none, none, false, false, [some (notAttempted error)]⟩
  | sent {event channel} : Move c (.channelObtained c channel none) ⟨event, none, none, false, false, []⟩
      ⟨event, some channel, none, false, true, []⟩
  | threw {event channel error} : Move c (.channelObtained c channel (some error)) ⟨event, none, none, false, false, []⟩
      ⟨event, some channel, none, true, false, [some (notAttempted error)]⟩
  | acked {event channel returned} : Move c (.confirm c none) ⟨event, some channel, returned, false, true, []⟩
      ⟨event, some channel, returned, true, false, [returned.map .other]⟩
  | nacked {event channel returned error} : Move c (.confirm c (some error)) ⟨event, some channel,
      returned, false, true, []⟩ ⟨event, some channel, returned, true, false, [some (.other error)]⟩
  | returned {event channel returned text} : Move c (.returned (some (messageId event)) text)
      ⟨event, some channel, returned, false, true, []⟩
      ⟨event, some channel, some (returnedText (messageId event) text), false, true, []⟩
  | timedOut {event channel returned} : Move c (.timeout c) ⟨event, some channel, returned, false, true, []⟩
      ⟨event, some channel, returned, true, false, [some (RabbitMqPublisher.timedOut (messageId event))]⟩

/-- What the calls and the map look like when no two calls in flight have the same id. -/
structure Inv (s : State) : Prop where
  phase : ∀ c p, s.publishes c = some p → Phase p
  pending : ∀ id c, s.pendingPublishes id = some c ↔
    ∃ p, s.publishes c = some p ∧ messageId p.event = id ∧ p.timeout = true
  distinct : ∀ c c' p p', s.publishes c = some p → s.publishes c' = some p' → p.settlements = [] → p'.settlements = [] →
    messageId p.event = messageId p'.event → c = c'

/-- The id of a message to publish is not that of a call that has not settled. -/
def newId (s : State) : Action → Prop
  | .publish _ event => ∀ c p, s.publishes c = some p → p.settlements = [] → messageId p.event ≠ messageId event
  | _ => True

/-- The map after the call `c` has moved to `p`. -/
def State.pendingAfter (s : State) (c : PublishId) (p : Publish) : String → Option PublishId :=
  if p.timeout then Function.update s.pendingPublishes (messageId p.event) (some c)
  else if p.channel.isSome then Function.update s.pendingPublishes (messageId p.event) none
  else s.pendingPublishes

/-- The call that an action answers. -/
def Action.call? : Action → Option PublishId
  | .channelRejected c _ | .channelObtained c _ _ | .confirm c _ | .timeout c => some c
  | .publish _ _ | .returned _ _ => none

/-- What a step does: nothing, a call begins, or a call moves. -/
inductive StepCase (s : State) (action : Action) : State → Prop
  /-- The answer comes after the call has settled, or there is no call to answer. -/
  | nothing : (∀ c, action.call? = some c → ∃ p, s.publishes c = some p ∧ p.settled = true) → StepCase s action s
  | begun {c event} : action = .publish c event → s.publishes c = none →
      StepCase s action (s.setPublish c ⟨event, none, none, false, false, []⟩)
  | moved {c p p'} : s.publishes c = some p → Move c action p p' →
      StepCase s action ⟨Function.update s.publishes c (some p'), s.pendingAfter c p'⟩

section Steps

variable {s s' : State} {c c' : PublishId} {p p' : Publish} {action : Action} {id : String}

theorem setPublish_self (h : s.publishes c = some p) : s.setPublish c p = s := by
  unfold State.setPublish
  rw [← h, Function.update_eq_self]

theorem waiting_of_awaits (hp : Phase p) (h : State.awaitsChannel p = true) :
    ∃ event, p = ⟨event, none, none, false, false, []⟩ := by
  cases hp <;> first | exact ⟨_, rfl⟩ | simp [State.awaitsChannel] at h

/-- `settle` of a call in flight. -/
theorem settle_eq {error : Option PublishError} (hp : p.settled = false) (hch : p.channel.isSome = true) :
    s.settle c p error = ⟨Function.update s.publishes c
        (some { p with settled := true, timeout := false, settlements := p.settlements ++ [error] }),
      s.pendingAfter c { p with settled := true, timeout := false, settlements := p.settlements ++ [error] }⟩ := by
  simp [State.settle, hp, State.pendingAfter, hch]

theorem step_cases (hi : Inv s) (hs : s.step action = some s') : StepCase s action s' := by
  cases action with
  | publish c event =>
    simp only [State.step] at hs
    split at hs
    · cases hs
    · rename_i hnone; cases hs; exact .begun rfl hnone
  | channelRejected c error =>
    simp only [State.step] at hs
    split at hs
    · cases hs
    rename_i p hp
    split at hs
    · rename_i hwait
      cases hs
      obtain ⟨event, rfl⟩ := waiting_of_awaits (hi.phase c p hp) hwait
      exact .moved hp .refused
    · cases hs
  | channelObtained c channel thrown =>
    simp only [State.step] at hs
    split at hs
    · cases hs
    rename_i p hp
    split at hs
    · rename_i hwait
      obtain ⟨event, rfl⟩ := waiting_of_awaits (hi.phase c p hp) hwait
      cases thrown with
      | none => cases hs; exact .moved hp .sent
      | some error =>
        cases hs
        have hmoved := StepCase.moved hp (@Move.threw c event channel error)
        simpa [State.settle, State.pendingAfter] using hmoved
    · cases hs
  | confirm c error =>
    simp only [State.step] at hs
    split at hs
    · cases hs
    rename_i p hp
    split at hs
    · cases hs
    rename_i hch
    cases hi.phase c p hp with
    | waiting | refused => simp at hch
    | inFlight =>
      cases error with
      | none => cases hs; rw [settle_eq rfl rfl]; exact .moved hp .acked
      | some error => cases hs; rw [settle_eq rfl rfl]; exact .moved hp .nacked
    | settled =>
      -- the call has settled already, and `settle` returns at once
      have hlate : ∀ c', (Action.confirm c error).call? = some c' → ∃ p, s.publishes c' = some p ∧
          p.settled = true := by
        rintro c' hc'
        cases hc'
        exact ⟨_, hp, rfl⟩
      cases error with
      | none => cases hs; rw [State.settle, if_pos rfl, setPublish_self hp]; exact .nothing hlate
      | some error => cases hs; rw [State.settle, if_pos rfl, setPublish_self hp]; exact .nothing hlate
  | returned id text =>
    simp only [State.step, Option.some.injEq] at hs
    subst hs
    unfold State.handleReturnedMessage
    split
    · exact .nothing nofun
    rename_i id
    split
    · exact .nothing nofun
    rename_i c hc
    obtain ⟨p, hp, rfl, htimeout⟩ := (hi.pending id c).1 hc
    rw [hp]
    cases hi.phase c p hp with
    | waiting | refused | settled => cases htimeout
    | @inFlight event channel returned =>
      have hmoved := StepCase.moved hp (@Move.returned c event channel returned text)
      have hsame : Function.update s.pendingPublishes (messageId event) (some c) = s.pendingPublishes := by
        rw [← hc, Function.update_eq_self]
      rw [State.pendingAfter, if_pos rfl, hsame] at hmoved
      exact hmoved
  | timeout c =>
    simp only [State.step] at hs
    split at hs
    · cases hs
    rename_i p hp
    split at hs
    · rename_i htimeout
      cases hs
      cases hi.phase c p hp with
      | waiting | refused | settled => cases htimeout
      | inFlight => rw [settle_eq rfl rfl]; exact .moved hp .timedOut
    · cases hs

theorem Move.phase (h : Move c action p p') : Phase p' := by
  cases h with
  | refused => exact .refused
  | sent | returned => exact .inFlight
  | threw | acked | nacked | timedOut => exact .settled

theorem Move.event (h : Move c action p p') : p'.event = p.event := by cases h <;> rfl

/-- A call that moves had not settled. -/
theorem Move.unsettled (h : Move c action p p') : p.settlements = [] := by cases h <;> rfl

/-- A call in flight was so before, or has just been sent. -/
theorem Move.channel_of_timeout (h : Move c action p p') (ht : p.timeout = true) : p'.channel.isSome = true := by
  cases h <;> first | rfl | cases ht

theorem Inv.init : Inv initial := by
  constructor <;> simp [initial]

theorem Inv.step (hi : Inv s) (hnew : newId s action) (hs : s.step action = some s') : Inv s' := by
  cases step_cases hi hs with
  | nothing => exact hi
  | @begun c event ha hnone =>
    subst ha
    have hget : ∀ {x q}, (s.setPublish c ⟨event, none, none, false, false, []⟩).publishes x = some q →
        x = c ∧ q = ⟨event, none, none, false, false, []⟩ ∨ x ≠ c ∧ s.publishes x = some q := by
      intro x q hq
      exact update_eq_some hq
    refine ⟨fun x q hq => ?_, fun id x => ?_, fun x y q r hq hr hsq hsr hid => ?_⟩
    · rcases hget hq with ⟨-, rfl⟩ | ⟨-, hq⟩
      · exact .waiting
      · exact hi.phase x q hq
    · refine (hi.pending id x).trans ⟨fun ⟨q, hq, h⟩ => ⟨q, ?_, h⟩, fun ⟨q, hq, h⟩ => ⟨q, ?_, h⟩⟩
      · refine (Function.update_of_ne ?_ _ _).trans hq
        rintro rfl; rw [hnone] at hq; cases hq
      · rcases hget hq with ⟨-, rfl⟩ | ⟨-, hq⟩
        · cases h.2
        · exact hq
    · rcases hget hq with ⟨rfl, rfl⟩ | ⟨-, hq'⟩ <;> rcases hget hr with ⟨rfl, rfl⟩ | ⟨-, hr'⟩
      · rfl
      · exact absurd hid.symm (hnew y r hr' hsr)
      · exact absurd hid (hnew x q hq' hsq)
      · exact hi.distinct x y q r hq' hr' hsq hsr hid
  | @moved c p p' hp hm =>
    have hget : ∀ {x q}, Function.update s.publishes c (some p') x = some q →
        x = c ∧ q = p' ∨ x ≠ c ∧ s.publishes x = some q := by
      intro x q hq
      exact update_eq_some hq
    have hev := hm.event
    refine ⟨fun x q hq => ?_, fun id x => ?_, fun x y q r hq hr hsq hsr hid => ?_⟩
    · rcases hget hq with ⟨-, rfl⟩ | ⟨-, hq⟩
      · exact hm.phase
      · exact hi.phase x q hq
    · -- the entry of the call's own id follows the call, and no other call in flight has that id
      have hother : ∀ {x q}, x ≠ c → s.publishes x = some q → q.timeout = true →
          messageId q.event ≠ messageId p.event := by
        intro x q hx hq ht hid
        refine hx (hi.distinct x c q p hq hp ?_ hm.unsettled hid)
        cases hi.phase x q hq <;> first | rfl | cases ht
      have hnow : (∃ q, Function.update s.publishes c (some p') x = some q ∧ messageId q.event = id ∧
          q.timeout = true) ↔ x = c ∧ messageId p.event = id ∧ p'.timeout = true ∨
          x ≠ c ∧ messageId p.event ≠ id ∧ s.pendingPublishes id = some x := by
        rw [hi.pending id x]
        constructor
        · rintro ⟨q, hq, hid, ht⟩
          rcases hget hq with ⟨rfl, rfl⟩ | ⟨hx, hq'⟩
          · exact .inl ⟨rfl, by rw [← hev]; exact hid, ht⟩
          · exact .inr ⟨hx, fun he => hother hx hq' ht (hid.trans he.symm), q, hq', hid, ht⟩
        · rintro (⟨rfl, hid, ht⟩ | ⟨hx, -, q, hq, h⟩)
          · exact ⟨p', Function.update_self .., by rw [hev]; exact hid, ht⟩
          · exact ⟨q, by rw [Function.update_of_ne hx]; exact hq, h⟩
      refine Iff.trans ?_ hnow.symm
      change s.pendingAfter c p' id = some x ↔ _
      -- before the step the entry of the id was the call's, or there was none
      have hbefore : s.pendingPublishes (messageId p.event) = some x → x = c ∧ p.timeout = true := by
        intro hpend
        obtain ⟨q, hq, hid, ht⟩ := (hi.pending _ x).1 hpend
        by_cases hx : x = c
        · subst hx
          obtain rfl := Option.some.inj (hq.symm.trans hp)
          exact ⟨rfl, ht⟩
        · exact absurd hid (hother hx hq ht)
      have hfar : messageId p.event ≠ id → s.pendingPublishes id = some x → x ≠ c := by
        rintro hne hpend rfl
        obtain ⟨q, hq, hid, -⟩ := (hi.pending id _).1 hpend
        obtain rfl := Option.some.inj (hq.symm.trans hp)
        exact hne hid
      have hch := hm.channel_of_timeout
      unfold State.pendingAfter
      rw [hev]
      by_cases hid : messageId p.event = id
      · subst hid
        cases ht' : p'.timeout <;> cases hc' : p'.channel.isSome <;> grind
      · have hid' : id ≠ messageId p.event := fun h => hid h.symm
        cases ht' : p'.timeout <;> cases hc' : p'.channel.isSome <;> simp [Function.update_of_ne hid', hid] <;>
          exact hfar hid
    · rcases hget hq with ⟨rfl, rfl⟩ | ⟨-, hq'⟩ <;> rcases hget hr with ⟨rfl, rfl⟩ | ⟨-, hr'⟩
      · rfl
      · exact hi.distinct _ y p r hp hr' hm.unsettled hsr (by rw [← hev]; exact hid)
      · exact hi.distinct x _ q p hq' hp hsq hm.unsettled (by rw [← hev]; exact hid)
      · exact hi.distinct x y q r hq' hr' hsq hsr hid

/-- What a step leaves of a call. -/
theorem StepCase.call (h : StepCase s action s') (hp : s.publishes c = some p) :
    s'.publishes c = some p ∨ ∃ p', s'.publishes c = some p' ∧ Move c action p p' := by
  cases h with
  | nothing => exact .inl hp
  | @begun c₀ event _ hnone =>
    refine .inl ((Function.update_of_ne ?_ _ _).trans hp)
    rintro rfl; rw [hnone] at hp; cases hp
  | @moved c₀ p₀ p' hp₀ hm =>
    by_cases hc : c = c₀
    · subst hc
      obtain rfl := Option.some.inj (hp.symm.trans hp₀)
      exact .inr ⟨p', Function.update_self .., hm⟩
    · exact .inl ((Function.update_of_ne hc _ _).trans hp)

/-- Where a call comes from. -/
theorem StepCase.before {q : Publish} (h : StepCase s action s') (hq : s'.publishes c = some q) :
    s.publishes c = some q ∨ (∃ p, s.publishes c = some p ∧ Move c action p q) ∨
      ∃ event, action = .publish c event ∧ q = ⟨event, none, none, false, false, []⟩ := by
  cases h with
  | nothing => exact .inl hq
  | @begun c₀ event ha _ =>
    rcases update_eq_some hq with ⟨rfl, rfl⟩ | ⟨-, hq⟩
    · exact .inr (.inr ⟨event, ha, rfl⟩)
    · exact .inl hq
  | @moved c₀ p₀ p' hp₀ hm =>
    rcases update_eq_some hq with ⟨rfl, rfl⟩ | ⟨-, hq⟩
    · exact .inr (.inl ⟨p₀, hp₀, hm⟩)
    · exact .inl hq

/-- A call that has settled stays as it is. -/
theorem StepCase.settled (h : StepCase s action s') (hp : s.publishes c = some p) (hne : p.settlements ≠ []) :
    s'.publishes c = some p := by
  rcases h.call hp with h | ⟨p', -, hm⟩
  · exact h
  · exact absurd hm.unsettled hne

/-- What becomes of the call that an action answers: it moves, or it had settled. -/
theorem StepCase.answered (h : StepCase s action s') (hc : action.call? = some c) : ∃ p p', s.publishes c = some p ∧
    s'.publishes = Function.update s.publishes c (some p') ∧ (Move c action p p' ∨ p.settled = true ∧ p' = p) := by
  cases h with
  | nothing hlate =>
    obtain ⟨p, hp, hsettled⟩ := hlate c hc
    exact ⟨p, p, hp, by rw [← hp, Function.update_eq_self], .inr ⟨hsettled, rfl⟩⟩
  | begun ha => subst ha; cases hc
  | @moved c' p p' hp hm =>
    cases hm with
    | refused | sent | threw | acked | nacked | timedOut =>
      obtain rfl := Option.some.inj hc
      exact ⟨_, _, hp, rfl, .inl (by constructor)⟩
    | returned => cases hc

/-- A call that begins. -/
theorem publishes_of_publish {event : OutboxEventRecord} (hs : s.step (.publish c event) = some s') :
    s'.publishes = Function.update s.publishes c (some ⟨event, none, none, false, false, []⟩) := by
  simp only [State.step] at hs
  split at hs
  · cases hs
  · cases hs; rfl

theorem StepCase.event (h : StepCase s action s') (hp : s.publishes c = some p) :
    ∃ p', s'.publishes c = some p' ∧ p'.event = p.event := by
  rcases h.call hp with h | ⟨p', hp', hm⟩
  · exact ⟨p, h, rfl⟩
  · exact ⟨p', hp', hm.event⟩

end Steps

/-! ## What a run makes of a call -/

/-- The action is no confirm and no timeout of the call `c`, and returns no message with its id. -/
def Undisturbed (c : PublishId) (id : String) : Action → Prop
  | .confirm c' _ | .timeout c' => c' ≠ c
  | .returned id' _ => id' ≠ some id
  | _ => True

/-- The channel was obtained, `channel.publish` did not throw, and the call's confirm came without an error: before
its timeout, and with no return of its id in between. -/
def Confirmed (c : PublishId) (id : String) (actions : List Action) : Prop :=
  ∃ pre channel mid post, actions = pre ++ .channelObtained c channel none :: (mid ++ .confirm c none :: post) ∧
    ∀ a ∈ mid, Undisturbed c id a

/-- The channel could not be obtained, or `channel.publish` threw. -/
def NotAttempted (c : PublishId) (actions : List Action) : Prop :=
  (∃ error, .channelRejected c error ∈ actions) ∨ ∃ channel error, .channelObtained c channel (some error) ∈ actions

/-- The call was sent, and nothing concerning it has happened since. -/
def Pending (c : PublishId) (id : String) (actions : List Action) : Prop :=
  ∃ pre channel mid, actions = pre ++ .channelObtained c channel none :: mid ∧ ∀ a ∈ mid, Undisturbed c id a

section Histories

variable {s s' : State} {c : PublishId} {p : Publish} {action : Action} {actions : List Action} {id : String}

theorem Confirmed.append (h : Confirmed c id actions) : Confirmed c id (actions ++ [action]) := by
  obtain ⟨pre, channel, mid, post, rfl, hmid⟩ := h
  exact ⟨pre, channel, mid, post ++ [action], by simp, hmid⟩

theorem NotAttempted.append (h : NotAttempted c actions) : NotAttempted c (actions ++ [action]) :=
  h.imp (fun ⟨error, h⟩ => ⟨error, List.mem_append_left _ h⟩) fun ⟨channel, error, h⟩ =>
    ⟨channel, error, List.mem_append_left _ h⟩

theorem Pending.append (h : Pending c id actions) (ha : Undisturbed c id action) :
    Pending c id (actions ++ [action]) := by
  obtain ⟨pre, channel, mid, rfl, hmid⟩ := h
  refine ⟨pre, channel, mid ++ [action], by simp, fun a hm => ?_⟩
  rcases List.mem_append.1 hm with hm | hm
  · exact hmid a hm
  · rw [List.mem_singleton.1 hm]; exact ha

/-- What is known of a call from the run so far. -/
structure Told (c : PublishId) (actions : List Action) (p : Publish) : Prop where
  pending : p.timeout = true → p.returnedError = none → Pending c (messageId p.event) actions
  resolved : none ∈ p.settlements → Confirmed c (messageId p.event) actions
  notAttempted : ∀ m, some (.notAttempted m) ∈ p.settlements → NotAttempted c actions

/-- What concerns a call in flight of which no message was returned moves it. -/
theorem moves_of_disturbed (hi : Inv s) (hs : s.step action = some s') (hp : s.publishes c = some p)
    (ht : p.timeout = true) (hr : p.returnedError = none) (ha : ¬ Undisturbed c (messageId p.event) action) :
    ∃ p', s'.publishes c = some p' ∧ p' ≠ p := by
  have hpend := (hi.pending (messageId p.event) c).2 ⟨p, hp, rfl, ht⟩
  cases hi.phase c p hp with
  | waiting | refused | settled => cases ht
  | @inFlight event channel returned =>
    cases action with
    | publish | channelRejected | channelObtained => exact absurd trivial ha
    | confirm c' error =>
      obtain rfl : c' = c := not_not.1 ha
      simp only [State.step, hp] at hs
      cases error <;> cases hs <;> exact ⟨_, Function.update_self .., fun h => by cases h⟩
    | timeout c' =>
      obtain rfl : c' = c := not_not.1 ha
      simp only [State.step, hp] at hs
      cases hs
      exact ⟨_, Function.update_self .., fun h => by cases h⟩
    | returned id' text =>
      obtain rfl : id' = some (messageId event) := not_not.1 ha
      simp only [State.step, State.handleReturnedMessage, hpend, hp, Option.some.injEq] at hs
      subst hs
      refine ⟨_, Function.update_self .., fun h => ?_⟩
      rw [Publish.mk.injEq] at h
      rw [← h.2.2.1] at hr; cases hr

theorem told_step (hi : Inv s) (hs : s.step action = some s') (htold : ∀ c p, s.publishes c = some p → Told c actions p)
    {p' : Publish} (hp' : s'.publishes c = some p') : Told c (actions ++ [action]) p' := by
  have hcase := step_cases hi hs
  cases hp : s.publishes c with
  | none =>
    -- the call begins with this step
    cases hcase with
    | nothing => rw [hp] at hp'; cases hp'
    | @begun c₀ event =>
      rcases update_eq_some hp' with ⟨-, rfl⟩ | ⟨-, hp'⟩
      · exact ⟨nofun, nofun, nofun⟩
      · rw [hp] at hp'; cases hp'
    | @moved c₀ p₀ _ hp₀ =>
      have hc : c ≠ c₀ := by rintro rfl; rw [hp] at hp₀; cases hp₀
      simp only [Function.update_of_ne hc] at hp'
      rw [hp] at hp'; cases hp'
  | some p =>
    have ht := htold c p hp
    rcases hcase.call hp with hsame | ⟨p'', hp'', hm⟩
    · obtain rfl := Option.some.inj (hsame.symm.trans hp')
      refine ⟨fun h1 h2 => (ht.pending h1 h2).append ?_, fun h => (ht.resolved h).append,
        fun m h => (ht.notAttempted m h).append⟩
      by_contra ha
      obtain ⟨q, hq, hne⟩ := moves_of_disturbed hi hs hp h1 h2 ha
      exact hne (Option.some.inj (hq.symm.trans hp'))
    · obtain rfl := Option.some.inj (hp''.symm.trans hp')
      cases hm with
      | @refused event error =>
        exact ⟨nofun, fun h => (nomatch List.mem_singleton.1 h), fun m _ => .inl ⟨error, by simp⟩⟩
      | @sent event channel =>
        exact ⟨fun _ _ => ⟨actions, channel, [], by simp, nofun⟩, nofun, nofun⟩
      | @threw event channel error =>
        exact ⟨nofun, fun h => (nomatch List.mem_singleton.1 h), fun m _ => .inr ⟨channel, error, by simp⟩⟩
      | @acked event channel returned =>
        refine ⟨fun h => (nomatch h), fun h => ?_, fun m h => ?_⟩
        · have hr := List.mem_singleton.1 h
          cases returned with
          | some r => cases hr
          | none =>
            obtain ⟨pre, ch, mid, rfl, hmid⟩ := ht.pending rfl rfl
            exact ⟨pre, ch, mid, [], by simp, hmid⟩
        · have hr := List.mem_singleton.1 h
          cases returned <;> cases hr
      | nacked => exact ⟨nofun, fun h => (nomatch List.mem_singleton.1 h), fun m h => (nomatch List.mem_singleton.1 h)⟩
      | returned => exact ⟨fun _ h => (nomatch h), nofun, nofun⟩
      | timedOut =>
        exact ⟨nofun, fun h => (nomatch List.mem_singleton.1 h), fun m h => (nomatch List.mem_singleton.1 h)⟩

/-- The invariant and what is known of every call, after a run. -/
theorem told_of_trace (h : system.Trace newId initial actions s) :
    Inv s ∧ ∀ c p, s.publishes c = some p → Told c actions p := by
  have hnone : ∀ c p, initial.publishes c = some p → Told c [] p := fun c p hp => by cases hp
  refine h.history (P := fun actions s => Inv s ∧ ∀ c p, s.publishes c = some p → Told c actions p) ⟨Inv.init, hnone⟩ ?_
  rintro pre s a s' ⟨hi, ht⟩ hnew hs
  exact ⟨hi.step hnew hs, fun c p' hp' => told_step hi hs ht hp'⟩

theorem inv_of_trace (hi : Inv s) (h : system.Trace newId s actions s') : Inv s' :=
  h.invariant hi fun _ _ _ _ hi hnew hs => hi.step hnew hs

/-- A call that has settled stays as it is for the rest of the run. -/
theorem settled_of_steps (hi : Inv s) (h : system.Steps newId s s') (hp : s.publishes c = some p)
    (hne : p.settlements ≠ []) : s'.publishes c = some p :=
  (h.invariant (P := fun s => Inv s ∧ s.publishes c = some p) ⟨hi, hp⟩ fun _ _ _ ⟨hi, hp⟩ hnew hs =>
    ⟨hi.step hnew hs, (step_cases hi hs).settled hp hne⟩).2

theorem event_of_steps (hi : Inv s) (h : system.Steps newId s s') (hp : s.publishes c = some p) :
    ∃ p', s'.publishes c = some p' ∧ p'.event = p.event := by
  refine (h.invariant (P := fun s => Inv s ∧ ∃ p', s.publishes c = some p' ∧ p'.event = p.event) ⟨hi, p, hp, rfl⟩ ?_).2
  rintro s a s' ⟨hi, p', hp', he⟩ hnew hs
  obtain ⟨p'', hp'', he'⟩ := (step_cases hi hs).event hp'
  exact ⟨hi.step hnew hs, p'', hp'', he'.trans he⟩

/-- A call in flight that nothing concerns stays in flight. -/
theorem inFlight_of_undisturbed {event : OutboxEventRecord} {channel : ChannelId} {mid : List Action} (hi : Inv s)
    (h : system.Trace newId s mid s') (hp : s.publishes c = some ⟨event, some channel, none, false, true, []⟩)
    (hmid : ∀ a ∈ mid, Undisturbed c (messageId event) a) :
    s'.publishes c = some ⟨event, some channel, none, false, true, []⟩ := by
  refine (h.invariant
    (P := fun s => Inv s ∧ s.publishes c = some ⟨event, some channel, none, false, true, []⟩) ⟨hi, hp⟩ ?_).2
  rintro s a s' ha ⟨hi, hp⟩ hnew hs
  refine ⟨hi.step hnew hs, ?_⟩
  rcases (step_cases hi hs).call hp with h | ⟨p', -, hm⟩
  · exact h
  · have hu := hmid a ha
    cases hm <;> exact absurd rfl hu

theorem sent_of_obtained {channel : ChannelId} (hi : Inv s) (hs : s.step (.channelObtained c channel none) = some s') :
    ∃ event, s'.publishes c = some ⟨event, some channel, none, false, true, []⟩ := by
  simp only [State.step] at hs
  split at hs
  · cases hs
  rename_i p hp
  split at hs
  · rename_i hwait
    obtain ⟨event, rfl⟩ := waiting_of_awaits (hi.phase c p hp) hwait
    cases hs
    exact ⟨event, Function.update_self ..⟩
  · cases hs

/-- A confirmed call has resolved. -/
theorem resolved_of_confirmed (h : system.Trace newId initial actions s) (hp : s.publishes c = some p)
    (hc : Confirmed c (messageId p.event) actions) : p.settlements = [none] := by
  obtain ⟨pre, channel, mid, post, rfl, hmid⟩ := hc
  obtain ⟨s₁, h₁, h⟩ := h.split
  have hi₁ := (told_of_trace h₁).1
  obtain ⟨s₂, hnew₁, hs₁, h⟩ := h.head
  have hi₂ := hi₁.step hnew₁ hs₁
  obtain ⟨event, hp₂⟩ := sent_of_obtained hi₁ hs₁
  obtain ⟨q, hq, hevent⟩ := event_of_steps hi₂ h.steps hp₂
  obtain rfl := Option.some.inj (hp.symm.trans hq)
  obtain ⟨s₃, h₃, h⟩ := h.split
  have hi₃ := inv_of_trace hi₂ h₃
  have hp₃ := inFlight_of_undisturbed hi₂ h₃ hp₂ (by rw [show event = p.event from hevent.symm]; exact hmid)
  -- the confirm settles the call, and nothing after it does
  obtain ⟨s₄, hnew₃, hs₃, h⟩ := h.head
  have hi₄ := hi₃.step hnew₃ hs₃
  change s₃.step (.confirm c none) = _ at hs₃
  simp only [State.step, hp₃] at hs₃
  cases hs₃
  have hp₄ := settled_of_steps hi₄ h.steps (Function.update_self ..) (by simp)
  rw [Option.some.inj (hp.symm.trans hp₄)]
  rfl

/-- A call that was not attempted has been rejected as such. -/
theorem rejected_of_notAttempted (h : system.Trace newId initial actions s) (hp : s.publishes c = some p)
    (hn : NotAttempted c actions) : ∃ m, p.settlements = [some (.notAttempted m)] := by
  rcases hn with ⟨error, hmem⟩ | ⟨channel, error, hmem⟩
  · obtain ⟨pre, post, rfl⟩ := List.append_of_mem hmem
    obtain ⟨s₁, h₁, h⟩ := h.split
    have hi₁ := (told_of_trace h₁).1
    obtain ⟨s₂, hnew₁, hs₁, h⟩ := h.head
    have hi₂ := hi₁.step hnew₁ hs₁
    change s₁.step (.channelRejected c error) = _ at hs₁
    simp only [State.step] at hs₁
    split at hs₁
    · cases hs₁
    split at hs₁
    · cases hs₁
      have hp' := settled_of_steps hi₂ h.steps (Function.update_self ..) (by simp)
      rw [Option.some.inj (hp.symm.trans hp')]
      exact ⟨_, rfl⟩
    · cases hs₁
  · obtain ⟨pre, post, rfl⟩ := List.append_of_mem hmem
    obtain ⟨s₁, h₁, h⟩ := h.split
    have hi₁ := (told_of_trace h₁).1
    obtain ⟨s₂, hnew₁, hs₁, h⟩ := h.head
    have hi₂ := hi₁.step hnew₁ hs₁
    change s₁.step (.channelObtained c channel (some error)) = _ at hs₁
    simp only [State.step] at hs₁
    split at hs₁
    · cases hs₁
    rename_i q hq
    split at hs₁
    · rename_i hwait
      obtain ⟨event, rfl⟩ := waiting_of_awaits (hi₁.phase c q hq) hwait
      cases hs₁
      have hp' := settled_of_steps hi₂ h.steps (Function.update_self ..) (by simp)
      rw [Option.some.inj (hp.symm.trans hp')]
      exact ⟨_, rfl⟩
    · cases hs₁

end Histories

/-! ## Settlement -/

/-- The action cannot concern the call `c` in the state `s`: a return of another id, or a late signal of a call that
has settled. -/
def Stray (s : State) (id : String) : Action → Prop
  | .returned id' _ => id' ≠ some id
  | .confirm c' _ | .timeout c' => ∃ p', s.publishes c' = some p' ∧ p'.settlements ≠ []
  | _ => False

/-- How the calls of a run settle. -/
structure Settlement (actions : List Action) (s : State) : Prop where
  once : ∀ c p, s.publishes c = some p → p.settlements.length ≤ 1
  resolved : ∀ c p, s.publishes c = some p → (none ∈ p.settlements ↔ Confirmed c (messageId p.event) actions)
  notAttempted : ∀ c p, s.publishes c = some p →
    ((∃ m, some (.notAttempted m) ∈ p.settlements) ↔ NotAttempted c actions)
  final : ∀ c p, s.publishes c = some p → p.settlements ≠ [] → ∀ s', system.Steps newId s s' → s'.publishes c = some p
  awaiting : ∀ c p, s.publishes c = some p → p.settlements = [] → p.channel = none →
    (∀ error, ∃ s' p', s.step (.channelRejected c error) = some s' ∧ s'.publishes c = some p' ∧
    p'.settlements.length = 1) ∧
    ∀ channel, ∃ s' p', s.step (.channelObtained c channel none) = some s' ∧
    s'.publishes c = some p' ∧ p'.timeout = true
  armed : ∀ c p, s.publishes c = some p → p.settlements = [] → p.channel ≠ none → p.timeout = true ∧
    ∃ s' p', s.step (.timeout c) = some s' ∧ s'.publishes c = some p' ∧ p'.settlements.length = 1
  stray : ∀ c p a s', s.publishes c = some p → Stray s (messageId p.event) a → s.step a = some s' →
    p.settlements = [] → s'.publishes c = some p
  drained : (∀ c p, s.publishes c = some p → p.settlements ≠ []) →
    (∀ id, s.pendingPublishes id = none) ∧ ∀ c p, s.publishes c = some p → p.timeout = false

/-- In every run in which the ids in flight are distinct, each call of `publish` settles once and for all, in the
way that its own channel, confirm, timer and returns determine. -/
theorem publishes_settle {actions : List Action} {s : State} (h : system.Trace newId initial actions s) :
    Settlement actions s := by
  obtain ⟨hi, ht⟩ := told_of_trace h
  constructor
  · intro c p hp
    cases hi.phase c p hp <;> simp
  · intro c p hp
    refine ⟨(ht c p hp).resolved, fun hc => ?_⟩
    rw [resolved_of_confirmed h hp hc]; exact List.mem_singleton.2 rfl
  · intro c p hp
    refine ⟨fun ⟨m, hm⟩ => (ht c p hp).notAttempted m hm, fun hn => ?_⟩
    obtain ⟨m, hm⟩ := rejected_of_notAttempted h hp hn
    exact ⟨m, by rw [hm]; exact List.mem_singleton.2 rfl⟩
  · exact fun c p hp hne s' hsteps => settled_of_steps hi hsteps hp hne
  · intro c p hp hnone hch
    cases hi.phase c p hp with
    | refused => cases hnone
    | inFlight | settled => cases hch
    | @waiting event =>
      constructor
      · intro error
        have hstep : s.step (.channelRejected c error) = some (s.setPublish c
            ⟨event, none, none, false, false, [some (RabbitMqPublisher.notAttempted error)]⟩) := by
          simp only [State.step, hp]; rfl
        exact ⟨_, _, hstep, Function.update_self .., rfl⟩
      · intro channel
        have hstep : s.step (.channelObtained c channel none) = some
            ⟨Function.update s.publishes c (some ⟨event, some channel, none, false, true, []⟩),
              Function.update s.pendingPublishes (messageId event) (some c)⟩ := by
          simp only [State.step, hp]; rfl
        exact ⟨_, _, hstep, Function.update_self .., rfl⟩
  · intro c p hp hnone hch
    cases hi.phase c p hp with
    | waiting | refused => exact absurd rfl hch
    | settled => cases hnone
    | @inFlight event channel returned =>
      have hstep : s.step (.timeout c) = some ⟨Function.update s.publishes c
          (some ⟨event, some channel, returned, true, false, [some (timedOut (messageId event))]⟩),
          Function.update s.pendingPublishes (messageId event) none⟩ := by
        simp only [State.step, hp]; rfl
      exact ⟨rfl, _, _, hstep, Function.update_self .., rfl⟩
  · intro c p a s' hp hstray hs hnone
    rcases (step_cases hi hs).call hp with hsame | ⟨p', -, hm⟩
    · exact hsame
    · cases hm with
      | refused | sent | threw => exact hstray.elim
      | acked | nacked | timedOut =>
        obtain ⟨q, hq, hne⟩ := hstray
        obtain rfl := Option.some.inj (hp.symm.trans hq)
        exact absurd rfl hne
      | returned => exact absurd rfl hstray
  · intro hall
    have hoff : ∀ c p, s.publishes c = some p → p.timeout = false := by
      intro c p hp
      have hne := hall c p hp
      cases hi.phase c p hp <;> first | rfl | exact absurd rfl hne
    refine ⟨fun id => ?_, hoff⟩
    by_contra hsome
    obtain ⟨c, hc⟩ := Option.ne_none_iff_exists'.1 hsome
    obtain ⟨p, hp, -, htimeout⟩ := (hi.pending id c).1 hc
    rw [hoff c p hp] at htimeout; cases htimeout

namespace Sample

def event : OutboxEventRecord where
  id := .ofNat 1
  aggregateType := "payment"
  aggregateId := .ofNat 2
  eventType := "payment.authorized.v1"
  eventVersion := 1
  routingKey := "payment.authorized.v1"
  payload := .obj [("correlationId", .str "corr-0001")]
  status := .pending
  attempts := 0
  nextRetryAt := none
  lastError := none
  createdAt := 0
  publishedAt := none

/-- The message is sent, another one is returned, and the confirm comes. -/
def sentRun : List Action :=
  [.channelObtained 0 0 none, .returned (some "other") none, .confirm 0 none, .confirm 0 (some "late")]

def published : State := (initial.step (.publish 0 event)).get (by decide)

def confirmed : State := (system.runFrom published sentRun).get (by decide)

end Sample

theorem publishes_settle_confirmed : Settlement (.publish 0 Sample.event :: Sample.sentRun) Sample.confirmed := by
  have hpublished : system.step initial (.publish 0 Sample.event) = some Sample.published := (Option.some_get _).symm
  have hrest : system.Trace newId Sample.published Sample.sentRun Sample.confirmed := by
    refine System.trace_of_runFrom Sample.sentRun ?_ (Option.some_get _).symm
    simp only [Sample.sentRun, List.forall_mem_cons, List.not_mem_nil, false_implies, implies_true, and_true]
    exact ⟨fun _ => trivial, fun _ => trivial, fun _ => trivial, fun _ => trivial⟩
  exact publishes_settle (.cons (fun c p hp => by cases hp) hpublished hrest)

end RabbitMqPublisher

end PaymentOrchestration
