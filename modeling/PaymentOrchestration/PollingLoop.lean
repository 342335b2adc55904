/-
The polling loop of `OutboxPublisherWorker`: its timer, its iterations, and the calls of `start` and `stop`.
A step is one job of the event loop: a call, a timer that fires, or a callback of a promise. `pollOnce`
settles when and how it likes.
-/
import PaymentOrchestration.Lib.Run
import Mathlib.Logic.Function.Basic

namespace PaymentOrchestration

open Lib

namespace PollingLoop

/-! ## The state -/

abbrev TimerId := Nat
abbrev IterationId := Nat
/-- A call of `stop`. -/
abbrev StopId := Nat

inductive WorkerLifecycleState
  | idle
  | running
  | stopping
  | stopped
deriving DecidableEq

/-- The promise `iteration`: `pollOnce`, then its `catch`, then its `finally`. -/
inductive Iteration
  | notBegun
  | polling
  /-- `pollOnce` has resolved, or rejected with an error. -/
  | polled (error : Option String)
  | caught
  | finalized
  | resolved
deriving DecidableEq

/-- A stop promise: the `finally` of an iteration, or of a promise that is resolved already. -/
inductive StopPromise
  | notMade
  | waiting (iteration : Option IterationId)
  | finalized
  | resolved
deriving DecidableEq

inductive StopCall
  | notCalled
  /-- It returned the promise that the call `p` made. -/
  | awaiting (p : StopId)
  | resolved
deriving DecidableEq

/-- The fields of the worker, and what the runtime holds: the timers, the promises, and how many there have been of
them. `starts` are the outcomes of the calls of `start`, `logged` the errors that were logged. -/
structure State where
  lifecycleState : WorkerLifecycleState
  timer : Option TimerId
  inFlight : Option IterationId
  stopPromise : Option StopId
  timers : Nat
  armed : TimerId → Bool
  iterations : Nat
  iteration : IterationId → Iteration
  stops : Nat
  stopCalls : StopId → StopCall
  stopPromises : StopId → StopPromise
  starts : List (Option String)
  logged : List String

def cannotRestart : String := "Outbox publisher worker cannot restart after stop"

namespace State

def initial : State where
  lifecycleState := .idle
  timer := none
  inFlight := none
  stopPromise := none
  timers := 0
  armed := fun _ => false
  iterations := 0
  iteration := fun _ => .notBegun
  stops := 0
  stopCalls := fun _ => .notCalled
  stopPromises := fun _ => .notMade
  starts := []
  logged := []

variable (s : State)

/-! ## Its methods -/

def setTimeout : State :=
  { s with timer := some s.timers, armed := Function.update s.armed s.timers true, timers := s.timers + 1 }

def scheduleNext : State := if s.lifecycleState ≠ .running then s else s.setTimeout

def start : State :=
  if s.lifecycleState = .running then { s with starts := s.starts ++ [none] }
  else if s.lifecycleState ≠ .idle then { s with starts := s.starts ++ [some cannotRestart] }
  else { s with lifecycleState := .running, stopPromise := none, starts := s.starts ++ [none] }.scheduleNext

def clearTimeout : State :=
  match s.timer with
  | none => s
  | some t => { s with timer := none, armed := Function.update s.armed t false }

/-- `stop` returns a promise that is there already. -/
def returnStopPromise (p : StopId) : State :=
  { s with stops := s.stops + 1, stopCalls := Function.update s.stopCalls s.stops (.awaiting p) }

def stop : State :=
  match s.stopPromise with
  | some p => s.returnStopPromise p
  | none =>
    { { s with lifecycleState := .stopping }.clearTimeout with
      stopPromise := some s.stops
      stopPromises := Function.update s.stopPromises s.stops (.waiting s.inFlight) }.returnStopPromise s.stops

/-- The callback of `setTimeout`. -/
def timerFired (t : TimerId) : State :=
  { s with
    armed := Function.update s.armed t false
    timer := none
    iterations := s.iterations + 1
    iteration := Function.update s.iteration s.iterations .polling
    inFlight := some s.iterations }

def setIteration (i : IterationId) (phase : Iteration) : State :=
  { s with iteration := Function.update s.iteration i phase }

/-- The `catch` of an iteration. -/
def caught (i : IterationId) : Option String → State
  | none => s.setIteration i .caught
  | some error => { s with logged := s.logged ++ [error] }.setIteration i .caught

/-- The `finally` of an iteration. -/
def finalized (i : IterationId) : State :=
  ({ s with inFlight := if s.inFlight = some i then none else s.inFlight }.setIteration i .finalized).scheduleNext

/-- A stop promise is finalized or resolved. -/
def setStopPromise (p : StopId) (phase : StopPromise) : State :=
  { s with stopPromises := Function.update s.stopPromises p phase }

/-- What a stop promise hangs on has resolved. -/
def awaited : Option IterationId → Bool
  | none => true
  | some i => s.iteration i = .resolved

end State

/-! ## Steps -/

inductive Action
  | start
  | stop
  | timerFired (t : TimerId)
  /-- `pollOnce` settles. -/
  | polled (i : IterationId) (error : Option String)
  | caught (i : IterationId)
  | finalized (i : IterationId)
  | iterationResolved (i : IterationId)
  | stopFinalized (p : StopId)
  | stopPromiseResolved (p : StopId)
  /-- A call of `stop` resolves. -/
  | stopped (n : StopId)
deriving DecidableEq

namespace State

def step (s : State) : Action → Option State
  | .start => some s.start
  | .stop => some s.stop
  | .timerFired t => if s.armed t then some (s.timerFired t) else none
  | .polled i error => if s.iteration i = .polling then some (s.setIteration i (.polled error)) else none
  | .caught i =>
    match s.iteration i with
    | .polled error => some (s.caught i error)
    | _ => none
  | .finalized i => if s.iteration i = .caught then some (s.finalized i) else none
  | .iterationResolved i => if s.iteration i = .finalized then some (s.setIteration i .resolved) else none
  | .stopFinalized p =>
    match s.stopPromises p with
    | .waiting iteration =>
      if s.awaited iteration then some ({ s with lifecycleState := .stopped }.setStopPromise p .finalized) else none
    | _ => none
  | .stopPromiseResolved p =>
    if s.stopPromises p = .finalized then some (s.setStopPromise p .resolved) else none
  | .stopped n =>
    match s.stopCalls n with
    | .awaiting p =>
      if s.stopPromises p = .resolved then
        some { s with stopCalls := Function.update s.stopCalls n .resolved }
      else none
    | _ => none

end State

/-- The polling loop as a transition system. -/
def system : System State Action := ⟨State.initial, State.step⟩

/-! ## What the loop should do -/

/-- From the call of `pollOnce` until its `finally` has run. -/
def Iteration.inProgress : Iteration → Bool
  | .polling | .polled _ | .caught => true
  | .notBegun | .finalized | .resolved => false

namespace State

variable (s : State)

def inProgress (i : IterationId) : Bool := (s.iteration i).inProgress
def startCalled : Prop := s.starts ≠ []
def stopCalled : Prop := 0 < s.stops

end State

/-- The loop polls one batch at a time, goes on until it is stopped, and then finishes what it is at. -/
structure Polls (s : State) : Prop where
  oneIteration : ∀ i j, s.inProgress i = true → s.inProgress j = true → i = j
  oneTimer : ∀ t u, s.armed t = true → s.armed u = true → t = u
  notBoth : ∀ t i, s.armed t = true → s.inProgress i = false
  goesOn : s.startCalled → ¬ s.stopCalled → (∃ t, s.armed t = true) ∨ ∃ i, s.inProgress i = true
  stopWaits : ∀ n, s.stopCalls n = .resolved → ∀ i, s.inProgress i = false

/-- Between `s` and `s'` no iteration has begun and no timer was set, and none is armed. -/
structure Quiet (s s' : State) : Prop where
  iterations : s'.iterations = s.iterations
  timers : s'.timers = s.timers
  armed : ∀ t, s'.armed t = false

/-! ## The invariant -/

/-- What the lifecycle flag says of the other fields. -/
def Flagged (timer : Option TimerId) (inFlight : Option IterationId) (stopPromise : Option StopId)
    (starts : List (Option String)) : WorkerLifecycleState → Prop
  | .idle => timer = none ∧ inFlight = none ∧ stopPromise = none ∧ starts = []
  | .running => (timer.isSome = true ∨ inFlight.isSome = true) ∧ stopPromise = none
  | .stopping | .stopped => timer = none ∧ stopPromise.isSome = true

/-- The iteration that is in progress is the one the stop promise hangs on. -/
def Hangs (inFlight : Option IterationId) : StopPromise → Prop
  | .notMade => False
  | .waiting iteration => ∀ i, inFlight = some i → iteration = some i
  | .finalized | .resolved => inFlight = none

/-- `timer` and `inFlight` are what the runtime holds, and `stopPromise` is what every call of `stop` has returned. -/
structure Inv (s : State) : Prop where
  armed : ∀ t, s.armed t = true ↔ s.timer = some t
  inProgress : ∀ i, s.inProgress i = true ↔ s.inFlight = some i
  notBoth : s.timer = none ∨ s.inFlight = none
  flagged : Flagged s.timer s.inFlight s.stopPromise s.starts s.lifecycleState
  stopped : s.stopPromise.isSome = true ↔ s.stopCalled
  hangs : ∀ p, s.stopPromise = some p → Hangs s.inFlight (s.stopPromises p)
  made : ∀ p, s.stopPromises p ≠ .notMade → s.stopPromise = some p
  awaiting : ∀ n p, s.stopCalls n = .awaiting p → s.stopPromise = some p
  resolved : ∀ n, s.stopCalls n = .resolved → s.stopPromise.isSome = true ∧ s.inFlight = none

section Steps

variable {s s' : State} {a : Action} {i : IterationId} {phase : Iteration}

theorem inProgress_update (i j : IterationId) (phase : Iteration) :
    (Function.update s.iteration i phase j).inProgress = if j = i then phase.inProgress else s.inProgress j := by
  rw [Function.update_apply]
  split
  · rfl
  · rfl

theorem Inv.init : Inv State.initial where
  armed := fun _ => ⟨(Bool.noConfusion ·), (nomatch ·)⟩
  inProgress := fun _ => ⟨(Bool.noConfusion ·), (nomatch ·)⟩
  notBoth := .inl rfl
  flagged := ⟨rfl, rfl, rfl, rfl⟩
  stopped := ⟨(Bool.noConfusion ·), fun h => absurd h (Nat.lt_irrefl 0)⟩
  hangs := fun _ h => nomatch h
  made := fun _ h => absurd rfl h
  awaiting := fun _ _ h => StopCall.noConfusion h
  resolved := fun _ h => StopCall.noConfusion h

/-- Once a stop promise is there, no timer is armed. -/
theorem Inv.unarmed (h : Inv s) (hp : s.stopPromise.isSome = true) :
    s.timer = none ∧ (s.lifecycleState = .stopping ∨ s.lifecycleState = .stopped) := by
  have hf := h.flagged
  cases hl : s.lifecycleState with
  | idle =>
    rw [hl] at hf
    rw [hf.2.2.1] at hp
    cases hp
  | running =>
    rw [hl] at hf
    rw [hf.2] at hp
    cases hp
  | stopping =>
    rw [hl] at hf
    exact ⟨hf.1, .inl rfl⟩
  | stopped =>
    rw [hl] at hf
    exact ⟨hf.1, .inr rfl⟩

/-- `start` keeps the invariant. Only an idle worker sets a timer. -/
theorem Inv.start (h : Inv s) : Inv s.start := by
  unfold State.start
  split
  · rename_i hl
    have hf := h.flagged
    rw [hl] at hf
    exact ⟨h.armed, h.inProgress, h.notBoth, by rw [hl]; exact hf, h.stopped, h.hangs, h.made, h.awaiting, h.resolved⟩
  · split
    · rename_i hr hl
      have hf : ∀ l, l ≠ .running → l ≠ .idle → Flagged s.timer s.inFlight s.stopPromise s.starts l →
          Flagged s.timer s.inFlight s.stopPromise (s.starts ++ [some cannotRestart]) l := by
        intro l hr hl hf
        cases l with
        | idle => exact absurd rfl hl
        | running => exact absurd rfl hr
        | stopping | stopped => exact hf
      exact ⟨h.armed, h.inProgress, h.notBoth, hf _ hr hl h.flagged, h.stopped, h.hangs, h.made, h.awaiting, h.resolved⟩
    · rename_i hl
      have hf := h.flagged
      rw [not_not.1 hl] at hf
      obtain ⟨ht, hi, hp, -⟩ := hf
      have hs := h.stopped
      rw [hp] at hs
      exact {
        armed := fun t => by
          show Function.update s.armed s.timers true t = true ↔ some s.timers = some t
          rw [Function.update_apply]
          have := h.armed t
          rw [ht] at this
          grind
        inProgress := h.inProgress
        notBoth := .inr hi
        flagged := ⟨.inl rfl, rfl⟩
        stopped := hs
        hangs := fun _ h => nomatch h
        made := fun p hm => by have := h.made p hm; rw [hp] at this; cases this
        awaiting := fun n p hn => by have := h.awaiting n p hn; rw [hp] at this; cases this
        resolved := fun n hn => by have := (h.resolved n hn).1; rw [hp] at this; cases this }

theorem clearTimeout_eq (s : State) :
    s.clearTimeout = { s with timer := none, armed := s.clearTimeout.armed } := by
  unfold State.clearTimeout
  cases h : s.timer with
  | none =>
    cases s
    cases h
    rfl
  | some t => rfl

theorem Inv.cleared (h : Inv s) (t : TimerId) : s.clearTimeout.armed t = false := by
  have ht := h.armed t
  unfold State.clearTimeout
  split
  · rename_i hn
    rw [hn] at ht
    simpa using ht
  · rename_i u hu
    show Function.update s.armed u false t = false
    rw [hu] at ht
    rw [Function.update_apply]
    split
    · rfl
    · rename_i hne
      simpa [Ne.symm hne] using ht

/-- A call of `stop` that finds a stop promise. -/
theorem Inv.returnStopPromise (h : Inv s) {p : StopId} (hp : s.stopPromise = some p) : Inv (s.returnStopPromise p) where
  armed := h.armed
  inProgress := h.inProgress
  notBoth := h.notBoth
  flagged := h.flagged
  stopped := ⟨fun _ => Nat.succ_pos _, fun _ => by show s.stopPromise.isSome = true; rw [hp]; rfl⟩
  hangs := h.hangs
  made := h.made
  awaiting := fun n q hn => by
    replace hn : Function.update s.stopCalls s.stops (.awaiting p) n = .awaiting q := hn
    rw [Function.update_apply] at hn
    split at hn
    · cases hn
      exact hp
    · exact h.awaiting n q hn
  resolved := fun n hn => by
    replace hn : Function.update s.stopCalls s.stops (.awaiting p) n = .resolved := hn
    rw [Function.update_apply] at hn
    split at hn
    · cases hn
    · exact h.resolved n hn

theorem Inv.stop (h : Inv s) : Inv s.stop := by
  unfold State.stop
  split
  · rename_i p hp
    exact h.returnStopPromise hp
  · rename_i hp
    have hm : ∀ p, s.stopPromises p = .notMade := fun p => by
      by_contra hm
      have := h.made p hm
      rw [hp] at this
      cases this
    -- the promise of this call is the only one, and hangs on the iteration that is in progress
    have hmade : ∀ p, Function.update s.stopPromises s.stops (.waiting s.inFlight) p ≠ .notMade →
        some s.stops = some p := by
      intro p
      rw [Function.update_apply]
      split
      · rename_i hps
        exact fun _ => congrArg some hps.symm
      · exact fun hn => absurd (hm p) hn
    have hcleared := Inv.cleared (s := { s with lifecycleState := .stopping })
    rw [clearTimeout_eq]
    exact {
      armed := fun t => by
        show State.armed (State.clearTimeout _) t = true ↔ none = some t
        have : (State.clearTimeout { s with lifecycleState := .stopping }).armed t = s.clearTimeout.armed t := by
          unfold State.clearTimeout
          cases s.timer <;> rfl
        rw [this, h.cleared t]
        simp
      inProgress := h.inProgress
      notBoth := .inl rfl
      flagged := ⟨rfl, rfl⟩
      stopped := ⟨fun _ => Nat.succ_pos _, fun _ => rfl⟩
      hangs := fun p hps => by
        cases hps
        show Hangs s.inFlight (Function.update s.stopPromises s.stops _ s.stops)
        rw [Function.update_self]
        exact fun i hi => hi
      made := hmade
      awaiting := fun n q hn => by
        replace hn : Function.update s.stopCalls s.stops (.awaiting s.stops) n = .awaiting q := hn
        rw [Function.update_apply] at hn
        split at hn
        · cases hn
          rfl
        · have := h.awaiting n q hn
          rw [hp] at this
          cases this
      resolved := fun n hn => by
        replace hn : Function.update s.stopCalls s.stops (.awaiting s.stops) n = .resolved := hn
        rw [Function.update_apply] at hn
        split at hn
        · cases hn
        · have := (h.resolved n hn).1
          rw [hp] at this
          cases this }

/-- An iteration begins: its timer was the only one, and no iteration was in progress. -/
theorem Inv.timerFired (h : Inv s) {t : TimerId} (ht : s.armed t = true) : Inv (s.timerFired t) := by
  have htimer : s.timer = some t := (h.armed t).1 ht
  have hi : s.inFlight = none := by
    rcases h.notBoth with hn | hi
    · rw [htimer] at hn
      cases hn
    · exact hi
  have hp : s.stopPromise.isSome = false := by
    by_contra hp
    have := (h.unarmed (Bool.not_eq_false _ ▸ hp)).1
    rw [htimer] at this
    cases this
  have hp' : s.stopPromise = none := by simpa using hp
  have hf := h.flagged
  exact {
    armed := fun u => by
      show Function.update s.armed t false u = true ↔ none = some u
      have := h.armed u
      rw [htimer] at this
      rw [Function.update_apply]
      grind
    inProgress := fun j => by
      show (Function.update s.iteration s.iterations .polling j).inProgress = true ↔ some s.iterations = some j
      rw [inProgress_update]
      have := h.inProgress j
      rw [hi] at this
      grind [Iteration.inProgress]
    notBoth := .inl rfl
    flagged := by
      show Flagged none (some s.iterations) s.stopPromise s.starts s.lifecycleState
      rw [htimer, hi] at hf
      cases hl : s.lifecycleState with
      | idle =>
        rw [hl] at hf
        cases hf.1
      | running => exact ⟨.inr rfl, hp'⟩
      | stopping | stopped =>
        rw [hl] at hf
        cases hf.1
    stopped := h.stopped
    hangs := fun p hps => by
      replace hps : s.stopPromise = some p := hps
      rw [hp'] at hps
      cases hps
    made := h.made
    awaiting := h.awaiting
    resolved := fun n hn => by
      have := (h.resolved n hn).1
      rw [hp'] at this
      cases this }

/-- An iteration goes on without its `finally`. -/
theorem Inv.setIteration (h : Inv s) (hi : phase.inProgress = s.inProgress i) : Inv (s.setIteration i phase) where
  armed := h.armed
  inProgress := fun j => by
    show (Function.update s.iteration i phase j).inProgress = true ↔ _
    rw [inProgress_update]
    split
    · rename_i hj
      rw [hj, hi]
      exact h.inProgress i
    · exact h.inProgress j
  notBoth := h.notBoth
  flagged := h.flagged
  stopped := h.stopped
  hangs := h.hangs
  made := h.made
  awaiting := h.awaiting
  resolved := h.resolved

theorem Inv.caught (h : Inv s) (hi : s.inProgress i = true) (error : Option String) : Inv (s.caught i error) := by
  cases error with
  | none => exact h.setIteration hi.symm
  | some error =>
    have hlog : Inv { s with logged := s.logged ++ [error] } :=
      ⟨h.armed, h.inProgress, h.notBoth, h.flagged, h.stopped, h.hangs, h.made, h.awaiting, h.resolved⟩
    exact hlog.setIteration hi.symm

/-- The `finally` of an iteration: it is no longer in progress, and the next timer is set unless the worker
was stopped. -/
theorem Inv.finalized (h : Inv s) (hi : s.inProgress i = true) : Inv (s.finalized i) := by
  have hin : s.inFlight = some i := (h.inProgress i).1 hi
  have ht : s.timer = none := h.notBoth.resolve_right (by rw [hin]; exact Option.some_ne_none i)
  have hidle : ∀ j, (Function.update s.iteration i .finalized j).inProgress = true ↔ none = some j := fun j => by
    rw [inProgress_update]
    have := h.inProgress j
    rw [hin] at this
    grind [Iteration.inProgress]
  have hhangs : ∀ p, s.stopPromise = some p → Hangs none (s.stopPromises p) := fun p hp => by
    have := h.hangs p hp
    cases hs : s.stopPromises p with
    | notMade =>
      rw [hs] at this
      exact this
    | waiting iteration => exact fun _ hn => nomatch hn
    | finalized | resolved => exact rfl
  have hf := h.flagged
  unfold State.finalized
  rw [hin, if_pos rfl]
  unfold State.scheduleNext
  split
  · rename_i hl
    exact {
      armed := h.armed
      inProgress := hidle
      notBoth := .inr rfl
      flagged := by
        show Flagged s.timer none s.stopPromise s.starts s.lifecycleState
        replace hl : s.lifecycleState ≠ .running := hl
        rw [hin] at hf
        cases hs : s.lifecycleState with
        | idle =>
          rw [hs] at hf
          cases hf.2.1
        | running => exact absurd hs hl
        | stopping | stopped =>
          rw [hs] at hf
          exact hf
      stopped := h.stopped
      hangs := hhangs
      made := h.made
      awaiting := h.awaiting
      resolved := fun n hn => ⟨(h.resolved n hn).1, rfl⟩ }
  · rename_i hl
    replace hl : s.lifecycleState = .running := not_not.1 hl
    rw [hl] at hf
    exact {
      armed := fun t => by
        show Function.update s.armed s.timers true t = true ↔ some s.timers = some t
        rw [Function.update_apply]
        have := h.armed t
        rw [ht] at this
        grind
      inProgress := hidle
      notBoth := .inr rfl
      flagged := by
        show Flagged (some s.timers) none s.stopPromise s.starts s.lifecycleState
        rw [hl]
        exact ⟨.inl rfl, hf.2⟩
      stopped := h.stopped
      hangs := hhangs
      made := h.made
      awaiting := h.awaiting
      resolved := fun n hn => ⟨(h.resolved n hn).1, rfl⟩ }

/-- A stop promise goes on once no iteration is in progress. -/
theorem Inv.setStopPromise (h : Inv s) {p : StopId} {phase : StopPromise} (hm : s.stopPromises p ≠ .notMade)
    (hin : s.inFlight = none) (hph : phase = .finalized ∨ phase = .resolved) : Inv (s.setStopPromise p phase) where
  armed := h.armed
  inProgress := h.inProgress
  notBoth := h.notBoth
  flagged := h.flagged
  stopped := h.stopped
  hangs := fun q hq => by
    show Hangs s.inFlight (Function.update s.stopPromises p phase q)
    rw [Function.update_apply]
    split
    · rcases hph with rfl | rfl
      · exact hin
      · exact hin
    · exact h.hangs q hq
  made := fun q hq => by
    replace hq : Function.update s.stopPromises p phase q ≠ .notMade := hq
    rw [Function.update_apply] at hq
    split at hq
    · rename_i hqp
      rw [hqp]
      exact h.made p hm
    · exact h.made q hq
  awaiting := h.awaiting
  resolved := h.resolved

/-- The stop promise has waited for the iteration that was in progress. -/
theorem Inv.idle_of_awaited (h : Inv s) {p : StopId} {iteration : Option IterationId}
    (hp : s.stopPromises p = .waiting iteration) (ha : s.awaited iteration = true) : s.inFlight = none := by
  have hm : s.stopPromises p ≠ .notMade := by rw [hp]; exact StopPromise.noConfusion
  have hh := h.hangs p (h.made p hm)
  rw [hp] at hh
  cases hin : s.inFlight with
  | none => rfl
  | some i =>
    cases hh i hin
    have hr : s.iteration i = .resolved := by simpa [State.awaited] using ha
    have hi := (h.inProgress i).2 hin
    rw [State.inProgress, hr] at hi
    cases hi

/-- Every step keeps the invariant. -/
theorem Inv.step (h : Inv s) (hs : s.step a = some s') : Inv s' := by
  cases a with
  | start =>
    cases hs
    exact h.start
  | stop =>
    cases hs
    exact h.stop
  | timerFired t =>
    obtain ⟨ht, hs⟩ := Option.ite_none_right_eq_some.1 hs
    cases hs
    exact h.timerFired ht
  | polled i error =>
    obtain ⟨hi, hs⟩ := Option.ite_none_right_eq_some.1 hs
    cases hs
    exact h.setIteration (by rw [State.inProgress, hi]; rfl)
  | caught i =>
    simp only [State.step] at hs
    split at hs
    · rename_i error hi
      cases hs
      exact h.caught (by rw [State.inProgress, hi]; rfl) error
    · cases hs
  | finalized i =>
    obtain ⟨hi, hs⟩ := Option.ite_none_right_eq_some.1 hs
    cases hs
    exact h.finalized (by rw [State.inProgress, hi]; rfl)
  | iterationResolved i =>
    obtain ⟨hi, hs⟩ := Option.ite_none_right_eq_some.1 hs
    cases hs
    exact h.setIteration (by rw [State.inProgress, hi]; rfl)
  | stopFinalized p =>
    simp only [State.step] at hs
    split at hs
    · rename_i iteration hp
      obtain ⟨ha, hs⟩ := Option.ite_none_right_eq_some.1 hs
      cases hs
      have hm : s.stopPromises p ≠ .notMade := by rw [hp]; exact StopPromise.noConfusion
      have hsome : s.stopPromise.isSome = true := by rw [h.made p hm]; rfl
      have hstopped : Inv { s with lifecycleState := .stopped } :=
        ⟨h.armed, h.inProgress, h.notBoth, ⟨(h.unarmed hsome).1, hsome⟩, h.stopped, h.hangs,
          h.made, h.awaiting, h.resolved⟩
      exact hstopped.setStopPromise hm (h.idle_of_awaited hp ha) (.inl rfl)
    · cases hs
  | stopPromiseResolved p =>
    obtain ⟨hp, hs⟩ := Option.ite_none_right_eq_some.1 hs
    cases hs
    have hm : s.stopPromises p ≠ .notMade := by rw [hp]; exact StopPromise.noConfusion
    have hin := h.hangs p (h.made p hm)
    rw [hp] at hin
    exact h.setStopPromise hm hin (.inr rfl)
  | stopped n =>
    simp only [State.step] at hs
    split at hs
    · rename_i p hn
      obtain ⟨hp, hs⟩ := Option.ite_none_right_eq_some.1 hs
      cases hs
      have hsp := h.awaiting n p hn
      have hin := h.hangs p hsp
      rw [hp] at hin
      refine ⟨h.armed, h.inProgress, h.notBoth, h.flagged, h.stopped, h.hangs, h.made, fun m q hm => ?_, fun m hm => ?_⟩
      · replace hm : Function.update s.stopCalls n .resolved m = .awaiting q := hm
        rw [Function.update_apply] at hm
        split at hm
        · cases hm
        · exact h.awaiting m q hm
      · show s.stopPromise.isSome = true ∧ s.inFlight = none
        rw [hsp]
        exact ⟨rfl, hin⟩
    · cases hs

theorem Inv.reach (h : system.Reach System.anyStep s) : Inv s :=
  h.invariant Inv.init fun _ _ _ hi _ hs => hi.step hs

/-- After a `stop`, a step sets no timer and begins no iteration. -/
theorem Inv.quiet_step (h : Inv s) (hc : s.stopCalled) (hs : s.step a = some s') :
    s'.stopCalled ∧ s'.iterations = s.iterations ∧ s'.timers = s.timers := by
  obtain ⟨ht, hl⟩ := h.unarmed (h.stopped.2 hc)
  have hr : s.lifecycleState ≠ .running := by
    rcases hl with hl | hl <;> rw [hl] <;> exact WorkerLifecycleState.noConfusion
  have hi : s.lifecycleState ≠ .idle := by rcases hl with hl | hl <;> rw [hl] <;> exact WorkerLifecycleState.noConfusion
  cases a with
  | start =>
    cases hs
    unfold State.start
    rw [if_neg hr, if_pos hi]
    exact ⟨hc, rfl, rfl⟩
  | stop =>
    cases hs
    obtain ⟨p, hp⟩ := Option.isSome_iff_exists.1 (h.stopped.2 hc)
    unfold State.stop
    rw [hp]
    exact ⟨Nat.succ_pos _, rfl, rfl⟩
  | timerFired t =>
    obtain ⟨harmed, -⟩ := Option.ite_none_right_eq_some.1 hs
    have := (h.armed t).1 harmed
    rw [ht] at this
    cases this
  | caught i =>
    simp only [State.step] at hs
    split at hs
    · rename_i error _
      cases hs
      cases error with
      | none => exact ⟨hc, rfl, rfl⟩
      | some error => exact ⟨hc, rfl, rfl⟩
    · cases hs
  | finalized i =>
    obtain ⟨-, hs⟩ := Option.ite_none_right_eq_some.1 hs
    cases hs
    unfold State.finalized State.scheduleNext
    rw [if_pos (by exact hr)]
    exact ⟨hc, rfl, rfl⟩
  | polled i error | iterationResolved i | stopPromiseResolved p =>
    obtain ⟨-, hs⟩ := Option.ite_none_right_eq_some.1 hs
    cases hs
    exact ⟨hc, rfl, rfl⟩
  | stopFinalized p | stopped n =>
    simp only [State.step] at hs
    split at hs
    · obtain ⟨-, hs⟩ := Option.ite_none_right_eq_some.1 hs
      cases hs
      exact ⟨hc, rfl, rfl⟩
    · cases hs

end Steps

/-! ## Over whole runs -/

variable {s s' : State}

theorem Inv.polls (h : Inv s) : Polls s where
  oneIteration := fun i j hi hj => by
    have h1 := (h.inProgress i).1 hi
    have h2 := (h.inProgress j).1 hj
    exact Option.some.inj (h1.symm.trans h2)
  oneTimer := fun t u ht hu => by
    have h1 := (h.armed t).1 ht
    have h2 := (h.armed u).1 hu
    exact Option.some.inj (h1.symm.trans h2)
  notBoth := fun t i ht => by
    have h1 := (h.armed t).1 ht
    by_contra hi
    have h2 := (h.inProgress i).1 (Bool.not_eq_false _ ▸ hi)
    rcases h.notBoth with hn | hn
    · rw [h1] at hn
      cases hn
    · rw [h2] at hn
      cases hn
  goesOn := fun hstart hstop => by
    have hp : ¬ s.stopPromise.isSome = true := fun hp => hstop (h.stopped.1 hp)
    have hf := h.flagged
    cases hl : s.lifecycleState with
    | idle =>
      rw [hl] at hf
      exact absurd hf.2.2.2 hstart
    | running =>
      rw [hl] at hf
      rcases hf.1 with ht | hi
      · obtain ⟨t, ht⟩ := Option.isSome_iff_exists.1 ht
        exact .inl ⟨t, (h.armed t).2 ht⟩
      · obtain ⟨i, hi⟩ := Option.isSome_iff_exists.1 hi
        exact .inr ⟨i, (h.inProgress i).2 hi⟩
    | stopping | stopped =>
      rw [hl] at hf
      exact absurd hf.2 hp
  stopWaits := fun n hn i => by
    by_contra hi
    have h1 := (h.inProgress i).1 (Bool.not_eq_false _ ▸ hi)
    rw [(h.resolved n hn).2] at h1
    cases h1

/-- After a `stop`, the loop is quiet for ever. -/
theorem Inv.quiet (h : Inv s) (hc : s.stopCalled) (hs : system.Steps System.anyStep s s') : Quiet s s' := by
  have hrun : Inv s' ∧ s'.stopCalled ∧ s'.iterations = s.iterations ∧ s'.timers = s.timers := by
    refine hs.invariant (P := fun t => Inv t ∧ t.stopCalled ∧ t.iterations = s.iterations ∧ t.timers = s.timers)
      ⟨h, hc, rfl, rfl⟩ ?_
    rintro t a t' ⟨ht, htc, hti, htt⟩ - hstep
    obtain ⟨hc', hi', ht'⟩ := ht.quiet_step htc hstep
    exact ⟨ht.step hstep, hc', hi'.trans hti, ht'.trans htt⟩
  obtain ⟨h', hc', hi, ht⟩ := hrun
  refine ⟨hi, ht, fun t => ?_⟩
  by_contra harmed
  have := (h'.armed t).1 (Bool.not_eq_false _ ▸ harmed)
  rw [(h'.unarmed (h'.stopped.2 hc')).1] at this
  cases this

/-- In every run the loop polls one batch at a time and goes on until it is stopped; once `stop` was called,
no iteration begins and no timer is set. -/
theorem loop_polls (h : system.Reach System.anyStep s) :
    Polls s ∧ (s.stopCalled → ∀ s', system.Steps System.anyStep s s' → Quiet s s') :=
  ⟨(Inv.reach h).polls, fun hc _ hs => (Inv.reach h).quiet hc hs⟩

/-- An iteration fails, the next one is in flight when `stop` is called twice, and `start` comes too late. -/
def sampleRun : List Action :=
  [.start, .timerFired 0, .polled 0 (some "broker unavailable"), .caught 0, .finalized 0, .iterationResolved 0,
    .timerFired 1, .stop, .start, .polled 1 none, .stop, .caught 1, .finalized 1,
    .iterationResolved 1, .stopFinalized 0, .stopPromiseResolved 0, .stopped 1]

def sampleStopped : Option State := system.runFrom system.init sampleRun

/-- A run that ends with a resolved `stop`: two iterations have begun, and `start` was refused. -/
theorem loop_polls_stopped : ∃ s, sampleStopped = some s ∧ s.iterations = 2 ∧ s.starts = [none, some cannotRestart] ∧
    s.stopCalls 1 = .resolved ∧ s.logged = ["broker unavailable"] ∧ Polls s ∧
    (s.stopCalled → ∀ s', system.Steps System.anyStep s s' → Quiet s s') := by
  obtain ⟨s, hs⟩ : ∃ s, sampleStopped = some s := ⟨_, rfl⟩
  have hreach : system.Reach System.anyStep s := System.reach_of_run hs
  have hl := loop_polls hreach
  cases hs
  exact ⟨_, rfl, rfl, rfl, rfl, rfl, hl⟩

end PollingLoop

end PaymentOrchestration
