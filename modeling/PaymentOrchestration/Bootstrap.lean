/-
`PaymentServiceBootstrap`: the start and the shutdown of the Payment Service, which share six promises and any number of
hard-stop timers. A step is the code from one await to the next, or what the environment does: a promise settles, a
timer fires, one of the public methods is called.
-/
import PaymentOrchestration.Lib.Run
import Mathlib.Logic.Function.Basic

namespace PaymentOrchestration

open Lib

namespace PaymentServiceBootstrap

/-! ## The state -/

/-- A promise that was obtained from one of the resources. What it rejects with is an error, not `undefined`. -/
inductive Settling
  | pending
  | resolved
  | rejected (error : String)
deriving DecidableEq

namespace Settling

def ofError : Option String → Settling
  | none => resolved
  | some error => rejected error

def isSettled : Settling → Bool
  | pending => false
  | resolved | rejected _ => true

def error? : Settling → Option String
  | rejected error => some error
  | pending | resolved => none

end Settling

inductive BootstrapLifecycleState
  | idle
  | starting
  | running
  | stopping
  | stopped
deriving DecidableEq

/-- What `start` awaits. -/
inductive Start
  | notCalled
  | listen (promise : Settling)
  | workerStart (promise : Settling)
  | resolved
  | rejected (error : String)
deriving DecidableEq

/-- What `stop` awaits. -/
inductive Stop
  | notCalled
  /-- `closeHttpServer` without a server. -/
  | noHttpServer
  /-- The HTTP close, within the grace. -/
  | closeHttpServer
  /-- The HTTP close, after its connections were closed. -/
  | forceClosed
  /-- The worker's stop, within the grace. -/
  | workerStop
  /-- The RabbitMQ close that lets a pending confirm settle. -/
  | rabbitMqAfterGrace
  | workerStopAfterGrace
  | closeRabbitMq (firstError : Option String)
  | closeKnex (firstError : Option String)
  | settled (outcome : Option String)
deriving DecidableEq

/-- A call of `handleSignal`. -/
abbrev SignalId := Nat

/-- The fields of the bootstrap, the promises of its resources, and how often it has called them. `forced` is whether a
hard-stop timer has fired. -/
structure State where
  lifecycleState : BootstrapLifecycleState
  httpServer : Bool
  start : Start
  stop : Stop
  httpClose : Option Settling
  workerStop : Option Settling
  rabbitMqClosePromise : Option Settling
  knexDestroyPromise : Option Settling
  workerStarts : Nat
  rabbitMqCloses : Nat
  knexDestroys : Nat
  hardStopTimers : SignalId → Bool
  forced : Bool

def interrupted : String := "Payment service shutdown interrupted bootstrap"

namespace State

def initial : State where
  lifecycleState := .idle
  httpServer := false
  start := .notCalled
  stop := .notCalled
  httpClose := none
  workerStop := none
  rabbitMqClosePromise := none
  knexDestroyPromise := none
  workerStarts := 0
  rabbitMqCloses := 0
  knexDestroys := 0
  hardStopTimers := fun _ => false
  forced := false

variable (s : State)

/-! ## Its methods -/

/-- `bootstrap`, up to its await. `app.listen` may throw. -/
def bootstrap (thrown : Option String) : State :=
  if s.lifecycleState = .stopping ∨ s.lifecycleState = .stopped then s
  else if s.start ≠ .notCalled then s
  else match thrown with
    | none => { s with lifecycleState := .starting, httpServer := true, start := .listen .pending }
    | some error => { s with lifecycleState := .starting, start := .listen (.rejected error) }

/-- `shutdown`, up to the await in `closeHttpServer`. -/
def shutdown : State :=
  if s.stop ≠ .notCalled then s
  else if s.httpServer then { s with lifecycleState := .stopping, httpClose := some .pending, stop := .closeHttpServer }
  else { s with lifecycleState := .stopping, stop := .noHttpServer }

def closeRabbitMq : State :=
  match s.rabbitMqClosePromise with
  | some _ => s
  | none => { s with rabbitMqClosePromise := some .pending, rabbitMqCloses := s.rabbitMqCloses + 1 }

def closeKnex : State :=
  match s.knexDestroyPromise with
  | some _ => s
  | none => { s with knexDestroyPromise := some .pending, knexDestroys := s.knexDestroys + 1 }

/-- `start` goes on. -/
def startResumed : Option State :=
  match s.start with
  | .listen .resolved =>
    if s.lifecycleState ≠ .starting then some { s with start := .rejected interrupted }
    else some { s with start := .workerStart .pending, workerStarts := s.workerStarts + 1 }
  | .workerStart .resolved =>
    some { s with
      start := .resolved
      lifecycleState := if s.lifecycleState = .starting then .running else s.lifecycleState }
  | .listen (.rejected error) | .workerStart (.rejected error) => some { s with start := .rejected error }
  | _ => none

/-- `stop` calls the worker's `stop`. -/
def stopWorker : State := { s with workerStop := some .pending, stop := .workerStop }

/-- `stop` goes on with RabbitMQ, with what it has caught so far. -/
def closeResources (firstError : Option String) : State := { s.closeRabbitMq with stop := .closeRabbitMq firstError }

/-- `stop` goes on. -/
def stopResumed : Option State :=
  match s.stop with
  | .noHttpServer => some s.stopWorker
  | .closeHttpServer | .forceClosed =>
    match s.httpClose with
    | some .resolved => some { s with httpServer := false }.stopWorker
    | some (.rejected error) => some (s.closeResources (some error))
    | _ => none
  | .workerStop | .workerStopAfterGrace =>
    match s.workerStop with
    | some .resolved => some (s.closeResources none)
    | some (.rejected error) => some (s.closeResources (some error))
    | _ => none
  | .rabbitMqAfterGrace =>
    match s.rabbitMqClosePromise with
    | some .resolved => some { s with stop := .workerStopAfterGrace }
    | some (.rejected error) => some (s.closeResources (some error))
    | _ => none
  | .closeRabbitMq firstError =>
    match s.rabbitMqClosePromise with
    | some .resolved => some { s.closeKnex with stop := .closeKnex firstError }
    | some (.rejected error) => some { s.closeKnex with stop := .closeKnex (firstError.or (some error)) }
    | _ => none
  | .closeKnex firstError =>
    match s.knexDestroyPromise with
    | some .resolved => some { s with stop := .settled firstError, lifecycleState := .stopped }
    | some (.rejected error) =>
      some { s with stop := .settled (firstError.or (some error)), lifecycleState := .stopped }
    | _ => none
  | .notCalled | .settled _ => none

/-- `forceShutdownAfterDeadline`. -/
def forceShutdownAfterDeadline : State := { { s with httpServer := false }.closeRabbitMq.closeKnex with forced := true }

end State

/-! ## Steps -/

inductive Action
  | bootstrap (thrown : Option String)
  | shutdown
  | handleSignal (n : SignalId)
  /-- The server listens, or emits `error`. -/
  | listened (error : Option String)
  | workerStarted (error : Option String)
  | startResumed
  | httpClosed (error : Option String)
  | workerStopped (error : Option String)
  | rabbitMqClosed (error : Option String)
  | knexDestroyed (error : Option String)
  /-- The timer of `settlesWithinGrace` fires. -/
  | graceExpired
  | stopResumed
  | hardStop (n : SignalId)
  /-- `handleSignal` goes on, and clears its timer. -/
  | signalResumed (n : SignalId)
deriving DecidableEq

namespace State

def step (s : State) : Action → Option State
  | .bootstrap thrown => some (s.bootstrap thrown)
  | .shutdown => some s.shutdown
  | .handleSignal n =>
    if s.hardStopTimers n then none
      else some { s with hardStopTimers := Function.update s.hardStopTimers n true }.shutdown
  | .listened error =>
    match s.start with
    | .listen .pending => some { s with start := .listen (.ofError error) }
    | _ => none
  | .workerStarted error =>
    match s.start with
    | .workerStart .pending => some { s with start := .workerStart (.ofError error) }
    | _ => none
  | .startResumed => s.startResumed
  | .httpClosed error =>
    if s.httpClose = some .pending then some { s with httpClose := some (.ofError error) } else none
  | .workerStopped error =>
    if s.workerStop = some .pending then some { s with workerStop := some (.ofError error) } else none
  | .rabbitMqClosed error =>
    if s.rabbitMqClosePromise = some .pending then some { s with rabbitMqClosePromise := some (.ofError error) }
      else none
  | .knexDestroyed error =>
    if s.knexDestroyPromise = some .pending then some { s with knexDestroyPromise := some (.ofError error) } else none
  | .graceExpired =>
    match s.stop with
    | .closeHttpServer =>
      if s.httpClose = some .pending then some { s with httpServer := false, stop := .forceClosed } else none
    | .workerStop =>
      if s.workerStop = some .pending then some { s.closeRabbitMq with stop := .rabbitMqAfterGrace } else none
    | _ => none
  | .stopResumed => s.stopResumed
  | .hardStop n =>
    if s.hardStopTimers n then
      some { s with hardStopTimers := Function.update s.hardStopTimers n false }.forceShutdownAfterDeadline
    else none
  | .signalResumed n =>
    match s.stop with
    | .settled _ =>
      if s.hardStopTimers n then some { s with hardStopTimers := Function.update s.hardStopTimers n false } else none
    | _ => none

end State

/-- The bootstrap as a transition system. -/
def system : System State Action := ⟨State.initial, State.step⟩

/-! ## What a shutdown should do -/

def isSettled (promise : Option Settling) : Bool := promise.any Settling.isSettled

def error? (promise : Option Settling) : Option String := promise.bind Settling.error?

/-- The error of the first step of the shutdown that has failed, in the order of the steps. -/
def State.firstError (s : State) : Option String :=
  (error? s.httpClose).or ((error? s.workerStop).or ((error? s.rabbitMqClosePromise).or (error? s.knexDestroyPromise)))

/-- The ordering of a shutdown, seen in a state and its next steps. -/
structure Ordered (s : State) : Prop where
  notStarted : ∀ a s', s.step a = some s' → s.stop ≠ .notCalled → s'.workerStarts = s.workerStarts
  once : s.rabbitMqCloses ≤ 1 ∧ s.knexDestroys ≤ 1
  invoked : ∀ outcome, s.stop = .settled outcome → s.rabbitMqCloses = 1 ∧ s.knexDestroys = 1
  knexLast : s.forced = false → 0 < s.knexDestroys → isSettled s.workerStop = true
  outcome : ∀ outcome, s.stop = .settled outcome → outcome = s.firstError ∧ isSettled s.workerStop = true ∧
    isSettled s.rabbitMqClosePromise = true ∧ isSettled s.knexDestroyPromise = true

/-- The HTTP close does not fail, and the RabbitMQ close that `stop` makes after the grace fails only if the worker has
stopped without an error in the meantime. -/
def drains (s : State) : Action → Bool
  | .httpClosed (some _) => false
  | .stopResumed =>
    !(s.stop = .rabbitMqAfterGrace && (error? s.rabbitMqClosePromise).isSome && s.workerStop ≠ some .resolved)
  | _ => true

/-! ## Where a shutdown is -/

/-- What the phases of `stop` say of the worker's, RabbitMQ's and Knex's promises. -/
def Phase (worker rabbitMq knex : Option Settling) : Stop → Prop
  | .closeRabbitMq firstError => isSettled worker = true ∧ rabbitMq.isSome = true ∧
      firstError.or (error? rabbitMq) = (error? worker).or (error? rabbitMq)
  | .closeKnex firstError => isSettled worker = true ∧ isSettled rabbitMq = true ∧
      firstError = (error? worker).or (error? rabbitMq) ∧ knex.isSome = true
  | .settled outcome => isSettled worker = true ∧ isSettled rabbitMq = true ∧ isSettled knex = true ∧
      outcome = (error? worker).or ((error? rabbitMq).or (error? knex))
  | _ => True

/-- Knex is destroyed by `stop` only in its last phases. -/
def Stop.isLast : Stop → Bool
  | .closeKnex _ | .settled _ => true
  | _ => false

/-- What holds in every run in which the worker is drained. -/
structure Inv (s : State) : Prop where
  lifecycle : s.stop ≠ .notCalled → s.lifecycleState = .stopping ∨ s.lifecycleState = .stopped
  rabbitMqCloses : s.rabbitMqCloses = if s.rabbitMqClosePromise.isSome then 1 else 0
  knexDestroys : s.knexDestroys = if s.knexDestroyPromise.isSome then 1 else 0
  httpClose : error? s.httpClose = none
  phase : Phase s.workerStop s.rabbitMqClosePromise s.knexDestroyPromise s.stop
  knexLast : s.knexDestroyPromise.isSome = true → s.forced = true ∨ s.stop.isLast = true

section Phases

variable {w w' r r' k k' : Option Settling} {stop : Stop}

theorem or_pending_of_isSome (h : r.isSome = true) : r.or (some .pending) = r := by
  obtain ⟨p, rfl⟩ := Option.isSome_iff_exists.1 h
  rfl

theorem isSome_of_isSettled (h : isSettled r = true) : r.isSome = true := by
  cases r with
  | none => cases h
  | some p => rfl

/-- Closing RabbitMQ or Knex once more changes nothing. -/
theorem Phase.closed (h : Phase w r k stop) : Phase w (r.or (some .pending)) (k.or (some .pending)) stop := by
  cases stop with
  | closeRabbitMq fe =>
    obtain ⟨hw, hr, hfe⟩ := h
    rw [or_pending_of_isSome hr]
    exact ⟨hw, hr, hfe⟩
  | closeKnex fe =>
    obtain ⟨hw, hr, hfe, hk⟩ := h
    rw [or_pending_of_isSome (isSome_of_isSettled hr), or_pending_of_isSome hk]
    exact ⟨hw, hr, hfe, hk⟩
  | settled o =>
    obtain ⟨hw, hr, hk, ho⟩ := h
    rw [or_pending_of_isSome (isSome_of_isSettled hr), or_pending_of_isSome (isSome_of_isSettled hk)]
    exact ⟨hw, hr, hk, ho⟩
  | notCalled | noHttpServer | closeHttpServer | forceClosed | workerStop | rabbitMqAfterGrace | workerStopAfterGrace =>
    trivial

/-- A promise that settles was not waited for as settled. -/
theorem Phase.workerStopped (h : Phase (some .pending) r k stop) : Phase w' r k stop := by
  cases stop with
  | closeRabbitMq | closeKnex | settled => exact absurd h.1 Bool.false_ne_true
  | notCalled | noHttpServer | closeHttpServer | forceClosed | workerStop | rabbitMqAfterGrace | workerStopAfterGrace =>
    trivial

theorem Phase.rabbitMqClosed {p : Settling} (h : Phase w (some .pending) k stop) : Phase w (some p) k stop := by
  cases stop with
  | closeRabbitMq fe =>
    obtain ⟨hw, -, hfe⟩ := h
    have hfe : fe = error? w := by simpa [error?, Settling.error?] using hfe
    exact ⟨hw, rfl, by rw [hfe]⟩
  | closeKnex | settled => exact absurd h.2.1 Bool.false_ne_true
  | notCalled | noHttpServer | closeHttpServer | forceClosed | workerStop | rabbitMqAfterGrace | workerStopAfterGrace =>
    trivial

theorem Phase.knexDestroyed {p : Settling} (h : Phase w r (some .pending) stop) : Phase w r (some p) stop := by
  cases stop with
  | closeKnex => exact ⟨h.1, h.2.1, h.2.2.1, rfl⟩
  | settled => exact absurd h.2.2.1 Bool.false_ne_true
  | closeRabbitMq => exact h
  | notCalled | noHttpServer | closeHttpServer | forceClosed | workerStop | rabbitMqAfterGrace | workerStopAfterGrace =>
    trivial

end Phases

section Steps

variable {s s' : State} {a : Action}

theorem closeRabbitMq_eq (s : State) : s.closeRabbitMq = { s with
    rabbitMqClosePromise := s.rabbitMqClosePromise.or (some .pending)
    rabbitMqCloses := if s.rabbitMqClosePromise.isSome then s.rabbitMqCloses else s.rabbitMqCloses + 1 } := by
  unfold State.closeRabbitMq
  cases s with | _ _ _ _ _ _ _ r => cases r <;> rfl

theorem closeKnex_eq (s : State) : s.closeKnex = { s with
    knexDestroyPromise := s.knexDestroyPromise.or (some .pending)
    knexDestroys := if s.knexDestroyPromise.isSome then s.knexDestroys else s.knexDestroys + 1 } := by
  unfold State.closeKnex
  cases s with | _ _ _ _ _ _ _ _ k => cases k <;> rfl

theorem Inv.init : Inv State.initial where
  lifecycle := fun h => absurd rfl h
  rabbitMqCloses := rfl
  knexDestroys := rfl
  httpClose := rfl
  phase := trivial
  knexLast := fun h => absurd h Bool.false_ne_true

/-- Only the timers and the start of the service go on. -/
theorem Inv.of_start (hi : Inv s) {start : Start} {timers : SignalId → Bool} {n : Nat} :
    Inv { s with start := start, hardStopTimers := timers, workerStarts := n } :=
  ⟨hi.lifecycle, hi.rabbitMqCloses, hi.knexDestroys, hi.httpClose, hi.phase, hi.knexLast⟩

/-- A bootstrap before any shutdown. -/
theorem Inv.of_bootstrap (hi : Inv s) (hstop : s.stop = .notCalled) {lifecycle : BootstrapLifecycleState}
    {httpServer : Bool}
    {start : Start} : Inv { s with lifecycleState := lifecycle, httpServer := httpServer, start := start } :=
  ⟨fun h => absurd hstop h, hi.rabbitMqCloses, hi.knexDestroys, hi.httpClose, hi.phase, hi.knexLast⟩

theorem Inv.bootstrap (hi : Inv s) (thrown : Option String) : Inv (s.bootstrap thrown) := by
  unfold State.bootstrap
  split
  · exact hi
  rename_i hlifecycle
  have hstop : s.stop = .notCalled := by
    by_contra h
    exact hlifecycle (hi.lifecycle h)
  split
  · exact hi
  split <;> exact hi.of_bootstrap hstop

/-- `stop` goes on to a phase that waits for neither RabbitMQ nor Knex. -/
theorem Inv.of_phase (hi : Inv s) {stop : Stop} {lifecycle : BootstrapLifecycleState} {httpServer : Bool}
    {httpClose worker : Option Settling} (hlifecycle : lifecycle = .stopping ∨ lifecycle = .stopped)
    (hhttp : error? httpClose = none) (hphase : Phase worker s.rabbitMqClosePromise s.knexDestroyPromise stop)
    (hlast : s.stop.isLast = false) : Inv { s with
      lifecycleState := lifecycle
      httpServer := httpServer
      httpClose := httpClose
      workerStop := worker
      stop := stop } :=
  ⟨fun _ => hlifecycle, hi.rabbitMqCloses, hi.knexDestroys, hhttp, hphase, fun hk => .inl <| by
    rcases hi.knexLast hk with h | h
    · exact h
    · rw [hlast] at h; cases h⟩

theorem Inv.shutdown (hi : Inv s) : Inv s.shutdown := by
  unfold State.shutdown
  split
  · exact hi
  rename_i hstop
  have hstop : s.stop = .notCalled := not_not.1 hstop
  have hlast : s.stop.isLast = false := by rw [hstop]; rfl
  split
  · exact hi.of_phase (.inl rfl) rfl trivial hlast
  · exact hi.of_phase (.inl rfl) hi.httpClose trivial hlast

theorem Inv.closeRabbitMq (hi : Inv s) {stop : Stop}
    (hstop : s.stop ≠ .notCalled)
    (hphase : Phase s.workerStop (s.rabbitMqClosePromise.or (some .pending)) s.knexDestroyPromise stop)
    (hlast : s.stop.isLast = false) : Inv { s.closeRabbitMq with stop := stop } := by
  rw [closeRabbitMq_eq]
  refine ⟨fun _ => hi.lifecycle hstop, ?_, hi.knexDestroys, hi.httpClose, hphase, fun hk => .inl ?_⟩
  · have := hi.rabbitMqCloses
    cases hr : s.rabbitMqClosePromise <;> simp_all
  · rcases hi.knexLast hk with h | h
    · exact h
    · rw [hlast] at h; cases h

/-- `stop` has caught what it catches, and goes on with RabbitMQ. -/
theorem Inv.closeResources (hi : Inv s) (hstop : s.stop ≠ .notCalled) (hlast : s.stop.isLast = false)
    (hsettled : isSettled s.workerStop = true) {firstError : Option String}
    (hfirst : firstError = error? s.workerStop ∨ error? s.workerStop = none ∧
      firstError = error? s.rabbitMqClosePromise) :
    Inv (s.closeResources firstError) := by
  refine hi.closeRabbitMq hstop ⟨hsettled, by cases s.rabbitMqClosePromise <;> rfl, ?_⟩ hlast
  rcases hfirst with rfl | ⟨hno, rfl⟩
  · rfl
  · rw [hno]
    cases s.rabbitMqClosePromise with
    | none => rfl
    | some p => cases p <;> rfl

/-- A settled promise, and the error that `stop` takes from it. -/
theorem settled_cases {promise : Option Settling} (next : Option String → State)
    (hs : (match promise with
      | some .resolved => some (next none)
      | some (.rejected error) => some (next (some error))
      | _ => none) = some s') : isSettled promise = true ∧ s' = next (error? promise) := by
  split at hs
  · cases hs; exact ⟨rfl, rfl⟩
  · cases hs; exact ⟨rfl, rfl⟩
  · cases hs

theorem Inv.stopResumed (hi : Inv s) (hok : drains s .stopResumed = true) (hs : s.stopResumed = some s') : Inv s' := by
  have hphase := hi.phase
  unfold State.stopResumed at hs
  cases hstop : s.stop with
  | notCalled | settled => rw [hstop] at hs; cases hs
  | noHttpServer =>
    have hne : s.stop ≠ .notCalled := by rw [hstop]; nofun
    rw [hstop] at hs
    cases hs
    exact hi.of_phase (hi.lifecycle hne) hi.httpClose trivial (by rw [hstop]; rfl)
  | closeHttpServer | forceClosed =>
    have hne : s.stop ≠ .notCalled := by rw [hstop]; nofun
    simp only [hstop] at hs
    split at hs
    · cases hs
      exact hi.of_phase (hi.lifecycle hne) hi.httpClose trivial (by rw [hstop]; rfl)
    · -- the HTTP close has not failed
      rename_i error herror
      have hno := hi.httpClose
      rw [herror] at hno; cases hno
    · cases hs
  | workerStop | workerStopAfterGrace =>
    have hne : s.stop ≠ .notCalled := by rw [hstop]; nofun
    simp only [hstop] at hs
    obtain ⟨hsettled, rfl⟩ := settled_cases s.closeResources hs
    exact hi.closeResources hne (by rw [hstop]; rfl) hsettled (.inl rfl)
  | rabbitMqAfterGrace =>
    have hne : s.stop ≠ .notCalled := by rw [hstop]; nofun
    simp only [hstop] at hs
    split at hs
    · cases hs
      exact hi.of_phase (hi.lifecycle hne) hi.httpClose trivial (by rw [hstop]; rfl)
    · -- if the RabbitMQ close has failed, then the worker has stopped
      rename_i error herror
      cases hs
      have hresolved : s.workerStop = some .resolved := by
        simpa [drains, hstop, herror, error?, Settling.error?] using hok
      exact hi.closeResources hne (by rw [hstop]; rfl) (by rw [hresolved]; rfl)
        (.inr ⟨by rw [hresolved]; rfl, by rw [herror]; rfl⟩)
    · cases hs
  | closeRabbitMq firstError =>
    rw [hstop] at hphase
    obtain ⟨hworker, -, hfirst⟩ := hphase
    have hne : s.stop ≠ .notCalled := by rw [hstop]; nofun
    simp only [hstop] at hs
    have hs : isSettled s.rabbitMqClosePromise = true ∧
        s' = { s.closeKnex with stop := .closeKnex (firstError.or (error? s.rabbitMqClosePromise)) } := by
      split at hs
      · rename_i hr; cases hs; rw [hr]; exact ⟨rfl, by simp [error?, Settling.error?]⟩
      · rename_i error hr; cases hs; rw [hr]; exact ⟨rfl, rfl⟩
      · cases hs
    obtain ⟨hsettled, rfl⟩ := hs
    rw [hfirst]
    rw [closeKnex_eq]
    refine ⟨fun _ => hi.lifecycle hne, hi.rabbitMqCloses, ?_, hi.httpClose, ⟨hworker, hsettled, rfl, ?_⟩,
      fun _ => .inr rfl⟩
    · have := hi.knexDestroys
      cases hk : s.knexDestroyPromise <;> simp_all
    · cases s.knexDestroyPromise <;> rfl
  | closeKnex firstError =>
    rw [hstop] at hphase
    obtain ⟨hworker, hrabbit, rfl, -⟩ := hphase
    simp only [hstop] at hs
    have hs : isSettled s.knexDestroyPromise = true ∧ s' = { s with
        stop := .settled ((error? s.workerStop).or ((error? s.rabbitMqClosePromise).or (error? s.knexDestroyPromise)))
        lifecycleState := .stopped } := by
      split at hs
      · rename_i hk; cases hs; rw [hk]; exact ⟨rfl, by simp [error?, Settling.error?]⟩
      · rename_i error hk; cases hs; rw [hk, ← Option.or_assoc]; exact ⟨rfl, rfl⟩
      · cases hs
    obtain ⟨hsettled, rfl⟩ := hs
    exact ⟨fun _ => .inr rfl, hi.rabbitMqCloses, hi.knexDestroys, hi.httpClose, ⟨hworker, hrabbit, hsettled, rfl⟩,
      fun _ => .inr rfl⟩

theorem Inv.hardStop (hi : Inv s) : Inv s.forceShutdownAfterDeadline := by
  unfold State.forceShutdownAfterDeadline
  rw [closeKnex_eq, closeRabbitMq_eq]
  refine ⟨hi.lifecycle, ?_, ?_, hi.httpClose, hi.phase.closed, fun _ => .inl rfl⟩
  · have := hi.rabbitMqCloses
    cases hr : s.rabbitMqClosePromise <;> simp_all
  · have := hi.knexDestroys
    cases hk : s.knexDestroyPromise <;> simp_all

theorem Inv.step (hi : Inv s) (hok : drains s a = true) (hs : s.step a = some s') : Inv s' := by
  cases a with
  | bootstrap thrown => cases hs; exact hi.bootstrap thrown
  | shutdown => cases hs; exact hi.shutdown
  | handleSignal n =>
    simp only [State.step] at hs
    split at hs
    · cases hs
    · cases hs
      exact hi.of_start.shutdown
  | listened error | workerStarted error =>
    simp only [State.step] at hs
    split at hs
    · cases hs; exact hi.of_start
    · cases hs
  | startResumed =>
    simp only [State.step, State.startResumed] at hs
    split at hs
    · split at hs <;> cases hs <;> exact hi.of_start
    · rename_i hstart
      cases hs
      have hlifecycle : s.stop ≠ .notCalled →
          (if s.lifecycleState = .starting then .running else s.lifecycleState) = BootstrapLifecycleState.stopping ∨
          (if s.lifecycleState = .starting then .running else s.lifecycleState) = BootstrapLifecycleState.stopped := by
        intro h
        rcases hi.lifecycle h with h | h <;> simp [h]
      exact ⟨hlifecycle, hi.rabbitMqCloses, hi.knexDestroys, hi.httpClose, hi.phase, hi.knexLast⟩
    · cases hs; exact hi.of_start
    · cases hs; exact hi.of_start
    · cases hs
  | httpClosed error =>
    simp only [State.step] at hs
    split at hs
    · cases hs
      cases error with
      | none => exact ⟨hi.lifecycle, hi.rabbitMqCloses, hi.knexDestroys, rfl, hi.phase, hi.knexLast⟩
      | some error => cases hok
    · cases hs
  | workerStopped error =>
    simp only [State.step] at hs
    split at hs
    · rename_i hpending
      cases hs
      have hphase := hi.phase
      rw [hpending] at hphase
      exact ⟨hi.lifecycle, hi.rabbitMqCloses, hi.knexDestroys, hi.httpClose, hphase.workerStopped, hi.knexLast⟩
    · cases hs
  | rabbitMqClosed error =>
    simp only [State.step] at hs
    split at hs
    · rename_i hpending
      cases hs
      have hphase := hi.phase
      have hcloses := hi.rabbitMqCloses
      rw [hpending] at hphase hcloses
      exact ⟨hi.lifecycle, hcloses, hi.knexDestroys, hi.httpClose, hphase.rabbitMqClosed, hi.knexLast⟩
    · cases hs
  | knexDestroyed error =>
    simp only [State.step] at hs
    split at hs
    · rename_i hpending
      cases hs
      have hphase := hi.phase
      have hdestroys := hi.knexDestroys
      have hlast := hi.knexLast
      rw [hpending] at hphase hdestroys hlast
      exact ⟨hi.lifecycle, hi.rabbitMqCloses, hdestroys, hi.httpClose, hphase.knexDestroyed, hlast⟩
    · cases hs
  | graceExpired =>
    simp only [State.step] at hs
    split at hs
    · rename_i hstop
      split at hs
      · rename_i hpending
        cases hs
        exact hi.of_phase (hi.lifecycle (by rw [hstop]; nofun)) hi.httpClose trivial (by rw [hstop]; rfl)
      · cases hs
    · rename_i hstop
      split at hs
      · cases hs
        exact hi.closeRabbitMq (by rw [hstop]; nofun) trivial (by rw [hstop]; rfl)
      · cases hs
    · cases hs
  | stopResumed => exact hi.stopResumed hok hs
  | hardStop n =>
    simp only [State.step] at hs
    split at hs
    · cases hs; exact hi.of_start.hardStop
    · cases hs
  | signalResumed n =>
    simp only [State.step] at hs
    split at hs
    · split at hs
      · cases hs; exact hi.of_start
      · cases hs
    · cases hs

/-- The worker is started only by a service that is starting. -/
theorem workerStarts_of_step (hs : s.step a = some s') :
    s'.workerStarts = s.workerStarts ∨ s.lifecycleState = .starting := by
  have hshutdown : ∀ s : State, s.shutdown.workerStarts = s.workerStarts := by
    intro s
    unfold State.shutdown
    split
    · rfl
    · split <;> rfl
  cases a with
  | bootstrap thrown =>
    cases hs
    left
    unfold State.bootstrap
    split
    · rfl
    split
    · rfl
    split <;> rfl
  | shutdown => cases hs; exact .inl (hshutdown s)
  | handleSignal n =>
    simp only [State.step] at hs
    split at hs
    · cases hs
    · cases hs; exact .inl (hshutdown _)
  | startResumed =>
    simp only [State.step, State.startResumed] at hs
    split at hs
    · split at hs
      · cases hs; exact .inl rfl
      · rename_i hstarting; exact .inr (not_not.1 hstarting)
    all_goals cases hs
    all_goals exact .inl rfl
  | stopResumed =>
    left
    simp only [State.step, State.stopResumed, State.closeResources, closeRabbitMq_eq, closeKnex_eq] at hs
    split at hs
    · cases hs; rfl
    all_goals first | (split at hs <;> cases hs <;> rfl) | cases hs
  | graceExpired =>
    left
    simp only [State.step, closeRabbitMq_eq] at hs
    split at hs
    · split at hs <;> cases hs; rfl
    · split at hs <;> cases hs; rfl
    · cases hs
  | hardStop n =>
    left
    simp only [State.step, State.forceShutdownAfterDeadline, closeRabbitMq_eq, closeKnex_eq] at hs
    split at hs <;> cases hs; rfl
  | listened | workerStarted | httpClosed | workerStopped | rabbitMqClosed | knexDestroyed =>
    left
    simp only [State.step] at hs
    split at hs <;> cases hs; rfl
  | signalResumed n =>
    left
    simp only [State.step] at hs
    split at hs
    · split at hs <;> cases hs; rfl
    · cases hs

end Steps

/-! ## Every run -/

theorem Inv.of_reach {s : State} (h : system.Reach (fun s a => drains s a = true) s) : Inv s :=
  h.invariant .init fun _ _ _ hi hok hs => hi.step hok hs

namespace Sample

/-- The service is up. -/
def running : List Action := [.bootstrap none, .listened none, .startResumed, .workerStarted none, .startResumed]

/-- A shutdown in which everything settles. -/
def shutdownRun : List Action :=
  running ++ [.shutdown, .httpClosed none, .stopResumed, .workerStopped none, .stopResumed,
    .rabbitMqClosed none, .stopResumed, .knexDestroyed none, .stopResumed]

def shutDown : State := (system.runWhile drains system.init shutdownRun).get (by decide)

/-- A shutdown in which the HTTP server does not close. -/
def httpFailedRun : List Action :=
  running ++ [.shutdown, .httpClosed (some "ERR_SERVER_NOT_RUNNING"), .stopResumed, .rabbitMqClosed none, .stopResumed]

def httpFailed : State := (system.runFrom system.init httpFailedRun).get (by decide)

end Sample

example : Sample.shutDown.stop = .settled none := by decide

end PaymentServiceBootstrap

end PaymentOrchestration
