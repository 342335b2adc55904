/-
What one step of the workers does: the cases of `StepCase`, with the guard of each. The proofs about runs of the
workers take these cases and never unfold `State.step`.
-/
import PaymentOrchestration.Worker

namespace PaymentOrchestration

open Lib OutboxEventsDataAccess

namespace OutboxPublisherWorker

/-! ## Where a worker is -/

namespace Await

/-- The transaction of the iteration. -/
def tx? : Await → Option Tx
  | fetchPendingBatch x | publish x _ _ | markPublished x _ _ | markPublishFailed x _ _ _ | commit x | rollback x =>
    some x
  | idle | getConfirmChannel | transaction | crashed => none

/-- The events of the batch whose outcome is not recorded yet, the one in hand first. -/
def batch : Await → List OutboxEventRecord
  | publish _ event events | markPublished _ event events | markPublishFailed _ event _ events => event :: events
  | _ => []

end Await

@[simp] theorem tx?_forEvents (x : Tx) (events : List OutboxEventRecord) : (forEvents x events).tx? = some x := by
  cases events <;> rfl

/-- A worker that awaits the end of its transaction. -/
theorem tx?_of_ends {await : Await} {x : Tx} (h : await = .commit x ∨ await = .rollback x) : await.tx? = some x := by
  rcases h with rfl | rfl <;> rfl

@[simp] theorem batch_forEvents (x : Tx) (events : List OutboxEventRecord) : (forEvents x events).batch = events := by
  cases events <;> rfl

section GoOn

variable (s : State) (w : WorkerId) (await : Await)

@[simp] theorem goOn_self : (s.goOn w await).workers w = await := Function.update_self ..

@[simp] theorem goOn_server : (s.goOn w await).server = s.server := rfl

@[simp] theorem goOn_handed : (s.goOn w await).handed = s.handed := rfl

variable {s w await}

theorem goOn_of_ne {v : WorkerId} (h : v ≠ w) : (s.goOn w await).workers v = s.workers v := Function.update_of_ne h ..

/-- When one worker goes on, every other one is where it was. -/
theorem update_or {P : Await → Prop} {workers : WorkerId → Await} (h : P await) (v : WorkerId) :
    Function.update workers w await v = workers v ∨ P (Function.update workers w await v) := by
  by_cases hv : v = w
  · rw [hv, Function.update_self]
    exact .inr h
  · exact .inl (Function.update_of_ne hv ..)

end GoOn

/-! ## The cases -/

variable {cfg : WorkerConfig}

variable (cfg) in
/-- How an action moves the worker `w` without touching the database. -/
inductive Moves (s : State) (w : WorkerId) : Action → Await → Await → Prop
  | polled : Moves s w (.poll w) .idle .getConfirmChannel
  | channelObtained : Moves s w (.channelObtained w) .getConfirmChannel .transaction
  | channelRejected : Moves s w (.channelRejected w) .getConfirmChannel .idle
  | notBegun : Moves s w (.queryError w) .transaction .idle
  | queryError {await x} : await.tx? = some x → (∀ y event events, await ≠ .publish y event events) →
      Moves s w (.queryError w) await (.rollback x)
  /-- The statement itself is refused. -/
  | refused {await x e} : s.statement cfg await = some (x, .error e) → await.tx? = some x →
      Moves s w (.query w) await (.rollback x)
  | notAttempted {x event events now m} :
      Moves s w (.published w now (some (.notAttempted m))) (.publish x event events) (.rollback x)
  | rollbackLost {x} : Moves s w (.endLost w) (.rollback x) .idle
  | crashed {await} : Moves s w (.crash w) await .crashed

variable (cfg) in
/-- The statement that records the outcome of the event in hand has written `ws`. -/
inductive Marking (s : State) (x : Tx) (event : OutboxEventRecord) (events : List OutboxEventRecord) :
    Await → List OutboxWrite → Prop
  | published : Marking s x event events (.markPublished x event events)
      ((markPublished (s.view x.id) event.id x.now).toList.map .published)
  | publishFailed {input r} : OutboxEventsDataAccess.markPublishFailed (s.view x.id) input = .ok r →
      Marking s x event events (.markPublishFailed x event input events) (r.toList.map .publishFailed)

variable (cfg) in
/-- What a step does. -/
inductive StepCase (s : State) : Action → State → Prop
  | inserted {event now r server} :
      Inserted s.table event now r → s.server.autocommit .service [.insert r] = some server →
      StepCase s (.insertPending event now) { s with server := server }
  | moved {w a await await'} : s.workers w = await → Moves cfg s w a await await' → StepCase s a (s.goOn w await')
  | begun {w x} : s.workers w = .transaction → x.id ∉ s.transactions →
      StepCase s (.begun w x)
        { s.goOn w (.fetchPendingBatch x) with
          server := s.server.begin (.poll x.id)
          transactions := x.id :: s.transactions }
  | fetched {w x events server} : s.workers w = .fetchPendingBatch x →
      Fetched (s.view x.id) x.now (s.server.free (.poll x.id)) events →
      s.server.stage (.poll x.id) [] (events.map (·.id)) = some server →
      StepCase s (.query w) { s.goOn w (forEvents x events) with server := server }
  | marked {w x event events await ws server} : s.workers w = await → Marking s x event events await ws →
      s.server.stage (.poll x.id) ws [] = some server →
      StepCase s (.query w) { s.goOn w (forEvents x events) with server := server }
  | published {w x event events now} : s.workers w = .publish x event events →
      StepCase s (.published w now none)
        { s.goOn w (.markPublished x event events) with handed := s.handed ++ [(event, none)] }
  | failed {w x event events now error} : s.workers w = .publish x event events →
      StepCase s (.published w now (some (.other error)))
        { s.goOn w (.markPublishFailed x event (publishFailed cfg now event error) events) with
          handed := s.handed ++ [(event, some error)] }
  | committed {w x} : s.workers w = .commit x → s.isOpen x.id →
      StepCase s (.query w) { s.goOn w .idle with server := s.server.commit (.poll x.id) }
  | rolledBack {w x a} : s.workers w = .rollback x ∧ a = .query w ∨ a = .queryError w →
      s.workers w = .commit x ∨ s.workers w = .rollback x →
      StepCase s a { s.goOn w .idle with server := s.server.rollback (.poll x.id) }
  | inDoubt {w x a await} : s.workers w = .commit x →
      (a = .endLost w ∧ await = .idle ∨ a = .crash w ∧ await = .crashed) →
      StepCase s a { s.goOn w await with inDoubt := x.id :: s.inDoubt }
  | lateCommitted {t} : t ∈ s.inDoubt → s.isOpen t →
      StepCase s (.lateCommit t) { s with server := s.server.commit (.poll t) }
  | sessionLost {t} : s.isOpen t → StepCase s (.sessionLost t) { s with server := s.server.rollback (.poll t) }

theorem step_cases {s s' : State} {a : Action} (hs : s.step cfg a = some s') : StepCase cfg s a s' := by
  cases a with
  | insertPending event now =>
    simp only [State.step] at hs
    split at hs
    · rename_i answer ha
      obtain ⟨server, hserver, rfl⟩ := Option.map_eq_some_iff.1 hs
      exact .inserted (insertPending_ok ha) hserver
    · cases hs
  | poll w | channelObtained w | channelRejected w =>
    simp only [State.step] at hs
    split at hs
    · rename_i hw; cases hs; exact .moved hw (by constructor)
    · cases hs
  | begun w x =>
    simp only [State.step] at hs
    split at hs
    · rename_i hw
      split at hs
      · cases hs
      · rename_i hx; cases hs; exact .begun hw hx
    · cases hs
  | query w =>
    simp only [State.step] at hs
    split at hs
    · rename_i x hw
      split at hs
      · rename_i hopen; cases hs; exact .committed hw hopen
      · cases hs
    · rename_i x hw
      cases hs
      exact .rolledBack (.inl ⟨hw, rfl⟩) (.inr hw)
    · -- a statement within the transaction
      split at hs
      · rename_i x o hstatement
        obtain ⟨server, hserver, rfl⟩ := Option.map_eq_some_iff.1 hs
        cases hw : s.workers w with
        | fetchPendingBatch x' =>
          rw [hw] at hstatement
          simp only [State.statement, Option.some.injEq, Prod.mk.injEq] at hstatement
          obtain ⟨rfl, hfetch⟩ := hstatement
          obtain ⟨events, he, rfl⟩ := map_eq_ok hfetch
          exact .fetched hw (fetched he) hserver
        | markPublished x' event events =>
          rw [hw] at hstatement
          simp only [State.statement, Option.some.injEq, Prod.mk.injEq, Except.ok.injEq] at hstatement
          obtain ⟨rfl, rfl⟩ := hstatement
          exact .marked hw .published hserver
        | markPublishFailed x' event input events =>
          rw [hw] at hstatement
          simp only [State.statement, Option.some.injEq, Prod.mk.injEq] at hstatement
          obtain ⟨rfl, hmark⟩ := hstatement
          obtain ⟨r, hr, rfl⟩ := map_eq_ok hmark
          exact .marked hw (.publishFailed hr) hserver
        | idle | getConfirmChannel | transaction | publish | commit | rollback | crashed =>
          rw [hw] at hstatement; cases hstatement
      · rename_i x e hstatement
        cases hs
        refine .moved rfl (.refused hstatement ?_)
        cases hw : s.workers w with
        | fetchPendingBatch | markPublished | markPublishFailed =>
          rw [hw] at hstatement
          simp only [State.statement, Option.some.injEq, Prod.mk.injEq] at hstatement
          rw [← hstatement.1]; rfl
        | idle | getConfirmChannel | transaction | publish | commit | rollback | crashed =>
          rw [hw] at hstatement; cases hstatement
      · cases hs
  | queryError w =>
    simp only [State.step] at hs
    split at hs
    · rename_i hw; cases hs; exact .moved hw .notBegun
    · rename_i x hw; cases hs; exact .moved hw (.queryError rfl fun _ _ _ h => (by cases h))
    · rename_i x event events hw; cases hs; exact .moved hw (.queryError rfl fun _ _ _ h => (by cases h))
    · rename_i x event input events hw; cases hs; exact .moved hw (.queryError rfl fun _ _ _ h => (by cases h))
    · rename_i x hw; cases hs; exact .rolledBack (.inr rfl) (.inl hw)
    · rename_i x hw; cases hs; exact .rolledBack (.inr rfl) (.inr hw)
    · cases hs
  | published w now error =>
    simp only [State.step] at hs
    split at hs
    · rename_i x event events hw
      cases error with
      | none => cases hs; exact .published hw
      | some error =>
        cases error with
        | notAttempted m => cases hs; exact .moved hw .notAttempted
        | other error => cases hs; exact .failed hw
    · cases hs
  | endLost w =>
    simp only [State.step] at hs
    split at hs
    · rename_i x hw; cases hs; exact .inDoubt hw (.inl ⟨rfl, rfl⟩)
    · rename_i x hw; cases hs; exact .moved hw .rollbackLost
    · cases hs
  | lateCommit t =>
    simp only [State.step] at hs
    split at hs
    · rename_i h; cases hs; exact .lateCommitted h.1 h.2
    · cases hs
  | sessionLost t =>
    simp only [State.step] at hs
    split at hs
    · rename_i h; cases hs; exact .sessionLost h
    · cases hs
  | crash w =>
    simp only [State.step] at hs
    split at hs
    · rename_i x hw; cases hs; exact .inDoubt hw (.inr ⟨rfl, rfl⟩)
    · cases hs
    · cases hs; exact .moved rfl .crashed

end OutboxPublisherWorker

end PaymentOrchestration
