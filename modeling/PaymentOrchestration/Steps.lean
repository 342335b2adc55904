/-
What one step of the service does: `StepCase` are the ways an action changes the state, each with its
guard. From it follow the facts every later proof rests on: a step concerns one call, and leaves what
the transactions of the others have locked as it is.
-/
import PaymentOrchestration.Ledger

namespace PaymentOrchestration

open Lib IdempotencyService PaymentsService

/-- The server a transactional statement of the call `c` runs on: the first one opens the transaction. -/
def State.opened (s : State) (c : CallId) : Mode → Server schema Session
  | .opening => s.server.begin (.tx c)
  | _ => s.server

/-- The state after the call `c` has gone on to `await` over `server`, with `minted` handed out. -/
def State.moved (s : State) (c : CallId) (call : Call) (await : Await) (server : Server schema Session)
    (minted : List Uuid) : State :=
  { server := server, calls := Function.update s.calls c (some { call with await := await }), minted := minted }

/-- What an action can do. -/
inductive StepCase (cfg : Config) (s : State) : Action → State → Prop
  /-- A call begins. -/
  | started {c command reserved} : s.calls c = none → reserved ∉ s.minted →
      StepCase cfg s (.start c command reserved)
        { s with
          calls := Function.update s.calls c
            (some ⟨command, State.reservedId command reserved, false, .findByScopeAndKey⟩)
          minted := reserved :: s.minted }
  /-- A statement outside a transaction takes effect, whether its answer arrives or not. -/
  | pool {a c env call o next server} : s.calls c = some call → s.fresh env = true → call.await.mode = .pool →
      call.run cfg env s.db = .ok o → s.server.autocommit (.pool c) o.writes = some server →
      (a = .query c env ∧ next = o.next ∨ ∃ m, a = .queryLost c env m ∧ next = call.reject (.other m)) →
      StepCase cfg s a (s.moved c call next server (env.uuid :: env.uuid' :: s.minted))
  /-- A statement inside a transaction runs. -/
  | staged {c env call o server} : s.calls c = some call → s.fresh env = true →
      call.await.mode = .opening ∨ call.await.mode = .inside → call.run cfg env s.db = .ok o →
      (s.opened c call.await.mode).stage (.tx c) o.writes o.locks = some server →
      StepCase cfg s (.query c env) (s.moved c call o.next server (env.uuid :: env.uuid' :: s.minted))
  /-- A transaction commits. -/
  | committed {c env call d body} : s.calls c = some call → call.await = .commit d body →
      (s.server.pending (.tx c)).isSome = true →
      StepCase cfg s (.query c env) (s.moved c call (.returned call.command.statusCode body)
        (s.server.commit (.tx c)) (env.uuid :: env.uuid' :: s.minted))
  /-- A transaction is rolled back. -/
  | rolledBack {c env call d error} : s.calls c = some call → call.await = .rollback d error →
      StepCase cfg s (.query c env) (s.moved c call (.markFailed d error) (s.server.rollback (.tx c))
        (env.uuid :: env.uuid' :: s.minted))
  /-- A statement fails. -/
  | rejected {a c call e minted} : s.calls c = some call → call.await.mode ≠ .idle →
      (∃ env, a = .query c env ∧ call.run cfg env s.db = .error e ∧ minted = env.uuid :: env.uuid' :: s.minted) ∨
        (∃ m, a = .queryError c m ∧ e = .other m ∧ minted = s.minted) →
      StepCase cfg s a (s.moved c call (call.reject e) (State.abandon s.server c call.await.mode) minted)
  /-- A provider answers. -/
  | answered {c now answer call next} : s.calls c = some call → State.afterProvider now call answer = some next →
      StepCase cfg s (.provider c now answer) (s.moved c call next s.server s.minted)
  /-- The answer to a COMMIT is lost. -/
  | commitLost {c m call d body} : s.calls c = some call → call.await = .commit d body →
      StepCase cfg s (.commitLost c m)
        (s.moved c { call with inDoubt := true } (.markFailed d (.other m)) s.server s.minted)
  /-- A transaction in doubt commits. -/
  | lateCommit {c call} : s.calls c = some call → call.inDoubt = true → (s.server.pending (.tx c)).isSome = true →
      StepCase cfg s (.lateCommit c) { s with server := s.server.commit (.tx c) }
  /-- A transaction loses its session. -/
  | sessionLost {c} : (s.server.pending (.tx c)).isSome = true →
      StepCase cfg s (.sessionLost c) { s with server := s.server.rollback (.tx c) }
  /-- A process dies. -/
  | crashed {c call} : s.calls c = some call → call.await.isOver = false →
      StepCase cfg s (.crash c) (s.moved c call (.crashed call.await) s.server s.minted)

theorem Call.afterAuthorize_eq (now : Millis) (d : Started) (command : CreatePaymentCommand)
    (authorization : AuthorizePaymentResult) : Call.afterAuthorize now d command authorization =
      .insertPayment d (insertRecord command d now authorization) (createRecording authorization) := by
  cases authorization <;> rfl

theorem Call.afterCapture_eq (now : Millis) (d : Started) (payment : PaymentRecord)
    (captureResult : CapturePaymentResult) : Call.afterCapture now d payment captureResult =
      .updateStatusIfAuthorized d (updateInput payment now captureResult) (captureRecording captureResult) := by
  cases captureResult <;> rfl

/-- How a call goes on after a provider's answer. -/
inductive ProviderCase (now : Millis) : ProviderAnswer → Await → Await → Prop
  | authorized {d command result} : ProviderCase now (.authorized result) (.authorize d command)
      (.insertPayment d (insertRecord command d now result) (createRecording result))
  | captured {d payment provider input result} : ProviderCase now (.captured result) (.capture d payment provider input)
      (.updateStatusIfAuthorized d (updateInput payment now result) (captureRecording result))
  | authorizeThrew {d command e} : ProviderCase now (.threw e) (.authorize d command) (.markFailed d e)
  | captureThrew {d payment provider input e} :
      ProviderCase now (.threw e) (.capture d payment provider input) (.rollback d e)

theorem provider_cases {now : Millis} {call : Call} {answer : ProviderAnswer} {next : Await}
    (h : State.afterProvider now call answer = some next) : ProviderCase now answer call.await next := by
  unfold State.afterProvider at h
  split at h <;> split at h
  · rename_i hawait; cases h; rw [hawait, Call.afterAuthorize_eq]; exact .authorized
  · cases h
  · rename_i hawait; cases h; rw [hawait, Call.afterCapture_eq]; exact .captured
  · cases h
  · rename_i hawait; cases h; rw [Call.reject, hawait]; exact .authorizeThrew
  · rename_i hawait; cases h; rw [Call.reject, hawait]; exact .captureThrew
  · cases h

section Cases

variable {cfg : Config} {s s' : State} {a : Action}

theorem query_cases {c : CallId} {env : Env} (h : s.step cfg (.query c env) = some s') :
    StepCase cfg s (.query c env) s' := by
  simp only [State.step] at h
  split at h
  · cases h
  · rename_i call hcall
    split at h
    · rename_i hfresh
      split at h
      · rename_i o ho
        obtain ⟨server, hex, rfl⟩ := Option.map_eq_some_iff.1 h
        cases hmode : call.await.mode with
        | pool =>
          rw [hmode] at hex
          exact .pool hcall hfresh hmode ho hex (.inl ⟨rfl, rfl⟩)
        | opening =>
          rw [hmode] at hex
          exact .staged hcall hfresh (.inl hmode) ho (by rw [hmode]; exact hex)
        | inside =>
          rw [hmode] at hex
          exact .staged hcall hfresh (.inr hmode) ho (by rw [hmode]; exact hex)
        | commit =>
          rw [hmode] at hex
          simp only [State.execute] at hex
          split at hex
          · rename_i hopen
            cases hex
            cases hawait : call.await <;> simp only [hawait, Await.mode, reduceCtorEq] at hmode
            rw [Call.run, hawait] at ho
            cases ho
            exact .committed hcall hawait hopen
          · cases hex
        | rollback =>
          rw [hmode] at hex
          cases hex
          cases hawait : call.await <;> simp only [hawait, Await.mode, reduceCtorEq] at hmode
          rw [Call.run, hawait] at ho
          cases ho
          exact .rolledBack hcall hawait
        | idle => rw [hmode] at hex; cases hex
      · rename_i e he
        cases h
        refine .rejected hcall ?_ (.inl ⟨env, rfl, he, rfl⟩)
        intro hidle
        unfold Call.run at he
        cases hawait : call.await <;> simp [hawait, Await.mode] at hidle he
    · cases h

/-- Every step is one of the cases of `StepCase`. -/
theorem step_cases (h : s.step cfg a = some s') : StepCase cfg s a s' := by
  cases a with
  | start c command reserved =>
    simp only [State.step] at h
    split at h
    · rename_i hc; cases h; exact .started hc.1 hc.2
    · cases h
  | query c env => exact query_cases h
  | queryError c m =>
    simp only [State.step] at h
    split at h
    · cases h
    · rename_i call hcall
      split at h
      · cases h
      · rename_i hidle; cases h; exact .rejected hcall hidle (.inr ⟨m, rfl, rfl, rfl⟩)
  | queryLost c env m =>
    simp only [State.step] at h
    split at h
    · cases h
    · rename_i call hcall
      split at h
      · rename_i hc
        split at h
        · rename_i o ho
          obtain ⟨server, hex, rfl⟩ := Option.map_eq_some_iff.1 h
          exact .pool hcall hc.1 hc.2 ho hex (.inr ⟨m, rfl, rfl⟩)
        · cases h
      · cases h
  | provider c now answer =>
    simp only [State.step] at h
    split at h
    · cases h
    · rename_i call hcall
      obtain ⟨next, hnext, rfl⟩ := Option.map_eq_some_iff.1 h
      exact .answered hcall hnext
  | commitLost c m =>
    simp only [State.step] at h
    split at h
    · cases h
    · rename_i call hcall
      split at h
      · rename_i hc
        cases h
        cases hawait : call.await <;> simp only [hawait, Await.mode, reduceCtorEq, false_and] at hc
        rename_i d body
        have hreject : call.reject (.other m) = .markFailed d (.other m) := by rw [Call.reject, hawait]
        rw [hreject]
        exact .commitLost hcall hawait
      · cases h
  | lateCommit c =>
    simp only [State.step] at h
    split at h
    · cases h
    · rename_i call hcall
      split at h
      · rename_i hc; cases h; exact .lateCommit hcall hc.1 hc.2
      · cases h
  | sessionLost c =>
    simp only [State.step] at h
    split at h
    · rename_i hc; cases h; exact .sessionLost hc
    · cases h
  | crash c =>
    simp only [State.step] at h
    split at h
    · cases h
    · rename_i call hcall
      split at h
      · cases h
      · rename_i hover; cases h; exact .crashed hcall (by simpa using hover)

end Cases

/-! ## Carrying out a step -/

section Carry

variable {cfg : Config} {s : State} {c : CallId} {call : Call} {env : Env} {o : Outcome}
  {server : Server schema Session}

theorem step_pool (hc : s.calls c = some call) (hfresh : s.fresh env = true) (hmode : call.await.mode = .pool)
    (hrun : call.run cfg env s.db = .ok o) (hs : s.server.autocommit (.pool c) o.writes = some server) :
    s.step cfg (.query c env) = some (s.moved c call o.next server (env.uuid :: env.uuid' :: s.minted)) := by
  simp only [State.step, hc, hfresh, if_true, hrun, hmode, State.execute, hs]
  rfl

/-- A call reads outside a transaction. -/
theorem step_read {next : Await} (hc : s.calls c = some call) (hfresh : s.fresh env = true)
    (hmode : call.await.mode = .pool) (hrun : call.run cfg env s.db = .ok ⟨[], [], next⟩) :
    s.step cfg (.query c env) = some (s.moved c call next s.server (env.uuid :: env.uuid' :: s.minted)) :=
  step_pool hc hfresh hmode hrun Server.autocommit_nil

theorem moved_calls {next : Await} {minted : List Uuid} :
    (s.moved c call next server minted).calls c = some { call with await := next } :=
  Function.update_self ..

end Carry

/-! ## What a step leaves alone -/

theorem opened_undisturbed {s : State} {c : CallId} {mode : Mode} {t : Session} (ht : t ≠ .tx c) :
    Server.Undisturbed t s.server (s.opened c mode) := by
  unfold State.opened
  split
  · exact .of_begin ht
  · exact .refl _ _

theorem abandon_undisturbed {server : Server schema Session} {c : CallId} {mode : Mode} {t : Session} (ht : t ≠ .tx c) :
    Server.Undisturbed t server (State.abandon server c mode) := by
  unfold State.abandon
  split
  · exact .of_rollback ht
  · exact .of_rollback ht
  all_goals exact .refl _ _

namespace StepCase

variable {cfg : Config} {s s' : State} {a : Action} {c : CallId}

/-- A step concerns one call. -/
theorem calls_of_ne (h : StepCase cfg s a s') (hc : c ≠ a.call) : s'.calls c = s.calls c := by
  cases h with
  | started | staged | committed | rolledBack | answered | commitLost | crashed =>
    exact Function.update_of_ne hc _ _
  | lateCommit | sessionLost => rfl
  | pool _ _ _ _ _ ha => rcases ha with ⟨rfl, -⟩ | ⟨m, rfl, -⟩ <;> exact Function.update_of_ne hc _ _
  | rejected _ _ ha => rcases ha with ⟨env, rfl, -⟩ | ⟨m, rfl, -⟩ <;> exact Function.update_of_ne hc _ _

/-- What the transaction of one call has locked stays as it is while another call goes on. -/
theorem undisturbed (h : StepCase cfg s a s') (hc : c ≠ a.call) : Server.Undisturbed (.tx c) s.server s'.server := by
  have htx : ∀ {c' : CallId}, c ≠ c' → Session.tx c ≠ Session.tx c' := fun hne he => hne (Session.tx.inj he)
  cases h with
  | started | answered | commitLost | crashed => exact .refl _ _
  | @pool _ c' _ _ _ _ _ _ _ _ _ hs =>
    have hne : Session.tx c ≠ Session.pool c' := nofun
    exact .of_autocommit hne hs
  | @staged c' env call o server _ _ _ _ hs =>
    exact (opened_undisturbed (htx hc)).trans (.of_stage (htx hc) hs)
  | committed | lateCommit => exact .of_commit (htx hc)
  | rolledBack | sessionLost => exact .of_rollback (htx hc)
  | @rejected _ c' call _ _ _ _ ha =>
    have hne : c ≠ c' := by rcases ha with ⟨env, rfl, -⟩ | ⟨m, rfl, -⟩ <;> exact hc
    exact abandon_undisturbed (htx hne)

theorem minted (h : StepCase cfg s a s') : ∀ u ∈ s.minted, u ∈ s'.minted := by
  intro u hu
  cases h with
  | started => exact List.mem_cons_of_mem _ hu
  | pool | staged | committed | rolledBack => exact List.mem_cons_of_mem _ (List.mem_cons_of_mem _ hu)
  | answered | commitLost | lateCommit | sessionLost | crashed => exact hu
  | rejected _ _ ha =>
    rcases ha with ⟨env, -, -, rfl⟩ | ⟨m, -, -, rfl⟩
    · exact List.mem_cons_of_mem _ (List.mem_cons_of_mem _ hu)
    · exact hu

/-- What holds of every write, when it holds of those of the statement that runs. -/
theorem holds {P : Write → Prop} (h : StepCase cfg s a s') (hs : s.server.Holds P)
    (hrun : ∀ c env call o, s.calls c = some call → (a = .query c env ∨ ∃ m, a = .queryLost c env m) →
      call.run cfg env s.db = .ok o → ∀ w ∈ o.writes, P w) : s'.server.Holds P := by
  cases h with
  | started | answered | commitLost | crashed => exact hs
  | pool hc _ _ ho hserver ha =>
    refine hs.autocommit hserver (hrun _ _ _ _ hc ?_ ho)
    exact ha.imp And.left fun ⟨m, ha, _⟩ => ⟨m, ha⟩
  | @staged c env call o server hc _ _ ho hserver =>
    have hopened : (s.opened c call.await.mode).Holds P := by
      unfold State.opened
      split
      · exact hs.begin
      · exact hs
    exact hopened.stage hserver (hrun _ _ _ _ hc (.inl rfl) ho)
  | committed | lateCommit => exact hs.commit
  | rolledBack | sessionLost => exact hs.rollback
  | @rejected _ c call e minted =>
    change (State.abandon s.server c call.await.mode).Holds P
    unfold State.abandon
    split
    · exact hs.rollback
    · exact hs.rollback
    all_goals exact hs

end StepCase

/-! ## What a step does to its call -/

/-- How an action lets the call `c` go on from `call` to an await over a server. -/
inductive CallCase (cfg : Config) (s : State) (c : CallId) (call : Call) : Action → Await → Server schema Session → Prop
  | answered {env o server} : s.fresh env = true → call.await.mode = .pool → call.run cfg env s.db = .ok o →
      s.server.autocommit (.pool c) o.writes = some server → CallCase cfg s c call (.query c env) o.next server
  | answerLost {env o m server} : s.fresh env = true → call.await.mode = .pool → call.run cfg env s.db = .ok o →
      s.server.autocommit (.pool c) o.writes = some server →
      CallCase cfg s c call (.queryLost c env m) (call.reject (.other m)) server
  | staged {env o server} : s.fresh env = true → call.await.mode = .opening ∨ call.await.mode = .inside →
      call.run cfg env s.db = .ok o → (s.opened c call.await.mode).stage (.tx c) o.writes o.locks = some server →
      CallCase cfg s c call (.query c env) o.next server
  | committed {env d body} : call.await = .commit d body → (s.server.pending (.tx c)).isSome = true →
      CallCase cfg s c call (.query c env) (.returned call.command.statusCode body) (s.server.commit (.tx c))
  | rolledBack {env d error} : call.await = .rollback d error →
      CallCase cfg s c call (.query c env) (.markFailed d error) (s.server.rollback (.tx c))
  | failed {env e} : call.await.mode ≠ .idle → call.run cfg env s.db = .error e →
      CallCase cfg s c call (.query c env) (call.reject e) (State.abandon s.server c call.await.mode)
  | unanswered {m} : call.await.mode ≠ .idle →
      CallCase cfg s c call (.queryError c m) (call.reject (.other m)) (State.abandon s.server c call.await.mode)
  | provider {now answer next} : ProviderCase now answer call.await next →
      CallCase cfg s c call (.provider c now answer) next s.server
  | commitLost {m d body} : call.await = .commit d body →
      CallCase cfg s c call (.commitLost c m) (.markFailed d (.other m)) s.server
  | lateCommit : call.inDoubt = true → (s.server.pending (.tx c)).isSome = true →
      CallCase cfg s c call (.lateCommit c) call.await (s.server.commit (.tx c))
  | sessionLost : CallCase cfg s c call (.sessionLost c) call.await (s.server.rollback (.tx c))
  | crashed : call.await.isOver = false → CallCase cfg s c call (.crash c) (.crashed call.await) s.server

/-- A step either leaves a call as it is, or is one of the cases of `CallCase`. -/
theorem StepCase.call_cases {cfg : Config} {s s' : State} {a : Action} {c : CallId} {call call' : Call}
    (h : StepCase cfg s a s') (hc : s.calls c = some call) (hc' : s'.calls c = some call') :
    call' = call ∧ c ≠ a.call ∨ c = a.call ∧ CallCase cfg s c call a call'.await s'.server := by
  by_cases hca : c = a.call
  swap
  · rw [h.calls_of_ne hca, hc] at hc'
    exact .inl ⟨(Option.some.inj hc').symm, hca⟩
  refine .inr ⟨hca, ?_⟩
  subst hca
  have hsame : ∀ {call₀ : Call}, s.calls a.call = some call₀ → call = call₀ :=
    fun h₀ => Option.some.inj (hc.symm.trans h₀)
  have hmoved : ∀ {c' : CallId} {new : Call}, a.call = c' → s'.calls = Function.update s.calls c' (some new) →
      call'.await = new.await := by
    rintro _ new rfl hcalls
    rw [hcalls, Function.update_self] at hc'
    rw [Option.some.inj hc']
  cases h with
  | started hnone => rw [Action.call, hnone] at hc; cases hc
  | @pool a c env call₀ o next server hc₀ hfresh hmode hrun hs ha =>
    rcases ha with ⟨rfl, rfl⟩ | ⟨m, rfl, rfl⟩
    · obtain rfl := hsame hc₀
      rw [hmoved rfl rfl]; exact .answered hfresh hmode hrun hs
    · obtain rfl := hsame hc₀
      rw [hmoved rfl rfl]; exact .answerLost hfresh hmode hrun hs
  | staged hc₀ hfresh hmode hrun hs =>
    obtain rfl := hsame hc₀
    rw [hmoved rfl rfl]; exact .staged hfresh hmode hrun hs
  | committed hc₀ hawait hopen =>
    obtain rfl := hsame hc₀
    rw [hmoved rfl rfl]; exact .committed hawait hopen
  | rolledBack hc₀ hawait =>
    obtain rfl := hsame hc₀
    rw [hmoved rfl rfl]; exact .rolledBack hawait
  | @rejected a c call₀ e minted hc₀ hmode ha =>
    rcases ha with ⟨env, rfl, hrun, -⟩ | ⟨m, rfl, rfl, -⟩
    · obtain rfl := hsame hc₀
      rw [hmoved rfl rfl]; exact .failed hmode hrun
    · obtain rfl := hsame hc₀
      rw [hmoved rfl rfl]; exact .unanswered hmode
  | answered hc₀ hnext =>
    obtain rfl := hsame hc₀
    rw [hmoved rfl rfl]; exact .provider (provider_cases hnext)
  | commitLost hc₀ hawait =>
    obtain rfl := hsame hc₀
    rw [hmoved rfl rfl]; exact .commitLost hawait
  | lateCommit hc₀ hdoubt hopen =>
    obtain rfl := hsame hc₀
    obtain rfl := Option.some.inj (hc.symm.trans hc')
    exact .lateCommit hdoubt hopen
  | sessionLost =>
    obtain rfl := Option.some.inj (hc.symm.trans hc')
    exact .sessionLost
  | crashed hc₀ hover =>
    obtain rfl := hsame hc₀
    rw [hmoved rfl rfl]; exact .crashed hover

end PaymentOrchestration
