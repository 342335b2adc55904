/-
How often a worker publishes an event in vain. Each failed attempt is owed to the event's `attempts` column until its
transaction commits; `attempts_bounded` says that nothing stays owed as long as no later event of a batch is refused
before it is sent, and `not_attempts_bounded` that such a refusal makes a worker forget the attempts before it.
-/
import PaymentOrchestration.WorkerInvariant

namespace PaymentOrchestration

open Lib OutboxEventsDataAccess

namespace OutboxPublisherWorker

/-! ## Attempts -/

/-- The value of the column `attempts`, 0 where there is no row. -/
def attemptsIn (table : OutboxEvents) (id : Uuid) : Nat := (table.get? id).elim 0 (·.attempts)

def isFailed : OutboxWrite → Bool
  | .publishFailed _ => true
  | _ => false

namespace State

variable (s : State)

/-- How often the event was handed to `channel.publish` and failed. -/
def failures (id : Uuid) : Nat := s.handed.countP fun h => h.1.id = id && h.2.isSome

/-- What the open transaction of the worker has recorded for the event. -/
def recorded (w : WorkerId) (id : Uuid) : Nat :=
  match (s.workers w).tx? with
  | some x => ((s.server.pending (.poll x.id)).getD []).countP fun v => isFailed v && v.row.id = id
  | none => 0

end State

/-- The failed attempt the worker is about to record. -/
def owed (id : Uuid) : Await → Nat
  | .markPublishFailed _ event _ _ => if event.id = id then 1 else 0
  | _ => 0

/-! ## Runs -/

/-- The statement is not refused. -/
def succeeds : Option (Tx × Except Err Executed) → Bool
  | some (_, .error _) => false
  | _ => true

/-- The worker `w` is the only one, its process lives on, and every SQL statement and COMMIT succeeds. -/
def faultless (cfg : WorkerConfig) (w : WorkerId) (s : State) : Action → Bool
  | .insertPending _ _ => true
  | .poll v | .channelObtained v | .channelRejected v | .begun v _ | .published v _ _ => v = w
  | .query v => v = w && succeeds (s.statement cfg (s.workers v))
  | .queryError _ | .endLost _ | .lateCommit _ | .sessionLost _ | .crash _ => false

/-- A `publish` is refused before it is sent only in a batch of which no event has failed before. -/
def refusedFirst (s : State) : Action → Bool
  | .published w _ (some (.notAttempted _)) =>
    match s.workers w with
    | .publish x _ _ => ((s.server.pending (.poll x.id)).getD []).all fun v => !isFailed v
    | _ => true
  | _ => true

variable {cfg : WorkerConfig}

/-- A failure is recorded within a transaction. -/
theorem owed_of_tx_none {await : Await} (h : await.tx? = none) (id : Uuid) : owed id await = 0 := by
  cases await with
  | markPublishFailed => cases h
  | idle | getConfirmChannel | transaction | fetchPendingBatch | publish | markPublished | commit | rollback
  | crashed => rfl

/-! ## The rows of a transaction -/

section Rows

variable {table : OutboxEvents} {ws : List OutboxWrite} {v : OutboxWrite} {r : OutboxEventRecord} {id : Uuid} {M : Nat}

theorem attemptsIn_of_get? (h : table.get? id = some r) : attemptsIn table id = r.attempts := by
  rw [attemptsIn, h]; rfl

/-- A mark counts one failed attempt, or none. -/
theorem attempts_of_marks (h : v.Marks M r) : v.row.attempts = r.attempts + (isFailed v).toNat := by
  rcases h.cases with ⟨now, rfl⟩ | ⟨r', rfl, hattempts, -⟩
  · rfl
  · exact hattempts

/-- What the marks of a transaction add to the attempts. -/
theorem attemptsIn_applyAll (h : Outcomes M table ws) :
    attemptsIn (outboxSchema.applyAll table ws) id =
      attemptsIn table id + ws.countP fun v => isFailed v && v.row.id = id := by
  induction ws generalizing table with
  | nil => rfl
  | cons v ws ih =>
    have hnodup := h.nodup
    rw [List.map_cons, List.nodup_cons] at hnodup
    obtain ⟨r, hr, hm⟩ := h.marks v List.mem_cons_self
    have htail : Outcomes M (v.apply table) ws := by
      refine ⟨hnodup.2, fun u hu => ?_⟩
      obtain ⟨q, hq, hmq⟩ := h.marks u (List.mem_cons_of_mem _ hu)
      refine ⟨q, (outboxSchema.row_apply table fun he => ?_).trans hq, hmq⟩
      exact hnodup.1 (List.mem_map.2 ⟨u, hu, he.symm⟩)
    rw [Schema.applyAll_cons]
    refine (ih htail).trans ?_
    rw [List.countP_cons]
    by_cases hid : v.row.id = id
    · subst hid
      rw [attemptsIn_of_get? (Outcomes.apply_get? hr hm), attemptsIn_of_get? hr, attempts_of_marks hm]
      cases isFailed v with
      | false => simp
      | true => simp; omega
    · have hsame : attemptsIn (v.apply table) id = attemptsIn table id := by
        unfold attemptsIn
        rw [show (v.apply table).get? id = table.get? id from outboxSchema.row_apply table hid]
      rw [hsame]
      simp [hid]

/-- The attempts stay below the limit. -/
theorem attemptsIn_le (htable : ∀ id r, table.get? id = some r → r.WellFormed M) (id : Uuid) :
    attemptsIn table id ≤ M := by
  unfold attemptsIn
  cases hr : table.get? id with
  | none => exact Nat.zero_le M
  | some r =>
    have hwf := htable id r hr
    simp only [Option.elim]
    cases hs : r.status with
    | pending => have := (hwf.pending hs).2.1; omega
    | failed => have := (hwf.failed hs).1; omega
    | published => have := (hwf.published hs).2; omega

end Rows

/-! ## Counting -/

/-- A run of the worker `w` alone: each failure is in the table, in the open transaction, or about to be recorded. -/
structure Counted (w : WorkerId) (s : State) : Prop where
  opened : ∀ x, (s.workers w).tx? = some x → s.isOpen x.id
  aborted : ∀ x, s.workers w = .rollback x → ∀ id, s.recorded w id = 0
  count : ∀ id, s.failures id = attemptsIn s.table id + s.recorded w id + owed id (s.workers w)

namespace Counted

variable {w : WorkerId} {s s' : State} {a : Action}

theorem init : Counted w State.initial :=
  ⟨fun _ h => (by cases h), fun _ h => (by cases h), fun _ => rfl⟩

/-- A step of the worker that neither writes nor learns of a failure. -/
theorem of_same (h : Counted w s) (htx : (s'.workers w).tx? = (s.workers w).tx?)
    (hpending : s'.server.pending = s.server.pending)
    (haborted : ∀ x, s'.workers w = .rollback x → ∀ id, s.recorded w id = 0)
    (hfailures : ∀ id, s'.failures id = s.failures id)
    (hattempts : ∀ id, attemptsIn s'.table id = attemptsIn s.table id)
    (howed : ∀ id, owed id (s'.workers w) = owed id (s.workers w)) : Counted w s' := by
  have hrecorded : ∀ id, s'.recorded w id = s.recorded w id := by
    intro id
    unfold State.recorded
    rw [htx, hpending]
  refine ⟨fun x hx => ?_, fun x hx id => ?_, fun id => ?_⟩
  · rw [State.isOpen, hpending]; exact h.opened x (htx ▸ hx)
  · rw [hrecorded]; exact haborted x hx id
  · rw [hfailures, hattempts, hrecorded, howed]; exact h.count id

/-- The worker holds no transaction. -/
theorem recorded_none (h : (s.workers w).tx? = none) (id : Uuid) : s.recorded w id = 0 := by
  rw [State.recorded, h]

theorem recorded_some {x : Tx} {ws : List OutboxWrite} (h : (s.workers w).tx? = some x)
    (hws : s.server.pending (.poll x.id) = some ws) (id : Uuid) :
    s.recorded w id = ws.countP fun v => isFailed v && v.row.id = id := by
  rw [State.recorded, h]; simp only [hws, Option.getD_some]

@[simp] theorem owed_forEvents (x : Tx) (events : List OutboxEventRecord) (id : Uuid) :
    owed id (forEvents x events) = 0 := by
  cases events <;> rfl

theorem forEvents_ne_rollback {x y : Tx} {events : List OutboxEventRecord} : forEvents x events ≠ .rollback y := by
  cases events <;> nofun

/-- The statement in hand writes a failure if one is owed. -/
theorem owed_of_marking {x : Tx} {event : OutboxEventRecord} {events : List OutboxEventRecord} {await : Await}
    {ws : List OutboxWrite} {u : OutboxWrite} (hm : Marking s x event events await ws) (hws : ws = [u])
    (hid : u.row.id = event.id) (id : Uuid) : owed id await = [u].countP fun v => isFailed v && v.row.id = id := by
  rw [List.countP_singleton, hid]
  cases hm with
  | published =>
    obtain ⟨r, -, rfl⟩ := List.map_eq_singleton_iff.1 hws
    rfl
  | publishFailed =>
    obtain ⟨r, -, rfl⟩ := List.map_eq_singleton_iff.1 hws
    simp [owed, isFailed]

theorem step (h : Counted w s) (hi : Inv cfg s) (hfault : faultless cfg w s a = true) (hfirst : refusedFirst s a = true)
    (hs : s.step cfg a = some s') : Counted w s' := by
  cases step_cases hs with
  | @inserted event now r server hr hserver =>
    obtain ⟨-, hc, -, -, hp⟩ := Server.autocommit_eq_some hserver
    refine h.of_same rfl hp h.aborted (fun _ => rfl) (fun id => ?_) fun _ => rfl
    have hcommitted : server.committed = s.table.insert r := hc
    unfold attemptsIn
    simp only [State.table, hcommitted]
    by_cases hid : r.id = id
    · subst hid
      rw [Table.get?_insert_self hr.new, hr.new]
      exact hr.attempts
    · rw [Table.get?_insert_of_ne hid]
  | @moved v _ await await' hv hm =>
    cases hm with
    | polled | channelObtained | channelRejected =>
      obtain rfl : v = w := by simpa [faultless] using hfault
      exact h.of_same (by rw [hv, goOn_self]; rfl) rfl (fun x hx => by rw [goOn_self] at hx; cases hx) (fun _ => rfl)
        (fun _ => rfl) fun _ => by rw [hv, goOn_self]; rfl
    | refused hstatement htx =>
      rw [← hv] at hstatement
      simp [faultless, hstatement, succeeds] at hfault
    | @notAttempted x event events now m =>
      obtain rfl : v = w := by simpa [faultless] using hfault
      refine h.of_same (by rw [hv, goOn_self]; rfl) rfl (fun _ _ id => ?_) (fun _ => rfl) (fun _ => rfl)
        fun _ => by rw [hv, goOn_self]; rfl
      obtain ⟨ws, hws⟩ := Option.isSome_iff_exists.1 (h.opened x (by rw [hv]; rfl))
      rw [recorded_some (by rw [hv]; rfl) hws, List.countP_eq_zero]
      intro u hu hfailed
      simp only [refusedFirst, hv, hws, Option.getD_some, List.all_eq_true] at hfirst
      have := hfirst u hu
      simp_all
    | notBegun | queryError | rollbackLost | crashed => cases hfault
  | @begun v x hv hx =>
    obtain rfl : v = w := by simpa [faultless] using hfault
    have hpending : (s.server.begin (.poll x.id)).pending (.poll x.id) = some [] := by
      rw [Server.begin_pending (hi.fresh hx), Function.update_self]
    refine ⟨fun y hy => ?_, fun y hy => ?_, fun id => ?_⟩
    · simp only [goOn_self, Await.tx?, Option.some.injEq] at hy
      subst hy; simp only [State.isOpen, hpending]; rfl
    · simp only [goOn_self] at hy; cases hy
    · have hcount := h.count id
      rw [hv, recorded_none (by rw [hv]; rfl)] at hcount
      rw [recorded_some (x := x) (by simp [Await.tx?]) hpending]
      simp only [State.failures, State.table, Server.begin_committed, goOn_self, goOn_handed] at hcount ⊢
      exact hcount
  | @fetched v x events server hv hfetched hserver =>
    obtain rfl : v = w := by simp [faultless] at hfault; exact hfault.1
    obtain ⟨ws₀, hp₀, -, hc, -, hp, -⟩ := Server.stage_eq_some hserver
    have hsame : server.pending = s.server.pending := by
      rw [hp, List.append_nil, ← hp₀, Function.update_eq_self]
    refine h.of_same ?_ hsame ?_ (fun _ => rfl) (fun id => by simp only [State.table, hc]) fun _ => ?_
    · rw [goOn_self, tx?_forEvents, hv]; rfl
    · exact fun y hy => absurd (by simpa using hy) forEvents_ne_rollback
    · rw [goOn_self, owed_forEvents, hv]; rfl
  | @marked v x event events await ws server hv hm hserver =>
    obtain rfl : v = w := by simp [faultless] at hfault; exact hfault.1
    obtain ⟨ws₀, hp₀, -, hc, -, hp, -⟩ := Server.stage_eq_some hserver
    have htx : (s.workers v).tx? = some x := by rw [hv]; cases hm <;> rfl
    have hpending : server.pending (.poll x.id) = some (ws₀ ++ ws) := by rw [hp, Function.update_self]
    obtain ⟨u, rfl, hid, -⟩ := hi.marks hv (by rw [State.isOpen, hp₀]; rfl) hm
    refine ⟨fun y hy => ?_, fun y hy => absurd (by simpa using hy) forEvents_ne_rollback, fun id => ?_⟩
    · simp only [goOn_self, tx?_forEvents, Option.some.injEq] at hy
      subst hy; simp only [State.isOpen, hpending]; rfl
    · -- the failure in hand is no longer owed, but recorded
      have hcount := h.count id
      rw [recorded_some htx hp₀] at hcount
      rw [recorded_some (x := x) (by simp) hpending, List.countP_append]
      have howed := owed_of_marking hm rfl hid id
      rw [hv] at hcount
      simp only [State.failures, State.table, hc, goOn_self, goOn_handed, owed_forEvents] at hcount ⊢
      omega
  | @published v x event events now hv =>
    obtain rfl : v = w := by simpa [faultless] using hfault
    refine h.of_same ?_ rfl ?_ (fun id => ?_) (fun _ => rfl) fun _ => ?_
    · simp only [goOn_self, hv, Await.tx?]
    · exact fun y hy => by simp only [goOn_self] at hy; cases hy
    · simp [State.failures, List.countP_append]
    · simp [hv, owed]
  | @failed v x event events now error hv =>
    obtain rfl : v = w := by simpa [faultless] using hfault
    refine ⟨fun y hy => ?_, fun y hy => ?_, fun id => ?_⟩
    · simp only [goOn_self, Await.tx?, Option.some.injEq] at hy
      subst hy; exact h.opened x (by rw [hv]; rfl)
    · simp only [goOn_self] at hy; cases hy
    · have hcount := h.count id
      simp only [State.failures, State.recorded, State.table, List.countP_append, List.countP_singleton, goOn_self,
        goOn_server, hv, Await.tx?, owed, Option.isSome_some, Bool.and_true, decide_eq_true_eq] at hcount ⊢
      omega
  | @committed v x hv hopen =>
    obtain rfl : v = w := by simp [faultless] at hfault; exact hfault.1
    obtain ⟨ws, hws⟩ := Option.isSome_iff_exists.1 hopen
    refine ⟨fun y hy => ?_, fun y hy => ?_, fun id => ?_⟩
    · simp only [goOn_self] at hy; cases hy
    · simp only [goOn_self] at hy; cases hy
    · have hcount := h.count id
      rw [recorded_some (by rw [hv]; rfl) hws, hv, ← attemptsIn_applyAll (hi.tables.outcomes _ ws hws)] at hcount
      rw [recorded_none (by simp [Await.tx?])]
      simp only [State.failures, State.table, Server.commit_committed hws, goOn_self] at hcount ⊢
      exact hcount
  | @rolledBack v x _ hcase hends =>
    have htx := tx?_of_ends hends
    rcases hcase with ⟨hv, rfl⟩ | rfl
    · obtain rfl : v = w := by simp [faultless] at hfault; exact hfault.1
      refine ⟨fun y hy => ?_, fun y hy => ?_, fun id => ?_⟩
      · simp only [goOn_self] at hy; cases hy
      · simp only [goOn_self] at hy; cases hy
      · -- the transaction that is dropped has recorded no failure
        have hcount := h.count id
        rw [h.aborted _ hv, hv] at hcount
        rw [recorded_none (by simp [Await.tx?])]
        simp only [State.failures, State.table, Server.rollback_committed, goOn_self] at hcount ⊢
        exact hcount
    · cases hfault
  | inDoubt _ hcase => rcases hcase with ⟨rfl, -⟩ | ⟨rfl, -⟩ <;> cases hfault
  | lateCommitted | sessionLost => cases hfault

/-- The worker's transaction sees the event whose failure it is about to record as it has fetched it. -/
theorem le_maxAttempts (h : Counted w s) (hi : Inv cfg s) (id : Uuid) : s.failures id ≤ cfg.maxAttempts := by
  rw [h.count id]
  cases htx : (s.workers w).tx? with
  | none =>
    rw [recorded_none htx, owed_of_tx_none htx]
    exact attemptsIn_le hi.tables.wellFormed id
  | some x =>
    obtain ⟨ws, hws⟩ := Option.isSome_iff_exists.1 (h.opened x htx)
    rw [recorded_some htx hws, ← attemptsIn_applyAll (hi.tables.outcomes _ ws hws)]
    have hle := attemptsIn_le (fun id r => hi.tables.view_wellFormed hws) id
    cases hw : s.workers w with
    | markPublishFailed y event input events =>
      by_cases hid : event.id = id
      · subst hid
        obtain rfl : y = x := by rw [hw] at htx; exact Option.some.inj htx
        have hbatch := hi.batch w y htx (h.opened y htx)
        rw [hw] at hbatch
        obtain ⟨hrow, hpending⟩ := hbatch.row event List.mem_cons_self
        have hview := (Outcomes.get?_of_ne (hbatch.unmarked event List.mem_cons_self ws hws)).trans hrow
        -- the row is still pending, so that one more attempt is within the limit
        have hlt := ((hi.tables.wellFormed _ _ hrow).pending hpending).2.1
        rw [attemptsIn_of_get? hview, owed, if_pos rfl]
        exact hlt
      · rw [owed, if_neg hid]; exact hle
    | idle | getConfirmChannel | transaction | fetchPendingBatch | publish | markPublished | commit | rollback
    | crashed => exact hle

end Counted

/-! ## The bound -/

/-- No event has failed more often than the limit allows, and while the worker has no transaction the table counts
all of the failures. -/
def Bounded (cfg : WorkerConfig) (w : WorkerId) (s : State) : Prop :=
  (∀ id, s.failures id ≤ cfg.maxAttempts) ∧ ((s.workers w).tx? = none → ∀ id, attemptsIn s.table id = s.failures id)

/-- A single worker in a faultless environment publishes each event at most `maxAttempts` times in vain, and keeps
count, as long as no `publish` is refused before it is sent after another one of its batch has failed. -/
theorem attempts_bounded {w : WorkerId} {s : State}
    (h : (system cfg).Reach (fun s a => (faultless cfg w s a && refusedFirst s a) = true) s) : Bounded cfg w s := by
  have hinv : Inv cfg s ∧ Counted w s := by
    refine h.invariant (P := fun s => Inv cfg s ∧ Counted w s) ⟨Inv.init, Counted.init⟩ ?_
    rintro s a s' ⟨hi, hc⟩ hok hs
    rw [Bool.and_eq_true] at hok
    exact ⟨(hi.step hs).1, hc.step hi hok.1 hok.2 hs⟩
  obtain ⟨hi, hc⟩ := hinv
  refine ⟨hc.le_maxAttempts hi, fun htx id => ?_⟩
  have hcount := hc.count id
  rw [Counted.recorded_none htx, owed_of_tx_none htx] at hcount
  exact hcount.symm

namespace Sample

def lostChannel : Option PublishError := some (RabbitMqPublisher.notAttempted "Channel closed")

/-- Publishing the first event of a batch fails, and the channel is gone before the second. -/
def forgottenRun : List Action :=
  [.insertPending authorized 10, .insertPending captured 20] ++ iteration 0 1 [nacked, lostChannel] ++
    iteration 1 2 [nacked, lostChannel] ++ iteration 2 3 [nacked, lostChannel]

def forgotten : State :=
  ((system config).runWhile (faultless config 0) (system config).init forgottenRun).get (by decide +kernel)

/-- The channel is gone before the first event of a batch; later the first one fails. -/
def recordedRun : List Action :=
  [.insertPending authorized 10, .insertPending captured 20] ++ iteration 0 1 [lostChannel] ++
    iteration 1 2 [nacked, none] ++ [.query 0]

def recorded : State :=
  ((system config).runWhile (fun s a => faultless config 0 s a && refusedFirst s a)
    (system config).init recordedRun).get (by decide +kernel)

end Sample

theorem attempts_bounded_recorded : Bounded Sample.config 0 Sample.recorded :=
  attempts_bounded (System.reach_of_runWhile (Option.some_get _).symm)

/-- A refused `publish` takes the failures before it along: an event can fail a third time that is given up after
two attempts, and the table has counted none of them. -/
theorem not_attempts_bounded :
    (system Sample.config).Reach (fun s a => faultless Sample.config 0 s a = true) Sample.forgotten ∧
      Sample.forgotten.failures Sample.authorized.id = 3 ∧ Sample.config.maxAttempts = 2 ∧
      attemptsIn Sample.forgotten.table Sample.authorized.id = 0 ∧ (Sample.forgotten.workers 0).tx? = none ∧
      ¬ Bounded Sample.config 0 Sample.forgotten := by
  have hfailures : Sample.forgotten.failures Sample.authorized.id = 3 := by decide +kernel
  refine ⟨System.reach_of_runWhile (Option.some_get _).symm, hfailures, rfl, by decide +kernel,
    by decide +kernel, fun h => ?_⟩
  have hle := h.1 Sample.authorized.id
  rw [hfailures] at hle
  exact absurd hle (by decide)

end OutboxPublisherWorker

end PaymentOrchestration
