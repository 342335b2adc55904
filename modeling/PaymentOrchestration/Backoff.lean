/-
When a failed event is tried again. The delay after a failure doubles with every attempt up to a maximum,
and is recorded in next_retry_at, which the next fetch of the row has to reach: whatever workers do and
however they fail, no event is handed to the broker again before the delay of its last failure is over.
-/
import PaymentOrchestration.WorkerHistory

namespace PaymentOrchestration

open Lib OutboxEventsDataAccess

namespace OutboxPublisherWorker

variable {cfg : WorkerConfig}

/-! ## Failures of a run -/

/-- In the run `as` publishing the event failed at `f`, when `k` failures of it had been counted. -/
def FailedAt (cfg : WorkerConfig) (as : List Action) (id : Uuid) (k : Nat) (f : Millis) : Prop :=
  ∃ pre post w error s x event events, as = pre ++ .published w f (some (.other error)) :: post ∧
    (system cfg).Trace System.anyStep (system cfg).init pre s ∧ s.workers w = .publish x event events ∧ event.id = id ∧
    event.attempts = k

/-- A pending row that has failed is to be retried when the delay after its last failure is over. -/
def Timed (cfg : WorkerConfig) (as : List Action) (r : OutboxEventRecord) : Prop :=
  ∀ k, r.attempts = k + 1 → r.status = .pending →
    ∃ f, FailedAt cfg as r.id k f ∧ r.nextRetryAt = some (ofDate (f + retryDelayFor cfg k))

section Timed

variable {as : List Action} {r : OutboxEventRecord} {id : Uuid} {k : Nat} {f : Millis}

theorem FailedAt.append (h : FailedAt cfg as id k f) (bs : List Action) : FailedAt cfg (as ++ bs) id k f := by
  obtain ⟨pre, post, w, error, s, x, event, events, rfl, hrest⟩ := h
  exact ⟨pre, post ++ bs, w, error, s, x, event, events, by simp, hrest⟩

theorem Timed.snoc (h : Timed cfg as r) (a : Action) : Timed cfg (as ++ [a]) r := by
  intro k hk hs
  obtain ⟨f, hf, hnext⟩ := h k hk hs
  exact ⟨f, hf.append [a], hnext⟩

/-- The delay of a date that can be stored. -/
theorem newDate_int {n : Int} {t : Millis} (h : IdempotencyService.newDate n = some t) : t = n := by
  unfold IdempotencyService.newDate at h
  split at h
  · cases h
    simp
  · cases h

end Timed

/-- The next attempt that a statement records. -/
theorem nextRetryAt_of_markPublishFailed {table : OutboxEvents} {input : MarkPublishFailedInput} {r : OutboxEventRecord}
    (h : markPublishFailed table input = .ok (some r)) (hs : r.status = .pending) :
    ∃ t, input.nextRetryAt = some t ∧ r.nextRetryAt = some (ofDate t) := by
  obtain ⟨maxAttempts, -, h⟩ := ok_of_bind h
  obtain ⟨nextRetryAt, hnext, h⟩ := ok_of_bind h
  obtain ⟨lastError, -, h⟩ := ok_of_bind h
  split at h
  · cases h
  obtain ⟨attempts, -, h⟩ := ok_of_bind h
  cases h
  unfold dateColumn at hnext
  split at hnext
  · rename_i t ht
    cases hnext
    refine ⟨t, ht, ?_⟩
    simp only at hs ⊢
    split at hs
    · cases hs
    · rename_i hmore
      rw [if_neg hmore]
  · cases hnext

/-! ## The invariant -/

/-- What holds after the actions `as`. -/
structure Backoff (cfg : WorkerConfig) (as : List Action) (s : State) : Prop where
  rows : ∀ r ∈ s.table.rows, Timed cfg as r
  batch : ∀ w, ∀ e ∈ (s.workers w).batch, Timed cfg as e ∧ ∀ x, (s.workers w).tx? = some x → eligible x.now e = true
  failing : ∀ w x event input events, s.workers w = .markPublishFailed x event input events →
    ∃ f, FailedAt cfg as event.id event.attempts f ∧
      input.nextRetryAt = IdempotencyService.newDate (f + retryDelayFor cfg event.attempts)
  pending : ∀ t ws, s.server.pending (.poll t) = some ws → ∀ v ∈ ws, Timed cfg as v.row

namespace Backoff

variable {s s' : State} {a : Action} {as : List Action} {w : WorkerId} {x : Tx} {event : OutboxEventRecord}
  {events : List OutboxEventRecord} {await : Await}

theorem init : Backoff cfg [] State.initial where
  rows := List.forall_mem_nil _
  batch := fun _ => List.forall_mem_nil _
  failing := fun _ _ _ _ _ h => by cases h
  pending := fun _ _ h => by cases h

/-- A worker whose batch was due when its transaction began, and that has no failure to record. -/
structure Due (cfg : WorkerConfig) (as : List Action) (await : Await) : Prop where
  batch : ∀ e ∈ await.batch, Timed cfg as e ∧ ∀ x, await.tx? = some x → eligible x.now e = true
  unmarked : ∀ x event input events, await ≠ .markPublishFailed x event input events

theorem Due.of_nil (h : await.batch = []) : Due cfg as await := by
  refine ⟨by rw [h]; exact List.forall_mem_nil _, ?_⟩
  rintro x event input events rfl
  cases h

theorem Due.idle : Due cfg as .idle := .of_nil rfl

theorem Due.forEvents (h : ∀ e ∈ events, Timed cfg as e ∧ eligible x.now e = true) :
    Due cfg as (forEvents x events) := by
  refine ⟨fun e he => ?_, fun _ _ _ _ he => ?_⟩
  · rw [batch_forEvents] at he
    refine ⟨(h e he).1, fun y hy => ?_⟩
    rw [tx?_forEvents] at hy
    cases hy
    exact (h e he).2
  · cases events <;> cases he

/-- A step in which no attempt fails. -/
theorem of_same (h : Backoff cfg as s) (hrows : ∀ r ∈ s'.table.rows, Timed cfg as r)
    (hworkers : ∀ v, s'.workers v = s.workers v ∨ Due cfg as (s'.workers v))
    (hpending : ∀ t ws, s'.server.pending (.poll t) = some ws → ∀ v ∈ ws, Timed cfg as v.row) :
    Backoff cfg (as ++ [a]) s' := by
  refine ⟨fun r hr => (hrows r hr).snoc a, fun v e he => ?_, fun v x event input events hv => ?_,
    fun t ws hws u hu => (hpending t ws hws u hu).snoc a⟩
  · rcases hworkers v with hsame | hdue
    · rw [hsame] at he ⊢
      exact ⟨(h.batch v e he).1.snoc a, (h.batch v e he).2⟩
    · exact ⟨(hdue.batch e he).1.snoc a, (hdue.batch e he).2⟩
  · rcases hworkers v with hsame | hdue
    · rw [hsame] at hv
      obtain ⟨f, hf, hnext⟩ := h.failing v x event input events hv
      exact ⟨f, hf.append [a], hnext⟩
    · exact absurd hv (hdue.unmarked x event input events)

/-- The rows after a COMMIT. -/
theorem rows_of_commit {t : TxId} (h : Backoff cfg as s) (hi : Inv cfg s) (hopen : s.isOpen t) :
    ∀ r ∈ (s.server.commit (.poll t)).committed.rows, Timed cfg as r := by
  intro r hr
  obtain ⟨ws, hws⟩ := Option.isSome_iff_exists.1 hopen
  rw [Server.commit_committed hws, Table.mem_iff] at hr
  have ho := hi.tables.outcomes t ws hws
  obtain ⟨r₀, hr₀⟩ := ho.row_new hr
  rcases ho.row hr₀ with ⟨hsame, -⟩ | ⟨v, hv, -, hrow⟩
  · rw [hsame] at hr
    cases hr
    exact h.rows _ (Table.mem_of_get? hr₀)
  · rw [hrow] at hr
    cases hr
    exact h.pending t ws hws v hv

/-- The row that records the outcome of the event in hand. -/
theorem timed_of_marking {ws : List OutboxWrite} {v : OutboxWrite} (h : Backoff cfg as s) (hw : s.workers w = await)
    (hm : Marking s x event events await ws) (hv : v ∈ ws) (hid : v.row.id = event.id)
    (hmarks : v.Marks cfg.maxAttempts event) : Timed cfg as v.row := by
  intro k hk hs
  cases hm with
  | published =>
    obtain ⟨r, hr, rfl⟩ := List.mem_map.1 hv
    obtain ⟨r₀, -, rfl⟩ := Option.map_eq_some_iff.1 (Option.mem_toList.1 hr)
    cases hs
  | @publishFailed input r hr =>
    obtain ⟨r', hr', rfl⟩ := List.mem_map.1 hv
    obtain rfl := Option.mem_toList.1 hr'
    obtain ⟨f, hf, hinput⟩ := h.failing w x event input events hw
    obtain ⟨t, ht, hnext⟩ := nextRetryAt_of_markPublishFailed hr hs
    -- the attempt that has failed is the one after those that the event had counted
    have hattempts : event.attempts = k := by
      rcases hmarks.cases with ⟨now, he⟩ | ⟨r₀, he, hone, -⟩
      · cases he
      · cases he
        simp only [OutboxWrite.row] at hk
        omega
    rw [hinput] at ht
    have hexact := newDate_int (n := f + retryDelayFor cfg event.attempts) (by rw [← ht]; push_cast; rfl)
    refine ⟨f, ?_, ?_⟩
    · rw [hid, ← hattempts]; exact hf
    · rw [← hattempts, ← hexact]; exact hnext

theorem step (h : Backoff cfg as s) (hi : Inv cfg s) (hrun : (system cfg).Trace System.anyStep (system cfg).init as s)
    (hs : s.step cfg a = some s') : Backoff cfg (as ++ [a]) s' := by
  cases step_cases hs with
  | @inserted event now r server hr hserver =>
    obtain ⟨-, hc, -, -, hp⟩ := Server.autocommit_eq_some hserver
    have htable : server.committed = s.table.insert r := hc
    refine h.of_same (fun q hq => ?_) (fun _ => .inl rfl) (fun t ws hws => h.pending t ws (by rwa [hp] at hws))
    simp only [State.table, htable] at hq
    rcases Table.mem_of_insert hq with hq | rfl
    · exact h.rows q hq
    · intro k hk
      rw [hr.attempts] at hk
      omega
  | moved _ hm =>
    obtain ⟨-, hbatch, -, -⟩ := Inv.of_moves hm
    exact h.of_same h.rows (update_or (.of_nil hbatch)) h.pending
  | begun =>
    refine h.of_same ?_ (update_or (.of_nil rfl)) (fun t => Server.begin_writes (h.pending t))
    simp only [State.table, Server.begin_committed]
    exact h.rows
  | @fetched w x events server hw hf hserver =>
    obtain ⟨ws₀, hp₀, -, hc, -, -, -⟩ := Server.stage_eq_some hserver
    have hview : s.view x.id = s.table := by
      rw [State.view, hi.fetching w x hw (by rw [State.isOpen, hp₀]; rfl)]; rfl
    rw [hview] at hf
    refine h.of_same (by simp only [State.table, hc]; exact h.rows) (update_or (.forEvents fun e he => ?_))
      (fun t => Server.stage_writes hserver (h.pending t) fun _ => List.forall_mem_nil _)
    exact ⟨h.rows e (hf.mem e he).1, (hf.mem e he).2.1⟩
  | @marked w x event events await ws server hw hm hserver =>
    obtain ⟨ws₀, hp₀, -, hc, -, -, -⟩ := Server.stage_eq_some hserver
    have hbatch : (s.workers w).batch = event :: events := by rw [hw]; cases hm <;> rfl
    have htx : (s.workers w).tx? = some x := by rw [hw]; cases hm <;> rfl
    refine h.of_same (by simp only [State.table, hc]; exact h.rows) (update_or (.forEvents fun e he => ?_))
      (fun t => Server.stage_writes hserver (h.pending t) fun _ v hv => ?_)
    · obtain ⟨htimed, hdue⟩ := h.batch w e (by rw [hbatch]; exact List.mem_cons_of_mem _ he)
      exact ⟨htimed, hdue x htx⟩
    · obtain ⟨u, hu, hid, hmarks, -⟩ := hi.marks hw (by rw [State.isOpen, hp₀]; rfl) hm
      obtain rfl : v = u := by rw [hu] at hv; exact List.mem_singleton.1 hv
      exact h.timed_of_marking hw hm hv hid hmarks
  | @published w x event events now hw =>
    have hbatch := h.batch w
    rw [hw] at hbatch
    exact h.of_same h.rows (update_or ⟨hbatch, fun _ _ _ _ he => by cases he⟩) h.pending
  | @failed w x event events now error hw =>
    have hbatch := h.batch w
    rw [hw] at hbatch
    refine ⟨fun r hr => (h.rows r hr).snoc _, fun v e he => ?_, fun v y event' input es hv => ?_,
      fun t ws hws u hu => (h.pending t ws hws u hu).snoc _⟩
    · by_cases hvw : v = w
      · subst hvw
        simp only [goOn_self] at he ⊢
        exact ⟨(hbatch e he).1.snoc _, (hbatch e he).2⟩
      · simp only [goOn_of_ne hvw] at he ⊢
        exact ⟨(h.batch v e he).1.snoc _, (h.batch v e he).2⟩
    · by_cases hvw : v = w
      · subst hvw
        simp only [goOn_self, Await.markPublishFailed.injEq] at hv
        obtain ⟨-, rfl, rfl, -⟩ := hv
        -- this is the failure itself
        refine ⟨now, ⟨as, [], v, error, s, x, _, events, rfl, hrun, hw, rfl, rfl⟩, ?_⟩
        simp [publishFailed]
      · simp only [goOn_of_ne hvw] at hv
        obtain ⟨f, hf, hnext⟩ := h.failing v y event' input es hv
        exact ⟨f, hf.append _, hnext⟩
  | @committed w x _ hopen =>
    exact h.of_same (h.rows_of_commit hi hopen) (update_or .idle) (fun t => Server.commit_writes (h.pending t))
  | rolledBack => exact h.of_same h.rows (update_or .idle) (fun t => Server.rollback_writes (h.pending t))
  | inDoubt _ hcase =>
    refine h.of_same h.rows (update_or (.of_nil ?_)) h.pending
    rcases hcase with ⟨-, rfl⟩ | ⟨-, rfl⟩ <;> rfl
  | @lateCommitted t _ hopen =>
    exact h.of_same (h.rows_of_commit hi hopen) (fun _ => .inl rfl) (fun t => Server.commit_writes (h.pending t))
  | sessionLost => exact h.of_same h.rows (fun _ => .inl rfl) (fun t => Server.rollback_writes (h.pending t))

end Backoff

/-- An event that has failed is in hand only when the delay after its last failure is over. -/
theorem last_failure {s : State} {as : List Action} (hrun : (system cfg).Trace System.anyStep (system cfg).init as s)
    {w : WorkerId} {x : Tx} {event : OutboxEventRecord} {events : List OutboxEventRecord} {k : Nat}
    (hw : s.workers w = .publish x event events) (hk : event.attempts = k + 1) :
    ∃ f, FailedAt cfg as event.id k f ∧ ofDate (f + retryDelayFor cfg k) ≤ x.now := by
  have hend : Inv cfg s ∧ (system cfg).Trace System.anyStep (system cfg).init as s ∧ Backoff cfg as s := by
    refine hrun.history (P := fun pre t => Inv cfg t ∧ (system cfg).Trace System.anyStep (system cfg).init pre t ∧
      Backoff cfg pre t) ⟨.init, .nil, .init⟩ ?_
    rintro pre t a t' ⟨hi, ht, hb⟩ hok hs
    exact ⟨(hi.step hs).1, ht.snoc hok hs, hb.step hi ht hs⟩
  obtain ⟨hi, -, hb⟩ := hend
  have hmem : event ∈ (s.workers w).batch := by rw [hw]; exact List.mem_cons_self
  have htx : (s.workers w).tx? = some x := by rw [hw]; rfl
  obtain ⟨htimed, hdue⟩ := hb.batch w event hmem
  have heligible := hdue x htx
  simp only [eligible, decide_eq_true_eq] at heligible
  obtain ⟨f, hf, hnext⟩ := htimed k hk heligible.1
  rw [hnext] at heligible
  exact ⟨f, hf, of_decide_eq_true heligible.2⟩

/-- Every failure that is counted is one of the run. -/
theorem earlier_failures {s : State} {as : List Action}
    (hrun : (system cfg).Trace System.anyStep (system cfg).init as s)
    {w : WorkerId} {x : Tx} {event : OutboxEventRecord} {events : List OutboxEventRecord} {k : Nat}
    (hw : s.workers w = .publish x event events) (hk : event.attempts = k) :
    ∀ j < k, ∃ f, FailedAt cfg as event.id j f := by
  induction k generalizing s as w x event events with
  | zero => exact fun j hj => absurd hj (Nat.not_lt_zero j)
  | succ k ih =>
    intro j hj
    obtain ⟨f, hf, -⟩ := last_failure hrun hw hk
    rcases Nat.lt_succ_iff_lt_or_eq.1 hj with hj | rfl
    · -- the failures before are those of the run before the last one
      obtain ⟨pre, post, v, error, t, y, event', events', rfl, hpre, hv, hid, hattempts⟩ := hf
      obtain ⟨g, hg⟩ := ih hpre hv hattempts j hj
      exact ⟨g, hid ▸ hg.append _⟩
    · exact ⟨f, hf⟩

/-- What the run has in store of the failures of an event that is in hand: each one that is counted, and the
last of them so long ago that the delay after it, which doubles with every failure up to the maximum, was
over when the transaction of the worker began. -/
structure RetriedInTime (cfg : WorkerConfig) (as : List Action) (x : Tx) (event : OutboxEventRecord) : Prop where
  counted : ∀ k < event.attempts, ∃ f, FailedAt cfg as event.id k f
  delayed : ∀ k, event.attempts = k + 1 → ∃ f, FailedAt cfg as event.id k f ∧ ofDate (f + retryDelayFor cfg k) ≤ x.now

/-- In no run is an event published again too early, whatever the workers do and however they fail. -/
theorem retried_in_time {s : State} {as : List Action} (hrun : (system cfg).Trace System.anyStep (system cfg).init as s)
    {w : WorkerId} {x : Tx} {event : OutboxEventRecord} {events : List OutboxEventRecord}
    (hw : s.workers w = .publish x event events) : RetriedInTime cfg as x event :=
  ⟨earlier_failures hrun hw rfl, fun _ hk => last_failure hrun hw hk⟩

namespace Sample

/-- The first event has failed at one second, and is in hand again at ten. -/
def retryRun : List Action :=
  [.insertPending authorized 10, .insertPending captured 20] ++ iteration 0 1 [nacked, none] ++
    [.query 0] ++ iteration 1 10 []

def retrying : State := ((system config).runFrom (system config).init retryRun).get (by decide +kernel)

theorem retrying_trace : (system config).Trace System.anyStep (system config).init retryRun retrying :=
  System.trace_of_runFrom _ (fun _ _ _ => trivial) (Option.some_get _).symm

/-- A worker that publishes an event that has failed once. -/
def retries : Await → Bool
  | .publish _ event _ => event.attempts = 1
  | _ => false

theorem publish_of_retries {await : Await} (h : retries await = true) :
    ∃ x event events, await = .publish x event events ∧ event.attempts = 1 := by
  cases await with
  | publish x event events => exact ⟨x, event, events, rfl, of_decide_eq_true h⟩
  | _ => cases h

end Sample

theorem retried_in_time_retrying :
    ∃ x event, event.attempts = 1 ∧ RetriedInTime Sample.config Sample.retryRun x event := by
  obtain ⟨x, event, events, hw, hattempts⟩ := @Sample.publish_of_retries (Sample.retrying.workers 0) (by decide +kernel)
  exact ⟨x, event, hattempts, retried_in_time Sample.retrying_trace hw⟩

end OutboxPublisherWorker

end PaymentOrchestration
