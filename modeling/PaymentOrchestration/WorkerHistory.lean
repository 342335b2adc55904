/-
What the workers' history says about the table: each event that was handed over has a row that still carries it, and
a row is published only if the broker has accepted its event.
-/
import PaymentOrchestration.WorkerInvariant

namespace PaymentOrchestration

open Lib OutboxEventsDataAccess

namespace OutboxPublisherWorker

variable {cfg : WorkerConfig}

/-- The event is that of a stored row. -/
def State.Stored (s : State) (e : OutboxEventRecord) : Prop := ∃ r, s.table.get? e.id = some r ∧ e.SameEvent r

/-- The broker has accepted an event with the id. -/
def State.Accepted (s : State) (id : Uuid) : Prop := ∃ h ∈ s.handed, h.1.id = id ∧ h.2 = none

/-- What holds in every run. -/
structure History (s : State) : Prop where
  batch : ∀ w, ∀ e ∈ (s.workers w).batch, s.Stored e
  handed : ∀ h ∈ s.handed, s.Stored h.1
  inHand : ∀ w x event events, s.workers w = .markPublished x event events → s.Accepted event.id
  pending : ∀ t ws, s.server.pending (.poll t) = some ws → ∀ v ∈ ws, v.row.status = .published → s.Accepted v.row.id
  published : ∀ id r, s.table.get? id = some r → r.status = .published → s.Accepted id

namespace History

variable {s s' : State} {a : Action}

theorem init : History State.initial where
  batch := fun _ => List.forall_mem_nil _
  handed := List.forall_mem_nil _
  inHand := fun _ _ _ _ h => by cases h
  pending := fun _ _ h => by cases h
  published := fun _ _ h => by cases h

theorem stored_of_evolves {e : OutboxEventRecord} (he : Evolves s.table s'.table) (h : s.Stored e) : s'.Stored e := by
  obtain ⟨r, hr, hsame⟩ := h
  obtain ⟨r', hr', hfollows⟩ := he.follows _ r hr
  exact ⟨r', hr', hsame.trans hfollows.same⟩

/-- The history only grows. -/
theorem accepted_of_prefix {id : Uuid} (hp : s.handed <+: s'.handed) (h : s.Accepted id) : s'.Accepted id := by
  obtain ⟨y, hy, hid⟩ := h
  exact ⟨y, hp.subset hy, hid⟩

/-- A worker that has stored events in hand, and does not mark one as published. -/
structure Harmless (s : State) (await : Await) : Prop where
  batch : ∀ e ∈ await.batch, s.Stored e
  unmarked : ∀ x e es, await ≠ .markPublished x e es

theorem Harmless.of_nil {await : Await} (h : await.batch = []) : Harmless s await := by
  refine ⟨by rw [h]; exact List.forall_mem_nil _, ?_⟩
  rintro x e es rfl
  cases h

theorem Harmless.idle : Harmless s .idle := .of_nil rfl

theorem Harmless.forEvents {x : Tx} {events : List OutboxEventRecord} (h : ∀ e ∈ events, s.Stored e) :
    Harmless s (forEvents x events) := by
  refine ⟨by rw [batch_forEvents]; exact h, ?_⟩
  intro y e es he
  cases events <;> cases he

/-- A step that leaves the history of attempts as it is. -/
theorem of_same (h : History s) (he : Evolves s.table s'.table) (hhanded : s'.handed = s.handed)
    (hworkers : ∀ w, s'.workers w = s.workers w ∨ Harmless s' (s'.workers w))
    (hpending : ∀ t ws, s'.server.pending (.poll t) = some ws → ∀ v ∈ ws, v.row.status = .published →
      s.Accepted v.row.id)
    (hpublished : ∀ id r, s'.table.get? id = some r → r.status = .published → s.Accepted id) : History s' := by
  have haccepted : ∀ {id}, s.Accepted id → s'.Accepted id := accepted_of_prefix (hhanded ▸ List.prefix_refl _)
  refine ⟨fun w e hw => ?_, fun y hy => ?_, fun w x event events hw => ?_,
    fun t ws hws v hv hs => haccepted (hpending t ws hws v hv hs), fun id r hr hs => haccepted (hpublished id r hr hs)⟩
  · rcases hworkers w with hsame | ⟨hstored, -⟩
    · rw [hsame] at hw; exact stored_of_evolves he (h.batch w e hw)
    · exact hstored e hw
  · rw [hhanded] at hy; exact stored_of_evolves he (h.handed y hy)
  · rcases hworkers w with hsame | ⟨-, hne⟩
    · rw [hsame] at hw; exact haccepted (h.inHand w x event events hw)
    · exact absurd hw (hne x event events)

/-- A step that records the outcome of an attempt. -/
theorem of_handed {w : WorkerId} {x : Tx} {event : OutboxEventRecord} {events : List OutboxEventRecord} {await : Await}
    {outcome : Option String} (h : History s) (hw : s.workers w = .publish x event events)
    (hbatch : await.batch = event :: events)
    (hmark : ∀ y e es, await = .markPublished y e es → e = event ∧ outcome = none) :
    History { s.goOn w await with handed := s.handed ++ [(event, outcome)] } := by
  have haccepted : ∀ {id}, s.Accepted id →
      State.Accepted { s.goOn w await with handed := s.handed ++ [(event, outcome)] } id :=
    accepted_of_prefix (List.prefix_append _ _)
  have hstored := h.batch w
  rw [hw] at hstored
  refine ⟨fun v e he => ?_, fun y hy => ?_, fun v y e es hv => ?_,
    fun t ws hws u hu hs => haccepted (h.pending t ws hws u hu hs),
    fun id r hr hs => haccepted (h.published id r hr hs)⟩
  · by_cases hvw : v = w
    · subst hvw
      simp only [goOn_self, hbatch] at he
      exact hstored e he
    · simp only [goOn_of_ne hvw] at he
      exact h.batch v e he
  · rcases List.mem_append.1 hy with hy | hy
    · exact h.handed y hy
    · obtain rfl := List.mem_singleton.1 hy
      exact hstored event List.mem_cons_self
  · by_cases hvw : v = w
    · subst hvw
      simp only [goOn_self] at hv
      obtain ⟨rfl, rfl⟩ := hmark y e es hv
      exact ⟨_, List.mem_append_right _ List.mem_cons_self, rfl, rfl⟩
    · simp only [goOn_of_ne hvw] at hv
      exact haccepted (h.inHand v y e es hv)

/-- A mark that publishes a row is the statement that follows a confirm. -/
theorem accepted_of_marking {w : WorkerId} {x : Tx} {event : OutboxEventRecord} {events : List OutboxEventRecord}
    {await : Await} {ws : List OutboxWrite} {u : OutboxWrite} (h : History s) (hw : s.workers w = await)
    (hm : Marking s x event events await ws) (hws : ws = [u]) (hmarks : u.Marks cfg.maxAttempts event)
    (hs : u.row.status = .published) : s.Accepted event.id := by
  cases hm with
  | published => exact h.inHand w x event events hw
  | publishFailed =>
    obtain ⟨r, -, rfl⟩ := List.map_eq_singleton_iff.1 hws
    rcases hmarks.cases with ⟨now, he⟩ | ⟨r', he, -, -, -, hstatus⟩
    · cases he
    · cases he
      simp only [OutboxWrite.row] at hs
      rcases hstatus with ⟨-, hst, -⟩ | ⟨-, hst, -⟩ <;> · rw [hs] at hst; cases hst

/-- The rows after a COMMIT. -/
theorem published_of_commit {t : TxId} (h : History s) (hi : Inv cfg s) (hopen : s.isOpen t) :
    ∀ id r, (s.server.commit (.poll t)).committed.get? id = some r → r.status = .published → s.Accepted id := by
  intro id r' hr' hs
  obtain ⟨ws, hws⟩ := Option.isSome_iff_exists.1 hopen
  have ho := hi.tables.outcomes t ws hws
  rw [Server.commit_committed hws] at hr'
  obtain ⟨r, hr⟩ := ho.row_new hr'
  rcases ho.row hr with ⟨hsame, -⟩ | ⟨v, hv, hmarks, hrow⟩
  · rw [hsame] at hr'; cases hr'
    exact h.published id _ hr hs
  · rw [hrow] at hr'; cases hr'
    have hid : v.row.id = id := hmarks.same.id.trans (Table.key_of_get? hr)
    rw [← hid]; exact h.pending t ws hws v hv hs

theorem step (h : History s) (hi : Inv cfg s) (hs : s.step cfg a = some s') : History s' := by
  have hevolves := (hi.step hs).2
  cases step_cases hs with
  | @inserted event now r server hr hserver =>
    obtain ⟨-, hc, -, -, hp⟩ := Server.autocommit_eq_some hserver
    have htable : server.committed = s.table.insert r := hc
    refine h.of_same hevolves rfl (fun _ => .inl rfl)
      (fun t ws hws => h.pending t ws (by rwa [hp] at hws)) fun id q hq hst => ?_
    simp only [State.table, htable] at hq
    by_cases hid : r.id = id
    · subst hid
      rw [Table.get?_insert_self hr.new] at hq
      cases hq
      rw [hr.status] at hst; cases hst
    · rw [Table.get?_insert_of_ne hid] at hq
      exact h.published id q hq hst
  | moved _ hm =>
    obtain ⟨-, hbatch, -, -⟩ := Inv.of_moves hm
    exact h.of_same hevolves rfl (update_or (.of_nil hbatch)) h.pending h.published
  | begun =>
    refine h.of_same hevolves rfl (update_or (.of_nil rfl))
      (fun t => Server.begin_writes (h.pending t)) fun id r hr => ?_
    simp only [State.table, Server.begin_committed] at hr
    exact h.published id r hr
  | @fetched w x events server hw hf hserver =>
    obtain ⟨ws₀, hp₀, -, hc, -, -, -⟩ := Server.stage_eq_some hserver
    have hview : s.view x.id = s.table := by
      rw [State.view, hi.fetching w x hw (by rw [State.isOpen, hp₀]; rfl)]; rfl
    rw [hview] at hf
    refine h.of_same hevolves rfl (update_or (.forEvents fun e he => ⟨e, ?_, .refl e⟩))
      (fun t => Server.stage_writes hserver (h.pending t) fun _ => List.forall_mem_nil _)
      (by simp only [State.table, hc]; exact h.published)
    simp only [State.table, hc]
    exact Table.mem_iff.1 (hf.mem e he).1
  | @marked w x event events await ws server hw hm hserver =>
    obtain ⟨ws₀, hp₀, -, hc, -, -, -⟩ := Server.stage_eq_some hserver
    have hbatch : (s.workers w).batch = event :: events := by rw [hw]; cases hm <;> rfl
    obtain ⟨u, hu, hid, hmarks, -⟩ := hi.marks hw (by rw [State.isOpen, hp₀]; rfl) hm
    refine h.of_same hevolves rfl (update_or (.forEvents fun e he => ?_))
      (fun t => Server.stage_writes hserver (h.pending t) fun _ v hv hst => ?_)
      (by simp only [State.table, hc]; exact h.published)
    · exact stored_of_evolves hevolves (h.batch w e (by rw [hbatch]; exact List.mem_cons_of_mem _ he))
    · rw [hu, List.mem_singleton] at hv
      subst hv
      rw [hid]; exact h.accepted_of_marking hw hm hu hmarks hst
  | published hw => exact h.of_handed hw rfl fun y e es he => by cases he; exact ⟨rfl, rfl⟩
  | failed hw => exact h.of_handed hw rfl fun y e es he => by cases he
  | @committed w x _ hopen =>
    have hpublished := h.published_of_commit hi hopen
    exact h.of_same hevolves rfl (update_or .idle) (fun t => Server.commit_writes (h.pending t)) hpublished
  | @rolledBack w x _ _ _ =>
    exact h.of_same hevolves rfl (update_or .idle) (fun t => Server.rollback_writes (h.pending t)) h.published
  | inDoubt _ hcase =>
    refine h.of_same hevolves rfl (update_or (.of_nil ?_)) h.pending h.published
    rcases hcase with ⟨-, rfl⟩ | ⟨-, rfl⟩ <;> rfl
  | @lateCommitted t _ hopen =>
    have hpublished := h.published_of_commit hi hopen
    exact h.of_same hevolves rfl (fun _ => .inl rfl) (fun t => Server.commit_writes (h.pending t)) hpublished
  | @sessionLost t _ =>
    exact h.of_same hevolves rfl (fun _ => .inl rfl) (fun t => Server.rollback_writes (h.pending t)) h.published

end History

end OutboxPublisherWorker

end PaymentOrchestration
