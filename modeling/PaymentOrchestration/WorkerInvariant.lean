/-
What holds of outbox_events and its workers in every run: an open transaction has locked the rows of its batch, so
that they stay as it fetched them, and each of its writes marks one of them. `rows_lifecycle` says from this what
the stored rows look like and how they change.
-/
import PaymentOrchestration.WorkerSteps

namespace PaymentOrchestration

open Lib OutboxEventsDataAccess

namespace OutboxPublisherWorker

variable {cfg : WorkerConfig}

/-! ## The writes of a transaction -/

/-- The writes mark pending rows of the table, each a row of its own. -/
structure Outcomes (maxAttempts : Nat) (table : OutboxEvents) (ws : List OutboxWrite) : Prop where
  nodup : (ws.map fun w => w.row.id).Nodup
  marks : ∀ w ∈ ws, ∃ r, table.get? w.row.id = some r ∧ w.Marks maxAttempts r

namespace Outcomes

variable {maxAttempts : Nat} {table : OutboxEvents} {ws : List OutboxWrite} {w : OutboxWrite} {id : Uuid}

theorem nil : Outcomes maxAttempts table [] := ⟨List.nodup_nil, List.forall_mem_nil _⟩

theorem apply_get? {r : OutboxEventRecord} (hr : table.get? w.row.id = some r) (hm : w.Marks maxAttempts r) :
    (w.apply table).get? w.row.id = some w.row := by
  rcases hm.cases with ⟨now, rfl⟩ | ⟨r', rfl, -⟩ <;> exact Table.get?_put_self hr

/-- A row that is not marked stays. -/
theorem get?_of_ne (hne : ∀ w ∈ ws, w.row.id ≠ id) : (outboxSchema.applyAll table ws).get? id = table.get? id :=
  outboxSchema.row_applyAll ws table hne

/-- The table holds the rows that were written. -/
theorem get?_of_mem (h : Outcomes maxAttempts table ws) (hw : w ∈ ws) :
    (outboxSchema.applyAll table ws).get? w.row.id = some w.row := by
  induction ws generalizing table with
  | nil => cases hw
  | cons v ws ih =>
    have hnodup := h.nodup
    rw [List.map_cons, List.nodup_cons] at hnodup
    have hne : ∀ u ∈ ws, u.row.id ≠ v.row.id := fun u hu he =>
      hnodup.1 (List.mem_map.2 ⟨u, hu, he⟩)
    rw [Schema.applyAll_cons]
    rcases List.mem_cons.1 hw with rfl | hw
    · obtain ⟨r, hr, hm⟩ := h.marks w List.mem_cons_self
      exact (get?_of_ne hne).trans (apply_get? hr hm)
    · refine ih ⟨hnodup.2, fun u hu => ?_⟩ hw
      obtain ⟨r, hr, hm⟩ := h.marks u (List.mem_cons_of_mem _ hu)
      refine ⟨r, ?_, hm⟩
      exact (outboxSchema.row_apply table (hne u hu).symm).trans hr

/-- What the writes make of a row. -/
theorem row (h : Outcomes maxAttempts table ws) {r : OutboxEventRecord} (hr : table.get? id = some r) :
    (outboxSchema.applyAll table ws).get? id = some r ∧ (∀ w ∈ ws, w.row.id ≠ id) ∨
      ∃ w ∈ ws, w.Marks maxAttempts r ∧ (outboxSchema.applyAll table ws).get? id = some w.row := by
  by_cases hne : ∀ w ∈ ws, w.row.id ≠ id
  · exact .inl ⟨(get?_of_ne hne).trans hr, hne⟩
  · push Not at hne
    obtain ⟨w, hw, rfl⟩ := hne
    obtain ⟨r', hr', hm⟩ := h.marks w hw
    obtain rfl := Option.some.inj (hr.symm.trans hr')
    exact .inr ⟨w, hw, hm, h.get?_of_mem hw⟩

/-- They add no row. -/
theorem row_new (h : Outcomes maxAttempts table ws) {r' : OutboxEventRecord}
    (hr' : (outboxSchema.applyAll table ws).get? id = some r') : ∃ r, table.get? id = some r := by
  by_cases hne : ∀ w ∈ ws, w.row.id ≠ id
  · exact ⟨r', (get?_of_ne hne).symm.trans hr'⟩
  · push Not at hne
    obtain ⟨w, hw, rfl⟩ := hne
    obtain ⟨r, hr, -⟩ := h.marks w hw
    exact ⟨r, hr⟩

/-- Rows that were not written may be written. -/
theorem append (h : Outcomes maxAttempts table ws) {r : OutboxEventRecord} (hr : table.get? w.row.id = some r)
    (hm : w.Marks maxAttempts r) (hne : ∀ v ∈ ws, v.row.id ≠ w.row.id) : Outcomes maxAttempts table (ws ++ [w]) := by
  refine ⟨?_, fun v hv => ?_⟩
  · rw [List.map_append, List.nodup_append]
    refine ⟨h.nodup, List.nodup_singleton _, ?_⟩
    rintro a ha b hb rfl
    obtain ⟨v, hv, rfl⟩ := List.mem_map.1 ha
    exact hne v hv (List.mem_singleton.1 hb)
  · rcases List.mem_append.1 hv with hv | hv
    · exact h.marks v hv
    · obtain rfl := List.mem_singleton.1 hv
      exact ⟨r, hr, hm⟩

/-- The rows they mark have stayed. -/
theorem of_rows {table' : OutboxEvents} (h : Outcomes maxAttempts table ws)
    (hrows : ∀ w ∈ ws, table'.get? w.row.id = table.get? w.row.id) : Outcomes maxAttempts table' ws :=
  ⟨h.nodup, fun w hw => by rw [hrows w hw]; exact h.marks w hw⟩

end Outcomes

/-! ## The server -/

/-- The server without what the workers know: stored rows are well formed, and a poll transaction marks rows. -/
structure Tables (maxAttempts : Nat) (server : Server outboxSchema Session) : Prop where
  wellFormed : ∀ id r, server.committed.get? id = some r → r.WellFormed maxAttempts
  service : server.pending .service = none
  outcomes : ∀ t ws, server.pending (.poll t) = some ws → Outcomes maxAttempts server.committed ws

/-- How the stored rows change in a step: no row goes, each one follows the row it was, and a new row is as
`insertPending` made it. -/
structure Evolves (table table' : OutboxEvents) : Prop where
  follows : ∀ id r, table.get? id = some r → ∃ r', table'.get? id = some r' ∧ r.Follows r'
  new : ∀ id r', table'.get? id = some r' → table.get? id = none → r'.status = .pending ∧
    r'.attempts = 0 ∧ r'.nextRetryAt = none

@[refl] theorem Evolves.refl (table : OutboxEvents) : Evolves table table :=
  ⟨fun _ r h => ⟨r, h, .refl r⟩, fun _ _ h h' => by rw [h] at h'; cases h'⟩

namespace Tables

variable {M : Nat} {server server' : Server outboxSchema Session} {t : TxId} {ws : List OutboxWrite}

theorem start : Tables M (.start .empty) where
  wellFormed := fun _ _ h => by cases h
  service := rfl
  outcomes := fun _ _ h => by cases h

/-- A poll transaction is not a session of the service. -/
theorem service_ne (t : TxId) : Session.service ≠ .poll t := nofun

/-- A transaction's rows are those that were there when it marked them. -/
theorem outcomes_of_undisturbed (h : Tables M server) (hu : server.Undisturbed (.poll t) server')
    (hp : server'.pending (.poll t) = some ws) : Outcomes M server'.committed ws := by
  rw [hu.pending] at hp
  exact (h.outcomes t ws hp).of_rows fun w hw => hu.row _ (server.locked _ ws hp w hw)

theorem insert (h : Tables M server) (hpos : 0 < M) {event : InsertPendingOutboxEvent} {now : Timestamp}
    {r : OutboxEventRecord} (hr : Inserted server.committed event now r)
    (hs : server.autocommit .service [.insert r] = some server') :
    Tables M server' ∧ Evolves server.committed server'.committed := by
  obtain ⟨-, hc, -, -, hp⟩ := Server.autocommit_eq_some hs
  have hcommitted : server'.committed = server.committed.insert r := hc
  have hget : ∀ {id r'}, server'.committed.get? id = some r' → server.committed.get? id = some r' ∨
      id = r.id ∧ r' = r := by
    intro id r' hr'
    rw [hcommitted] at hr'
    by_cases hid : r.id = id
    · subst hid
      rw [Table.get?_insert_self hr.new] at hr'
      exact .inr ⟨rfl, (Option.some.inj hr').symm⟩
    · rw [Table.get?_insert_of_ne hid] at hr'
      exact .inl hr'
  refine ⟨⟨fun id r' hr' => ?_, by rw [hp]; exact h.service, fun t ws hws => ?_⟩,
    fun id r' hr' => ⟨r', ?_, .refl r'⟩, ?_⟩
  · rcases hget hr' with hr' | ⟨-, rfl⟩
    · exact h.wellFormed id r' hr'
    · exact hr.wellFormed hpos
  · exact h.outcomes_of_undisturbed (.of_autocommit (service_ne t).symm hs) hws
  · rw [hcommitted, Table.get?_insert_of_ne]
    · exact hr'
    · rintro rfl; rw [hr.new] at hr'; cases hr'
  · intro id r' hr' hnone
    rcases hget hr' with hr' | ⟨-, rfl⟩
    · rw [hr'] at hnone; cases hnone
    · exact ⟨hr.status, hr.attempts, hr.nextRetryAt⟩

theorem begin (h : Tables M server) : Tables M (server.begin (.poll t)) := by
  refine ⟨by rw [Server.begin_committed]; exact h.wellFormed, ?_, fun t' ws hws => ?_⟩
  · rw [(Server.Undisturbed.of_begin (s := server) (t := .service) (service_ne t)).pending]
    exact h.service
  · rw [Server.begin_committed]
    by_cases hp : server.pending (.poll t) = none
    · rw [Server.begin_pending hp] at hws
      by_cases ht : t' = t
      · subst ht
        rw [Function.update_self] at hws
        cases hws; exact .nil
      · rw [Function.update_of_ne (by simpa using ht)] at hws
        exact h.outcomes t' ws hws
    · rw [Server.begin, if_neg hp] at hws
      exact h.outcomes t' ws hws

theorem stage {ks : List Uuid} (h : Tables M server) (hs : server.stage (.poll t) ws ks = some server')
    (hws : ∀ ws₀, server.pending (.poll t) = some ws₀ → Outcomes M server.committed (ws₀ ++ ws)) :
    Tables M server' ∧ server'.committed = server.committed := by
  obtain ⟨ws₀, hp₀, -, hc, -, hp, -⟩ := Server.stage_eq_some hs
  refine ⟨⟨by rw [hc]; exact h.wellFormed, ?_, fun t' vs hvs => ?_⟩, hc⟩
  · rw [hp, Function.update_of_ne (service_ne t)]; exact h.service
  · rw [hp] at hvs
    rw [hc]
    by_cases ht : t' = t
    · subst ht
      rw [Function.update_self] at hvs
      cases hvs; exact hws ws₀ hp₀
    · rw [Function.update_of_ne (by simpa using ht)] at hvs
      exact h.outcomes t' vs hvs

/-- The table as an open transaction sees it. -/
theorem view_wellFormed (h : Tables M server) (hp : server.pending (.poll t) = some ws)
    {id : Uuid} {r' : OutboxEventRecord}
    (hr' : (outboxSchema.applyAll server.committed ws).get? id = some r') : r'.WellFormed M := by
  have ho := h.outcomes t ws hp
  obtain ⟨r, hr⟩ := ho.row_new hr'
  rcases ho.row hr with ⟨hsame, -⟩ | ⟨w, -, hm, hw⟩
  · rw [hsame] at hr'; cases hr'; exact h.wellFormed id _ hr
  · rw [hw] at hr'; cases hr'; exact hm.wellFormed (h.wellFormed id r hr)

theorem commit (h : Tables M server) (hopen : (server.pending (.poll t)).isSome) :
    Tables M (server.commit (.poll t)) ∧ Evolves server.committed (server.commit (.poll t)).committed := by
  obtain ⟨ws, hp⟩ := Option.isSome_iff_exists.1 hopen
  have ho := h.outcomes t ws hp
  have hc := Server.commit_committed hp
  refine ⟨⟨fun id r' hr' => h.view_wellFormed hp (hc ▸ hr'), ?_, fun t' vs hvs => ?_⟩, fun id r hr => ?_,
    fun id r' hr' hnone => ?_⟩
  · rw [Server.commit_pending, Function.update_of_ne (service_ne t)]; exact h.service
  · have ht : t' ≠ t := by
      rintro rfl
      rw [Server.commit_pending, Function.update_self] at hvs; cases hvs
    exact h.outcomes_of_undisturbed (.of_commit (by simpa using ht)) hvs
  · rw [hc]
    rcases ho.row hr with ⟨hsame, -⟩ | ⟨w, -, hm, hw⟩
    · exact ⟨r, hsame, .refl r⟩
    · exact ⟨w.row, hw, hm.follows⟩
  · rw [hc] at hr'
    obtain ⟨r, hr⟩ := ho.row_new hr'
    rw [hr] at hnone; cases hnone

theorem rollback (h : Tables M server) : Tables M (server.rollback (.poll t)) := by
  refine ⟨by rw [Server.rollback_committed]; exact h.wellFormed, ?_, fun t' vs hvs => ?_⟩
  · rw [Server.rollback_pending, Function.update_of_ne (service_ne t)]; exact h.service
  · have ht : t' ≠ t := by
      rintro rfl
      rw [Server.rollback_pending, Function.update_self] at hvs; cases hvs
    exact h.outcomes_of_undisturbed (.of_rollback (by simpa using ht)) hvs

end Tables

/-! ## Batches -/

/-- The rows of a batch whose outcome is not recorded yet: locked by the transaction, as it fetched them, and
without a write. -/
structure Batch (server : Server outboxSchema Session) (t : TxId) (events : List OutboxEventRecord) : Prop where
  nodup : (events.map (·.id)).Nodup
  locked : ∀ e ∈ events, server.locks e.id = some (.poll t)
  row : ∀ e ∈ events, server.committed.get? e.id = some e ∧ e.status = .pending
  unmarked : ∀ e ∈ events, ∀ ws, server.pending (.poll t) = some ws → ∀ w ∈ ws, w.row.id ≠ e.id

namespace Batch

variable {server server' : Server outboxSchema Session} {t : TxId} {e : OutboxEventRecord}
  {events : List OutboxEventRecord}

theorem nil : Batch server t [] :=
  ⟨List.nodup_nil, List.forall_mem_nil _, List.forall_mem_nil _, List.forall_mem_nil _⟩

theorem undisturbed (h : Batch server t events) (hu : server.Undisturbed (.poll t) server') :
    Batch server' t events := by
  refine ⟨h.nodup, fun e he => hu.locks _ (h.locked e he), fun e he => ⟨?_, (h.row e he).2⟩, fun e he => ?_⟩
  · exact (hu.row _ (h.locked e he)).trans (h.row e he).1
  · rw [hu.pending]; exact h.unmarked e he

theorem tail (h : Batch server t (e :: events)) : Batch server t events :=
  ⟨(List.nodup_cons.1 h.nodup).2, fun x hx => h.locked x (List.mem_cons_of_mem _ hx),
    fun x hx => h.row x (List.mem_cons_of_mem _ hx), fun x hx => h.unmarked x (List.mem_cons_of_mem _ hx)⟩

/-- The event in hand is recorded. -/
theorem marked {ws : List OutboxWrite} (h : Batch server t (e :: events)) (hws : ∀ w ∈ ws, w.row.id = e.id)
    (hs : server.stage (.poll t) ws [] = some server') : Batch server' t events := by
  obtain ⟨ws₀, hp₀, -, hc, -, hp, hl⟩ := Server.stage_eq_some hs
  refine ⟨h.tail.nodup, fun x hx => ?_, fun x hx => by rw [hc]; exact h.tail.row x hx, fun x hx vs hvs v hv => ?_⟩
  · rw [hl]
    simp only [ite_eq_left_iff]
    exact fun _ => h.tail.locked x hx
  · rw [hp, Function.update_self] at hvs
    cases hvs
    rcases List.mem_append.1 hv with hv | hv
    · exact h.tail.unmarked x hx ws₀ hp₀ v hv
    · rw [hws v hv]
      rintro he
      exact (List.nodup_cons.1 h.nodup).1 (List.mem_map.2 ⟨x, hx, he.symm⟩)

/-- The rows of a fetched batch. -/
theorem fetched {now : Timestamp} {free : Uuid → Bool} (hp₀ : server.pending (.poll t) = some [])
    (h : Fetched server.committed now free events)
    (hs : server.stage (.poll t) [] (events.map (·.id)) = some server') : Batch server' t events := by
  obtain ⟨ws₀, hp₀', -, hc, -, hp, hl⟩ := Server.stage_eq_some hs
  obtain rfl := Option.some.inj (hp₀.symm.trans hp₀')
  refine ⟨h.nodup, fun e he => ?_, fun e he => ?_, fun e he ws hws => ?_⟩
  · rw [hl]
    simp only [List.map_nil, List.nil_append, ite_eq_left_iff]
    exact fun hne => absurd (List.mem_map_of_mem he) hne
  · obtain ⟨hmem, helig, -⟩ := h.mem e he
    rw [hc]
    refine ⟨Table.mem_iff.1 hmem, ?_⟩
    simp only [eligible, decide_eq_true_eq] at helig
    exact helig.1
  · rw [hp, Function.update_self] at hws
    cases hws; exact List.forall_mem_nil _

end Batch

/-! ## The workers -/

variable (cfg) in
/-- What holds in every run. -/
structure Inv (s : State) : Prop where
  tables : Tables cfg.maxAttempts s.server
  opened : ∀ t, s.isOpen t → t ∈ s.transactions
  known : ∀ w x, (s.workers w).tx? = some x → x.id ∈ s.transactions
  owner : ∀ w w' x x', (s.workers w).tx? = some x → (s.workers w').tx? = some x' → x.id = x'.id → w = w'
  fetching : ∀ w x, s.workers w = .fetchPendingBatch x → s.isOpen x.id → s.server.pending (.poll x.id) = some []
  batch : ∀ w x, (s.workers w).tx? = some x → s.isOpen x.id → Batch s.server x.id (s.workers w).batch
  failing : ∀ w x event input events, s.workers w = .markPublishFailed x event input events →
    input.id = event.id ∧ input.maxAttempts = cfg.maxAttempts

namespace Inv

variable {s s' : State} {a : Action}

theorem init : Inv cfg State.initial where
  tables := .start
  opened := fun _ h => by cases h
  known := fun _ _ h => by cases h
  owner := fun _ _ _ _ h => by cases h
  fetching := fun _ _ h => by cases h
  batch := fun _ _ h => by cases h
  failing := fun _ _ _ _ _ h => by cases h

/-- The worker is where it was, and so is its transaction. -/
structure Kept (s s' : State) (v : WorkerId) : Prop where
  await : s'.workers v = s.workers v
  undisturbed : ∀ x, (s.workers v).tx? = some x → s'.isOpen x.id → s.server.Undisturbed (.poll x.id) s'.server

variable (cfg) in
/-- The worker has gone on, in the transaction it had or in a new one. -/
structure Acted (s s' : State) (w : WorkerId) : Prop where
  tx : ∀ x, (s'.workers w).tx? = some x → (s.workers w).tx? = some x ∨ x.id ∉ s.transactions ∧ x.id ∈ s'.transactions
  fetching : ∀ x, s'.workers w = .fetchPendingBatch x → s'.isOpen x.id → s'.server.pending (.poll x.id) = some []
  batch : ∀ x, (s'.workers w).tx? = some x → s'.isOpen x.id → Batch s'.server x.id (s'.workers w).batch
  failing : ∀ x event input events, s'.workers w = .markPublishFailed x event input events →
    input.id = event.id ∧ input.maxAttempts = cfg.maxAttempts

/-- A transaction that has not begun has written nothing. -/
theorem fresh (h : Inv cfg s) {t : TxId} (ht : t ∉ s.transactions) : s.server.pending (.poll t) = none := by
  by_contra hsome
  exact ht (h.opened t (Option.isSome_iff_ne_none.2 hsome))

/-- The invariant after a step, in which at most one worker acts. -/
theorem of_step (h : Inv cfg s) (htables : Tables cfg.maxAttempts s'.server)
    (hopened : ∀ t, s'.isOpen t → s.isOpen t ∨ t ∈ s'.transactions) (hsub : s.transactions ⊆ s'.transactions)
    (actor : Option WorkerId) (hkept : ∀ v, actor ≠ some v → Kept s s' v)
    (hacted : ∀ w, actor = some w → Acted cfg s s' w) : Inv cfg s' := by
  -- each worker's transaction is the one it had, or a new one that only the actor has
  have htx : ∀ v x, (s'.workers v).tx? = some x →
      (s.workers v).tx? = some x ∨ actor = some v ∧ x.id ∉ s.transactions ∧ x.id ∈ s'.transactions := by
    intro v x hx
    by_cases hv : actor = some v
    · rcases (hacted v hv).tx x hx with hx | hx
      · exact .inl hx
      · exact .inr ⟨hv, hx⟩
    · rw [(hkept v hv).await] at hx
      exact .inl hx
  refine ⟨htables, fun t ht => ?_, fun v x hx => ?_, fun v v' x x' hx hx' hid => ?_, fun v x hv hopen => ?_,
    fun v x hx hopen => ?_, fun v x event input events hv => ?_⟩
  · rcases hopened t ht with ht | ht
    · exact hsub (h.opened t ht)
    · exact ht
  · rcases htx v x hx with hx | ⟨-, -, hx⟩
    · exact hsub (h.known v x hx)
    · exact hx
  · rcases htx v x hx with hx | ⟨hv, hnew, -⟩ <;> rcases htx v' x' hx' with hx' | ⟨hv', hnew', -⟩
    · exact h.owner v v' x x' hx hx' hid
    · exact absurd (h.known v x hx) (by rw [hid]; exact hnew')
    · exact absurd (h.known v' x' hx') (by rw [← hid]; exact hnew)
    · exact Option.some.inj (hv.symm.trans hv')
  · by_cases hact : actor = some v
    · exact (hacted v hact).fetching x hv hopen
    · obtain ⟨hawait, hu⟩ := hkept v hact
      rw [hawait] at hv
      have hund := hu x (by rw [hv]; rfl) hopen
      rw [hund.pending]
      refine h.fetching v x hv ?_
      rw [State.isOpen, hund.pending] at hopen
      exact hopen
  · by_cases hact : actor = some v
    · exact (hacted v hact).batch x hx hopen
    · obtain ⟨hawait, hu⟩ := hkept v hact
      rw [hawait] at hx ⊢
      have hund := hu x hx hopen
      refine (h.batch v x hx ?_).undisturbed hund
      rw [State.isOpen, hund.pending] at hopen
      exact hopen
  · by_cases hact : actor = some v
    · exact (hacted v hact).failing x event input events hv
    · rw [(hkept v hact).await] at hv
      exact h.failing v x event input events hv

/-! ### One step -/

/-- A worker that holds no transaction any more. -/
theorem Acted.none {w : WorkerId} (hw : (s'.workers w).tx? = none) : Acted cfg s s' w := by
  refine ⟨fun x hx => ?_, fun x hx => ?_, fun x hx => ?_, fun x _ _ _ hx => ?_⟩
  · rw [hw] at hx; cases hx
  · rw [hx] at hw; cases hw
  · rw [hw] at hx; cases hx
  · rw [hx] at hw; cases hw

/-- A transaction that has ended is not open, and the others stay open. -/
theorem isOpen_of_update {t t' : TxId} {server' : Server outboxSchema Session}
    (hp : server'.pending = Function.update s.server.pending (.poll t) none) (h : (server'.pending (.poll t')).isSome) :
    Session.poll t' ≠ .poll t ∧ s.isOpen t' := by
  obtain ⟨ws, hws⟩ := Option.isSome_iff_exists.1 h
  obtain ⟨hne, hws⟩ := Server.pending_of_end hp hws
  exact ⟨hne, Option.isSome_iff_exists.2 ⟨ws, hws⟩⟩

theorem kept_of_ne {w v : WorkerId} {await : Await} (h : some w ≠ some v) : (s.goOn w await).workers v = s.workers v :=
  goOn_of_ne fun he => h (congrArg some he.symm)

/-- A worker that goes on without recording an outcome holds at most the transaction it had. -/
theorem of_moves {w : WorkerId} {await await' : Await} (h : Moves cfg s w a await await') :
    (∀ x, await'.tx? = some x → await.tx? = some x) ∧ await'.batch = [] ∧ (∀ x, await' ≠ .fetchPendingBatch x) ∧
      ∀ x event input events, await' ≠ .markPublishFailed x event input events := by
  cases h with
  | polled | channelObtained | channelRejected | notBegun | rollbackLost | crashed =>
    exact ⟨fun _ hx => (by cases hx), rfl, fun _ hx => (by cases hx), fun _ _ _ _ hx => (by cases hx)⟩
  | queryError htx | refused _ htx =>
    refine ⟨fun x hx => ?_, rfl, fun _ hx => (by cases hx), fun _ _ _ _ hx => (by cases hx)⟩
    cases hx; exact htx
  | notAttempted =>
    refine ⟨fun x hx => ?_, rfl, fun _ hx => (by cases hx), fun _ _ _ _ hx => (by cases hx)⟩
    cases hx; rfl

/-- The outcome of the event in hand is a mark on its row. -/
theorem marks (h : Inv cfg s) {w : WorkerId} {x : Tx} {event : OutboxEventRecord} {events : List OutboxEventRecord}
    {await : Await} {ws : List OutboxWrite} (hw : s.workers w = await) (hopen : s.isOpen x.id)
    (hm : Marking s x event events await ws) : ∃ v, ws = [v] ∧ v.row.id = event.id ∧ v.Marks cfg.maxAttempts event ∧
      s.table.get? event.id = some event := by
  have hbatch : Batch s.server x.id (event :: events) := by
    have hb := h.batch w x (by rw [hw]; cases hm <;> rfl) hopen
    rw [hw] at hb
    cases hm <;> exact hb
  obtain ⟨hrow, hpending⟩ := hbatch.row event List.mem_cons_self
  -- the transaction has not written the row, and sees it as it is stored
  have hview : (s.view x.id).get? event.id = some event := by
    obtain ⟨vs, hvs⟩ := Option.isSome_iff_exists.1 hopen
    rw [State.view, hvs]
    exact (Outcomes.get?_of_ne (hbatch.unmarked event List.mem_cons_self vs hvs)).trans hrow
  cases hm with
  | published =>
    have heq := markPublished_of_pending x.now hview hpending
    rw [heq]
    obtain ⟨r, hr, hmarks⟩ := markPublished_some heq cfg.maxAttempts
    obtain rfl := Option.some.inj (hview.symm.trans hr)
    exact ⟨_, rfl, rfl, hmarks, hrow⟩
  | @publishFailed input r hr =>
    obtain ⟨hid, hmax⟩ := h.failing w x event input events hw
    rw [← hid] at hview
    obtain ⟨r', rfl⟩ := Option.isSome_iff_exists.1 (markPublishFailed_of_pending hview hpending hr)
    obtain ⟨r₀, hr₀, hmarks⟩ := markPublishFailed_some hr
    obtain rfl := Option.some.inj (hview.symm.trans hr₀)
    rw [hmax] at hmarks
    exact ⟨_, rfl, hmarks.same.id, hmarks, hrow⟩

/-- The invariant is kept, and the table evolves. -/
theorem step (h : Inv cfg s) (hs : s.step cfg a = some s') : Inv cfg s' ∧ Evolves s.table s'.table := by
  -- a worker other than the one that acts has another transaction
  have hother : ∀ {w v x y}, some w ≠ some v → (s.workers w).tx? = some x → (s.workers v).tx? = some y →
      Session.poll y.id ≠ .poll x.id := by
    intro w v x y hne hx hy he
    exact hne (congrArg some (h.owner w v x y hx hy (Session.poll.inj he).symm))
  cases step_cases hs with
  | @inserted event now r server hr hserver =>
    obtain ⟨htables, hevolves⟩ := h.tables.insert cfg.maxAttempts_pos hr hserver
    have hp : server.pending = s.server.pending := (Server.autocommit_eq_some hserver).2.2.2.2
    refine ⟨h.of_step htables (fun t ht => .inl ?_) (List.Subset.refl _) none (fun v _ => ⟨rfl, fun x _ _ => ?_⟩) nofun,
      hevolves⟩
    · simpa only [State.isOpen, hp] using ht
    · exact .of_autocommit (Tables.service_ne x.id).symm hserver
  | @moved w _ await await' hw hm =>
    obtain ⟨htx, hbatch, hfetch, hfail⟩ := of_moves hm
    refine ⟨h.of_step h.tables (fun t ht => .inl ht) (List.Subset.refl _) (some w)
      (fun v hv => ⟨kept_of_ne hv, fun x _ _ => .refl _ _⟩) ?_, .refl _⟩
    rintro v hv
    obtain rfl := Option.some.inj hv
    refine ⟨fun x hx => .inl ?_, fun x hx => ?_, fun x _ _ => ?_, fun x event input events hx => ?_⟩
    · rw [hw]; exact htx x (by simpa using hx)
    · exact absurd (by simpa using hx) (hfetch x)
    · rw [goOn_self, hbatch]; exact .nil
    · exact absurd (by simpa using hx) (hfail x event input events)
  | @begun w x hw hx =>
    have hp := Server.begin_pending (h.fresh hx)
    refine ⟨h.of_step h.tables.begin (fun t ht => ?_) (List.subset_cons_of_subset _ (List.Subset.refl _))
      (some w) ?_ ?_, ?_⟩
    · by_cases htx : t = x.id
      · right; rw [htx]; exact List.mem_cons_self
      · left
        simp only [State.isOpen, hp] at ht
        rwa [Function.update_of_ne (by simpa using htx)] at ht
    · refine fun v hv => ⟨kept_of_ne hv, fun y hy _ => .of_begin fun he => ?_⟩
      exact hx (Session.poll.inj he ▸ h.known v y hy)
    · rintro v hv
      obtain rfl := Option.some.inj hv
      refine ⟨fun y hy => ?_, fun y hy _ => ?_, fun y hy _ => ?_, fun _ _ _ _ hy => ?_⟩
      · simp only [goOn_self, Await.tx?, Option.some.injEq] at hy
        subst hy; exact .inr ⟨hx, List.mem_cons_self⟩
      · simp only [goOn_self, Await.fetchPendingBatch.injEq] at hy
        subst hy
        simp only [hp, Function.update_self]
      · simp only [goOn_self]; exact .nil
      · simp only [goOn_self] at hy; cases hy
    · simp only [State.table, Server.begin_committed]; exact .refl _
  | @fetched w x events server hw hfetched hserver =>
    obtain ⟨ws₀, hp₀, -, hc, -, hp, -⟩ := Server.stage_eq_some hserver
    have hopen : s.isOpen x.id := by rw [State.isOpen, hp₀]; rfl
    have hempty := h.fetching w x hw hopen
    have hview : s.view x.id = s.table := by rw [State.view, hempty]; rfl
    rw [hview] at hfetched
    obtain ⟨htables, -⟩ := h.tables.stage hserver fun ws hws => by
      rw [List.append_nil]; exact h.tables.outcomes _ ws hws
    refine ⟨h.of_step htables (fun t ht => .inl (Server.isSome_of_stage hserver ht))
      (List.Subset.refl _) (some w) ?_ ?_, ?_⟩
    · exact fun v hv => ⟨kept_of_ne hv, fun y hy _ => .of_stage (hother hv (by rw [hw]; rfl) hy) hserver⟩
    · rintro v hv
      obtain rfl := Option.some.inj hv
      refine ⟨fun y hy => .inl ?_, fun y hy => ?_, fun y hy _ => ?_, fun y event input es hy => ?_⟩
      · rw [hw]; rw [goOn_self, tx?_forEvents] at hy; exact hy
      · simp only [goOn_self] at hy; cases events <;> cases hy
      · simp only [goOn_self, tx?_forEvents, Option.some.injEq, batch_forEvents] at hy ⊢
        subst hy; exact .fetched hempty hfetched hserver
      · simp only [goOn_self] at hy; cases events <;> cases hy
    · simp only [State.table, hc]; exact .refl _
  | @marked w x event events await ws server hw hm hserver =>
    obtain ⟨ws₀, hp₀, -, hc, -, hp, -⟩ := Server.stage_eq_some hserver
    have hopen : s.isOpen x.id := by rw [State.isOpen, hp₀]; rfl
    have htx : (s.workers w).tx? = some x := by rw [hw]; cases hm <;> rfl
    have hbatch : Batch s.server x.id (event :: events) := by
      have hb := h.batch w x htx hopen
      rw [hw] at hb
      cases hm <;> exact hb
    obtain ⟨v, rfl, hid, hmarks, hrow⟩ := h.marks hw hopen hm
    obtain ⟨htables, -⟩ := h.tables.stage hserver fun ws hws => by
      refine (h.tables.outcomes _ ws hws).append (by rw [hid]; exact hrow) hmarks ?_
      rw [hid]; exact hbatch.unmarked event List.mem_cons_self ws hws
    refine ⟨h.of_step htables (fun t ht => .inl (Server.isSome_of_stage hserver ht))
      (List.Subset.refl _) (some w) ?_ ?_, ?_⟩
    · exact fun v hv => ⟨kept_of_ne hv, fun y hy _ => .of_stage (hother hv htx hy) hserver⟩
    · rintro v' hv
      obtain rfl := Option.some.inj hv
      refine ⟨fun y hy => .inl ?_, fun y hy => ?_, fun y hy _ => ?_, fun y event input es hy => ?_⟩
      · rw [htx]; rw [goOn_self, tx?_forEvents] at hy; exact hy
      · simp only [goOn_self] at hy; cases events <;> cases hy
      · simp only [goOn_self, tx?_forEvents, Option.some.injEq, batch_forEvents] at hy ⊢
        subst hy
        exact hbatch.marked (fun u hu => by rw [List.mem_singleton.1 hu]; exact hid) hserver
      · simp only [goOn_self] at hy; cases events <;> cases hy
    · simp only [State.table, hc]; exact .refl _
  | @published w x event events now hw =>
    refine ⟨h.of_step h.tables (fun t ht => .inl ht) (List.Subset.refl _) (some w)
      (fun v hv => ⟨kept_of_ne hv, fun y _ _ => .refl _ _⟩) ?_, .refl _⟩
    rintro v hv
    obtain rfl := Option.some.inj hv
    refine ⟨fun y hy => .inl ?_, fun y hy => ?_, fun y hy hopen => ?_, fun _ _ _ _ hy => ?_⟩
    · rw [hw]; rw [goOn_self] at hy; exact hy
    · simp only [goOn_self] at hy; cases hy
    · rw [goOn_self] at hy ⊢
      have hb := h.batch w y (by rw [hw]; exact hy) hopen
      rw [hw] at hb
      exact hb
    · simp only [goOn_self] at hy; cases hy
  | @failed w x event events now error hw =>
    refine ⟨h.of_step h.tables (fun t ht => .inl ht) (List.Subset.refl _) (some w)
      (fun v hv => ⟨kept_of_ne hv, fun y _ _ => .refl _ _⟩) ?_, .refl _⟩
    rintro v hv
    obtain rfl := Option.some.inj hv
    refine ⟨fun y hy => .inl ?_, fun y hy => ?_, fun y hy hopen => ?_, fun y e input es hy => ?_⟩
    · rw [hw]; rw [goOn_self] at hy; exact hy
    · simp only [goOn_self] at hy; cases hy
    · rw [goOn_self] at hy ⊢
      have hb := h.batch w y (by rw [hw]; exact hy) hopen
      rw [hw] at hb
      exact hb
    · simp only [goOn_self, Await.markPublishFailed.injEq] at hy
      obtain ⟨-, rfl, rfl, -⟩ := hy
      exact ⟨rfl, rfl⟩
  | @committed w x hw hopen =>
    obtain ⟨htables, hevolves⟩ := h.tables.commit hopen
    refine ⟨h.of_step htables (fun t ht => .inl ?_) (List.Subset.refl _) (some w) ?_ ?_, hevolves⟩
    · exact (isOpen_of_update Server.commit_pending ht).2
    · exact fun v hv => ⟨kept_of_ne hv, fun y hy _ => .of_commit (hother hv (by rw [hw]; rfl) hy)⟩
    · exact fun v hv => .none (by obtain rfl := Option.some.inj hv; simp [Await.tx?])
  | @rolledBack w x _ _ hends =>
    have htx := tx?_of_ends hends
    refine ⟨h.of_step h.tables.rollback (fun t ht => .inl ?_) (List.Subset.refl _) (some w) ?_ ?_, .refl _⟩
    · exact (isOpen_of_update Server.rollback_pending ht).2
    · exact fun v hv => ⟨kept_of_ne hv, fun y hy _ => .of_rollback (hother hv htx hy)⟩
    · exact fun v hv => .none (by obtain rfl := Option.some.inj hv; simp [Await.tx?])
  | @inDoubt w x _ await hw hcase =>
    refine ⟨h.of_step h.tables (fun t ht => .inl ht) (List.Subset.refl _) (some w)
      (fun v hv => ⟨kept_of_ne hv, fun y _ _ => .refl _ _⟩) fun v hv => ?_, .refl _⟩
    obtain rfl := Option.some.inj hv
    rcases hcase with ⟨-, rfl⟩ | ⟨-, rfl⟩
    · exact .none (by simp [Await.tx?])
    · exact .none (by simp [Await.tx?])
  | @lateCommitted t _ hopen =>
    obtain ⟨htables, hevolves⟩ := h.tables.commit hopen
    refine ⟨h.of_step htables (fun t' ht => .inl ?_) (List.Subset.refl _) none
      (fun v _ => ⟨rfl, fun y _ hy => ?_⟩) nofun, hevolves⟩
    · exact (isOpen_of_update Server.commit_pending ht).2
    · exact .of_commit (isOpen_of_update Server.commit_pending hy).1
  | @sessionLost t hopen =>
    refine ⟨h.of_step h.tables.rollback (fun t' ht => .inl ?_) (List.Subset.refl _) none
      (fun v _ => ⟨rfl, fun y _ hy => ?_⟩) nofun, .refl _⟩
    · exact (isOpen_of_update Server.rollback_pending ht).2
    · exact .of_rollback (isOpen_of_update Server.rollback_pending hy).1

theorem of_reach {ok : State → Action → Prop} (h : (system cfg).Reach ok s) : Inv cfg s :=
  h.invariant Inv.init fun _ _ _ hi _ hs => (hi.step hs).1

end Inv

/-! ## The life of a row -/

/-- The open transaction of the worker `w` publishes the event: it is in the part of its batch that is still to be
recorded, or its outcome is recorded and not committed yet. -/
def State.InTransaction (s : State) (w : WorkerId) (id : Uuid) : Prop :=
  ∃ x, (s.workers w).tx? = some x ∧ s.isOpen x.id ∧ ((∃ e ∈ (s.workers w).batch, e.id = id) ∨
    ∃ ws, s.server.pending (.poll x.id) = some ws ∧ ∃ v ∈ ws, v.row.id = id)

variable (cfg) in
/-- What the stored rows look like, how a step may change them, and who may publish them. -/
structure Lifecycle (s : State) : Prop where
  wellFormed : ∀ r ∈ s.table.rows, r.WellFormed cfg.maxAttempts
  follows : ∀ a s', s.step cfg a = some s' → ∀ r ∈ s.table.rows, ∃ r' ∈ s'.table.rows, r.Follows r'
  final : ∀ s', (system cfg).Steps System.anyStep s s' → ∀ r ∈ s.table.rows, r.status ≠ .pending → r ∈ s'.table.rows
  exclusive : ∀ w w' id, s.InTransaction w id → s.InTransaction w' id → w = w'

section Lifecycle

variable {s s' : State} {w : WorkerId} {id : Uuid}

/-- The row of an event in an open transaction is locked by it. -/
theorem locked_of_inTransaction (h : Inv cfg s) (hin : s.InTransaction w id) :
    ∃ x, (s.workers w).tx? = some x ∧ s.server.locks id = some (.poll x.id) := by
  obtain ⟨x, hx, hopen, hcase⟩ := hin
  refine ⟨x, hx, ?_⟩
  rcases hcase with ⟨e, he, rfl⟩ | ⟨ws, hws, v, hv, rfl⟩
  · exact (h.batch w x hx hopen).locked e he
  · exact s.server.locked _ ws hws v hv

theorem follows_of_step {a : Action} (h : Inv cfg s) (hs : s.step cfg a = some s') {r : OutboxEventRecord}
    (hr : r ∈ s.table.rows) : ∃ r' ∈ s'.table.rows, r.Follows r' := by
  obtain ⟨r', hr', hfollows⟩ := (h.step hs).2.follows r.id r (Table.mem_iff.1 hr)
  exact ⟨r', Table.mem_of_get? hr', hfollows⟩

/-- A published or failed row stays as it is through every run. -/
theorem final_of_steps (h : Inv cfg s) (hsteps : (system cfg).Steps System.anyStep s s') {r : OutboxEventRecord}
    (hr : r ∈ s.table.rows) (hfinal : r.status ≠ .pending) : r ∈ s'.table.rows := by
  refine hsteps.invariant_of (I := Inv cfg) (P := fun s => r ∈ s.table.rows) h
    (fun _ _ _ hi _ hs => (hi.step hs).1) hr ?_
  intro s a s' hi hr _ hs
  obtain ⟨r', hr', hfollows⟩ := follows_of_step hi hs hr
  rwa [hfollows.final hfinal] at hr'

end Lifecycle

/-- In every reachable state the rows of outbox_events are well formed, a step moves each of them at most one attempt
on, a published or failed row stays for good, and no two workers publish one event at the same time. -/
theorem rows_lifecycle {s : State} (h : (system cfg).Reach System.anyStep s) : Lifecycle cfg s := by
  have hi := Inv.of_reach h
  refine ⟨fun r hr => ?_, fun a s' hs r hr => follows_of_step hi hs hr,
    fun s' hsteps r hr hfinal => final_of_steps hi hsteps hr hfinal, fun w w' id hw hw' => ?_⟩
  · exact hi.tables.wellFormed r.id r (Table.mem_iff.1 hr)
  · obtain ⟨x, hx, hlock⟩ := locked_of_inTransaction hi hw
    obtain ⟨x', hx', hlock'⟩ := locked_of_inTransaction hi hw'
    refine hi.owner w w' x x' hx hx' ?_
    rw [hlock] at hlock'
    exact Session.poll.inj (Option.some.inj hlock')

/-! ## Runs -/

namespace Sample

/-- An event is given up after two attempts. -/
def config : WorkerConfig where
  batchSize := 50
  maxAttempts := 2
  retryBaseDelayMs := 1000
  retryMaxDelayMs := 60000
  batchSize_pos := Nat.succ_pos 49
  maxAttempts_pos := Nat.succ_pos 1
  retryBaseDelayMs_pos := Nat.succ_pos 999
  retryMaxDelayMs_pos := Nat.succ_pos 59999

/-- An event of the payment of the runs. -/
def event (n : Nat) (eventType : String) : InsertPendingOutboxEvent where
  id := .ofNat n
  aggregateType := "payment"
  aggregateId := .ofNat 100
  eventType := eventType
  eventVersion := 1
  routingKey := eventType
  payload := .obj [("correlationId", .str "corr-0001")]

def authorized : InsertPendingOutboxEvent := event 1 "payment.authorized.v1"

def captured : InsertPendingOutboxEvent := event 2 "payment.captured.v1"

/-- The worker 0 polls in the transaction `t`, `n` seconds into the run, `publish` settles as in `outcomes`, and each
outcome is recorded, or ends the transaction. -/
def iteration (t : TxId) (n : Nat) (outcomes : List (Option PublishError)) : List Action :=
  [.poll 0, .channelObtained 0, .begun 0 ⟨t, 1000000 * n⟩, .query 0] ++
    outcomes.flatMap fun error => [.published 0 (1000 * n) error, .query 0]

def nacked : Option PublishError := some (.other "message nacked")

/-- Both events are added. Publishing the first fails, the second is confirmed; then the first fails for good. -/
def failedRun : List Action :=
  [.insertPending authorized 10, .insertPending captured 20] ++ iteration 0 1 [nacked, none] ++ [.query 0] ++
    iteration 1 10 [nacked] ++ [.query 0]

def failed : State := ((system config).runFrom (system config).init failedRun).get (by decide +kernel)

end Sample

theorem rows_lifecycle_failed : Lifecycle Sample.config Sample.failed :=
  rows_lifecycle (System.reach_of_run (Option.some_get _).symm)

end OutboxPublisherWorker

end PaymentOrchestration
