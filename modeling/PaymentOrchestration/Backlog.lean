/-
How long an event waits. The worker takes the oldest events that are due, and an event whose publish fails goes on only
until its attempts are used up; so while one worker's iterations commit, the attempts that are left of the events before
a due event bound the number of iterations until its own turn comes, whatever the broker answers and whatever is added
after it.
-/
import PaymentOrchestration.Attempts

namespace PaymentOrchestration

open Lib OutboxEventsDataAccess

namespace OutboxPublisherWorker

variable {cfg : WorkerConfig}

/-! ## What is ahead of an event -/

/-- The attempts that are left of a row, if it is to be published before `e`. -/
def attemptsLeft (maxAttempts : Nat) (e r : OutboxEventRecord) : Nat :=
  if r.status = .pending ∧ r.id ≠ e.id ∧ r.Before e then maxAttempts - r.attempts else 0

/-- The attempts that are left of the rows before `e`. -/
def ahead (maxAttempts : Nat) (e : OutboxEventRecord) (table : OutboxEvents) : Nat :=
  table.total (attemptsLeft maxAttempts e)

section Ahead

variable {M : Nat} {table : OutboxEvents} {e r : OutboxEventRecord} {ws : List OutboxWrite} {w : OutboxWrite}

/-- A row that comes after `e` is not ahead of it. -/
theorem ahead_insert (hn : table.get? r.id = none) (hlater : e.createdAt < r.createdAt) :
    ahead M e (table.insert r) = ahead M e table := by
  have hzero : attemptsLeft M e r = 0 :=
    if_neg fun h => OutboxEventRecord.not_before_of_lt hlater h.2.2
  rw [ahead, Table.total_insert hn, hzero]
  rfl

/-- A mark uses up one attempt at least. -/
theorem attemptsLeft_marks (hm : w.Marks M r) (hid : r.id ≠ e.id) (hbefore : r.Before e) (hlt : r.attempts < M) :
    attemptsLeft M e w.row + 1 ≤ attemptsLeft M e r := by
  have hbefore' : w.row.Before e ↔ r.Before e := by
    unfold OutboxEventRecord.Before
    rw [hm.same.createdAt, hm.same.id]
  have hold : attemptsLeft M e r = M - r.attempts := if_pos ⟨hm.pending, hid, hbefore⟩
  rw [hold]
  rcases hm.cases with ⟨now, rfl⟩ | ⟨r', rfl, hattempts, -, -, hcase⟩
  · rw [attemptsLeft, if_neg]
    · omega
    · rintro ⟨hs, -⟩; cases hs
  · rcases hcase with ⟨-, hs, -⟩ | ⟨hmore, hs, -⟩
    · rw [attemptsLeft, if_neg]
      · omega
      · rintro ⟨hs', -⟩
        simp only [OutboxWrite.row] at hs'
        rw [hs] at hs'; cases hs'
    · have hnew : attemptsLeft M e r' = M - r'.attempts :=
        if_pos ⟨hs, by have hsame : r'.id = r.id := hm.same.id; rw [hsame]; exact hid, hbefore'.2 hbefore⟩
      simp only [OutboxWrite.row]
      omega

/-- The writes of a transaction on rows ahead of `e` use up one attempt each. -/
theorem ahead_outcomes (ho : Outcomes M table ws) (hwf : ∀ id r, table.get? id = some r → r.WellFormed M)
    (hws : ∀ w ∈ ws, w.row.id ≠ e.id ∧ w.row.Before e) :
    ahead M e (outboxSchema.applyAll table ws) + ws.length ≤ ahead M e table := by
  induction ws generalizing table with
  | nil => exact Nat.le_refl _
  | cons w ws ih =>
    obtain ⟨r, hr, hm⟩ := ho.marks w List.mem_cons_self
    obtain ⟨hid, hbefore⟩ := hws w List.mem_cons_self
    have hnodup := ho.nodup
    rw [List.map_cons, List.nodup_cons] at hnodup
    have hbefore' : r.Before e := by
      unfold OutboxEventRecord.Before at hbefore ⊢
      rwa [hm.same.createdAt, hm.same.id] at hbefore
    have hone := attemptsLeft_marks hm (by rw [← hm.same.id]; exact hid) hbefore' ((hwf _ r hr).pending hm.pending).2.1
    have htotal : ahead M e (w.apply table) + attemptsLeft M e r = ahead M e table + attemptsLeft M e w.row := by
      rcases hm.cases with ⟨now, rfl⟩ | ⟨r', rfl, -⟩ <;> exact Table.total_put hr _
    -- the other rows are still there to be marked
    have hkept : ∀ {id}, id ≠ w.row.id → (w.apply table).get? id = table.get? id :=
      fun hne => outboxSchema.row_apply table hne.symm
    have hrest : Outcomes M (w.apply table) ws := by
      refine ⟨hnodup.2, fun v hv => ?_⟩
      obtain ⟨r', hr', hm'⟩ := ho.marks v (List.mem_cons_of_mem _ hv)
      refine ⟨r', ?_, hm'⟩
      rw [hkept fun he => hnodup.1 (List.mem_map.2 ⟨v, hv, he⟩)]
      exact hr'
    have hwf' : ∀ id r, (w.apply table).get? id = some r → r.WellFormed M := by
      intro id r' hr'
      by_cases hkey : id = w.row.id
      · subst hkey
        rw [Outcomes.apply_get? hr hm] at hr'
        cases hr'
        exact hm.wellFormed (hwf _ r hr)
      · rw [hkept hkey] at hr'
        exact hwf id r' hr'
    have hih := ih hrest hwf' fun v hv => hws v (List.mem_cons_of_mem _ hv)
    rw [Schema.applyAll_cons, List.length_cons]
    change ahead M e (outboxSchema.applyAll (w.apply table) ws) + (ws.length + 1) ≤ _
    omega

end Ahead

/-! ## Iterations that commit -/

/-- Transactions begin at `T` or later, events are added later than `e`, and no `publish` is refused before
it is sent. -/
def inTurn (T : Timestamp) (e : OutboxEventRecord) : Action → Bool
  | .insertPending _ now => e.createdAt < now
  | .begun _ x => T ≤ x.now
  | .published _ _ (some (.notAttempted _)) => false
  | _ => true

def isBegun : Action → Bool
  | .begun _ _ => true
  | _ => false

/-- The event is published, or an attempt of it has been counted since its row was `e`. -/
def State.Attempted (s : State) (e : OutboxEventRecord) : Prop :=
  ∃ r, s.table.get? e.id = some r ∧ (r.status = .published ∨ e.attempts < r.attempts)

/-- `e` waits while the worker `w` works, `n` transactions of whose have begun: those that have ended used up
`batchSize` attempts each of the rows ahead, of which there were `left` in all. -/
inductive Waits (cfg : WorkerConfig) (T : Timestamp) (e : OutboxEventRecord) (left : Nat) (s : State) :
    Nat → Await → Prop
  | between {n await} : await.tx? = none → ahead cfg.maxAttempts e s.table + n * cfg.batchSize ≤ left →
      Waits cfg T e left s n await
  | fetching {n x} : T ≤ x.now → ahead cfg.maxAttempts e s.table + n * cfg.batchSize ≤ left →
      Waits cfg T e left s (n + 1) (.fetchPendingBatch x)
  /-- The batch is full of rows that come before `e`. -/
  | others {n x ws await} : await.tx? = some x → s.server.pending (.poll x.id) = some ws →
      ws.length + await.batch.length = cfg.batchSize → (∀ v ∈ ws, v.row.id ≠ e.id ∧ v.row.Before e) →
      (∀ r ∈ await.batch, r.id ≠ e.id ∧ r.Before e) → ahead cfg.maxAttempts e s.table + n * cfg.batchSize ≤ left →
      Waits cfg T e left s (n + 1) await
  /-- The batch has `e` in it. -/
  | turn {n x ws await} : await.tx? = some x → s.server.pending (.poll x.id) = some ws →
      (e ∈ await.batch ∨ ∃ v ∈ ws, v.row.id = e.id) → Waits cfg T e left s n await

/-- What holds after the actions `pre` while the row of `e` is as it was. -/
structure Waiting (cfg : WorkerConfig) (w : WorkerId) (T : Timestamp) (e : OutboxEventRecord)
    (left : Nat) (pre : List Action) (s : State) : Prop where
  row : s.table.get? e.id = some e
  only : ∀ t, s.isOpen t → ∃ x, (s.workers w).tx? = some x ∧ x.id = t
  goesOn : ∀ x, s.workers w ≠ .rollback x
  waits : Waits cfg T e left s (pre.countP isBegun) (s.workers w)

/-! ### One step -/

section Steps

variable {s s' : State} {a : Action} {w : WorkerId} {x : Tx} {T : Timestamp} {e : OutboxEventRecord}
  {left n : Nat} {await await' : Await}

theorem attempted_of_evolves (h : s.Attempted e) (hevolves : Evolves s.table s'.table) : s'.Attempted e := by
  obtain ⟨r, hr, hcase⟩ := h
  obtain ⟨r', hr', hfollows⟩ := hevolves.follows _ r hr
  refine ⟨r', hr', ?_⟩
  rcases hcase with hpublished | hattempts
  · rw [hfollows.final fun hp => by rw [hp] at hpublished; cases hpublished]
    exact .inl hpublished
  · exact .inr (hattempts.trans_le hfollows.attempts.1)

/-- A commit of a transaction that has marked `e`. -/
theorem attempted_of_commit {ws : List OutboxWrite} (ho : Outcomes cfg.maxAttempts s.table ws)
    (hrow : s.table.get? e.id = some e)
    (hmarked : ∃ v ∈ ws, v.row.id = e.id) (htable : s'.table = outboxSchema.applyAll s.table ws) : s'.Attempted e := by
  obtain ⟨v, hv, hid⟩ := hmarked
  rcases ho.row hrow with ⟨-, hne⟩ | ⟨u, -, hm, hu⟩
  · exact absurd hid (hne v hv)
  · refine ⟨u.row, by rw [htable]; exact hu, ?_⟩
    rcases hm.cases with ⟨now, rfl⟩ | ⟨r', rfl, hattempts, -⟩
    · exact .inl rfl
    · exact .inr (by simp only [OutboxWrite.row]; omega)

/-- The worker goes on without a statement of its own. -/
theorem Waits.of_same (h : Waits cfg T e left s n await)
    (htable : ahead cfg.maxAttempts e s'.table = ahead cfg.maxAttempts e s.table)
    (hpending : ∀ x, await.tx? = some x → s'.server.pending (.poll x.id) = s.server.pending (.poll x.id)) :
    Waits cfg T e left s' n await := by
  cases h with
  | between htx hahead => exact .between htx (by rw [htable]; exact hahead)
  | fetching hT hahead => exact .fetching hT (by rw [htable]; exact hahead)
  | others htx hp hlength hws hbatch hahead =>
    exact .others htx ((hpending _ htx).trans hp) hlength hws hbatch (by rw [htable]; exact hahead)
  | turn htx hp hmem => exact .turn htx ((hpending _ htx).trans hp) hmem

/-- What is left while the worker is not in a transaction. -/
theorem Waits.ahead_le (h : Waits cfg T e left s n await) (hnone : await.tx? = none) :
    ahead cfg.maxAttempts e s.table + n * cfg.batchSize ≤ left := by
  cases h with
  | between _ hahead => exact hahead
  | fetching => cases hnone
  | others htx => rw [hnone] at htx; cases htx
  | turn htx => rw [hnone] at htx; cases htx

/-- Where a worker may be that has a batch in hand. -/
theorem Waits.batch {event : OutboxEventRecord} {events : List OutboxEventRecord} (h : Waits cfg T e left s n await)
    (htx : await.tx? = some x) (hbatch : await.batch = event :: events) (htx' : await'.tx? = some x)
    (hbatch' : await'.batch = event :: events) : Waits cfg T e left s n await' := by
  cases h with
  | between hnone => rw [hnone] at htx; cases htx
  | fetching => cases hbatch
  | others hx hp hlength hws hrows hahead =>
    obtain rfl := Option.some.inj (hx.symm.trans htx)
    rw [hbatch, ← hbatch'] at hlength hrows
    exact .others htx' hp hlength hws hrows hahead
  | turn hx hp hmem =>
    obtain rfl := Option.some.inj (hx.symm.trans htx)
    rw [hbatch, ← hbatch'] at hmem
    exact .turn htx' hp hmem

/-- A fetch that is not refused. -/
theorem fetch_of_step (hw : s.workers w = .fetchPendingBatch x) (hs : s.step cfg (.query w) = some s')
    (hrollback : ∀ y, s'.workers w ≠ .rollback y) :
    ∃ events server, fetchPendingBatch (s.view x.id) cfg.batchSize x.now (s.server.free (.poll x.id)) = .ok events ∧
      s.server.stage (.poll x.id) [] (events.map (·.id)) = some server ∧
      s' = { s.goOn w (forEvents x events) with server := server } := by
  simp only [State.step, hw, State.statement] at hs
  cases hf : fetchPendingBatch (s.view x.id) cfg.batchSize x.now (s.server.free (.poll x.id)) with
  | error error =>
    rw [hf] at hs
    cases hs
    exact absurd (goOn_self ..) (hrollback x)
  | ok events =>
    rw [hf] at hs
    obtain ⟨server, hserver, rfl⟩ := Option.map_eq_some_iff.1 hs
    exact ⟨events, server, rfl, hserver, rfl⟩

/-- The batch has `e` in it, or is full of rows that come before `e`. -/
theorem Waits.of_fetched {events : List OutboxEventRecord} (h : Waits cfg T e left s n (.fetchPendingBatch x))
    (hi : Inv cfg s)
    (hw : s.workers w = .fetchPendingBatch x) (hrow : s.table.get? e.id = some e) (honly : ∀ t, s.isOpen t → x.id = t)
    (hdue : eligible T e = true) (hopen : s.isOpen x.id)
    (hfetch : fetchPendingBatch (s.view x.id) cfg.batchSize x.now (s.server.free (.poll x.id)) = .ok events)
    (htable : s'.table = s.table) (hp : s'.server.pending (.poll x.id) = some []) :
    Waits cfg T e left s' n (forEvents x events) := by
  have hempty := hi.fetching w x hw hopen
  have hview : s.view x.id = s.table := by rw [State.view, hempty]; rfl
  rw [hview] at hfetch
  by_cases hmem : e ∈ events
  · exact .turn (tx?_forEvents ..) hp (.inl (by rw [batch_forEvents]; exact hmem))
  cases h with
  | between hnone => cases hnone
  | others hx hws hlength =>
    -- nothing has been fetched yet
    cases hx
    obtain rfl := Option.some.inj (hempty.symm.trans hws)
    exact absurd hlength (Nat.ne_of_lt cfg.batchSize_pos)
  | turn hx hws hcase =>
    cases hx
    obtain rfl := Option.some.inj (hempty.symm.trans hws)
    rcases hcase with hbatch | ⟨v, hv, -⟩
    · cases hbatch
    · cases hv
  | fetching hT hahead =>
    have hstored : e ∈ s.table.rows := Table.mem_of_get? hrow
    have hnow : eligible x.now e = true := by
      simp only [eligible, decide_eq_true_eq] at hdue ⊢
      refine ⟨hdue.1, ?_⟩
      cases hnext : e.nextRetryAt with
      | none => rfl
      | some t =>
        rw [hnext] at hdue
        simp only [Option.all_some, decide_eq_true_eq] at hdue ⊢
        exact hdue.2.trans hT
    -- a lock on the row is of the transaction itself, as there is no other
    have hfree : s.server.free (.poll x.id) e.id = true := by
      rw [Server.free_iff]
      cases hlock : s.server.locks e.id with
      | none => exact .inl rfl
      | some session =>
        have hpending := s.server.isOpen _ _ hlock
        cases session with
        | service => rw [hi.tables.service] at hpending; cases hpending
        | poll t => rw [honly t hpending]; exact .inr rfl
    have hf := fetched hfetch
    refine .others (tx?_forEvents ..) hp ?_ (List.forall_mem_nil _) (fun r hr => ?_) (by rw [htable]; exact hahead)
    · rw [batch_forEvents, List.length_nil, Nat.zero_add]
      exact length_of_left_out hfetch hstored hnow hfree hmem
    · rw [batch_forEvents] at hr
      refine ⟨fun hid => hmem ?_, ?_⟩
      · rwa [← s.table.inj (hf.mem r hr).1 hstored hid]
      · by_contra hnot
        exact hmem (hf.closed r hr e hstored hnow hfree hnot)

/-- The outcome of the event in hand is recorded. -/
theorem Waits.of_marked {event : OutboxEventRecord} {events : List OutboxEventRecord}
    {ws : List OutboxWrite} {v : OutboxWrite}
    (h : Waits cfg T e left s n await) (htx : await.tx? = some x) (hbatch : await.batch = event :: events)
    (hpending : s.server.pending (.poll x.id) = some ws) (hid : v.row.id = event.id)
    (hm : v.Marks cfg.maxAttempts event)
    (htable : s'.table = s.table) (hp : s'.server.pending (.poll x.id) = some (ws ++ [v])) :
    Waits cfg T e left s' n (forEvents x events) := by
  cases h with
  | between hnone => rw [hnone] at htx; cases htx
  | fetching => cases hbatch
  | others hx hws hlength hmarked hrows hahead =>
    obtain rfl := Option.some.inj (hx.symm.trans htx)
    obtain rfl := Option.some.inj (hpending.symm.trans hws)
    rw [hbatch] at hlength hrows
    obtain ⟨hne, hbefore⟩ := hrows event List.mem_cons_self
    refine .others (tx?_forEvents ..) hp ?_ (fun u hu => ?_) (fun r hr => ?_) (by rw [htable]; exact hahead)
    · rw [batch_forEvents, List.length_append, List.length_singleton]
      rw [List.length_cons] at hlength
      omega
    · rcases List.mem_append.1 hu with hu | hu
      · exact hmarked u hu
      · obtain rfl := List.mem_singleton.1 hu
        refine ⟨by rw [hid]; exact hne, ?_⟩
        unfold OutboxEventRecord.Before at hbefore ⊢
        rwa [hm.same.createdAt, hm.same.id]
    · rw [batch_forEvents] at hr
      exact hrows r (List.mem_cons_of_mem _ hr)
  | turn hx hws hcase =>
    obtain rfl := Option.some.inj (hx.symm.trans htx)
    obtain rfl := Option.some.inj (hpending.symm.trans hws)
    refine .turn (tx?_forEvents ..) hp ?_
    rw [batch_forEvents]
    rcases hcase with hmem | ⟨u, hu, hue⟩
    · rw [hbatch] at hmem
      rcases List.mem_cons.1 hmem with rfl | hmem
      · exact .inr ⟨v, List.mem_append_right _ List.mem_cons_self, hid⟩
      · exact .inl hmem
    · exact .inr ⟨u, List.mem_append_left _ hu, hue⟩

/-- The transaction commits: it attempted `e`, or used up `batchSize` attempts of the rows ahead. -/
theorem Waits.of_committed {ws : List OutboxWrite} (h : Waits cfg T e left s n (.commit x)) (hi : Inv cfg s)
    (hrow : s.table.get? e.id = some e) (hpending : s.server.pending (.poll x.id) = some ws)
    (htable : s'.table = outboxSchema.applyAll s.table ws) :
    s'.Attempted e ∨ s'.table.get? e.id = some e ∧ Waits cfg T e left s' n .idle := by
  have ho := hi.tables.outcomes x.id ws hpending
  cases h with
  | between hnone => cases hnone
  | @others m y vs _ hx hws hlength hmarked _ hahead =>
    cases hx
    obtain rfl := Option.some.inj (hpending.symm.trans hws)
    have hused : ahead cfg.maxAttempts e (outboxSchema.applyAll s.table ws) + ws.length ≤
        ahead cfg.maxAttempts e s.table :=
      ahead_outcomes ho hi.tables.wellFormed hmarked
    refine .inr ⟨by rw [htable, Outcomes.get?_of_ne fun v hv => (hmarked v hv).1]; exact hrow, .between rfl ?_⟩
    have hsize : ws.length = cfg.batchSize := hlength
    rw [htable, Nat.add_mul, Nat.one_mul]
    omega
  | turn hx hws hcase =>
    cases hx
    obtain rfl := Option.some.inj (hpending.symm.trans hws)
    rcases hcase with hmem | hmarked
    · cases hmem
    · exact .inl (attempted_of_commit ho hrow hmarked htable)

end Steps

namespace Waiting

variable {s s' : State} {a : Action} {w : WorkerId} {T : Timestamp} {e : OutboxEventRecord}
  {left : Nat} {pre : List Action}

/-- A step in which no transaction of the workers begins. -/
theorem snoc (ha : isBegun a = false) (hrow : s'.table.get? e.id = some e)
    (honly : ∀ t, s'.isOpen t → ∃ x, (s'.workers w).tx? = some x ∧ x.id = t) (hgoes : ∀ x, s'.workers w ≠ .rollback x)
    (hwaits : Waits cfg T e left s' (pre.countP isBegun) (s'.workers w)) : Waiting cfg w T e left (pre ++ [a]) s' := by
  refine ⟨hrow, honly, hgoes, ?_⟩
  rw [List.countP_append, List.countP_singleton, ha]
  exact hwaits

/-- Until an attempt of `e` is counted, it waits. -/
theorem step (h : Waiting cfg w T e left pre s) (hi : Inv cfg s) (hdue : eligible T e = true)
    (hfault : faultless cfg w s a = true)
    (hturn : inTurn T e a = true) (hs : s.step cfg a = some s') :
    s'.Attempted e ∨ Waiting cfg w T e left (pre ++ [a]) s' := by
  cases step_cases hs with
  | @inserted event now r server hr hserver =>
    obtain ⟨-, hc, -, -, hp⟩ := Server.autocommit_eq_some hserver
    have htable : server.committed = s.table.insert r := hc
    refine .inr (snoc rfl ?_ (fun t ht => h.only t ?_) h.goesOn (h.waits.of_same ?_ fun x _ => by rw [hp]))
    · simp only [State.table, htable]
      rw [Table.get?_insert_of_ne]
      · exact h.row
      · intro hid
        have hnew := hr.new
        rw [hid, h.row] at hnew; cases hnew
    · simpa only [State.isOpen, hp] using ht
    · simp only [State.table, htable]
      exact ahead_insert hr.new (by rw [hr.createdAt]; exact of_decide_eq_true hturn)
  | @moved v _ await await' hv hm =>
    -- the worker stays out of a transaction
    suffices hout : isBegun a = false ∧ v = w ∧ await.tx? = none ∧ await'.tx? = none by
      obtain ⟨ha, rfl, hnone, hnone'⟩ := hout
      have hwaits := h.waits
      rw [hv] at hwaits
      refine .inr (snoc ha h.row (fun t ht => ?_) (fun x hx => ?_) ?_)
      · obtain ⟨x, hx, -⟩ := h.only t ht
        rw [hv, hnone] at hx; cases hx
      · rw [goOn_self] at hx
        rw [hx] at hnone'; cases hnone'
      · rw [goOn_self]
        exact .between hnone' (hwaits.ahead_le hnone)
    cases hm with
    | polled | channelObtained | channelRejected => exact ⟨rfl, of_decide_eq_true hfault, rfl, rfl⟩
    | refused hstatement =>
      simp only [faultless, hv, hstatement, succeeds, Bool.and_false] at hfault
      cases hfault
    | notAttempted => cases hturn
    | notBegun | queryError | rollbackLost | crashed => cases hfault
  | @begun v x hv hx =>
    obtain rfl : v = w := of_decide_eq_true hfault
    have hp := Server.begin_pending (hi.fresh hx)
    refine .inr ⟨?_, fun t ht => ⟨x, by simp [Await.tx?], ?_⟩, fun y => by simp, ?_⟩
    · simp only [State.table, Server.begin_committed]; exact h.row
    · by_contra hne
      simp only [State.isOpen, hp] at ht
      rw [Function.update_of_ne (by simpa using fun he : t = x.id => hne he.symm)] at ht
      obtain ⟨y, hy, -⟩ := h.only t ht
      rw [hv] at hy; cases hy
    · have hwaits := h.waits
      rw [hv] at hwaits
      rw [List.countP_append]
      simp only [goOn_self]
      refine .fetching (of_decide_eq_true hturn) ?_
      simp only [State.table, Server.begin_committed]
      exact hwaits.ahead_le rfl
  | @fetched v x events server hv hf hserver =>
    obtain rfl : v = w := (by simp [faultless] at hfault; exact hfault.1)
    obtain ⟨events, server, hfetch, hserver, heq⟩ := fetch_of_step hv hs fun y => by
      simp only [goOn_self]
      exact Counted.forEvents_ne_rollback
    rw [heq]
    obtain ⟨ws₀, hp₀, -, hc, -, hp, -⟩ := Server.stage_eq_some hserver
    have hopen : s.isOpen x.id := by rw [State.isOpen, hp₀]; rfl
    obtain rfl := Option.some.inj ((hi.fetching v x hv hopen).symm.trans hp₀)
    have honly : ∀ t, s.isOpen t → x.id = t := fun t ht => by
      obtain ⟨y, hy, hyt⟩ := h.only t ht
      rw [hv] at hy; cases hy
      exact hyt
    have hwaits := h.waits
    rw [hv] at hwaits
    refine .inr (snoc rfl (by simp only [State.table, hc]; exact h.row) (fun t ht => ?_) (fun y => ?_) ?_)
    · exact ⟨x, by simp, honly t (Server.isSome_of_stage hserver ht)⟩
    · simp only [goOn_self]
      exact Counted.forEvents_ne_rollback
    · simp only [goOn_self]
      exact hwaits.of_fetched hi hv h.row honly hdue hopen hfetch hc (by simp only [hp, Function.update_self]; rfl)
  | @marked v x event events await ws server hv hm hserver =>
    obtain rfl : v = w := (by simp [faultless] at hfault; exact hfault.1)
    obtain ⟨ws₀, hp₀, -, hc, -, hp, -⟩ := Server.stage_eq_some hserver
    have hopen : s.isOpen x.id := by rw [State.isOpen, hp₀]; rfl
    have htx : await.tx? = some x := by cases hm <;> rfl
    have hbatch : await.batch = event :: events := by cases hm <;> rfl
    obtain ⟨u, rfl, hid, hmarks, -⟩ := hi.marks hv hopen hm
    have hwaits := h.waits
    rw [hv] at hwaits
    refine .inr (snoc rfl (by simp only [State.table, hc]; exact h.row) (fun t ht => ?_) (fun y => ?_) ?_)
    · obtain ⟨y, hy, hyt⟩ := h.only t (Server.isSome_of_stage hserver ht)
      rw [hv, htx] at hy; cases hy
      exact ⟨x, by simp, hyt⟩
    · simp only [goOn_self]
      exact Counted.forEvents_ne_rollback
    · simp only [goOn_self]
      exact hwaits.of_marked htx hbatch hp₀ hid hmarks hc (by simp only [hp, Function.update_self])
  | @published v x event events now hv =>
    obtain rfl : v = w := of_decide_eq_true hfault
    have hwaits := h.waits
    rw [hv] at hwaits
    refine .inr (snoc rfl h.row (fun t ht => ?_) (fun y => by simp) ?_)
    · obtain ⟨y, hy, hyt⟩ := h.only t ht
      rw [hv] at hy
      exact ⟨y, by simp only [goOn_self]; exact hy, hyt⟩
    · simp only [goOn_self]
      exact (hwaits.batch rfl rfl rfl rfl).of_same rfl fun _ _ => rfl
  | @failed v x event events now error hv =>
    obtain rfl : v = w := of_decide_eq_true hfault
    have hwaits := h.waits
    rw [hv] at hwaits
    refine .inr (snoc rfl h.row (fun t ht => ?_) (fun y => by simp) ?_)
    · obtain ⟨y, hy, hyt⟩ := h.only t ht
      rw [hv] at hy
      exact ⟨y, by simp only [goOn_self]; exact hy, hyt⟩
    · simp only [goOn_self]
      exact (hwaits.batch rfl rfl rfl rfl).of_same rfl fun _ _ => rfl
  | @committed v x hv hopen =>
    obtain rfl : v = w := (by simp [faultless] at hfault; exact hfault.1)
    obtain ⟨ws, hws⟩ := Option.isSome_iff_exists.1 hopen
    have hwaits := h.waits
    rw [hv] at hwaits
    have htable : ({ s.goOn v .idle with server := s.server.commit (.poll x.id) } : State).table =
      outboxSchema.applyAll s.table ws := Server.commit_committed hws
    rcases hwaits.of_committed hi h.row hws htable with hattempted | ⟨hrow, hidle⟩
    · exact .inl hattempted
    · refine .inr (snoc rfl hrow (fun t ht => ?_) (fun y => by simp) (by simp only [goOn_self]; exact hidle))
      obtain ⟨hne, ht⟩ := Inv.isOpen_of_update Server.commit_pending ht
      obtain ⟨y, hy, hyt⟩ := h.only t ht
      rw [hv] at hy; cases hy
      exact absurd (by rw [hyt]) hne
  | @rolledBack v x _ hcase _ =>
    rcases hcase with ⟨hv, rfl⟩ | rfl
    · obtain rfl : v = w := (by simp [faultless] at hfault; exact hfault.1)
      exact absurd hv (h.goesOn x)
    · cases hfault
  | @inDoubt v x _ await hv hcase => rcases hcase with ⟨rfl, -⟩ | ⟨rfl, -⟩ <;> cases hfault
  | lateCommitted => cases hfault
  | sessionLost => cases hfault

end Waiting

/-- An event that is due is attempted in its turn. From a state in which no poll transaction is open, while
one worker is at work and nothing fails but publishing, every iteration that leaves the event out uses up
`batchSize` attempts that were left of the events before it; so it is attempted, or published, once more
transactions have begun than these attempts fill. -/
theorem attempted_in_turn {s s' : State} {w : WorkerId} {T : Timestamp} {e : OutboxEventRecord} {as : List Action}
    (h : (system cfg).Reach System.anyStep s) (hclosed : ∀ t, s.isOpen t = false) (hidle : (s.workers w).tx? = none)
    (hstored : e ∈ s.table.rows) (hdue : eligible T e = true)
    (hrun : (system cfg).Trace (fun s a => (faultless cfg w s a && inTurn T e a) = true) s as s')
    (hidle' : (s'.workers w).tx? = none)
    (hlong : ahead cfg.maxAttempts e s.table < as.countP isBegun * cfg.batchSize) : s'.Attempted e := by
  have hinit : Waiting cfg w T e (ahead cfg.maxAttempts e s.table) [] s := by
    refine ⟨Table.mem_iff.1 hstored, fun t ht => ?_, fun x hx => ?_, ?_⟩
    · rw [hclosed t] at ht; cases ht
    · rw [hx] at hidle; cases hidle
    · exact .between hidle (by simp)
  have hend : Inv cfg s' ∧ (s'.Attempted e ∨ Waiting cfg w T e (ahead cfg.maxAttempts e s.table) as s') := by
    refine hrun.history (P := fun pre s' => Inv cfg s' ∧ (s'.Attempted e ∨ Waiting cfg w T e _ pre s'))
      ⟨Inv.of_reach h, .inr hinit⟩ ?_
    rintro pre t a t' ⟨hi, hcase⟩ hok hs
    rw [Bool.and_eq_true] at hok
    refine ⟨(hi.step hs).1, ?_⟩
    rcases hcase with hattempted | hwaiting
    · exact .inl (attempted_of_evolves hattempted (hi.step hs).2)
    · exact hwaiting.step hi hdue hok.1 hok.2 hs
  rcases hend.2 with hattempted | hwaiting
  · exact hattempted
  · have hwaits := hwaiting.waits
    have hle := hwaits.ahead_le hidle'
    omega

namespace Sample

/-- Batches of one event. -/
def single : WorkerConfig := { config with batchSize := 1, batchSize_pos := Nat.succ_pos 0 }

/-- Two events are there. -/
def queued : State :=
  ((system single).runFrom (system single).init [.insertPending authorized 10, .insertPending captured 20]).get
    (by decide +kernel)

/-- The first is given up after two attempts, while a third one is added; then it is the turn of the second. -/
def turns : List Action :=
  iteration 0 1 [nacked] ++ [.query 0, .insertPending (event 3 "payment.failed.v1") 30] ++
    iteration 1 10 [nacked] ++ [.query 0] ++ iteration 2 20 [none] ++ [.query 0]

def second : OutboxEventRecord := (queued.table.get? captured.id).get (by decide +kernel)

def served : State :=
  ((system single).runWhile (fun s a => faultless single 0 s a && inTurn 20 second a) queued turns).get
    (by decide +kernel)

theorem queued_reach : (system single).Reach System.anyStep queued := System.reach_of_run (Option.some_get _).symm

theorem served_trace :
    (system single).Trace (fun s a => (faultless single 0 s a && inTurn 20 second a) = true) queued turns served :=
  System.trace_of_runWhile _ (Option.some_get _).symm

end Sample

theorem attempted_in_turn_served : ahead Sample.single.maxAttempts Sample.second Sample.queued.table = 2 ∧
    Sample.turns.countP isBegun = 3 ∧ Sample.served.Attempted Sample.second := by
  have hahead : ahead Sample.single.maxAttempts Sample.second Sample.queued.table = 2 := by decide +kernel
  have hbegun : Sample.turns.countP isBegun = 3 := by decide +kernel
  have hstored : Sample.second ∈ Sample.queued.table.rows := Table.mem_of_get? (Option.some_get _).symm
  have hlong : ahead Sample.single.maxAttempts Sample.second Sample.queued.table <
      Sample.turns.countP isBegun * Sample.single.batchSize := by
    rw [hahead, hbegun]
    decide
  exact ⟨hahead, hbegun, attempted_in_turn Sample.queued_reach (fun _ => rfl) rfl hstored (by decide +kernel)
    Sample.served_trace (by decide +kernel) hlong⟩

end OutboxPublisherWorker

end PaymentOrchestration
