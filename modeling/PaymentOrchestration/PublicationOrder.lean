/-
In which order the events of one payment are published. A batch is sorted and closed under earlier rows, so that an
event does not come to its turn before an earlier one of which no attempt was made; `creation_handed_first` says so
for a creation event and a later capture event, and `not_accepted_in_order` that the broker may all the same accept
the later one first.
-/
import PaymentOrchestration.Attempts
import PaymentOrchestration.WorkerHistory

namespace PaymentOrchestration

open Lib OutboxEventsDataAccess

namespace OutboxPublisherWorker

/-! ## Runs -/

/-- A poll transaction begins only when no other is open. -/
def oneTransaction (s : State) : Action → Bool
  | .begun _ _ => s.transactions.all fun t => !s.isOpen t
  | _ => true

/-- The event `capture` is added when the event `creation` is committed, and was created at an earlier time. -/
def captureFollows (creation capture : Uuid) (s : State) : Action → Bool
  | .insertPending event now =>
    if event.id = capture then (s.table.get? creation).any fun r => r.createdAt < now else true
  | _ => true

/-- An attempt was made to publish the event, and its outcome is known. -/
def State.Handed (s : State) (id : Uuid) : Prop := ∃ h ∈ s.handed, h.1.id = id

variable {cfg : WorkerConfig} {creation capture : Uuid}

/-! ## One open transaction -/

/-- At most one poll transaction is open. -/
def Solo (s : State) : Prop := ∀ t t', s.isOpen t → s.isOpen t' → t = t'

theorem Solo.step {s s' : State} {a : Action} (h : Solo s) (hi : Inv cfg s) (hone : oneTransaction s a = true)
    (hs : s.step cfg a = some s') : Solo s' := by
  -- a step that opens no transaction
  have hsub : (∀ t, s'.isOpen t → s.isOpen t) → Solo s' := fun hsub t t' ht ht' => h t t' (hsub t ht) (hsub t' ht')
  cases step_cases hs with
  | inserted _ hserver =>
    refine hsub fun t ht => ?_
    simpa only [State.isOpen, (Server.autocommit_eq_some hserver).2.2.2.2] using ht
  | moved | published | failed | inDoubt => exact hsub fun t ht => ht
  | @begun w x hw hx =>
    have hopen : ∀ {t}, ((s.server.begin (.poll x.id)).pending (.poll t)).isSome → t = x.id := by
      intro t ht
      rw [Server.begin_pending (hi.fresh hx)] at ht
      by_contra htx
      rw [Function.update_of_ne (by simpa using htx)] at ht
      have := List.all_eq_true.1 hone t (hi.opened t ht)
      simp [State.isOpen, ht] at this
    exact fun t t' ht ht' => (hopen ht).trans (hopen ht').symm
  | fetched _ _ hserver => exact hsub fun t ht => Server.isSome_of_stage hserver ht
  | marked _ _ hserver => exact hsub fun t ht => Server.isSome_of_stage hserver ht
  | committed | lateCommitted => exact hsub fun t ht => (Inv.isOpen_of_update Server.commit_pending ht).2
  | rolledBack | sessionLost => exact hsub fun t ht => (Inv.isOpen_of_update Server.rollback_pending ht).2

/-! ## The order -/

/-- The batch is sorted, and an attempt to publish the creation event has been made, or it comes earlier in the batch
than the capture event. -/
structure InOrder (creation capture : Uuid) (s : State) (events : List OutboxEventRecord) : Prop where
  sorted : events.Pairwise OutboxEventRecord.Before
  earlier : ∀ e ∈ events, e.id = capture → s.Handed creation ∨ ∃ c ∈ events, c.id = creation ∧ c.createdAt < e.createdAt

/-- What holds in a run with one poll transaction at a time. -/
structure Ordered (creation capture : Uuid) (s : State) : Prop where
  stored : ∀ r, s.table.get? capture = some r → ∃ c, s.table.get? creation = some c ∧ c.createdAt < r.createdAt
  fresh : ¬ s.Handed creation → ∀ c, s.table.get? creation = some c → c.status = .pending ∧ c.nextRetryAt = none
  unmarked : ¬ s.Handed creation → ∀ t ws, s.server.pending (.poll t) = some ws → ∀ v ∈ ws, v.row.id ≠ creation
  inHand : ∀ w x event events, (s.workers w = .markPublished x event events ∨
    ∃ input, s.workers w = .markPublishFailed x event input events) → s.Handed event.id
  batch : ∀ w, InOrder creation capture s (s.workers w).batch
  handed : s.Handed capture → s.Handed creation

namespace Ordered

variable {s s' : State} {a : Action}

theorem init : Ordered creation capture State.initial where
  stored := fun _ h => by cases h
  fresh := fun _ _ h => by cases h
  unmarked := fun _ _ _ h => by cases h
  inHand := fun _ _ _ _ h => by rcases h with h | ⟨_, h⟩ <;> cases h
  batch := fun _ => ⟨.nil, List.forall_mem_nil _⟩
  handed := fun h => by obtain ⟨_, h, -⟩ := h; cases h

/-- When the capture event comes to its turn, an attempt to publish the creation event has been made. -/
theorem handed_of_publish {w : WorkerId} {x : Tx} {event : OutboxEventRecord} {events : List OutboxEventRecord}
    (h : Ordered creation capture s) (hw : s.workers w = .publish x event events) (hid : event.id = capture) :
    s.Handed creation := by
  have hbatch := h.batch w
  rw [hw] at hbatch
  rcases hbatch.earlier event List.mem_cons_self hid with hh | ⟨c, hc, -, hlt⟩
  · exact hh
  · -- an earlier event of the batch would come before the one in hand
    rcases List.mem_cons.1 hc with rfl | hc
    · exact absurd hlt (lt_irrefl _)
    · exact absurd ((List.pairwise_cons.1 hbatch.sorted).1 c hc) (OutboxEventRecord.not_before_of_lt hlt)

/-- What becomes of the order when the outcome of an attempt is known. -/
theorem of_handed {w : WorkerId} {x : Tx} {event : OutboxEventRecord} {events : List OutboxEventRecord} {await : Await}
    {outcome : Option String} (h : Ordered creation capture s) (hw : s.workers w = .publish x event events)
    (hbatch : await.batch = event :: events) (hmark : ∀ y e es, (await = .markPublished y e es ∨
      ∃ input, await = .markPublishFailed y e input es) → e = event) :
    Ordered creation capture { s.goOn w await with handed := s.handed ++ [(event, outcome)] } := by
  have hmono : ∀ {id}, s.Handed id → State.Handed { s.goOn w await with handed := s.handed ++ [(event, outcome)] } id :=
    fun ⟨y, hy, hid⟩ => ⟨y, List.mem_append_left _ hy, hid⟩
  have hself : State.Handed { s.goOn w await with handed := s.handed ++ [(event, outcome)] } event.id :=
    ⟨_, List.mem_append_right _ List.mem_cons_self, rfl⟩
  refine ⟨h.stored, fun hn => h.fresh fun hh => hn (hmono hh), fun hn => h.unmarked fun hh => hn (hmono hh),
    fun v y e es hv => ?_, fun v => ?_, fun hh => ?_⟩
  · by_cases hvw : v = w
    · subst hvw
      simp only [goOn_self] at hv
      rw [hmark y e es hv]; exact hself
    · simp only [goOn_of_ne hvw] at hv
      exact hmono (h.inHand v y e es hv)
  · by_cases hvw : v = w
    · subst hvw
      have hb := h.batch v
      simp only [goOn_self]
      rw [hbatch]
      rw [hw] at hb
      exact ⟨hb.sorted, fun e he hid => (hb.earlier e he hid).imp_left hmono⟩
    · simp only [goOn_of_ne hvw]
      exact ⟨(h.batch v).sorted, fun e he hid => ((h.batch v).earlier e he hid).imp_left hmono⟩
  · obtain ⟨y, hy, hid⟩ := hh
    rcases List.mem_append.1 hy with hy | hy
    · exact hmono (h.handed ⟨y, hy, hid⟩)
    · obtain rfl := List.mem_singleton.1 hy
      exact hmono (h.handed_of_publish hw hid)

/-- A worker that has a batch in order, and does not mark an event. -/
structure Waits (creation capture : Uuid) (s : State) (await : Await) : Prop where
  batch : InOrder creation capture s await.batch
  unmarked : ∀ x e es, await ≠ .markPublished x e es ∧ ∀ input, await ≠ .markPublishFailed x e input es

theorem Waits.of_nil {await : Await} (h : await.batch = [])
    (hmark : ∀ x e input es, await ≠ .markPublishFailed x e input es) :
    Waits creation capture s await := by
  refine ⟨by rw [h]; exact ⟨.nil, List.forall_mem_nil _⟩, fun x e es => ⟨?_, fun input => hmark x e input es⟩⟩
  rintro rfl
  cases h

theorem Waits.idle : Waits creation capture s .idle := .of_nil rfl fun _ _ _ _ h => by cases h

theorem Waits.forEvents {x : Tx} {events : List OutboxEventRecord} (h : InOrder creation capture s events) :
    Waits creation capture s (forEvents x events) := by
  refine ⟨by rw [batch_forEvents]; exact h, fun y e es => ?_⟩
  cases events <;> exact ⟨fun h => (nomatch h), fun _ h => nomatch h⟩

/-- A step that leaves the history of attempts as it is. -/
theorem of_same (h : Ordered creation capture s) (hhanded : s'.handed = s.handed)
    (hworkers : ∀ v, s'.workers v = s.workers v ∨ Waits creation capture s (s'.workers v))
    (hunmarked : ¬ s.Handed creation → ∀ t ws, s'.server.pending (.poll t) = some ws → ∀ v ∈ ws, v.row.id ≠ creation)
    (hstored : ∀ r, s'.table.get? capture = some r → ∃ c, s'.table.get? creation = some c ∧ c.createdAt < r.createdAt)
    (hfresh : ¬ s.Handed creation → ∀ c, s'.table.get? creation = some c → c.status = .pending ∧ c.nextRetryAt = none) :
    Ordered creation capture s' := by
  have hiff : ∀ {id}, s'.Handed id ↔ s.Handed id := by
    intro id
    unfold State.Handed
    rw [hhanded]
  have horder : ∀ {es}, InOrder creation capture s es → InOrder creation capture s' es :=
    fun ho => ⟨ho.sorted, fun e he hid => (ho.earlier e he hid).imp_left hiff.2⟩
  refine ⟨hstored, by rw [hiff]; exact hfresh, by rw [hiff]; exact hunmarked, fun v x e es hv => ?_, fun v => ?_,
    by rw [hiff, hiff]; exact h.handed⟩
  · rcases hworkers v with hsame | hwaits
    · rw [hsame] at hv
      exact hiff.2 (h.inHand v x e es hv)
    · rcases hv with hv | ⟨input, hv⟩
      · exact absurd hv (hwaits.unmarked x e es).1
      · exact absurd hv ((hwaits.unmarked x e es).2 input)
  · rcases hworkers v with hsame | hwaits
    · rw [hsame]; exact horder (h.batch v)
    · exact horder hwaits.batch

/-- The rows after a COMMIT. -/
theorem committed_rows {t : TxId} (h : Ordered creation capture s) (hi : Inv cfg s) (hopen : s.isOpen t) :
    (∀ r, (s.server.commit (.poll t)).committed.get? capture = some r →
      ∃ c, (s.server.commit (.poll t)).committed.get? creation = some c ∧ c.createdAt < r.createdAt) ∧
    (¬ s.Handed creation → ∀ c, (s.server.commit (.poll t)).committed.get? creation = some c →
      c.status = .pending ∧ c.nextRetryAt = none) := by
  obtain ⟨ws, hws⟩ := Option.isSome_iff_exists.1 hopen
  have ho := hi.tables.outcomes t ws hws
  obtain ⟨-, hevolves⟩ := hi.tables.commit hopen
  rw [Server.commit_committed hws] at hevolves ⊢
  refine ⟨fun r' hr' => ?_, fun hn c' hc' => ?_⟩
  · obtain ⟨r, hr⟩ := ho.row_new hr'
    obtain ⟨c, hc, hlt⟩ := h.stored r hr
    obtain ⟨c', hc', hfc⟩ := hevolves.follows creation c hc
    obtain ⟨r₀, hr₀, hfr⟩ := hevolves.follows capture r hr
    obtain rfl := Option.some.inj (hr'.symm.trans hr₀)
    exact ⟨c', hc', by rw [hfc.same.createdAt, hfr.same.createdAt]; exact hlt⟩
  · rw [Outcomes.get?_of_ne (h.unmarked hn t ws hws)] at hc'
    exact h.fresh hn c' hc'

/-- The rows after a new one was added. -/
theorem inserted_rows {event : InsertPendingOutboxEvent} {now : Timestamp} {r : OutboxEventRecord}
    (h : Ordered creation capture s) (hr : Inserted s.table event now r)
    (hfollows : captureFollows creation capture s (.insertPending event now) = true) :
    (∀ r', (s.table.insert r).get? capture = some r' →
      ∃ c, (s.table.insert r).get? creation = some c ∧ c.createdAt < r'.createdAt) ∧
    (¬ s.Handed creation → ∀ c, (s.table.insert r).get? creation = some c → c.status = .pending ∧
      c.nextRetryAt = none) := by
  have hkept : ∀ {id q}, s.table.get? id = some q → (s.table.insert r).get? id = some q := by
    intro id q hq
    rw [Table.get?_insert_of_ne]
    · exact hq
    · rintro rfl; rw [hr.new] at hq; cases hq
  refine ⟨fun r' hr' => ?_, fun hn c hc => ?_⟩
  · by_cases hid : r.id = capture
    · subst hid
      rw [Table.get?_insert_self hr.new] at hr'
      cases hr'
      rw [captureFollows, if_pos hr.id.symm, Option.any_eq_true] at hfollows
      obtain ⟨c, hc, hlt⟩ := hfollows
      exact ⟨c, hkept hc, by rw [hr.createdAt]; simpa using hlt⟩
    · rw [Table.get?_insert_of_ne hid] at hr'
      obtain ⟨c, hc, hlt⟩ := h.stored r' hr'
      exact ⟨c, hkept hc, hlt⟩
  · by_cases hid : r.id = creation
    · subst hid
      rw [Table.get?_insert_self hr.new] at hc
      cases hc; exact ⟨hr.status, hr.nextRetryAt⟩
    · rw [Table.get?_insert_of_ne hid] at hc
      exact h.fresh hn c hc

/-- A fetched batch is in order: no other transaction can have locked the creation event. -/
theorem of_fetched {w : WorkerId} {x : Tx} {events : List OutboxEventRecord} {server : Server outboxSchema Session}
    (h : Ordered creation capture s) (hi : Inv cfg s) (hsolo : Solo s) (hw : s.workers w = .fetchPendingBatch x)
    (hf : Fetched (s.view x.id) x.now (s.server.free (.poll x.id)) events)
    (hs : s.server.stage (.poll x.id) [] (events.map (·.id)) = some server) : InOrder creation capture s events := by
  obtain ⟨ws₀, hp₀, -⟩ := Server.stage_eq_some hs
  have hopen : s.isOpen x.id := by rw [State.isOpen, hp₀]; rfl
  have hview : s.view x.id = s.table := by rw [State.view, hi.fetching w x hw hopen]; rfl
  rw [hview] at hf
  refine ⟨hf.sorted, fun e he hid => ?_⟩
  by_cases hh : s.Handed creation
  · exact .inl hh
  right
  obtain ⟨hmem, -, -⟩ := hf.mem e he
  obtain ⟨c, hc, hlt⟩ := h.stored e (hid ▸ Table.mem_iff.1 hmem)
  obtain ⟨hstatus, hretry⟩ := h.fresh hh c hc
  have hfree : s.server.free (.poll x.id) c.id = true := by
    rw [Server.free_iff]
    cases hlock : s.server.locks c.id with
    | none => exact .inl rfl
    | some t =>
      have ht := s.server.isOpen _ _ hlock
      cases t with
      | service => rw [hi.tables.service] at ht; cases ht
      | poll t => rw [hsolo t x.id ht hopen]; exact .inr rfl
  exact ⟨c, hf.closed e he c (Table.mem_of_get? hc) (by simp [eligible, hstatus, hretry]) hfree
    (OutboxEventRecord.not_before_of_lt hlt), Table.key_of_get? hc, hlt⟩

theorem step (h : Ordered creation capture s) (hi : Inv cfg s) (hsolo : Solo s)
    (hfollows : captureFollows creation capture s a = true) (hs : s.step cfg a = some s') :
    Ordered creation capture s' := by
  cases step_cases hs with
  | @inserted event now r server hr hserver =>
    obtain ⟨-, hc, -, -, hp⟩ := Server.autocommit_eq_some hserver
    obtain ⟨hstored, hfresh⟩ := h.inserted_rows hr hfollows
    have htable : server.committed = s.table.insert r := hc
    refine h.of_same rfl (fun _ => .inl rfl) (fun hn t ws hws => h.unmarked hn t ws (by rwa [hp] at hws)) ?_ ?_
    · rw [State.table, htable]; exact hstored
    · rw [State.table, htable]; exact hfresh
  | moved _ hm =>
    obtain ⟨-, hbatch, -, hfail⟩ := Inv.of_moves hm
    exact h.of_same rfl (update_or (.of_nil hbatch hfail)) h.unmarked h.stored h.fresh
  | begun =>
    refine h.of_same rfl (update_or (.of_nil rfl fun _ _ _ _ h => by cases h))
      (fun hn t => Server.begin_writes (h.unmarked hn t)) ?_ ?_
    · simp only [State.table, Server.begin_committed]; exact h.stored
    · simp only [State.table, Server.begin_committed]; exact h.fresh
  | @fetched w x events server hw hf hserver =>
    obtain ⟨ws₀, hp₀, -, hc, -, -, -⟩ := Server.stage_eq_some hserver
    refine h.of_same rfl (update_or (.forEvents (h.of_fetched hi hsolo hw hf hserver)))
      (fun hn t => Server.stage_writes hserver (h.unmarked hn t) fun _ => List.forall_mem_nil _) ?_ ?_
    · simp only [State.table, hc]; exact h.stored
    · simp only [State.table, hc]; exact h.fresh
  | @marked w x event events await ws server hw hm hserver =>
    obtain ⟨ws₀, hp₀, -, hc, -, -, -⟩ := Server.stage_eq_some hserver
    have hhanded : s.Handed event.id := by
      refine h.inHand w x event events ?_
      rw [hw]
      cases hm with
      | published => exact .inl rfl
      | publishFailed => exact .inr ⟨_, rfl⟩
    have hb : InOrder creation capture s (event :: events) := by
      have hb := h.batch w
      rw [hw] at hb
      cases hm <;> exact hb
    obtain ⟨u, rfl, hid, -⟩ := hi.marks hw (by rw [State.isOpen, hp₀]; rfl) hm
    refine h.of_same rfl (update_or (.forEvents ⟨(List.pairwise_cons.1 hb.sorted).2, fun e he heid => ?_⟩))
      (fun hn t => Server.stage_writes hserver (h.unmarked hn t) fun _ v hv => ?_) ?_ ?_
    · rcases hb.earlier e (List.mem_cons_of_mem _ he) heid with hh | ⟨c, hc, hcid, hlt⟩
      · exact .inl hh
      rcases List.mem_cons.1 hc with rfl | hc
      · exact .inl (hcid ▸ hhanded)
      · exact .inr ⟨c, hc, hcid, hlt⟩
    · rw [List.mem_singleton.1 hv, hid]
      rintro rfl; exact hn hhanded
    · simp only [State.table, hc]; exact h.stored
    · simp only [State.table, hc]; exact h.fresh
  | published hw =>
    refine h.of_handed hw rfl fun y e es he => ?_
    rcases he with he | ⟨_, he⟩ <;> cases he
    rfl
  | failed hw =>
    refine h.of_handed hw rfl fun y e es he => ?_
    rcases he with he | ⟨_, he⟩ <;> cases he
    rfl
  | @committed w x _ hopen =>
    obtain ⟨hstored, hfresh⟩ := h.committed_rows hi hopen
    exact h.of_same rfl (update_or .idle)
      (fun hn t => Server.commit_writes (h.unmarked hn t)) hstored hfresh
  | @rolledBack w x _ _ _ =>
    exact h.of_same rfl (update_or .idle) (fun hn t => Server.rollback_writes (h.unmarked hn t)) h.stored h.fresh
  | inDoubt _ hcase =>
    refine h.of_same rfl (update_or ?_) h.unmarked h.stored h.fresh
    rcases hcase with ⟨-, rfl⟩ | ⟨-, rfl⟩ <;> exact .of_nil rfl fun _ _ _ _ h => by cases h
  | @lateCommitted t _ hopen =>
    obtain ⟨hstored, hfresh⟩ := h.committed_rows hi hopen
    exact h.of_same rfl (fun _ => .inl rfl) (fun hn t => Server.commit_writes (h.unmarked hn t)) hstored hfresh
  | @sessionLost t _ =>
    exact h.of_same rfl (fun _ => .inl rfl) (fun hn t => Server.rollback_writes (h.unmarked hn t)) h.stored h.fresh

end Ordered

/-! ## The order of attempts -/

/-- An attempt to publish the creation event is made, and its outcome known, before `publish` is called with the capture
event. -/
structure InTurn (creation capture : Uuid) (s : State) : Prop where
  publish : ∀ w x event events, s.workers w = .publish x event events → event.id = capture → s.Handed creation
  handed : s.Handed capture → s.Handed creation

/-- In every run with one poll transaction at a time, a capture event that is added after the creation event of its
payment is published after an attempt to publish the creation event. -/
theorem creation_handed_first {s : State}
    (h : (system cfg).Reach (fun s a => (oneTransaction s a && captureFollows creation capture s a) = true) s) :
    InTurn creation capture s := by
  have hinv : (Inv cfg s ∧ Solo s) ∧ Ordered creation capture s := by
    refine h.invariant (P := fun s => (Inv cfg s ∧ Solo s) ∧ Ordered creation capture s)
      ⟨⟨Inv.init, fun _ _ h => by cases h⟩, Ordered.init⟩ ?_
    rintro s a s' ⟨⟨hi, hsolo⟩, ho⟩ hok hs
    rw [Bool.and_eq_true] at hok
    exact ⟨⟨(hi.step hs).1, hsolo.step hi hok.1 hs⟩, ho.step hi hsolo hok.2 hs⟩
  exact ⟨fun w x event events hw hid => hinv.2.handed_of_publish hw hid, hinv.2.handed⟩

namespace Sample

/-- The broker refuses the creation event and accepts the capture event of the same batch. -/
def overtakenRun : List Action :=
  [.insertPending authorized 10, .insertPending captured 20] ++ iteration 0 1 [nacked, none] ++ [.query 0]

/-- The worker 0 runs alone and without faults, and the capture follows the creation. -/
def alone (s : State) (a : Action) : Bool :=
  faultless config 0 s a && (oneTransaction s a && captureFollows authorized.id captured.id s a)

def overtaken : State := ((system config).runWhile alone (system config).init overtakenRun).get (by decide +kernel)

theorem overtaken_reach : (system config).Reach (fun s a => alone s a = true) overtaken :=
  System.reach_of_runWhile (Option.some_get _).symm

end Sample

theorem creation_handed_first_overtaken : InTurn Sample.authorized.id Sample.captured.id Sample.overtaken :=
  creation_handed_first (Sample.overtaken_reach.mono fun _ _ hok => ((Bool.and_eq_true ..).mp hok).2)

/-- The broker may accept the capture event of a payment whose creation event it has not accepted. -/
theorem not_accepted_in_order : (system Sample.config).Reach (fun s a => Sample.alone s a = true) Sample.overtaken ∧
    Sample.overtaken.Accepted Sample.captured.id ∧ ¬ Sample.overtaken.Accepted Sample.authorized.id := by
  have hhanded : Sample.overtaken.handed.map (fun h => (h.1.id, h.2)) =
      [(Sample.authorized.id, some "message nacked"), (Sample.captured.id, none)] := by decide +kernel
  refine ⟨Sample.overtaken_reach, ?_, ?_⟩
  · have hmem : (Sample.captured.id, none) ∈ Sample.overtaken.handed.map fun h => (h.1.id, h.2) := by
      rw [hhanded]; exact List.mem_cons_of_mem _ List.mem_cons_self
    obtain ⟨h, hh, heq⟩ := List.mem_map.1 hmem
    exact ⟨h, hh, congrArg Prod.fst heq, congrArg Prod.snd heq⟩
  · rintro ⟨h, hh, hid, hnone⟩
    have hmem : (Sample.authorized.id, none) ∈ Sample.overtaken.handed.map fun h => (h.1.id, h.2) :=
      List.mem_map.2 ⟨h, hh, by rw [hid, hnone]⟩
    rw [hhanded] at hmem
    exact absurd hmem (by decide)

end OutboxPublisherWorker

end PaymentOrchestration
