/-
What the consumers of the events can know. A message may come any number of times and in any order, or not at all; all
the same there are at most two messages about a payment, and whatever of them a consumer has read, the projection of it
is a state that the payment has had: the present one, once it has read them all.
-/
import PaymentOrchestration.Platform
import PaymentOrchestration.Reads

namespace PaymentOrchestration

open Lib OutboxService

/-! ## Reading events -/

/-- The envelope is that of an event of the payment. -/
def OutboxEventRecord.isAbout (P : Uuid) (e : OutboxEventRecord) : Bool :=
  match e.payload.member "aggregateId" with
  | some (.str id) => id = P.uuidOut
  | _ => false

/-- The columns that tell what happened. -/
def OutboxEventRecord.SameReading (e e' : OutboxEventRecord) : Prop :=
  e.eventType = e'.eventType ∧ e.payload = e'.payload

namespace OutboxEventRecord.SameReading

variable {e e' : OutboxEventRecord}

theorem recording? (h : e.SameReading e') : e.recording? = e'.recording? := by
  simp only [OutboxEventRecord.recording?, OutboxEventRecord.operation?, h.1, h.2]

theorem isCreation (h : e.SameReading e') : e.isCreation = e'.isCreation := by
  simp only [OutboxEventRecord.isCreation, h.recording?]

theorem isOutcome (h : e.SameReading e') : e.isOutcome = e'.isOutcome := by
  simp only [OutboxEventRecord.isOutcome, h.recording?]

theorem text (h : e.SameReading e') (name : String) : e.text name = e'.text name := by
  simp only [OutboxEventRecord.text, OutboxEventRecord.field, h.2]

theorem number (h : e.SameReading e') (name : String) : e.number name = e'.number name := by
  simp only [OutboxEventRecord.number, OutboxEventRecord.field, h.2]

theorem created (h : e.SameReading e') : e.created = e'.created := by
  simp only [OutboxEventRecord.created, h.recording?, h.text, h.number]

theorem override (h : e.SameReading e') (row : PaymentView) : e.override row = e'.override row := by
  simp only [OutboxEventRecord.override, h.recording?, h.text]

end OutboxEventRecord.SameReading

/-- Each event that was read is one of the events, whatever their order and number. -/
def ReadFrom (events read : List OutboxEventRecord) : Prop := ∀ x ∈ read, ∃ e ∈ events, x.SameReading e

/-! ## The projection of a part of the events -/

/-- What the event of a payment's creation tells of it: its row, until it was captured. -/
inductive FirstView : Option PaymentView → Option PaymentRecord → Prop
  | untold : FirstView none none
  | current {p : PaymentRecord} : FirstView (some p.view) (some p)
  | earlier {p p' : PaymentRecord} : p.Shape → p.status = .authorized → p.Follows p' → FirstView (some p.view) (some p')

section Reading

variable {events read : List OutboxEventRecord} {row : Option PaymentRecord}

theorem find?_of_any {α : Type} {p : α → Bool} {l : List α} (h : l.any p = true) :
    ∃ x ∈ l, p x = true ∧ l.find? p = some x := by
  obtain ⟨y, hy, hp⟩ := List.any_eq_true.1 h
  cases hf : l.find? p with
  | none => exact absurd hp (by simpa using List.find?_eq_none.1 hf y hy)
  | some x => exact ⟨x, List.mem_of_find?_eq_some hf, List.find?_some hf, rfl⟩

theorem project_of_no_creation (h : read.any OutboxEventRecord.isCreation = false) : project read = none := by
  have hf : read.find? OutboxEventRecord.isCreation = none := by
    rw [List.find?_eq_none]
    exact fun x hx hp => Bool.false_ne_true (h.symm.trans (List.any_eq_true.2 ⟨x, hx, hp⟩))
  unfold project
  rw [hf]
  rfl

theorem project_of_no_outcome {c : OutboxEventRecord} {v : PaymentView}
    (hc : read.find? OutboxEventRecord.isCreation = some c)
    (hv : c.created = some v) (ho : read.any OutboxEventRecord.isOutcome = false) : project read = some v := by
  have hf : read.find? OutboxEventRecord.isOutcome = none := by
    rw [List.find?_eq_none]
    exact fun x hx hp => Bool.false_ne_true (ho.symm.trans (List.any_eq_true.2 ⟨x, hx, hp⟩))
  unfold project
  rw [hc, hf]
  change c.created.bind _ = _
  rw [hv]; rfl

theorem project_of_outcome {c o : OutboxEventRecord} {v : PaymentView}
    (hc : read.find? OutboxEventRecord.isCreation = some c)
    (hv : c.created = some v) (ho : read.find? OutboxEventRecord.isOutcome = some o) :
    project read = some (o.override v) := by
  unfold project
  rw [hc, ho]
  change c.created.bind _ = _
  rw [hv]; rfl

/-- Which of the events of a story are of creation. -/
theorem LifeStep.not_isCreation {before : Option PaymentStatus} {recording : Recording} {after : PaymentStatus}
    {e : OutboxEventRecord} (h : LifeStep before .capture recording after) (he : e.recording? = some recording) :
    e.isCreation = false := by
  cases h <;> simp [OutboxEventRecord.isCreation, he]

/-- The event of a payment's creation gives the row as it then was. -/
theorem LifeStep.created {before : Option PaymentStatus} {recording : Recording} {p : PaymentRecord}
    {e : OutboxEventRecord}
    (h : LifeStep before .create recording p.status) (ha : Announces recording p e) (hp : p.Shape) :
    e.created = some p.view := by
  generalize hs : p.status = status at h
  cases h with
  | authorized => exact created_authorized ha hp hs
  | declined => exact created_declined ha hp hs

/-- The event of a capture changes the row as it was to what it is. -/
theorem LifeStep.override {recording : Recording} {p p' : PaymentRecord} {e : OutboxEventRecord}
    (h : LifeStep (some .authorized) .capture recording p'.status) (ha : Announces recording p' e)
    (hsame : p.SameAuthorization p')
    (hp' : p'.Shape) (hs : p.status = .authorized) : e.override p.view = p'.view := by
  generalize hs' : p'.status = status at h
  cases h with
  | captured => exact override_captured ha hsame hp' hs hs'
  | captureFailed => exact override_captureFailed ha hsame hp' hs hs'

/-- A payment that is captured goes on. -/
theorem LifeStep.follows {recording : Recording} {p p' : PaymentRecord}
    (h : LifeStep (some .authorized) .capture recording p'.status)
    (hsame : p.SameAuthorization p') (hs : p.status = .authorized) : p.Follows p' := by
  refine ⟨hsame, .inr ⟨hs, ?_⟩⟩
  generalize p'.status = status at h
  cases h with
  | captured => exact .inl rfl
  | captureFailed => exact .inr rfl

/-- What the projection makes of a part of the events: it depends only on which of the two kinds of event were read. -/
structure Projects (events : List OutboxEventRecord) (row : Option PaymentRecord) (first : Option PaymentView) :
    Prop where
  view : FirstView first row
  current : (∀ e ∈ events, e.isOutcome = false) → first = row.map PaymentRecord.view
  creation : row.isSome = true → ∃ e ∈ events, e.isCreation = true
  project : ∀ read, ReadFrom events read → project read =
    if read.any OutboxEventRecord.isCreation then
      if read.any OutboxEventRecord.isOutcome then row.map PaymentRecord.view else first
    else none

theorem projects (h : Story events row) (hshape : ∀ p, row = some p → p.Shape) :
    ∃ first, Projects events row first := by
  cases h with
  | untold =>
    refine ⟨none, .untold, fun _ => rfl, fun h => (by cases h), fun read hread => ?_⟩
    have hnil : read = [] := List.eq_nil_iff_forall_not_mem.2 fun x hx => by
      obtain ⟨e, he, -⟩ := hread x hx
      cases he
    rw [hnil]; rfl
  | @created p e recording hlife ha =>
    obtain ⟨hc, ho⟩ := hlife.isCreation ha.recorded
    refine ⟨some p.view, .current, fun _ => rfl, fun _ => ⟨e, List.mem_cons_self, hc⟩, fun read hread => ?_⟩
    have hreads : ∀ x ∈ read, x.SameReading e := fun x hx => by
      obtain ⟨e', he', hx⟩ := hread x hx
      rwa [List.mem_singleton.1 he'] at hx
    have hno : read.any OutboxEventRecord.isOutcome = false := by
      rw [List.any_eq_false]
      exact fun x hx => by rw [(hreads x hx).isOutcome, ho]; exact Bool.false_ne_true
    cases hc : read.any OutboxEventRecord.isCreation with
    | false => exact project_of_no_creation hc
    | true =>
      obtain ⟨c, hmem, -, hf⟩ := find?_of_any hc
      rw [hno]
      exact project_of_no_outcome hf (by rw [(hreads c hmem).created]; exact hlife.created ha (hshape p rfl)) hno
  | @settled p p' e e' recording hp hs ha hsame hlife ha' =>
    obtain ⟨hc, ho⟩ := LifeStep.authorized.isCreation ha.recorded
    have ho' := hlife.isOutcome ha'.recorded
    refine ⟨some p.view, .earlier hp hs (hlife.follows hsame hs), fun hno => ?_, fun _ => ⟨e, List.mem_cons_self, hc⟩,
      fun read hread => ?_⟩
    · have hfalse := hno e' (List.mem_cons_of_mem _ List.mem_cons_self)
      rw [ho'] at hfalse; cases hfalse
    have hc' := hlife.not_isCreation ha'.recorded
    have hcases : ∀ x ∈ read, x.SameReading e ∨ x.SameReading e' := fun x hx => by
      obtain ⟨y, hy, hxy⟩ := hread x hx
      rcases List.mem_cons.1 hy with rfl | hy
      · exact .inl hxy
      · rw [List.mem_singleton.1 hy] at hxy; exact .inr hxy
    cases hc : read.any OutboxEventRecord.isCreation with
    | false => exact project_of_no_creation hc
    | true =>
      obtain ⟨c, hmem, hcreation, hf⟩ := find?_of_any hc
      have hview : c.created = some p.view := by
        rcases hcases c hmem with hce | hce
        · rw [hce.created]; exact created_authorized ha hp hs
        · rw [hce.isCreation, hc'] at hcreation; cases hcreation
      cases hout : read.any OutboxEventRecord.isOutcome with
      | false => exact project_of_no_outcome hf hview hout
      | true =>
        obtain ⟨o, homem, houtcome, hof⟩ := find?_of_any hout
        rw [project_of_outcome hf hview hof]
        rcases hcases o homem with hoe | hoe
        · rw [hoe.isOutcome, ho] at houtcome; cases houtcome
        · rw [hoe.override]
          exact congrArg some (hlife.override ha' hsame (hshape p' rfl) hs)

/-! ## The events of a story -/

theorem Story.announced (h : Story events row) :
    ∀ e ∈ events, ∃ recording p p', Announces recording p e ∧ row = some p' ∧
    p.id = p'.id ∧ (p'.status.creation = some recording ∨ p'.status.outcome = some recording) := by
  intro x hx
  cases h with
  | untold => cases hx
  | @created p e recording hlife ha =>
    rw [List.mem_singleton.1 hx]
    refine ⟨recording, p, p, ha, rfl, rfl, .inl ?_⟩
    generalize p.status = status at hlife
    cases hlife <;> rfl
  | @settled p p' e e' recording _ hs ha hsame hlife ha' =>
    rcases List.mem_cons.1 hx with rfl | hx
    · refine ⟨.paymentAuthorized, p, p', ha, rfl, hsame.id.symm, .inl ?_⟩
      generalize p'.status = status at hlife
      cases hlife <;> rfl
    · rw [List.mem_singleton.1 hx]
      refine ⟨recording, p', p', ha', rfl, rfl, .inr ?_⟩
      generalize p'.status = status at hlife
      cases hlife <;> rfl

/-- No two events of a story tell of the same change. -/
theorem Story.unique (h : Story events row) {e e' : OutboxEventRecord} (he : e ∈ events) (he' : e' ∈ events)
    (hsame : e.recording? = e'.recording?) : e = e' := by
  cases h with
  | untold => cases he
  | @created p x => rw [List.mem_singleton.1 he, List.mem_singleton.1 he']
  | @settled p p' x x' recording _ _ ha _ hlife ha' =>
    -- the outcome of a capture is not an authorization
    have hne : x.recording? ≠ x'.recording? := by
      rw [ha.recorded, ha'.recorded]
      generalize p'.status = status at hlife
      cases hlife <;> exact fun h => (by cases h)
    rcases List.mem_cons.1 he with rfl | hx <;> rcases List.mem_cons.1 he' with rfl | hx'
    · rfl
    · rw [List.mem_singleton.1 hx'] at hsame; exact absurd hsame hne
    · rw [List.mem_singleton.1 hx] at hsame; exact absurd hsame.symm hne
    · rw [List.mem_singleton.1 hx, List.mem_singleton.1 hx']

theorem Announces.isAbout {recording : Recording} {p : PaymentRecord} {e : OutboxEventRecord}
    (h : Announces recording p e) (P : Uuid) : e.isAbout P = true ↔ e.aggregateId = P := by
  obtain ⟨env, correlationId, hrec⟩ := h
  obtain ⟨members, -, hp⟩ := hrec.payload
  have hmember : e.payload.member "aggregateId" = some (.str p.id.uuidOut) := by
    rw [hp]
    exact (Json.member_jsonb (envelope_nodup rfl) "aggregateId").trans rfl
  rw [OutboxEventRecord.isAbout, hmember, hrec.aggregateId, decide_eq_true_eq]
  exact ⟨fun h => Uuid.uuidOut_inj h, congrArg _⟩

end Reading

namespace Platform

open OutboxPublisherWorker (WorkerConfig)
open RabbitMqPublisher (Message message)

variable {cfg : Config} {wcfg : WorkerConfig} {s : State} {m : Message} {e : OutboxEventRecord} {P : Uuid}

/-! ## Messages -/

/-- A process has sent the message. -/
def State.Sent (s : State) (m : Message) : Prop := ∃ w c x, (s.delivery.hosts w).sent c = some x ∧ x.message = m

/-- The message announces a change of the stored payment `p`. -/
structure Announcement (s : State) (m : Message) (recording : Recording) (p : PaymentRecord) : Prop where
  event : ∃ e ∈ s.service.db.outbox.rows, e.aggregateId = p.id ∧ e.recording? = some recording ∧ m = message e
  stored : s.service.db.payments.get? p.id = some p
  status : p.status.creation = some recording ∨ p.status.outcome = some recording

/-- What is sent agrees with what is committed. -/
structure Consistent (s : State) : Prop where
  announces : ∀ m, s.Sent m → ∃ recording p, Announcement s m recording p
  single : ∀ m m' recording p, s.Sent m → s.Sent m' → Announcement s m recording p →
    Announcement s m' recording p → m = m'

theorem story_of_reach (h : (system cfg wcfg).Reach (fun s a => asDocumented s a = true) s) (P : Uuid) :
    Story (s.service.db.eventsOf P) (s.service.db.payments.get? P) :=
  Ledger.story (ledger_of_reach (service_of_reach h)) P

/-- What is sent is the message of an event that a transaction of the service has committed. -/
theorem event_of_sent (h : (system cfg wcfg).Reach (fun s a => asDocumented s a = true) s) (hm : s.Sent m) :
    ∃ e ∈ s.service.db.outbox.rows, m = message e := by
  obtain ⟨w, c, x, hx, rfl⟩ := hm
  obtain ⟨e₀, r, hr, hsame, hmsg⟩ := (Delivery.Inv.of_reach (delivery_of_reach h)).carries hx
  have hid := agree_of_reach h r.id
  rw [Table.mem_iff.1 hr] at hid
  generalize hy : s.service.db.outbox.get? r.id = y at hid
  cases hid with
  | some he => exact ⟨_, Table.mem_of_get? hy, by rw [hmsg, Delivery.message_congr (hsame.trans he.symm)]⟩

theorem mem_eventsOf (he : e ∈ s.service.db.outbox.rows) : e ∈ s.service.db.eventsOf e.aggregateId :=
  List.mem_filter.2 ⟨he, decide_eq_true rfl⟩

/-- Every message that was ever sent announces a committed change of a payment, to the status the payment
has or had when it was created, and no two different messages announce the same change. -/
theorem messages_consistent (h : (system cfg wcfg).Reach (fun s a => asDocumented s a = true) s) : Consistent s := by
  refine ⟨fun m hm => ?_, fun m m' recording p _ _ ha ha' => ?_⟩
  · obtain ⟨e, he, rfl⟩ := event_of_sent h hm
    obtain ⟨recording, p, p', ha, hrow, hid, hstatus⟩ := (story_of_reach h e.aggregateId).announced e (mem_eventsOf he)
    have hkey := Table.key_of_get? hrow
    exact ⟨recording, p', ⟨e, he, hkey.symm, ha.recorded, rfl⟩, by rw [hkey]; exact hrow, hstatus⟩
  · obtain ⟨e, he, hP, hrec, rfl⟩ := ha.event
    obtain ⟨e', he', hP', hrec', rfl⟩ := ha'.event
    have hin := mem_eventsOf he
    have hin' := mem_eventsOf he'
    rw [hP] at hin
    rw [hP'] at hin'
    rw [(story_of_reach h p.id).unique hin hin' (hrec.trans hrec'.symm)]

theorem messages_consistent_delivered : Consistent Sample.delivered := messages_consistent Sample.delivered_reach

/-! ## What a consumer makes of its messages -/

/-- The consumer has read the event in the message. -/
def Reads (m : Message) (e : OutboxEventRecord) : Prop :=
  e.eventType = m.type ∧ Json.stringify e.payload.inUtf16 = m.content

/-- What the events that were read tell about a payment. -/
def told (P : Uuid) (read : List OutboxEventRecord) : Option PaymentView := project (read.filter (·.isAbout P))

theorem Reads.same {x : OutboxEventRecord} (h : Reads (message e) x) : x.SameReading e :=
  ⟨h.1, Json.inUtf16_inj (Json.stringify_inj h.2)⟩

theorem isAbout_of_same {x : OutboxEventRecord} (h : x.SameReading e) : x.isAbout P = e.isAbout P := by
  rw [OutboxEventRecord.isAbout, OutboxEventRecord.isAbout, h.2]

theorem isAbout_stored (h : (system cfg wcfg).Reach (fun s a => asDocumented s a = true) s)
    (he : e ∈ s.service.db.outbox.rows) : e.isAbout P = true ↔ e.aggregateId = P := by
  obtain ⟨recording, p, p', ha, -⟩ := (story_of_reach h e.aggregateId).announced e (mem_eventsOf he)
  exact ha.isAbout P

/-- What was read about a payment is read from its events. -/
theorem readFrom_of_sent (h : (system cfg wcfg).Reach (fun s a => asDocumented s a = true) s) {ms : List Message}
    {read : List OutboxEventRecord} (hms : ∀ m ∈ ms, s.Sent m) (hread : List.Forall₂ Reads ms read) (P : Uuid) :
    ReadFrom (s.service.db.eventsOf P) (read.filter (·.isAbout P)) := by
  intro x hx
  obtain ⟨hx, hP⟩ := List.mem_filter.1 hx
  obtain ⟨m, hm, hreads⟩ := Table.exists_of_forall₂ hread.flip x hx
  obtain ⟨e, he, rfl⟩ := event_of_sent h (hms m hm)
  have hsame := Reads.same hreads
  refine ⟨e, List.mem_filter.2 ⟨he, decide_eq_true ?_⟩, hsame⟩
  rw [isAbout_of_same hsame] at hP
  exact (isAbout_stored h he).1 hP

/-- The broker has accepted the message of a published row. -/
theorem acknowledged_of_published {d : Delivery.State} (hi : Delivery.Inv wcfg d) {r : OutboxEventRecord}
    (hr : d.table.get? r.id = some r) (hp : r.status = .published) : d.Acknowledged (message r) := by
  obtain ⟨y, hy, hid, hconfirmed⟩ := hi.history.published r.id r hr hp
  obtain ⟨r', hr', hsame⟩ := hi.history.handed y hy
  rw [hid] at hr'
  obtain rfl := Option.some.inj (hr.symm.trans hr')
  rw [← Delivery.message_congr hsame]
  exact hi.handed y hy hconfirmed

/-- How far a consumer is. -/
structure ConsumerView (s : State) (P : Uuid) (ms : List Message) (view : Option PaymentView) : Prop where
  /-- Nothing is known of the payment, or the row it was created as, or the row it is. -/
  behind : view = none ∨ FirstView view (s.service.db.payments.get? P) ∨
    view = (s.service.db.payments.get? P).map PaymentRecord.view
  /-- Once the events are published and what was accepted is read, it is the row as it is. -/
  caughtUp : (∀ r ∈ s.delivery.table.rows, r.aggregateId = P → r.status = .published) →
    (∀ m, s.delivery.Acknowledged m → m ∈ ms) → view = (s.service.db.payments.get? P).map PaymentRecord.view

/-- Once the events of a payment are published, a consumer that has read what was accepted has read them all. -/
theorem read_of_published (h : (system cfg wcfg).Reach (fun s a => asDocumented s a = true) s) {ms : List Message}
    {read : List OutboxEventRecord} (hread : List.Forall₂ Reads ms read)
    (hpublished : ∀ r ∈ s.delivery.table.rows, r.aggregateId = P → r.status = .published)
    (hall : ∀ m, s.delivery.Acknowledged m → m ∈ ms) :
    ∀ e ∈ s.service.db.eventsOf P, ∃ x ∈ read.filter (·.isAbout P), x.SameReading e := by
  intro e he
  obtain ⟨he, hP⟩ := List.mem_filter.1 he
  have hP := of_decide_eq_true hP
  have hid := agree_of_reach h e.id
  rw [Table.mem_iff.1 he] at hid
  generalize hy : s.delivery.table.get? e.id = y at hid
  cases hid with
  | @some _ r hsame =>
    have hr : s.delivery.table.get? r.id = some r := by rw [hsame.id]; exact hy
    have hacked := acknowledged_of_published (Delivery.Inv.of_reach (delivery_of_reach h)) hr
      (hpublished r (Table.mem_of_get? hr) (hsame.aggregateId.trans hP))
    rw [← Delivery.message_congr hsame] at hacked
    obtain ⟨x, hx, hreads⟩ := Table.exists_of_forall₂ hread _ (hall _ hacked)
    refine ⟨x, List.mem_filter.2 ⟨hx, ?_⟩, Reads.same hreads⟩
    rw [isAbout_of_same (Reads.same hreads), isAbout_stored h he]
    exact hP

theorem projects_of_reach (h : (system cfg wcfg).Reach (fun s a => asDocumented s a = true) s) (P : Uuid) :
    ∃ first, Projects (s.service.db.eventsOf P) (s.service.db.payments.get? P) first :=
  projects (story_of_reach h P) fun p hp =>
    Ledger.shapes (ledger_of_reach (service_of_reach h)) p (Table.mem_of_get? hp)

/-- What was read tells nothing of the payment, or of the row it was created as, or of the row it is. -/
theorem behind_of_read (h : (system cfg wcfg).Reach (fun s a => asDocumented s a = true) s)
    (P : Uuid) {ms : List Message}
    {read : List OutboxEventRecord} (hms : ∀ m ∈ ms, s.Sent m) (hread : List.Forall₂ Reads ms read) :
    told P read = none ∨ FirstView (told P read) (s.service.db.payments.get? P) ∨
      told P read = (s.service.db.payments.get? P).map PaymentRecord.view := by
  obtain ⟨first, hprojects⟩ := projects_of_reach h P
  unfold told
  rw [hprojects.project _ (readFrom_of_sent h hms hread P)]
  split
  · split
    · exact .inr (.inr rfl)
    · exact .inr (.inl hprojects.view)
  · exact .inl rfl

/-- Once the events of the payment are published and what was accepted is read, it tells of the row as it is. -/
theorem caughtUp_of_read (h : (system cfg wcfg).Reach (fun s a => asDocumented s a = true) s)
    (P : Uuid) {ms : List Message}
    {read : List OutboxEventRecord} (hms : ∀ m ∈ ms, s.Sent m) (hread : List.Forall₂ Reads ms read)
    (hpublished : ∀ r ∈ s.delivery.table.rows, r.aggregateId = P → r.status = .published)
    (hall : ∀ m, s.delivery.Acknowledged m → m ∈ ms) :
    told P read = (s.service.db.payments.get? P).map PaymentRecord.view := by
  obtain ⟨first, hprojects⟩ := projects_of_reach h P
  have hcomplete := read_of_published h hread hpublished hall
  unfold told
  rw [hprojects.project _ (readFrom_of_sent h hms hread P)]
  cases hrow : s.service.db.payments.get? P with
  | none =>
    have hfirst := hprojects.view
    rw [hrow] at hfirst
    cases hfirst
    split
    · split <;> rfl
    · rfl
  | some p =>
    obtain ⟨c, hc, hcreation⟩ := hprojects.creation (by rw [hrow]; rfl)
    obtain ⟨x, hx, hxc⟩ := hcomplete c hc
    rw [if_pos (List.any_eq_true.2 ⟨x, hx, by rw [hxc.isCreation]; exact hcreation⟩)]
    split
    · rfl
    · rename_i hno
      rw [hprojects.current fun e he => ?_, hrow]
      obtain ⟨y, hy, hye⟩ := hcomplete e he
      rw [← hye.isOutcome]
      exact Bool.eq_false_iff.2 fun hyo => hno (List.any_eq_true.2 ⟨y, hy, hyo⟩)

/-- Whatever messages a consumer has read, in whatever order and however often, what they tell about a
payment is nothing, the row as it was created, or the row as it is; and it is the row as it is once the
payment's events are published and what the broker has accepted is read. -/
theorem consumer_view (h : (system cfg wcfg).Reach (fun s a => asDocumented s a = true) s)
    (P : Uuid) {ms : List Message}
    {read : List OutboxEventRecord} (hms : ∀ m ∈ ms, s.Sent m) (hread : List.Forall₂ Reads ms read) :
    ConsumerView s P ms (told P read) where
  behind := behind_of_read h P hms hread
  caughtUp := caughtUp_of_read h P hms hread

namespace Sample

/-- The events that a consumer of the run reads. -/
def read : List OutboxEventRecord := delivered.delivery.table.rows

theorem read_sent : ∀ m ∈ read.map message, delivered.Sent m := by
  intro m hm
  obtain ⟨r, hr, rfl⟩ := List.mem_map.1 hm
  have hpublished : r.status = .published := by
    have hstatus : r.status ∈ delivered.delivery.table.rows.map (·.status) := List.mem_map_of_mem hr
    rw [delivered_run.1] at hstatus
    exact List.mem_singleton.1 hstatus
  obtain ⟨w, c, x, hx, hmsg, -⟩ := acknowledged_of_published (Delivery.Inv.of_reach (delivery_of_reach delivered_reach))
    (Table.mem_iff.1 hr) hpublished
  exact ⟨w, c, x, hx, hmsg⟩

theorem reads_message : ∀ read : List OutboxEventRecord, List.Forall₂ Reads (read.map message) read
  | [] => .nil
  | _ :: read => .cons ⟨rfl, rfl⟩ (reads_message read)

end Sample

theorem consumer_view_delivered : ConsumerView Sample.delivered PaymentOrchestration.Sample.paymentId
    (Sample.read.map message) (told PaymentOrchestration.Sample.paymentId Sample.read) :=
  consumer_view Sample.delivered_reach PaymentOrchestration.Sample.paymentId Sample.read_sent
    (Sample.reads_message Sample.read)

/-- How what is told of a payment may change: from nothing, or from an authorized payment to what became of it. -/
inductive Forward : Option PaymentView → Option PaymentView → Prop
  | same {view} : Forward view view
  | learned {view} : Forward none view
  | settled {p p' : PaymentRecord} : p.status = .authorized → p.Follows p' → Forward (some p.view) (some p'.view)

/-- What was read is read again. -/
theorem again_of_subset (h : (system cfg wcfg).Reach (fun s a => asDocumented s a = true) s) (P : Uuid)
    {ms ms' : List Message} {read read' : List OutboxEventRecord} (hms : ∀ m ∈ ms', s.Sent m) (hsub : ms ⊆ ms')
    (hread : List.Forall₂ Reads ms read) (hread' : List.Forall₂ Reads ms' read') :
    ∀ x ∈ read.filter (·.isAbout P), ∃ y ∈ read'.filter (·.isAbout P), x.SameReading y := by
  intro x hx
  obtain ⟨hx, hP⟩ := List.mem_filter.1 hx
  obtain ⟨m, hm, hreads⟩ := Table.exists_of_forall₂ hread.flip x hx
  obtain ⟨y, hy, hreads'⟩ := Table.exists_of_forall₂ hread' m (hsub hm)
  obtain ⟨e, -, rfl⟩ := event_of_sent h (hms m (hsub hm))
  have hxe := Reads.same hreads
  have hye := Reads.same hreads'
  refine ⟨y, List.mem_filter.2 ⟨hy, ?_⟩, hxe.1.trans hye.1.symm, hxe.2.trans hye.2.symm⟩
  rw [isAbout_of_same hye, ← isAbout_of_same hxe]
  exact hP

theorem any_of_again {read read' : List OutboxEventRecord} {p : OutboxEventRecord → Bool}
    (h : ∀ x ∈ read, ∃ y ∈ read', x.SameReading y) (hp : ∀ x y, x.SameReading y → p x = p y)
    (hany : read.any p = true) : read'.any p = true := by
  obtain ⟨x, hx, hxp⟩ := List.any_eq_true.1 hany
  obtain ⟨y, hy, hxy⟩ := h x hx
  exact List.any_eq_true.2 ⟨y, hy, by rw [← hp x y hxy]; exact hxp⟩

/-- A consumer that reads more messages, late or early ones, never takes back what it was told. -/
theorem consumer_forward (h : (system cfg wcfg).Reach (fun s a => asDocumented s a = true) s) (P : Uuid)
    {ms ms' : List Message} {read read' : List OutboxEventRecord} (hms : ∀ m ∈ ms', s.Sent m) (hsub : ms ⊆ ms')
    (hread : List.Forall₂ Reads ms read) (hread' : List.Forall₂ Reads ms' read') :
    Forward (told P read) (told P read') := by
  obtain ⟨first, hprojects⟩ := projects_of_reach h P
  have hproject := hprojects.project _ (readFrom_of_sent h (fun m hm => hms m (hsub hm)) hread P)
  have hproject' := hprojects.project _ (readFrom_of_sent h hms hread' P)
  have hagain := again_of_subset h P hms hsub hread hread'
  unfold told
  rw [hproject, hproject']
  split
  swap
  · exact .learned
  rename_i hc
  rw [if_pos (any_of_again hagain (fun _ _ hsame => hsame.isCreation) hc)]
  split
  · rename_i ho
    rw [if_pos (any_of_again hagain (fun _ _ hsame => hsame.isOutcome) ho)]
    exact .same
  · split
    · have hfirst := hprojects.view
      generalize s.service.db.payments.get? P = row at hfirst
      cases hfirst with
      | untold => exact .same
      | current => exact .same
      | earlier _ hs hf => exact .settled hs hf
    · exact .same

theorem consumer_forward_delivered : Forward (told PaymentOrchestration.Sample.paymentId [])
    (told PaymentOrchestration.Sample.paymentId Sample.read) :=
  consumer_forward Sample.delivered_reach PaymentOrchestration.Sample.paymentId Sample.read_sent
    (List.nil_subset _) .nil (Sample.reads_message Sample.read)

end Platform

end PaymentOrchestration
