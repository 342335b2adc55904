/-
Three tables, one account: in every reachable state the payments row, the completed idempotency records
and the outbox events of a payment agree, whatever calls, faults and takeovers the run has seen. The
ledger's counts (`Ledger.facets_eq`) carry the result; what is added here is the history of a row, so
that the creation event can be compared with the status the row was inserted with.
-/
import PaymentOrchestration.Invariant
import PaymentOrchestration.Lifecycle

namespace PaymentOrchestration

open Lib IdempotencyService OutboxService PaymentsService

/-! ## The insertion of a payment -/

/-- The rows that were inserted for the payment `P`. -/
def insertions (P : Uuid) (log : List (Session × Write)) : List PaymentRecord :=
  log.filterMap fun
    | (_, .insertPayment p) => if p.id = P then some p else none
    | _ => none

@[simp] theorem insertions_append (P : Uuid) (log log' : List (Session × Write)) :
    insertions P (log ++ log') = insertions P log ++ insertions P log' := List.filterMap_append

/-- The payment `P` was inserted once, as `p₀`, and its row is now `p`. -/
structure Ledger.Inserted (l : Ledger) (P : Uuid) (p₀ p : PaymentRecord) : Prop where
  row : l.db.payments.get? P = some p
  once : insertions P l.log = [p₀]
  same : p₀.SameAuthorization p
  creation : p.status.creation = p₀.status.creation
  status : p₀.status = .authorized ∨ p₀.status = .failed

section Insertions

variable {cfg : Config} {l l' : Ledger} {command : Command} {d : Started} {p : PaymentRecord} {recording : Recording}
  {w : Write} {P : Uuid}

/-- What a transaction's change inserts. -/
theorem Change.insertions_eq (h : Change l.db command d p recording w) (t : Session) (P : Uuid) :
    insertions P [(t, w)] = if l.db.payments.get? p.id = none ∧ p.id = P then [p] else [] := by
  cases h with
  | create _ _ hn =>
    rw [hn]
    by_cases hP : p.id = P <;> simp [insertions, hP]
  | capture _ hg _ hu =>
    have hrow : l.db.payments.get? p.id ≠ none := by
      rw [hu.same.id, Table.key_of_get? hg, hg]; nofun
    rw [if_neg fun h => hrow h.1]; rfl

/-- A payment without a row was never inserted, and one with a row was inserted once. -/
theorem Ledger.inserted (h : Ledger.Reachable cfg l) (P : Uuid) :
    l.db.payments.get? P = none ∧ insertions P l.log = [] ∨ ∃ p₀ p, l.Inserted P p₀ p := by
  induction h with
  | refl => exact .inl ⟨rfl, rfl⟩
  | @tail l l' _ hs ih =>
    rcases hs.change with ⟨hdb, hlog⟩ | ⟨t, ws, htr, hdb, hlog, -⟩
    · refine ih.imp (fun ⟨h1, h2⟩ => ⟨by rw [hdb]; exact h1, by rw [hlog]; exact h2⟩) ?_
      rintro ⟨p₀, p, h⟩
      exact ⟨p₀, p, by rw [hdb]; exact h.row, by rw [hlog]; exact h.once, h.same, h.creation, h.status⟩
    -- a transition that leaves the row of `P` alone and inserts none
    have hkeep : (schema.applyAll l.db ws).payments.get? P = l.db.payments.get? P →
        insertions P (ws.map (t, ·)) = [] →
        l'.db.payments.get? P = none ∧ insertions P l'.log = [] ∨ ∃ p₀ p, l'.Inserted P p₀ p := by
      intro hrow hins
      rcases ih with ⟨h1, h2⟩ | ⟨p₀, p, h⟩
      · refine .inl ⟨by rw [hdb, hrow]; exact h1, ?_⟩
        rw [hlog, insertions_append, h2, hins]; rfl
      · refine .inr ⟨p₀, p, by rw [hdb, hrow]; exact h.row, ?_, h.same, h.creation, h.status⟩
        rw [hlog, insertions_append, h.once, hins]; rfl
    cases htr with
    | begun | acquired | failed => exact hkeep rfl rfl
    | @settled command d p recording w env e r expiresAt now hc =>
      have hins : insertions P ([w, .insertOutbox e, .completeIdempotency
          (r.markedCompleted command.statusCode (toDto p).jsonb p.id expiresAt now)].map (t, ·)) =
          insertions P [(t, w)] := by
        change insertions P ([(t, w)] ++ [(t, .insertOutbox e), (t, .completeIdempotency _)]) = _
        rw [insertions_append]; exact List.append_nil _
      by_cases hP : p.id = P
      · subst hP
        have hrow : l'.db.payments.get? p.id = some p := by rw [hdb]; exact hc.get?_self
        rw [hc.insertions_eq] at hins
        cases hc with
        | @create _ _ _ authorization _ _ hadm hn =>
          refine .inr ⟨p, p, hrow, ?_, .refl p, rfl, ?_⟩
          · rcases ih with ⟨-, h⟩ | ⟨p₀, p₁, h⟩
            · rw [hlog, insertions_append, h, hins, if_pos ⟨hn, rfl⟩]; rfl
            · exact nomatch hn.symm.trans h.row
          · rw [hadm.status]
            cases authorization
            · exact .inl rfl
            · exact .inr rfl
        | @capture _ _ captureResult p₁ _ _ hg hst hu =>
          have hg' : l.db.payments.get? p.id = some p₁ := by rw [hu.same.id, Table.key_of_get? hg]; exact hg
          rcases ih with ⟨h, -⟩ | ⟨p₀, p₂, h⟩
          · rw [hg'] at h; cases h
          obtain rfl : p₁ = p₂ := Option.some.inj (hg'.symm.trans h.row)
          refine .inr ⟨p₀, p, hrow, ?_, h.same.trans hu.same, ?_, h.status⟩
          · rw [hlog, insertions_append, h.once, hins, if_neg (by rw [hg']; exact fun hn => nomatch hn.1)]; rfl
          · rw [← h.creation, hst, hu.status]
            cases captureResult <;> rfl
      · exact hkeep (hc.get?_of_ne hP) (by rw [hins, hc.insertions_eq, if_neg fun h => hP h.2])

/-- Every event in the outbox is one of the service's. -/
theorem Ledger.recordings (h : Ledger.Reachable cfg l) : ∀ e ∈ l.db.outbox.rows, e.recording?.isSome = true := by
  induction h with
  | refl => nofun
  | @tail l l' _ hs ih =>
    rcases hs.change with ⟨hdb, -⟩ | ⟨t, ws, htr, hdb, -, -⟩
    · rw [hdb]; exact ih
    rw [hdb]
    cases htr with
    | begun | acquired | failed => exact ih
    | @settled _ _ _ _ w _ e _ _ _ hc hrec hn =>
      intro e' he'
      have he' : e' ∈ ((w.apply l.db).outbox.insert e).rows := he'
      rw [hc.outbox, Table.mem_insert hn] at he'
      rcases he' with he' | rfl
      · exact ih e' he'
      · rw [hrec.recording]; rfl

end Insertions

/-! ## The three tables -/

/-- The three tables agree about the payment `P`. -/
structure State.Consistent (s : State) (P : Uuid) : Prop where
  created : (s.db.payments.get? P).isSome = true ↔ (s.db.facets P).records .create = 1
  createdCode : ∀ r ∈ s.db.idempotency.rows, r.settles .create P = true → r.responseStatusCode = some 201
  creation : (s.db.payments.get? P).isSome = true → ∃ p₀, insertions P s.server.log = [p₀] ∧
    (p₀.status = .authorized ∧ (s.db.facets P).events .paymentAuthorized = 1 ∧
        (s.db.facets P).events (.paymentFailed .authorize) = 0 ∨
      p₀.status = .failed ∧ (s.db.facets P).events .paymentAuthorized = 0 ∧
        (s.db.facets P).events (.paymentFailed .authorize) = 1)
  settled : s.db.status? P = some .captured ∨ s.db.status? P = some .captureFailed ↔
    (s.db.facets P).records .capture = 1
  settledCode : ∀ r ∈ s.db.idempotency.rows, r.settles .capture P = true → r.responseStatusCode = some 200
  captured : s.db.status? P = some .captured → (s.db.facets P).events .paymentCaptured = 1 ∧
    (s.db.facets P).events (.paymentFailed .capture) = 0
  captureFailed : s.db.status? P = some .captureFailed → (s.db.facets P).events .paymentCaptured = 0 ∧
    (s.db.facets P).events (.paymentFailed .capture) = 1
  /-- Without a row there is no event of creation, and before a capture has an outcome none of that. -/
  absent : s.db.payments.get? P = none → (s.db.facets P).events .paymentAuthorized = 0 ∧
    (s.db.facets P).events (.paymentFailed .authorize) = 0
  uncaptured : s.db.status? P ≠ some .captured → s.db.status? P ≠ some .captureFailed →
    (s.db.facets P).events .paymentCaptured = 0 ∧ (s.db.facets P).events (.paymentFailed .capture) = 0
  only : ∀ e ∈ s.db.outbox.rows, e.recording?.isSome = true

/-- A completed record carries the status code of its operation. -/
theorem Ledger.RecordsInv.statusCode {cfg : Config} {l : Ledger} (hi : l.RecordsInv cfg)
    {r : IdempotencyRecord} {k : Kind} {P : Uuid} (hr : r ∈ l.db.idempotency.rows) (h : r.settles k P = true) :
    r.responseStatusCode = some k.statusCode := by
  simp only [IdempotencyRecord.settles, decide_eq_true_eq] at h
  obtain ⟨command, p, hm, hcode, -⟩ := hi.completed r hr h.2.2
  obtain rfl : command.kind = k := IdempotencyRecord.kind_unique hm.isOf h.1
  rw [hcode]
  cases command <;> rfl

theorem Db.isSome_status (db : Db) (P : Uuid) : (db.payments.get? P).isSome = (db.status? P).isSome := by
  rw [Db.status?, Option.isSome_map]

/-- The counts that go with a status, event by event. -/
theorem Facets.of_cases (status : Option PaymentStatus) (hcreated : status ≠ some .created) :
    (status.isSome = true ↔ (Facets.of status).records .create = 1) ∧
    (status = some .captured ∨ status = some .captureFailed ↔ (Facets.of status).records .capture = 1) := by
  match status with
  | none => decide
  | some .created => exact absurd rfl hcreated
  | some .authorized | some .failed | some .captured | some .captureFailed => decide

/-- In every reachable state the three tables agree about every payment. -/
theorem tables_consistent {cfg : Config} {s : State} (h : (service cfg).Reach System.anyStep s) (P : Uuid) :
    s.Consistent P := by
  have hl : Ledger.Reachable cfg s.ledger := ledger_of_reach h
  have hfacets : s.db.facets P = Facets.of (s.db.status? P) := Ledger.facets_eq hl P
  have hrec : s.ledger.RecordsInv cfg := .of_reachable hl
  have hcode := fun k r hr => hrec.statusCode (r := r) (k := k) (P := P) hr
  have hstatus : s.db.status? P ≠ some .created := by
    rcases Ledger.inserted hl P with ⟨hn, -⟩ | ⟨p₀, p, hp⟩
    · rw [Db.status?, show s.db.payments.get? P = none from hn]; intro hcr; cases hcr
    · rw [Db.status?, show s.db.payments.get? P = some p from hp.row, Option.map_some]
      intro hcr
      have hcreation := hp.creation
      rw [Option.some.inj hcr] at hcreation
      rcases hp.status with h | h <;> rw [h] at hcreation <;> cases hcreation
  have hof := Facets.of_cases _ hstatus
  refine ⟨?_, hcode .create, fun hrow => ?_, ?_, hcode .capture, fun hst => ?_, fun hst => ?_, fun hn => ?_,
    fun hne hne' => ?_, Ledger.recordings hl⟩
  · rw [Db.isSome_status, hfacets]; exact hof.1
  · rcases Ledger.inserted hl P with ⟨hn, -⟩ | ⟨p₀, p, hp⟩
    · rw [show s.db.payments.get? P = none from hn] at hrow; cases hrow
    refine ⟨p₀, hp.once, ?_⟩
    have hst : s.db.status? P = some p.status := by rw [Db.status?, show s.db.payments.get? P = some p from hp.row]; rfl
    have hcreation := hp.creation
    rw [hfacets, hst]
    refine hp.status.imp (fun h0 => ⟨h0, ?_⟩) (fun h0 => ⟨h0, ?_⟩)
    all_goals
      rw [h0] at hcreation
      revert hcreation
      cases p.status <;> decide
  · rw [hfacets]; exact hof.2
  · rw [hfacets, hst]; decide
  · rw [hfacets, hst]; decide
  · rw [hfacets, Db.status?, hn]; decide
  · rw [hfacets]
    revert hne hne'
    rcases s.db.status? P with _ | status
    · decide
    · cases status <;> decide

/-- The tables agree about a payment that has been created and captured. -/
theorem tables_consistent_captured : Sample.captured.Consistent Sample.paymentId ∧
    Sample.captured.db.status? Sample.paymentId = some .captured :=
  ⟨tables_consistent Sample.captured_reach Sample.paymentId, Sample.captured_run.1⟩

end PaymentOrchestration
