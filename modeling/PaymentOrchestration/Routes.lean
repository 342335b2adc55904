/-
What the route validation of `create` and `capture` lets through to the controllers: the headers and the
body after Joi's conversion. A run whose calls come from the routes is a run of `accepted` steps.
-/
import PaymentOrchestration.System

namespace PaymentOrchestration

open Lib

/-- `AMOUNT_MINOR_MAX`. -/
def amountMinorMax : Nat := 1000000000000

/-- The length of a JavaScript string. -/
def jsLength (s : String) : Nat := (JsString.utf16 s).length

/-- `correlationIdHeaderSchema`. A missing header is filled by the middleware with an identifier, which
satisfies the schema too. -/
structure CorrelationIdHeader (s : String) : Prop where
  min : 1 ≤ jsLength s
  max : jsLength s ≤ 128
  pattern : s.toList.all (fun c => '!' ≤ c ∧ c ≤ '~') = true

/-- The schema of the idempotency-key header. -/
structure IdempotencyKeyHeader (s : String) : Prop where
  min : 8 ≤ jsLength s
  max : jsLength s ≤ 128

/-- The validation of `POST /payments`. -/
structure CreatePaymentCommand.Accepted (command : CreatePaymentCommand) : Prop where
  correlationId : CorrelationIdHeader command.correlationId
  idempotencyKey : IdempotencyKeyHeader command.idempotencyKey
  merchantId : (Uuid.guid? command.merchantId).isSome = true
  amountMinor : ∃ n : Nat, 0 < n ∧ n ≤ amountMinorMax ∧ command.amountMinor = Number.ofInt n
  currency : command.currency ∈ ["TRY", "USD", "EUR"]

/-- The validation of `POST /payments/:paymentId/capture`. -/
structure CapturePaymentCommand.Accepted (command : CapturePaymentCommand) : Prop where
  correlationId : CorrelationIdHeader command.correlationId
  idempotencyKey : IdempotencyKeyHeader command.idempotencyKey
  paymentId : (Uuid.guid? command.paymentId).isSome = true

def Command.Accepted : Command → Prop
  | .create command => command.Accepted
  | .capture command => command.Accepted

/-- The calls that begin come from the routes. -/
def accepted (_ : State) : Action → Prop
  | .start _ command _ => command.Accepted
  | _ => True

/-! ## What fits the columns -/

theorem length_le_jsLength (s : String) : s.toList.length ≤ jsLength s := by
  unfold jsLength JsString.utf16
  induction s.toList with
  | nil => exact Nat.le_refl _
  | cons c cs ih =>
    have hc : 1 ≤ (JsString.utf16Char c).length := by
      unfold JsString.utf16Char; split <;> simp
    simp only [List.flatMap_cons, List.length_append, List.length_cons]
    omega

/-- An accepted command's scope and key are stored as they are. -/
structure Command.Fits (command : Command) : Prop where
  scope : command.scope.toList.length ≤ 120
  idempotencyKey : command.idempotencyKey.toList.length ≤ 160

theorem Command.Accepted.fits {command : Command} (h : command.Accepted) : command.Fits := by
  have hguid : ∀ {s : String}, (Uuid.guid? s).isSome = true → s.toList.length ≤ 38 := by
    intro s hs
    obtain ⟨g, hg⟩ := Option.isSome_iff_exists.1 hs
    exact Uuid.guid?_length hg
  have hkey : ∀ {s : String}, IdempotencyKeyHeader s → s.toList.length ≤ 160 := fun {s} hs =>
    (length_le_jsLength s).trans (hs.max.trans (by decide))
  cases command with
  | create command =>
    refine ⟨?_, hkey h.idempotencyKey⟩
    have hid := hguid h.merchantId
    have hp : "payments:create:".toList.length ≤ 20 := by decide
    have hlen : (Command.create command).scope.toList.length =
        "payments:create:".toList.length + command.merchantId.toList.length := by
      rw [← List.length_append, ← String.toList_append]; rfl
    omega
  | capture command =>
    refine ⟨?_, hkey h.idempotencyKey⟩
    have hid := hguid h.paymentId
    have hp : "payments:capture:".toList.length ≤ 20 := by decide
    have hlen : (Command.capture command).scope.toList.length =
        "payments:capture:".toList.length + command.paymentId.toList.length := by
      rw [← List.length_append, ← String.toList_append]; rfl
    omega

/-! ## The commands of a run -/

namespace Sample

theorem create_accepted : create.Accepted where
  correlationId := ⟨by decide, by decide, by decide⟩
  idempotencyKey := ⟨by decide, by decide⟩
  merchantId := by decide
  amountMinor := ⟨1250, by decide, by decide, rfl⟩
  currency := by decide

theorem capture_accepted : (capture "capture-0001").Accepted where
  correlationId := ⟨by decide, by decide, by decide⟩
  idempotencyKey := ⟨by decide, by decide⟩
  paymentId := by decide

theorem created_accepted : (service cfg).Reach accepted created := by
  refine System.steps_of_runFrom createRun ?_ (Option.some_get _).symm
  simp only [createRun, List.forall_mem_cons, List.not_mem_nil, false_implies, implies_true, and_true]
  exact ⟨fun _ => create_accepted, fun _ => trivial, fun _ => trivial, fun _ => trivial, fun _ => trivial,
    fun _ => trivial, fun _ => trivial, fun _ => trivial⟩

theorem captured_accepted : (service cfg).Steps accepted created captured := by
  refine System.steps_of_runFrom captureRun ?_ (Option.some_get _).symm
  simp only [captureRun, List.forall_mem_cons, List.not_mem_nil, false_implies, implies_true, and_true]
  exact ⟨fun _ => capture_accepted, fun _ => trivial, fun _ => trivial, fun _ => trivial, fun _ => trivial,
    fun _ => trivial, fun _ => trivial, fun _ => trivial, fun _ => trivial⟩

end Sample

end PaymentOrchestration
