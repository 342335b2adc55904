/-
`PaymentStateService`: the allowed status transitions of a payment.
-/
import PaymentOrchestration.Records

namespace PaymentOrchestration

/-- `allowedTransitions`. -/
def allowedTransitions : PaymentStatus → List PaymentStatus
  | .created => [.authorized, .failed]
  | .authorized => [.captured, .captureFailed]
  | .failed => []
  | .captured => []
  | .captureFailed => []

/-- `ensureTransition`. -/
def ensureTransition (currentStatus targetStatus : PaymentStatus) : Except Err Unit :=
  if targetStatus ∈ allowedTransitions currentStatus then .ok ()
  else .error (.api {
    code := "INVALID_PAYMENT_STATUS_TRANSITION"
    message := s!"Payment status cannot transition from {currentStatus.text} to {targetStatus.text}"
    statusCode := 409 })

/-- The error of a payment that is not AUTHORIZED. -/
def paymentNotCapturable : Err := .api {
  code := "PAYMENT_NOT_CAPTURABLE"
  message := "Payment is not capturable"
  statusCode := 409 }

/-- `ensureCanCapture`. -/
def ensureCanCapture (status : PaymentStatus) : Except Err Unit :=
  if status = .authorized then .ok () else .error paymentNotCapturable

end PaymentOrchestration
