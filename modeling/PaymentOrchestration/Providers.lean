/-
The payment provider's contract, `MockPaymentProvider` and `ProviderRegistryService`. What a provider
answers is any value of its result type, or an exception; the mock's own answers are functions.
-/
import PaymentOrchestration.Idempotency

namespace PaymentOrchestration

open Lib

structure AuthorizePaymentInput where
  paymentId : Uuid
  merchantId : String
  amountMinor : Number
  currency : String
deriving DecidableEq

inductive AuthorizePaymentResult
  | success (provider providerPaymentId : String)
  | failure (provider : String) (providerPaymentId : Option String) (failureCode failureMessage : String)
deriving DecidableEq

structure CapturePaymentInput where
  paymentId : Uuid
  providerPaymentId : String
  amountMinor : Number
  currency : String
deriving DecidableEq

inductive CapturePaymentResult
  | success (provider : String)
  | failure (provider failureCode failureMessage : String)
deriving DecidableEq

namespace MockPaymentProvider

def authorize (providerName : String) (input : AuthorizePaymentInput) : AuthorizePaymentResult :=
  if input.amountMinor = Number.ofInt 9999 then
    .failure providerName none "MOCK_AUTHORIZATION_FAILED" "Mock provider authorization failure"
  else .success providerName ("mock_" ++ input.paymentId.uuidOut)

def capture (providerName : String) (input : CapturePaymentInput) : CapturePaymentResult :=
  if input.amountMinor = Number.ofInt 8888 then
    .failure providerName "MOCK_CAPTURE_FAILED" "Mock provider capture failure"
  else .success providerName

end MockPaymentProvider

/-- `ProviderRegistryService.getProvider`: the one provider registered, by its name. -/
def getProvider (cfg : Config) (name : String) : Except Err String :=
  if name = cfg.providerName then .ok cfg.providerName
  else .error (.api {
    code := "PAYMENT_PROVIDER_NOT_CONFIGURED"
    message := s!"Payment provider is not configured: {name}"
    statusCode := 500
    isOperational := false })

end PaymentOrchestration
