import PaymentOrchestration.Lib.Run
import PaymentOrchestration.Lib.Table
import PaymentOrchestration.Lib.Server
import PaymentOrchestration.Lib.Uuid
import PaymentOrchestration.Lib.Number
import PaymentOrchestration.Lib.JsString
import PaymentOrchestration.Lib.Json
import PaymentOrchestration.Lib.Stringify
import PaymentOrchestration.Lib.Date
import PaymentOrchestration.Lib.JsonSchema
import PaymentOrchestration.Records
import PaymentOrchestration.Constraints
import PaymentOrchestration.PaymentState
import PaymentOrchestration.Idempotency
import PaymentOrchestration.Outbox
import PaymentOrchestration.Providers
import PaymentOrchestration.Payments
import PaymentOrchestration.System
import PaymentOrchestration.Lib.Fence
import PaymentOrchestration.Statements
import PaymentOrchestration.Ledger
import PaymentOrchestration.Lifecycle
import PaymentOrchestration.Steps
import PaymentOrchestration.Refinement
import PaymentOrchestration.Invariant
import PaymentOrchestration.Consistency
import PaymentOrchestration.Ownership
import PaymentOrchestration.Routes
import PaymentOrchestration.Replay
import PaymentOrchestration.ErrorAtomicity
import PaymentOrchestration.Serialization
import PaymentOrchestration.Reference
import PaymentOrchestration.Storability
import PaymentOrchestration.Spelling
import PaymentOrchestration.Shape
import PaymentOrchestration.Projection
import PaymentOrchestration.Contracts
import PaymentOrchestration.ConnectionManager
import PaymentOrchestration.ConnectionInvariant
import PaymentOrchestration.Publisher
import PaymentOrchestration.OutboxEvents
import PaymentOrchestration.Worker
import PaymentOrchestration.WorkerSteps
import PaymentOrchestration.WorkerInvariant
import PaymentOrchestration.Attempts
import PaymentOrchestration.WorkerHistory
import PaymentOrchestration.PublicationOrder
import PaymentOrchestration.ConnectionCallers
import PaymentOrchestration.Publication
import PaymentOrchestration.Gateway
import PaymentOrchestration.Bootstrap
import PaymentOrchestration.Migrations
import PaymentOrchestration.Keys
import PaymentOrchestration.Recovery
import PaymentOrchestration.PollingLoop
import PaymentOrchestration.Acquisition
import PaymentOrchestration.Canonical
import PaymentOrchestration.Lib.Numeric
import PaymentOrchestration.Configuration
import PaymentOrchestration.Lib.Joi
import PaymentOrchestration.Lib.OpenApi
import PaymentOrchestration.OpenApiKit
import PaymentOrchestration.Platform
import PaymentOrchestration.Consumers
import PaymentOrchestration.Backlog
import PaymentOrchestration.Backoff
import PaymentOrchestration.Reads
import PaymentOrchestration.Http
import PaymentOrchestration.PaymentServer
import PaymentOrchestration.GatewayServer
import PaymentOrchestration.Lib.SchemaObject
import PaymentOrchestration.Rejections
import PaymentOrchestration.OpenApiDocument
import PaymentOrchestration.Responses
import PaymentOrchestration.Relay
import PaymentOrchestration.Clients
import PaymentOrchestration.Observers
