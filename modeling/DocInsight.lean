import DocInsight.Query.Breaker
import DocInsight.Query.BreakerProtocol
import DocInsight.Contracts.Usage
import DocInsight.Library.Table
import DocInsight.Query.Usage
import DocInsight.Query.LedgerInvariant
import DocInsight.Library.Interaction
import DocInsight.Python.Json
import DocInsight.Query.OpenaiProvider
import DocInsight.Query.Generation
import DocInsight.Query.HostedAttempts
import DocInsight.Query.NoOverspend
import DocInsight.Library.Bisect
import DocInsight.Python.Words
import DocInsight.Contracts.Structure
import DocInsight.Contracts.Streams
import DocInsight.Delivery.Growth
import DocInsight.Worker.Service
import DocInsight.Ingest.Relay
import DocInsight.Worker.ChunkWindows
import DocInsight.Worker.ChunkUnits
import DocInsight.Worker.Analysis
import DocInsight.Worker.ChunkBudget
import DocInsight.Worker.ChunkCoverage
import DocInsight.Worker.ChunkEquivalence
import DocInsight.Delivery.Knowledge
import DocInsight.Delivery.Soundness
import DocInsight.Delivery.WorkerSafety
import DocInsight.Delivery.RelaySafety
import DocInsight.Delivery.Acknowledgement
import DocInsight.Delivery.Completion
import DocInsight.Delivery.Carriers
import DocInsight.Delivery.OutboxDelivery
import DocInsight.Contracts.Encoding
import DocInsight.Gateway.JwksCache
import DocInsight.Gateway.RateLimit
import DocInsight.Query.Response
import DocInsight.Query.RecoveryProbe
import DocInsight.Storage.DerivedRows
import DocInsight.Storage.StoredOutput
import DocInsight.Ingest.Registration
import DocInsight.Ingest.Agreement
import DocInsight.Library.Partition
import DocInsight.Library.Lockstep
import DocInsight.Worker.QueryRepository
import DocInsight.Storage.Tenancy
import DocInsight.Storage.Confinement
import DocInsight.Query.LedgerTenancy
import DocInsight.Storage.Noninterference
import DocInsight.Query.ResponseParsing
import DocInsight.Library.Grouping
import DocInsight.Worker.EntityGroups
import DocInsight.Query.Fusion
import DocInsight.Query.Retrieval
import DocInsight.Worker.ChunkOverlap
import DocInsight.Python.Dumps
import DocInsight.Query.Payload
import DocInsight.Python.Sentences
import DocInsight.Query.Extractive
import DocInsight.Delivery.OwnDocument
import DocInsight.Delivery.HandlingFrame
import DocInsight.Delivery.ConsumerSurvival
import DocInsight.Delivery.BoundedAttempts
import DocInsight.Worker.Turns
import DocInsight.Delivery.Invocations
import DocInsight.Delivery.RetryBudget
import DocInsight.Library.Simulation
import DocInsight.Storage.Repository
import DocInsight.Worker.AnalysisBookkeeping
import DocInsight.Storage.Citations
import DocInsight.Ingest.Fragmentation
import DocInsight.Gateway.RetryAfter
import DocInsight.Storage.Columns
import DocInsight.Testing.RateLimiter
import DocInsight.Testing.Rows
import DocInsight.Testing.Usage
import DocInsight.Testing.Repository
import DocInsight.Library.Quoting
import DocInsight.Query.LexicalQuery
import DocInsight.Frontend.App
import DocInsight.Frontend.Sessions
import DocInsight.Frontend.Pages
import DocInsight.Library.PagedScan
import DocInsight.Testing.Streams
import DocInsight.Worker.Calls
import DocInsight.Delivery.ReclaimScan
import DocInsight.Gateway.Fleet
import DocInsight.Gateway.Boundary
import DocInsight.Gateway.Middleware
import DocInsight.Gateway.PublicJwks
import DocInsight.Library.RowSecurity
import DocInsight.Query.Service
import DocInsight.Storage.RowSecurity
import DocInsight.Query.Provenance
import DocInsight.Storage.Listing
import DocInsight.Gateway.Services
