import Inec.Evidence.Tamper
import Inec.Evidence.Signatures
import Inec.Evidence.Interleaving
import Inec.Collation.Service
import Inec.Declaration.Completeness
import Inec.Declaration.Margin
import Inec.Election.Service
import Inec.Election.Policy
import Inec.Declaration.Stable
import Inec.Election.Declared
import Inec.Election.Suspension
import Inec.Evidence.Complete
import Inec.Settlement.FourEyes
import Inec.Settlement.Voided
import Inec.Settlement.Retry
import Inec.Fabric.Attempts
import Inec.Fabric.Agreement
import Inec.Ingestion.Reprocess
import Inec.Ingestion.Identifiers
import Inec.Ingestion.Replicas
import Inec.Results.Rules
import Inec.Results.RerunScope
import Inec.Results.Separation
import Inec.Results.Restored
import Inec.Audit.Verify
import Inec.Session.Rotation
import Inec.Session.Lockout
import Inec.Session.Logout
import Inec.Session.Mfa
import Inec.Settlement.MemoryLedger
import Inec.Integration.Outbox
import Inec.Primaries.Eligibility
import Inec.Primaries.Lifecycle
import Inec.Primaries.Tally
import Inec.Primaries.Parties
import Inec.Primaries.Coercion
import Inec.Gotv.Idempotency
import Inec.Gotv.Isolation
import Inec.Primaries.Deposit
import Inec.Signatures.Verify
import Inec.Circuit.Breaker
import Inec.Vault.ActiveKey
import Inec.Privacy.Lifecycle
import Inec.Results.ImportJob
import Inec.HotPath.Recovery
import Inec.Bvas.OnePerVoter
import Inec.Tally.Restarts
import Inec.Gotv.Rides
import Inec.Retention.Sweep
import Inec.Mobile.Kept
import Inec.Integration.EventBus
import Inec.Settlement.Idempotent
import Inec.Settlement.StablecoinIds
import Inec.Results.Identified
import Inec.Declaration.Spread
import Inec.Settlement.Reconcile
import Inec.Tally.Product
import Inec.Hsm.Signatures
import Inec.Gotv.Inclusion
import Inec.Primaries.BallotRoot
import Inec.Hsm.Rotation
import Inec.Gotv.ResilientCall
import Inec.Primaries.Winner
import Inec.Tiles.Mvt
import Inec.Sql.Placeholders
import Inec.Gotv.PhoneNumber
import Inec.Biometric.Iris
import Inec.Gotv.OtpRecovery
import Inec.Fabric.BatchRoot
import Inec.Gotv.SyncConflicts
import Inec.Gotv.Adapters
import Inec.Signatures.PostQuantum
import Inec.Spatial.ConvexHull
import Inec.Collation.Apart
import Inec.Evidence.Bundles
import Inec.Voters.Standing
import Inec.Collation.Served
