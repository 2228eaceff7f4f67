import Stellabill.SagaCompensation
import Stellabill.SagaContext
import Stellabill.OutboxRetries
import Stellabill.Replays
import Stellabill.CdcConsumer
import Stellabill.RsqlSql
import Stellabill.WorkerCrashes
import Stellabill.CancelSubscription
import Stellabill.PublisherIsolation
import Stellabill.Webhooks
import Stellabill.RowSecurity
import Stellabill.Migrations
import Stellabill.Billing
import Stellabill.WebhookEffects
import Stellabill.PgoutputRelation
import Stellabill.ExportCompleteness
import Stellabill.OutboxColumns
import Stellabill.StatementHandler
import Stellabill.SubscriptionEvents
import Stellabill.LaneFairness
import Stellabill.WorkerProgress
import Stellabill.ShardOwnership
import Stellabill.RateLimit
import Stellabill.WebhookAuthenticity
import Stellabill.AuditChain
import Stellabill.AuditExport
import Stellabill.TailSampling
import Stellabill.LoaderBatches
import Stellabill.PartitionRollover
import Stellabill.PartitionMigration
import Stellabill.IdempotencyScopes
import Stellabill.CachedTenants
import Stellabill.ScopedCursors
import Stellabill.Reconciliation
import Stellabill.Redelivery
import Stellabill.AdminSigning
import Stellabill.Lockout
import Stellabill.DeadLetterWatcher
import Stellabill.FeatureFlags
import Stellabill.GraphqlResolvers
import Stellabill.GzipPolicy
import Stellabill.VaultProvider
import Stellabill.BodyTruncation
import Stellabill.RetryDelays
