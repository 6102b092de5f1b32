import EventServer.Deliveries.LeaseSafety
import EventServer.Deliveries.Attempts
import EventServer.Deliveries.Races
import EventServer.Deliveries.Permission
import EventServer.Core.PublishRaces
import EventServer.Services.LastAdmin
import EventServer.Services.AdminRaces
import EventServer.Services.CodeRaces
import EventServer.Services.SubscriptionKeys
import EventServer.Services.Provenance
import EventServer.Deliveries.Lifecycle
import EventServer.Deliveries.ClaimRaces
import EventServer.Api.Schedule
import EventServer.Api.Confinement
import EventServer.Auth.Identity
import EventServer.Core.SchemaVersions
import EventServer.Core.SchemaSafety
import EventServer.Services.Isolation
import EventServer.ScheduledReminder.Contract
import EventServer.Services.BootstrapRaces
import EventServer.Core.Observations
import EventServer.Scheduler.LeaseRaces
import EventServer.Audit
import EventServer.Api.PublishErrors
import EventServer.ScheduledReminder.Recovery
import EventServer.DemoReminder.Framing
import EventServer.Core.SchemaCompleteness
import EventServer.Core.SchemaEquality
import EventServer.Core.SchemaLengths
import EventServer.Services.MatchKeyShape
import EventServer.Services.Unsubscribing
import EventServer.Services.Idempotence
import EventServer.Services.SubscriptionRaces
import EventServer.Deliveries.Spacing
import EventServer.Db.Transactions
import EventServer.BootstrapSession
import EventServer.DemoReminder.Limits
import EventServer.DemoReminder.Spellings
import EventServer.Providers.CetusCycle
import EventServer.Scheduler.PollBatch
import EventServer.Redaction
import EventServer.Api.Responses
import EventServer.Deliveries.Fairness
import EventServer.Api.Custody
import EventServer.Api.Retention
import EventServer.References
import EventServer.ScheduledReminder.EndToEnd
import EventServer.Api.Acknowledgement
import EventServer.Scheduler.Nights
import EventServer.Scheduler.Fairness
import EventServer.Scheduler.Recipients
import EventServer.Scheduler.Fetching
