import TheCargo.Repositories.Consent
import TheCargo.Audit.Listeners
import TheCargo.Events.OutboxListeners
import TheCargo.Events.OutboxRelay
import TheCargo.Events.Consumer
import TheCargo.Events.UserFrame
import TheCargo.Events.CustomerSync
import TheCargo.Db.StatementRouter
import TheCargo.Db.Postgres
import TheCargo.Db.WritingSql
import TheCargo.Db.RoutingSession
import TheCargo.Negotiation.Exchange
import TheCargo.Negotiation.Moves
import TheCargo.Coalesce
import TheCargo.Middleware.CancelOnDisconnect
import TheCargo.Events.OutboxFinal
import TheCargo.Events.CustomerBootstrap
import TheCargo.Db.CompanyScope
import TheCargo.Repositories.Base
import TheCargo.Repositories.CustomerScoped
import TheCargo.Foundation.Versions
import TheCargo.WebhookArchive
import TheCargo.Db.ReadOnly
import TheCargo.Middleware.CallerCancelled
import TheCargo.Handlers
import TheCargo.Middleware.LoadShed
import TheCargo.Middleware.RetryAfter
import TheCargo.Middleware.SlidingWindow
import TheCargo.Cache
import TheCargo.Consent.Prefetch
import TheCargo.Audit.TextChanges
import TheCargo.Features
import TheCargo.WebhookFormat
import TheCargo.Consent.UnknownLine
import TheCargo.Templating.Scoping
import TheCargo.Sms.Segments
import TheCargo.Sms.Sanitize
import TheCargo.Templating.Filters
import TheCargo.Dashboard.Period
import TheCargo.Dashboard.Kpis
import TheCargo.Dashboard.TeamStory
import TheCargo.Dashboard.CalendarView
import TheCargo.LeadFields.Places
import TheCargo.LeadFields.RoundTrip
import TheCargo.Dashboard.Chart
import TheCargo.Dashboard.Queue
import TheCargo.Dependencies.Filename
import TheCargo.Dependencies.Mime
import TheCargo.Storage.Retry
import TheCargo.Storage.Urls
import TheCargo.Utils.Timezone
import TheCargo.Clients.Auth
import TheCargo.Clickhouse
import TheCargo.Dependencies.Auth
import TheCargo.Audit.Delivery
import TheCargo.Models.Contracts
import TheCargo.Templating.Suggest
import TheCargo.LeadFields.Cover
import TheCargo.Observability
import TheCargo.Utils.Url
import TheCargo.Events.OutboxCopies
import TheCargo.Events.OutboxHolders
import TheCargo.Events.OutboxDrain
import TheCargo.Repositories.ConsentEvents
import TheCargo.JwtOnce
import TheCargo.Foundation.Scoped
import TheCargo.Context
import TheCargo.Middleware.OrgLimit
import TheCargo.Dependencies.CurrentUser
import TheCargo.Dependencies.ServiceAuth
import TheCargo.Repositories.ConsentHistory
import TheCargo.Clients.OrgCaches
import TheCargo.RoleTemplates
import TheCargo.Repositories.Admin
import TheCargo.Events.UserBootstrap
import TheCargo.WebhookTable
import TheCargo.Sms.Lint
import TheCargo.LeadFields.Preview
