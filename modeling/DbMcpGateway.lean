import DbMcpGateway.Admin.Atomicity
import DbMcpGateway.Admin.AuditTrail
import DbMcpGateway.Admin.Deadlock
import DbMcpGateway.Admin.Invalidation
import DbMcpGateway.Authz.Backends
import DbMcpGateway.Config.ParseError
import DbMcpGateway.Exec.Cancel
import DbMcpGateway.Exec.SingleFlight
import DbMcpGateway.Oauth.Allowlist
import DbMcpGateway.Oauth.Capacity
import DbMcpGateway.Oauth.Lifetimes
import DbMcpGateway.Oauth.Logout
import DbMcpGateway.Oauth.OidcClient
import DbMcpGateway.Oauth.Retry
import DbMcpGateway.Oauth.ServiceAuth
import DbMcpGateway.Oauth.SessionCache
import DbMcpGateway.Oauth.Staleness
import DbMcpGateway.Oauth.TokenRevocation
import DbMcpGateway.Sentry.Event
import DbMcpGateway.Tools.AuditWork
import DbMcpGateway.Tools.Catalog
import DbMcpGateway.Tools.Deadline
import DbMcpGateway.Tools.DispatchLine
import DbMcpGateway.Tools.NonLeak
import DbMcpGateway.Tools.RowCap
import DbMcpGateway.Tools.WriteAudit
import DbMcpGateway.Transport.Limit
import DbMcpGateway.Transport.Post
