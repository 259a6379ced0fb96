import Portwyrm.Base.Authority
import Portwyrm.Base.Binary64
import Portwyrm.Base.Bytes
import Portwyrm.Base.Claims
import Portwyrm.Base.Decimal
import Portwyrm.Base.Dict
import Portwyrm.Base.Directives
import Portwyrm.Base.FirstMatch
import Portwyrm.Base.Frames
import Portwyrm.Base.FrozenSet
import Portwyrm.Base.Htpasswd
import Portwyrm.Base.IpNetwork
import Portwyrm.Base.Iso8601
import Portwyrm.Base.Json
import Portwyrm.Base.Listing
import Portwyrm.Base.LongestPrefix
import Portwyrm.Base.Masking
import Portwyrm.Base.Merging
import Portwyrm.Base.Numeral
import Portwyrm.Base.OneTime
import Portwyrm.Base.Pieces
import Portwyrm.Base.Records
import Portwyrm.Base.Serving
import Portwyrm.Base.Shifting
import Portwyrm.Base.Splitting
import Portwyrm.Base.Subsequences
import Portwyrm.Base.Survivors
import Portwyrm.Base.Table
import Portwyrm.Base.Text
import Portwyrm.Base.Tokens
import Portwyrm.Certificates.Acme
import Portwyrm.Certificates.Manager
import Portwyrm.Certificates.ManagerRuns
import Portwyrm.Certificates.Material
import Portwyrm.Certificates.Publication
import Portwyrm.Certificates.Renewal
import Portwyrm.Certificates.RenewalCalls
import Portwyrm.Certificates.StoreContents
import Portwyrm.Certificates.SubjectNames
import Portwyrm.Errors
import Portwyrm.Exits
import Portwyrm.Frontend.ConfigDiff
import Portwyrm.Identity.AccountRuns
import Portwyrm.Identity.DerivedCredentials
import Portwyrm.Identity.Enrollment
import Portwyrm.Identity.Login
import Portwyrm.Identity.Passwords
import Portwyrm.Identity.PermissionRoundTrip
import Portwyrm.Identity.Permissions
import Portwyrm.Identity.Rbac
import Portwyrm.Identity.RecoveryCodes
import Portwyrm.Identity.RestoredAuthorization
import Portwyrm.Identity.ScopeAuthority
import Portwyrm.Identity.Security
import Portwyrm.Identity.Tables
import Portwyrm.Identity.TokenApi
import Portwyrm.Identity.TokenAuthority
import Portwyrm.Identity.TokenLifecycle
import Portwyrm.Identity.TokenPolicy
import Portwyrm.Identity.Totp
import Portwyrm.Identity.TotpExact
import Portwyrm.Quic.ClientHello
import Portwyrm.Quic.ClientName
import Portwyrm.Quic.Config
import Portwyrm.Quic.ConnectionIds
import Portwyrm.Quic.Datagrams
import Portwyrm.Quic.Encoding
import Portwyrm.Quic.Forwarding
import Portwyrm.Quic.Frame
import Portwyrm.Quic.FrameScan
import Portwyrm.Quic.Index
import Portwyrm.Quic.Ingress
import Portwyrm.Quic.Pending
import Portwyrm.Quic.Protection
import Portwyrm.Quic.Reassembly
import Portwyrm.Quic.Reload
import Portwyrm.Quic.RouteAgreement
import Portwyrm.Quic.RouteFile
import Portwyrm.Quic.RouteStore
import Portwyrm.Quic.Router
import Portwyrm.Quic.Wire
import Portwyrm.Runtime.AccessControl
import Portwyrm.Runtime.AccessMerge
import Portwyrm.Runtime.AccessPolicy
import Portwyrm.Runtime.AccessTables
import Portwyrm.Runtime.BlockStructure
import Portwyrm.Runtime.Controller
import Portwyrm.Runtime.ControllerRender
import Portwyrm.Runtime.Deployment
import Portwyrm.Runtime.GeneratedPaths
import Portwyrm.Runtime.GenerationDiff
import Portwyrm.Runtime.GenerationIdentity
import Portwyrm.Runtime.GenerationStore
import Portwyrm.Runtime.GenerationTable
import Portwyrm.Runtime.HealthScheduler
import Portwyrm.Runtime.HealthSweep
import Portwyrm.Runtime.HostAnswers
import Portwyrm.Runtime.HostDirectives
import Portwyrm.Runtime.Leases
import Portwyrm.Runtime.LogRuns
import Portwyrm.Runtime.Logs
import Portwyrm.Runtime.Models
import Portwyrm.Runtime.Nginx
import Portwyrm.Runtime.NginxHttp
import Portwyrm.Runtime.NginxPlatform
import Portwyrm.Runtime.NginxPrimitives
import Portwyrm.Runtime.NodeLeases
import Portwyrm.Runtime.PasswordFiles
import Portwyrm.Runtime.Publisher
import Portwyrm.Runtime.Reconcile
import Portwyrm.Runtime.RenderOrder
import Portwyrm.Runtime.RenderOutcome
import Portwyrm.Runtime.ServerNames
import Portwyrm.Runtime.UpstreamProbe
import Portwyrm.Tables.AccessFrames
import Portwyrm.Tables.AccessLists
import Portwyrm.Tables.AccessPasswords
import Portwyrm.Tables.AliasFields
import Portwyrm.Tables.AnsweredRequests
import Portwyrm.Tables.Audit
import Portwyrm.Tables.AuditListing
import Portwyrm.Tables.AuditSecrets
import Portwyrm.Tables.CertificateRuns
import Portwyrm.Tables.Certificates
import Portwyrm.Tables.Collections
import Portwyrm.Tables.Compilable
import Portwyrm.Tables.CreatorAccess
import Portwyrm.Tables.Documents
import Portwyrm.Tables.DomainGrammar
import Portwyrm.Tables.ExportImport
import Portwyrm.Tables.Exports
import Portwyrm.Tables.FailedUploads
import Portwyrm.Tables.Fields
import Portwyrm.Tables.Handlers
import Portwyrm.Tables.HealthRuns
import Portwyrm.Tables.HostAuthorization
import Portwyrm.Tables.HostFrames
import Portwyrm.Tables.HostHealth
import Portwyrm.Tables.HostRewrite
import Portwyrm.Tables.HostWriteRead
import Portwyrm.Tables.Hosts
import Portwyrm.Tables.Imports
import Portwyrm.Tables.InitialSetup
import Portwyrm.Tables.Lifecycle
import Portwyrm.Tables.LostUpdates
import Portwyrm.Tables.Noninterference
import Portwyrm.Tables.NpmConservation
import Portwyrm.Tables.NpmImport
import Portwyrm.Tables.NpmRelated
import Portwyrm.Tables.Ownership
import Portwyrm.Tables.Portability
import Portwyrm.Tables.Preview
import Portwyrm.Tables.RawNginx
import Portwyrm.Tables.RawRetention
import Portwyrm.Tables.Refusals
import Portwyrm.Tables.RenderRun
import Portwyrm.Tables.Rendering
import Portwyrm.Tables.Restoration
import Portwyrm.Tables.RestoredRows
import Portwyrm.Tables.RoutingRuns
import Portwyrm.Tables.RowFrames
import Portwyrm.Tables.ServedNames
import Portwyrm.Tables.ShownDocuments
import Portwyrm.Tables.StaleRender
import Portwyrm.Tables.StoredSecrets
import Portwyrm.Tables.StreamPorts
import Portwyrm.Tables.Streams
import Portwyrm.Tables.TableRuns
import Portwyrm.Tables.Upstreams
import Portwyrm.Tables.UserAuthority
import Portwyrm.Tables.UserFrames
import Portwyrm.Tables.Users
import Portwyrm.Tables.Visibility
import Portwyrm.Tables.VisibilityPolicies
import Portwyrm.Tables.WrittenRows
