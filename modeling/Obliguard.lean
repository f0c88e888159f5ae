import Obliguard.Canonical.Agreement
import Obliguard.Agent.Nftables
import Obliguard.Agent.EventDelivery
import Obliguard.Agent.QueuedCommands
import Obliguard.Agent.FirewallResync
import Obliguard.Server.WhitelistSafety
import Obliguard.Server.TenantIsolation
import Obliguard.Server.LiftFinality
import Obliguard.Server.Interleaving
import Obliguard.Server.CommandFinality
import Obliguard.Server.ClaimStatements
import Obliguard.Server.UpdateRollout
import Obliguard.Server.UpdateSuccess
import Obliguard.Server.ServiceOptIn
import Obliguard.Server.BanSync
import Obliguard.Server.TenantFreeze
import Obliguard.Server.TenantAccess
import Obliguard.Server.SettingsSnapshot
import Obliguard.Server.RateLimitSync
import Obliguard.Server.OfflineIncidents
import Obliguard.Server.IncidentsOnce
import Obliguard.Server.BulkLift
import Obliguard.Server.MikrotikRequests
import Obliguard.Server.ExternalBans
import Obliguard.Canonical.SafetyRules
import Obliguard.Lib.Bytes
import Obliguard.Lib.Framing
import Obliguard.Agent.WebSocket
import Obliguard.Server.RouterOsReplies
import Obliguard.Agent.SwitchableFirewall
import Obliguard.Agent.NetshEnforcement
import Obliguard.Agent.Firewalld
import Obliguard.Agent.WfpMirror
import Obliguard.Server.LiveRows
import Obliguard.Agent.EventRequeue
import Obliguard.Server.Crypto
import Obliguard.Server.DelegationAuth
import Obliguard.Server.AgentBinding
import Obliguard.Server.ResolvedTemplates
import Obliguard.Server.GroupService
import Obliguard.Server.GroupRaces
import Obliguard.Server.EvaluateOnly
import Obliguard.Server.IpReputation
import Obliguard.Server.ReputationIsolation
import Obliguard.Agent.GroupedRemoval
import Obliguard.Agent.UpdateVersion
import Obliguard.Server.ProtectedIps
import Obliguard.Server.ServedVersions
import Obliguard.Server.UpdateCascade
import Obliguard.Server.OfferCounting
import Obliguard.Lib.Window
import Obliguard.Server.BanLifecycle
import Obliguard.Server.EventAddresses
import Obliguard.Agent.LoginLines
import Obliguard.Lib.Selection
import Obliguard.Server.AutoBans
import Obliguard.Server.EngineCycles
import Obliguard.Server.MikrotikSyslog
import Obliguard.Server.TokenLifetime
import Obliguard.Agent.ReadFrame
import Obliguard.Lib.Lines
import Obliguard.Agent.PfConf
import Obliguard.Lib.CodeUnits
import Obliguard.Lib.Csv
import Obliguard.Lib.JsNumber
import Obliguard.Server.CsvExport
import Obliguard.Lib.Json
import Obliguard.Server.BanPolicy
import Obliguard.Server.ClientIp
import Obliguard.Server.RateLimitPolicies
import Obliguard.Server.ReputationBatches
import Obliguard.Agent.IpsetMigration
import Obliguard.Agent.TailFile
import Obliguard.Server.UserScope
import Obliguard.Server.UserAdmin
import Obliguard.Canonical.FirewallRules
import Obliguard.Server.SignInSafety
