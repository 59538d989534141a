import Whoisthat.FileStore
import Whoisthat.FallibleState
import Whoisthat.Records
import Whoisthat.Database
import Whoisthat.GroupFiles
import Whoisthat.Renumbering
import Whoisthat.GroupSync
import Whoisthat.SyncWrites
import Whoisthat.Refresh
import Whoisthat.ProfileStore
import Whoisthat.ProfileIds
import Whoisthat.GroupStore
import Whoisthat.RoutingStore
import Whoisthat.ReadOnly
import Whoisthat.FiledRecords
import Whoisthat.GroupNames
import Whoisthat.StagedCopy
import Whoisthat.Snapshots
import Whoisthat.KeyFiles
import Whoisthat.KeySafety
import Whoisthat.Startup
import Whoisthat.SnapshotRuns
import Whoisthat.GroupIds
import Whoisthat.ProxyManager
import Whoisthat.ProxyInvariant
import Whoisthat.ProxyRuns
import Whoisthat.StatusChannel
import Whoisthat.PacketFilter
import Whoisthat.IPLiterals
import Whoisthat.KillSwitchRules
import Whoisthat.ScriptRuns
import Whoisthat.KillSwitchArming
import Whoisthat.TCPServer
import Whoisthat.SettingRaces
import Whoisthat.Session
import Whoisthat.TunAgreement
import Whoisthat.AllowlistFreshness
import Whoisthat.DnsPlan
import Whoisthat.ShellScripts
import Whoisthat.HostNetwork
import Whoisthat.NetworkChanges
import Whoisthat.ScriptTriples
import Whoisthat.TunScripts
import Whoisthat.TunNetwork
import Whoisthat.ScriptScopes
import Whoisthat.TunTeardown
import Whoisthat.SplitReapply
import Whoisthat.OwnArtifacts
import Whoisthat.TunCleanup
import Whoisthat.RpFilterRestore
import Whoisthat.StartRollback
import Whoisthat.StartSuccess
import Whoisthat.StartTransaction
import Whoisthat.StartConditions
import Whoisthat.DaemonTraces
import Whoisthat.Reconcile
import Whoisthat.RoutingResolution
import Whoisthat.HappImport
import Whoisthat.GeoWorkers
import Whoisthat.CliRouting
import Whoisthat.Json
import Whoisthat.XrayConfig
import Whoisthat.ProviderConfig
import Whoisthat.SubscriptionParse
import Whoisthat.RuleEnforcement
import Whoisthat.ConfigShape
import Whoisthat.CoreConfig
import Whoisthat.StrictRouting
import Whoisthat.SessionRouting
import Whoisthat.Footprints
import Whoisthat.RoutingWrites
import Whoisthat.LiveRouting
import Whoisthat.GeoOrigins
import Whoisthat.GeoTraces
import Whoisthat.LastUpdatedGate
import Whoisthat.SchedulerRuns
import Whoisthat.TestResults
import Whoisthat.TestQueue
import Whoisthat.TestProgress
import Whoisthat.StatsPorts
import Whoisthat.SettingsBackup
import Whoisthat.Dispatch
import Whoisthat.HappRules
import Whoisthat.Activation
import Whoisthat.FirstMatch
import Whoisthat.ProfileMoves
import Whoisthat.SnapshotRestore
import Whoisthat.Occurrences
import Whoisthat.Utf8
import Whoisthat.HappLinks
import Whoisthat.Listings
import Whoisthat.RoutingNames
import Whoisthat.Base64
import Whoisthat.Separators
import Whoisthat.JsonScanner
import Whoisthat.WhiteSpace
import Whoisthat.ShareLinks
import Whoisthat.Percent
import Whoisthat.HappPayloads
import Whoisthat.InjectedRouting
import Whoisthat.Redirection
import Whoisthat.DialerGraph
import Whoisthat.FreedomMarks
import Whoisthat.Numbering
import Whoisthat.ProviderKeys
import Whoisthat.FailedEdits
import Whoisthat.StatsCollector
import Whoisthat.StructDecoding
import Whoisthat.ConfigFile
import Whoisthat.ConfigStart
import Whoisthat.Delimiters
import Whoisthat.LinkText
import Whoisthat.LinkParsers
import Whoisthat.LinkPorts
import Whoisthat.LinkSpelling
import Whoisthat.LinkRoundTrip
import Whoisthat.Patterns
import Whoisthat.ProbePorts
import Whoisthat.UrlDecoding
import Whoisthat.PortUse
import Whoisthat.Framing
import Whoisthat.Resolve
import Whoisthat.DeepLinkText
import Whoisthat.DeepLinks
import Whoisthat.DeepLinkRoundTrip
import Whoisthat.Redaction
import Whoisthat.FirstFound
import Whoisthat.TreeView
import Whoisthat.TreeEvents
import Whoisthat.TreeCursor
import Whoisthat.ConnectedProfile
import Whoisthat.CrashFiles
import Whoisthat.AtomicWrites
import Whoisthat.CliSession
import Whoisthat.RuntimeArchive
import Whoisthat.XrayRuntime
import Whoisthat.MemberDecoding
import Whoisthat.Requests
import Whoisthat.RoutingEdits
import Whoisthat.CoreBooks
import Whoisthat.MirroredOrders
import Whoisthat.MirroredBooks
import Whoisthat.ClientMirror
import Whoisthat.MovedItems
