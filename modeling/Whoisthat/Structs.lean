import Whoisthat.WireRecords

/-!
# What the core sends

The structures of the core's notifications and responses and what
`encoding/json` makes of them, member by member in the order of the Go
declarations. Go's `int` and `int64` have 64 bits, a slice may be nil, a nil
pointer or map is `none`.
-/

set_option autoImplicit false

namespace Whoisthat.Structs
open Json (Value)
open WireRecords

section Profiles

structure Profile where
  id : Int64
  groupId : Int64
  nanoID : String
  name : String
  protocol : String
  uri : String
  address : String
  host : String
  testResult : Int64
  testedAt : Int64
  lossPct : Int64
  jitterMs : Int64
  port : Int64
  managed : Bool
  providerKey : String

def Profile.json (p : Profile) : Record where
  entries := [("id",some (int p.id)),("group_id",some (int p.groupId)),
    ("nano-id",omitString p.nanoID),("name",some (.str p.name)),
    ("protocol",some (.str p.protocol)),("uri",some (.str p.uri)),
    ("address",omitString p.address),("host",omitString p.host),
    ("test-result",some (int p.testResult)),("tested_at",omitInt p.testedAt),
    ("loss-pct",omitInt p.lossPct),("jitter-ms",omitInt p.jitterMs),("port",omitInt p.port),
    ("managed",omitBool p.managed),("provider_key",omitString p.providerKey)]
  nodup := by simp

structure ProfileID where
  id : Int64
  groupId : Int64

def ProfileID.json (p : ProfileID) : Record where
  entries := [("id",some (int p.id)),("group_id",some (int p.groupId))]
  nodup := by simp

structure ProfileDetails where
  groupId : Int64
  id : Int64
  transport : String
  security : String
  sni : String
  flow : String
  alpn : String
  path : String
  host : String
  serviceName : String
  mode : String
  fingerprint : String
  publicKey : String
  shortId : String
  spiderX : String
  obfs : String
  cipher : String
  allowInsecure : Bool

def ProfileDetails.json (d : ProfileDetails) : Record where
  entries := [("group_id",some (int d.groupId)),("id",some (int d.id)),
    ("transport",omitString d.transport),("security",omitString d.security),
    ("sni",omitString d.sni),("flow",omitString d.flow),("alpn",omitString d.alpn),
    ("path",omitString d.path),("host",omitString d.host),
    ("service_name",omitString d.serviceName),("mode",omitString d.mode),
    ("fingerprint",omitString d.fingerprint),("public_key",omitString d.publicKey),
    ("short_id",omitString d.shortId),("spider_x",omitString d.spiderX),
    ("obfs",omitString d.obfs),("cipher",omitString d.cipher),
    ("allow_insecure",omitBool d.allowInsecure)]
  nodup := by simp

end Profiles

section Groups

structure RoutingProfileInfo where
  id : String
  name : String
  state : String
  lastError : String
  active : Bool
  rulesCount : Int64
  globalProxy : Bool
  domainStrategy : String
  fakeDNSEnabled : Bool
  remoteDNS : String
  domesticDNS : String
  lastUpdated : Int64
  geoUpdatedAt : Int64

def RoutingProfileInfo.json (i : RoutingProfileInfo) : Record where
  entries := [("id",some (.str i.id)),("name",some (.str i.name)),("state",some (.str i.state)),
    ("last_error",omitString i.lastError),("active",some (.bool i.active)),
    ("rules_count",some (int i.rulesCount)),("global_proxy",some (.bool i.globalProxy)),
    ("domain_strategy",some (.str i.domainStrategy)),
    ("fake_dns_enabled",omitBool i.fakeDNSEnabled),("remote_dns",omitString i.remoteDNS),
    ("domestic_dns",omitString i.domesticDNS),("last_updated",omitInt i.lastUpdated),
    ("geo_updated_at",omitInt i.geoUpdatedAt)]
  nodup := by simp

structure Group where
  id : Int64
  subscriptionUrl : String
  name : String
  lastId : Int64
  subLastUpdated : Int64
  subExpires : Int64
  subUpload : Int64
  subDownload : Int64
  subTotal : Int64
  subUpdateInterval : Int64
  subUpdateIntervalOverride : Int64
  subAutoUpdateDisabled : Bool
  profileOrder : Slice Int64
  routingMode : String
  manualRoutingMode : String
  activeRoutingProfileId : String
  pendingActiveRoutingProfileId : String
  subName : String
  subscriptionFormat : String

def Group.json (g : Group) : Record where
  entries := [("id",some (int g.id)),("subscription_url",some (.str g.subscriptionUrl)),
    ("name",some (.str g.name)),("last_id",some (int g.lastId)),
    ("sub_last_updated",omitInt g.subLastUpdated),("sub_expires",omitInt g.subExpires),
    ("sub_upload",omitInt g.subUpload),("sub_download",omitInt g.subDownload),
    ("sub_total",omitInt g.subTotal),("sub_update_interval",omitInt g.subUpdateInterval),
    ("sub_update_interval_override",omitInt g.subUpdateIntervalOverride),
    ("sub_auto_update_disabled",omitBool g.subAutoUpdateDisabled),
    ("profile_order",omitEmpty int g.profileOrder),("routing_mode",omitString g.routingMode),
    ("manual_routing_mode",omitString g.manualRoutingMode),
    ("active_routing_profile_id",omitString g.activeRoutingProfileId),
    ("pending_active_routing_profile_id",omitString g.pendingActiveRoutingProfileId),
    ("sub_name",omitString g.subName),("subscription_format",omitString g.subscriptionFormat)]
  nodup := by simp

structure GroupWithProfiles where
  group : Group
  profiles : Slice Profile
  routingProfiles : Slice RoutingProfileInfo

def GroupWithProfiles.json (g : GroupWithProfiles) : Record where
  entries := [("group",some g.group.json.value),
    ("profiles",some (g.profiles.value fun p => p.json.value)),
    ("routing_profiles",omitNil (fun i => i.json.value) g.routingProfiles)]
  nodup := by simp

structure GroupAdded where
  id : Int64
  subscriptionUrl : String
  name : String

def GroupAdded.json (g : GroupAdded) : Record where
  entries := [("id",some (int g.id)),("subscription_url",some (.str g.subscriptionUrl)),
    ("name",some (.str g.name))]
  nodup := by simp

structure SubscriptionUpdated where
  groupId : Int64
  group : Group
  profiles : Slice Profile
  routingProfiles : Slice RoutingProfileInfo
  auto : Bool

def SubscriptionUpdated.json (u : SubscriptionUpdated) : Record where
  entries := [("group_id",some (int u.groupId)),("group",some u.group.json.value),
    ("profiles",some (u.profiles.value fun p => p.json.value)),
    ("routing_profiles",omitNil (fun i => i.json.value) u.routingProfiles),
    ("auto",omitBool u.auto)]
  nodup := by simp

end Groups

section Routing

structure RoutingRule where
  type : String
  domain : String
  ip : String
  protocol : String
  port : String
  network : String
  outboundTag : String
  enabled : Bool

def RoutingRule.json (r : RoutingRule) : Record where
  entries := [("type",some (.str r.type)),("domain",omitString r.domain),("ip",omitString r.ip),
    ("protocol",omitString r.protocol),("port",omitString r.port),
    ("network",omitString r.network),("outbound_tag",some (.str r.outboundTag)),
    ("enabled",some (.bool r.enabled))]
  nodup := by simp

/-- `hosts` in the order of its keys. -/
structure HappDNSConfig where
  fakeDNSEnabled : Bool
  remoteDNSType : String
  remoteDNSDomain : String
  remoteDNSIP : String
  domesticDNSType : String
  domesticDNSDomain : String
  domesticDNSIP : String
  hosts : Option (List (String × String))

def HappDNSConfig.json (d : HappDNSConfig) : Record where
  entries := [("fake_dns_enabled",omitBool d.fakeDNSEnabled),
    ("remote_dns_type",omitString d.remoteDNSType),
    ("remote_dns_domain",omitString d.remoteDNSDomain),
    ("remote_dns_ip",omitString d.remoteDNSIP),
    ("domestic_dns_type",omitString d.domesticDNSType),
    ("domestic_dns_domain",omitString d.domesticDNSDomain),
    ("domestic_dns_ip",omitString d.domesticDNSIP),
    ("hosts",d.hosts.map fun l => .obj (l.map fun e => (e.1,.str e.2)))]
  nodup := by simp

structure RoutingConfig where
  domainStrategy : String
  rules : Slice RoutingRule
  dns : Option HappDNSConfig

def RoutingConfig.json (c : RoutingConfig) : Record where
  entries := [("domain_strategy",some (.str c.domainStrategy)),
    ("rules",some (c.rules.value fun r => r.json.value)),
    ("dns",c.dns.map fun d => d.json.value)]
  nodup := by simp

structure RoutingUpdated where
  groupId : Int64
  config : RoutingConfig
  source : String
  custom : Option RoutingConfig

def RoutingUpdated.json (u : RoutingUpdated) : Record where
  entries := [("group_id",some (int u.groupId)),("config",some u.config.json.value),
    ("source",some (.str u.source)),("custom",u.custom.map fun c => c.json.value)]
  nodup := by simp

end Routing

section Application

structure HwidData where
  enabled : Bool
  hwid : String
  userAgent : String
  platform : String
  kernel : String
  model : String

def HwidData.json (h : HwidData) : Record where
  entries := [("enabled",some (.bool h.enabled)),("hwid",some (.str h.hwid)),
    ("user_agent",some (.str h.userAgent)),("platform",some (.str h.platform)),
    ("kernel",some (.str h.kernel)),("model",some (.str h.model))]
  nodup := by simp

structure AutoconnectInfo where
  enabled : Bool
  mode : String

def AutoconnectInfo.json (i : AutoconnectInfo) : Record where
  entries := [("enabled",some (.bool i.enabled)),("mode",some (.str i.mode))]
  nodup := by simp

structure XrayStatusInfo where
  version : String
  targetVersion : String
  status : String
  progress : Int64
  bytesDownloaded : Int64
  totalBytes : Int64
  error : String

def XrayStatusInfo.json (i : XrayStatusInfo) : Record where
  entries := [("version",some (.str i.version)),("target_version",some (.str i.targetVersion)),
    ("status",some (.str i.status)),("progress",some (int i.progress)),
    ("bytes_downloaded",omitInt i.bytesDownloaded),("total_bytes",omitInt i.totalBytes),
    ("error",omitString i.error)]
  nodup := by simp

structure XrayProgressNotification where
  status : String
  version : String
  progress : Int64
  bytesDownloaded : Int64
  totalBytes : Int64
  error : String

def XrayProgressNotification.json (n : XrayProgressNotification) : Record where
  entries := [("status",some (.str n.status)),("version",some (.str n.version)),
    ("progress",some (int n.progress)),("bytes_downloaded",omitInt n.bytesDownloaded),
    ("total_bytes",omitInt n.totalBytes),("error",omitString n.error)]
  nodup := by simp

structure TestConfig where
  concurrency : Int64
  timeoutSeconds : Int64
  samplesPerTest : Int64
  testEndpoint : String
  autoTestOnSub : Bool
  deriving DecidableEq

def TestConfig.json (c : TestConfig) : Record where
  entries := [("concurrency",some (int c.concurrency)),
    ("timeout_seconds",some (int c.timeoutSeconds)),
    ("samples_per_test",some (int c.samplesPerTest)),
    ("test_endpoint",some (.str c.testEndpoint)),
    ("auto_test_on_subscribe",some (.bool c.autoTestOnSub))]
  nodup := by simp

structure ConfigStatus where
  state : String
  error : String
  deriving DecidableEq

def ConfigStatus.json (s : ConfigStatus) : Record where
  entries := [("state",some (.str s.state)),("error",omitString s.error)]
  nodup := by simp

structure DBStatus where
  state : String
  error : String
  snapshotAt : String
  deriving DecidableEq

def DBStatus.json (s : DBStatus) : Record where
  entries := [("state",some (.str s.state)),("error",omitString s.error),
    ("snapshot_at",omitString s.snapshotAt)]
  nodup := by simp

structure ProxyStatus where
  connection : String
  profile : Profile
  connectedAt : Int64
  reason : String

def ProxyStatus.json (s : ProxyStatus) : Record where
  entries := [("connection",some (.str s.connection)),("profile",some s.profile.json.value),
    ("connected_at",some (int s.connectedAt)),("reason",omitString s.reason)]
  nodup := by simp

structure ApplicationState where
  groups : Slice GroupWithProfiles
  connectionStatus : ProxyStatus
  tunStatus : Bool
  hwidInfo : HwidData
  killSwitch : Bool
  killSwitchArmed : Bool
  splitTunnel : String
  autoconnect : AutoconnectInfo
  xrayStatus : XrayStatusInfo
  coreVersion : String
  protocolVersion : Int64
  tunName : String
  testConfig : TestConfig
  configStatus : ConfigStatus
  dbStatus : DBStatus

def ApplicationState.json (s : ApplicationState) : Record where
  entries := [("groups",some (s.groups.value fun g => g.json.value)),
    ("connection-status",some s.connectionStatus.json.value),
    ("tun-status",some (.bool s.tunStatus)),("hwid_info",some s.hwidInfo.json.value),
    ("kill_switch",some (.bool s.killSwitch)),("kill_switch_armed",omitBool s.killSwitchArmed),
    ("split_tunnel",some (.str s.splitTunnel)),("autoconnect",some s.autoconnect.json.value),
    ("xray_status",some s.xrayStatus.json.value),("core_version",omitString s.coreVersion),
    ("protocol_version",omitInt s.protocolVersion),("tun_name",omitString s.tunName),
    ("test_config",omitzero (s.testConfig = ⟨0,0,0,"",false⟩) s.testConfig.json.value),
    ("config_status",omitzero (s.configStatus = ⟨"",""⟩) s.configStatus.json.value),
    ("db_status",omitzero (s.dbStatus = ⟨"","",""⟩) s.dbStatus.json.value)]
  nodup := by simp

end Application

section Messages

structure ProfileMoved where
  oldProfile : ProfileID
  newProfile : Profile

def ProfileMoved.json (m : ProfileMoved) : Record where
  entries := [("old_profile",some m.oldProfile.json.value),
    ("new_profile",some m.newProfile.json.value)]
  nodup := by simp

structure ProfilesReordered where
  groupId : Int64
  profileIds : Slice Int64

def ProfilesReordered.json (r : ProfilesReordered) : Record where
  entries := [("group_id",some (int r.groupId)),("profile_ids",some (r.profileIds.value int))]
  nodup := by simp

structure SetKillSwitchData where
  enabled : Bool
  force : Bool
  armed : Bool

def SetKillSwitchData.json (d : SetKillSwitchData) : Record where
  entries := [("enabled",some (.bool d.enabled)),("force",omitBool d.force),
    ("armed",omitBool d.armed)]
  nodup := by simp

structure TestProgress where
  groupId : Int64
  tested : Int64
  total : Int64

def TestProgress.json (p : TestProgress) : Record where
  entries := [("group_id",omitInt p.groupId),("tested",some (int p.tested)),
    ("total",some (int p.total))]
  nodup := by simp

structure TrafficStats where
  proxyUp : Int64
  proxyDown : Int64
  directUp : Int64
  directDown : Int64

def TrafficStats.json (s : TrafficStats) : Record where
  entries := [("proxy_up",some (int s.proxyUp)),("proxy_down",some (int s.proxyDown)),
    ("direct_up",some (int s.directUp)),("direct_down",some (int s.directDown))]
  nodup := by simp

structure Warning where
  key : String
  content : String

def Warning.json (w : Warning) : Record where
  entries := [("key",some (.str w.key)),("content",some (.str w.content))]
  nodup := by simp

/-- A structure of one field. -/
def single (name : String) (v : Value) : Record := ⟨[(name,some v)],by simp⟩

/-- The messages that the core sends after the handshake, by the name each is
sent under; a structure of one field is that field. -/
inductive Notification where
  | applicationState (s : ApplicationState)
  | statusChanged (s : ProxyStatus)
  | profilesAdded (profiles : Slice Profile)
  | profilesDeleted (deletedProfiles : Slice ProfileID)
  | profileUpdated (profile : Profile)
  | profileDetails (d : ProfileDetails)
  | groupAdded (g : GroupAdded)
  | groupDeleted (id : Int64)
  | groupUpdated (g : Group)
  | subscriptionUpdated (u : SubscriptionUpdated)
  | profilesReordered (r : ProfilesReordered)
  | groupsReordered (groupIds : Slice Int64)
  | profileMoved (m : ProfileMoved)
  | tunStatusChanged (isEnabled : Bool)
  | isRootAnswer (isRoot : Bool)
  | warn (w : Warning)
  | error (w : Warning)
  | trafficStats (s : TrafficStats)
  | routingUpdated (u : RoutingUpdated)
  | hwidUpdated (h : HwidData)
  | tunNameUpdated (tunName : String)
  | killSwitchUpdated (d : SetKillSwitchData)
  | splitTunnelUpdated (mode : String)
  | autoconnectUpdated (i : AutoconnectInfo)
  | testProgress (p : TestProgress)
  | testConfigUpdated (config : TestConfig)
  | xrayProgress (n : XrayProgressNotification)

def Notification.msg : Notification → String
  | .applicationState _ => "application-state"
  | .statusChanged _ => "status-changed"
  | .profilesAdded _ => "profiles-added"
  | .profilesDeleted _ => "profiles-deleted"
  | .profileUpdated _ => "profile-updated"
  | .profileDetails _ => "profile-details"
  | .groupAdded _ => "group-added"
  | .groupDeleted _ => "group-deleted"
  | .groupUpdated _ => "group-updated"
  | .subscriptionUpdated _ => "subscription-updated"
  | .profilesReordered _ => "profiles-reordered"
  | .groupsReordered _ => "groups-reordered"
  | .profileMoved _ => "profile-moved"
  | .tunStatusChanged _ => "tun-status-changed"
  | .isRootAnswer _ => "is-root-answer"
  | .warn _ => "warn"
  | .error _ => "error"
  | .trafficStats _ => "traffic-stats"
  | .routingUpdated _ => "routing-updated"
  | .hwidUpdated _ => "hwid-updated"
  | .tunNameUpdated _ => "tun-name-updated"
  | .killSwitchUpdated _ => "kill-switch-updated"
  | .splitTunnelUpdated _ => "split-tunnel-updated"
  | .autoconnectUpdated _ => "autoconnect-updated"
  | .testProgress _ => "test-progress"
  | .testConfigUpdated _ => "test-config-updated"
  | .xrayProgress _ => "xray-progress"

def Notification.data : Notification → Record
  | .applicationState s => s.json
  | .statusChanged s => s.json
  | .profilesAdded l => single "profiles" (l.value fun p => p.json.value)
  | .profilesDeleted l => single "deleted-profiles" (l.value fun p => p.json.value)
  | .profileUpdated p => single "profile" p.json.value
  | .profileDetails d => d.json
  | .groupAdded g => g.json
  | .groupDeleted id => single "id" (int id)
  | .groupUpdated g => g.json
  | .subscriptionUpdated u => u.json
  | .profilesReordered r => r.json
  | .groupsReordered l => single "group_ids" (l.value int)
  | .profileMoved m => m.json
  | .tunStatusChanged b => single "is_enabled" (.bool b)
  | .isRootAnswer b => single "IsRoot" (.bool b)
  | .warn w => w.json
  | .error w => w.json
  | .trafficStats s => s.json
  | .routingUpdated u => u.json
  | .hwidUpdated h => h.json
  | .tunNameUpdated s => single "tun_name" (.str s)
  | .killSwitchUpdated d => d.json
  | .splitTunnelUpdated s => single "mode" (.str s)
  | .autoconnectUpdated i => i.json
  | .testProgress p => p.json
  | .testConfigUpdated c => single "config" c.json.value
  | .xrayProgress n => n.json

/-- `CreateJsonNotificationWithID` -/
def Notification.frame (n : Notification) (id : String) : Value :=
  Record.value ⟨[("msg",some (.str n.msg)),("data",some n.data.value),("id",omitString id)],by simp⟩

end Messages

section Producers

/-- What `AddProfiles` and `DeleteProfiles` report: they append what succeeded to
a slice that was never made. -/
def collected {α : Type} (results : List (Option α)) : Slice α :=
  results.foldl (fun done r => r.elim done fun x => some (done.items ++ [x])) none

/-- `UpdateRouting` and `routingPayload` of the global rules: what a client set is
stored and sent back. -/
def routingPayload (config : RoutingConfig) : Notification :=
  .routingUpdated ⟨0,config,"global",none⟩

end Producers

end Whoisthat.Structs
