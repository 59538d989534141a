import Whoisthat.Structs

/-!
# What the client reads

The client's protocol types with their `serde` attributes: which members have
to be there, which have a default, and how wide each integer is. A structure
without integers and lists is the core's.
-/

set_option autoImplicit false

namespace Whoisthat.Protocol
open Json (Value Fields)
open WireRecords
open Structs (HwidData AutoconnectInfo ConfigStatus DBStatus Warning RoutingRule SetKillSwitchData)

section Profiles

structure Profile where
  id : Int32
  groupId : Int32
  name : String
  protocol : String
  uri : String
  address : String
  host : String
  testResult : Int32
  testedAt : Int64
  lossPct : Int32
  jitterMs : Int32
  port : Int32
  managed : Bool
  providerKey : String
  deriving DecidableEq

def Profile.deserialize (f : Fields) : Option Profile := do
  let id ← required i32 "id" f
  let groupId ← required i32 "group_id" f
  let name ← defaulted string "" "name" f
  let protocol ← defaulted string "" "protocol" f
  let uri ← defaulted string "" "uri" f
  let address ← defaulted string "" "address" f
  let host ← defaulted string "" "host" f
  let testResult ← defaulted i32 0 "test-result" f
  let testedAt ← defaulted i64 0 "tested_at" f
  let lossPct ← defaulted i32 0 "loss-pct" f
  let jitterMs ← defaulted i32 0 "jitter-ms" f
  let port ← defaulted i32 0 "port" f
  let managed ← defaulted boolean false "managed" f
  let providerKey ← defaulted string "" "provider_key" f
  some ⟨id,groupId,name,protocol,uri,address,host,testResult,testedAt,lossPct,jitterMs,port,
    managed,providerKey⟩

structure ProfileID where
  id : Int32
  groupId : Int32
  deriving DecidableEq

def ProfileID.deserialize (f : Fields) : Option ProfileID := do
  let id ← required i32 "id" f
  let groupId ← required i32 "group_id" f
  some ⟨id,groupId⟩

structure ProfileDetails where
  groupId : Int32
  id : Int32
  transport : String
  security : String
  sni : String
  flow : String
  alpn : String
  path : String
  host : String
  serviceName : String
  mode : String
  fingerprint : String
  publicKey : String
  shortId : String
  spiderX : String
  obfs : String
  cipher : String
  allowInsecure : Bool
  deriving DecidableEq

def ProfileDetails.deserialize (f : Fields) : Option ProfileDetails := do
  let groupId ← required i32 "group_id" f
  let id ← required i32 "id" f
  let transport ← defaulted string "" "transport" f
  let security ← defaulted string "" "security" f
  let sni ← defaulted string "" "sni" f
  let flow ← defaulted string "" "flow" f
  let alpn ← defaulted string "" "alpn" f
  let path ← defaulted string "" "path" f
  let host ← defaulted string "" "host" f
  let serviceName ← defaulted string "" "service_name" f
  let mode ← defaulted string "" "mode" f
  let fingerprint ← defaulted string "" "fingerprint" f
  let publicKey ← defaulted string "" "public_key" f
  let shortId ← defaulted string "" "short_id" f
  let spiderX ← defaulted string "" "spider_x" f
  let obfs ← defaulted string "" "obfs" f
  let cipher ← defaulted string "" "cipher" f
  let allowInsecure ← defaulted boolean false "allow_insecure" f
  some ⟨groupId,id,transport,security,sni,flow,alpn,path,host,serviceName,mode,fingerprint,
    publicKey,shortId,spiderX,obfs,cipher,allowInsecure⟩

end Profiles

section Groups

structure RoutingProfileInfo where
  id : String
  name : String
  state : String
  lastError : String
  active : Bool
  rulesCount : UInt64
  globalProxy : Bool
  domainStrategy : String
  fakeDnsEnabled : Bool
  remoteDns : String
  domesticDns : String
  lastUpdated : Int64
  geoUpdatedAt : Int64
  deriving DecidableEq

def RoutingProfileInfo.deserialize (f : Fields) : Option RoutingProfileInfo := do
  let id ← defaulted string "" "id" f
  let name ← defaulted string "" "name" f
  let state ← defaulted string "" "state" f
  let lastError ← defaulted string "" "last_error" f
  let active ← defaulted boolean false "active" f
  let rulesCount ← defaulted u64 0 "rules_count" f
  let globalProxy ← defaulted boolean false "global_proxy" f
  let domainStrategy ← defaulted string "" "domain_strategy" f
  let fakeDnsEnabled ← defaulted boolean false "fake_dns_enabled" f
  let remoteDns ← defaulted string "" "remote_dns" f
  let domesticDns ← defaulted string "" "domestic_dns" f
  let lastUpdated ← defaulted i64 0 "last_updated" f
  let geoUpdatedAt ← defaulted i64 0 "geo_updated_at" f
  some ⟨id,name,state,lastError,active,rulesCount,globalProxy,domainStrategy,fakeDnsEnabled,
    remoteDns,domesticDns,lastUpdated,geoUpdatedAt⟩

structure Group where
  id : Int32
  name : String
  subscriptionUrl : String
  lastId : Int32
  subLastUpdated : Int64
  subExpires : Int64
  subUpload : Int64
  subDownload : Int64
  subTotal : Int64
  subUpdateInterval : Int64
  subUpdateIntervalOverride : Int64
  subAutoUpdateDisabled : Bool
  profileOrder : List Int32
  routingMode : String
  manualRoutingMode : String
  activeRoutingProfileId : String
  pendingActiveRoutingProfileId : String
  subscriptionFormat : String
  deriving DecidableEq

def Group.default : Group := ⟨0,"","",0,0,0,0,0,0,0,0,false,[],"","","","",""⟩

def Group.deserialize (f : Fields) : Option Group := do
  let id ← required i32 "id" f
  let name ← defaulted string "" "name" f
  let subscriptionUrl ← defaulted string "" "subscription_url" f
  let lastId ← defaulted i32 0 "last_id" f
  let subLastUpdated ← defaulted i64 0 "sub_last_updated" f
  let subExpires ← defaulted i64 0 "sub_expires" f
  let subUpload ← defaulted i64 0 "sub_upload" f
  let subDownload ← defaulted i64 0 "sub_download" f
  let subTotal ← defaulted i64 0 "sub_total" f
  let subUpdateInterval ← defaulted i64 0 "sub_update_interval" f
  let subUpdateIntervalOverride ← defaulted i64 0 "sub_update_interval_override" f
  let subAutoUpdateDisabled ← defaulted boolean false "sub_auto_update_disabled" f
  let profileOrder ← defaulted (vec i32) [] "profile_order" f
  let routingMode ← defaulted string "" "routing_mode" f
  let manualRoutingMode ← defaulted string "" "manual_routing_mode" f
  let activeRoutingProfileId ← defaulted string "" "active_routing_profile_id" f
  let pendingActiveRoutingProfileId ← defaulted string "" "pending_active_routing_profile_id" f
  let subscriptionFormat ← defaulted string "" "subscription_format" f
  some ⟨id,name,subscriptionUrl,lastId,subLastUpdated,subExpires,subUpload,subDownload,subTotal,
    subUpdateInterval,subUpdateIntervalOverride,subAutoUpdateDisabled,profileOrder,routingMode,
    manualRoutingMode,activeRoutingProfileId,pendingActiveRoutingProfileId,subscriptionFormat⟩

structure GroupWithProfiles where
  group : Group
  profiles : List Profile
  routingProfiles : List RoutingProfileInfo
  deriving DecidableEq

def GroupWithProfiles.deserialize (f : Fields) : Option GroupWithProfiles := do
  let group ← required (record Group.deserialize) "group" f
  let profiles ← required (vec (record Profile.deserialize)) "profiles" f
  let routingProfiles ←
    defaulted (vec (record RoutingProfileInfo.deserialize)) [] "routing_profiles" f
  some ⟨group,profiles,routingProfiles⟩

structure GroupAdded where
  id : Int32
  name : String
  subscriptionUrl : String

def GroupAdded.deserialize (f : Fields) : Option GroupAdded := do
  let id ← required i32 "id" f
  let name ← defaulted string "" "name" f
  let subscriptionUrl ← defaulted string "" "subscription_url" f
  some ⟨id,name,subscriptionUrl⟩

structure SubscriptionUpdated where
  groupId : Int32
  group : Group
  profiles : List Profile
  routingProfiles : List RoutingProfileInfo
  auto : Bool

def SubscriptionUpdated.deserialize (f : Fields) : Option SubscriptionUpdated := do
  let groupId ← required i32 "group_id" f
  let group ← required (record Group.deserialize) "group" f
  let profiles ← required (vec (record Profile.deserialize)) "profiles" f
  let routingProfiles ←
    defaulted (vec (record RoutingProfileInfo.deserialize)) [] "routing_profiles" f
  let auto ← defaulted boolean false "auto" f
  some ⟨groupId,group,profiles,routingProfiles,auto⟩

end Groups

section Routing

def deserializeRoutingRule (f : Fields) : Option RoutingRule := do
  let type ← defaulted string "" "type" f
  let domain ← defaulted string "" "domain" f
  let ip ← defaulted string "" "ip" f
  let protocol ← defaulted string "" "protocol" f
  let port ← defaulted string "" "port" f
  let network ← defaulted string "" "network" f
  let outboundTag ← defaulted string "" "outbound_tag" f
  let enabled ← defaulted boolean true "enabled" f
  some ⟨type,domain,ip,protocol,port,network,outboundTag,enabled⟩

/-- The DNS section stays an opaque value. -/
structure RoutingConfig where
  domainStrategy : String
  rules : List RoutingRule
  dns : Option Value

def RoutingConfig.deserialize (f : Fields) : Option RoutingConfig := do
  let domainStrategy ← defaulted string "IPIfNonMatch" "domain_strategy" f
  let rules ← defaulted (vec (record deserializeRoutingRule)) [] "rules" f
  let dns ← defaulted (optional some) none "dns" f
  some ⟨domainStrategy,rules,dns⟩

structure RoutingUpdated where
  groupId : Int32
  config : RoutingConfig
  source : String
  custom : Option RoutingConfig

def RoutingUpdated.deserialize (f : Fields) : Option RoutingUpdated := do
  let groupId ← defaulted i32 0 "group_id" f
  let config ← required (record RoutingConfig.deserialize) "config" f
  let source ← defaulted string "" "source" f
  let custom ← defaulted (optional (record RoutingConfig.deserialize)) none "custom" f
  some ⟨groupId,config,source,custom⟩

end Routing

section Application

def deserializeHwidData (f : Fields) : Option HwidData := do
  let enabled ← defaulted boolean false "enabled" f
  let hwid ← defaulted string "" "hwid" f
  let userAgent ← defaulted string "" "user_agent" f
  let platform ← defaulted string "" "platform" f
  let kernel ← defaulted string "" "kernel" f
  let model ← defaulted string "" "model" f
  some ⟨enabled,hwid,userAgent,platform,kernel,model⟩

def deserializeAutoconnectInfo (f : Fields) : Option AutoconnectInfo := do
  let enabled ← defaulted boolean false "enabled" f
  let mode ← defaulted string "proxy" "mode" f
  some ⟨enabled,mode⟩

def deserializeConfigStatus (f : Fields) : Option ConfigStatus := do
  let state ← defaulted string "" "state" f
  let error ← defaulted string "" "error" f
  some ⟨state,error⟩

def deserializeDbStatus (f : Fields) : Option DBStatus := do
  let state ← defaulted string "" "state" f
  let error ← defaulted string "" "error" f
  let snapshotAt ← defaulted string "" "snapshot_at" f
  some ⟨state,error,snapshotAt⟩

structure XrayStatusInfo where
  version : String
  targetVersion : String
  status : String
  progress : Int32
  bytesDownloaded : Int64
  totalBytes : Int64
  error : String
  deriving DecidableEq

def XrayStatusInfo.deserialize (f : Fields) : Option XrayStatusInfo := do
  let version ← defaulted string "" "version" f
  let targetVersion ← defaulted string "" "target_version" f
  let status ← defaulted string "" "status" f
  let progress ← defaulted i32 0 "progress" f
  let bytesDownloaded ← defaulted i64 0 "bytes_downloaded" f
  let totalBytes ← defaulted i64 0 "total_bytes" f
  let error ← defaulted string "" "error" f
  some ⟨version,targetVersion,status,progress,bytesDownloaded,totalBytes,error⟩

structure XrayProgressNotification where
  status : String
  version : String
  progress : Int32
  bytesDownloaded : Int64
  totalBytes : Int64
  error : String
  deriving DecidableEq

def XrayProgressNotification.deserialize (f : Fields) : Option XrayProgressNotification := do
  let status ← defaulted string "" "status" f
  let version ← defaulted string "" "version" f
  let progress ← defaulted i32 0 "progress" f
  let bytesDownloaded ← defaulted i64 0 "bytes_downloaded" f
  let totalBytes ← defaulted i64 0 "total_bytes" f
  let error ← defaulted string "" "error" f
  some ⟨status,version,progress,bytesDownloaded,totalBytes,error⟩

structure TestConfig where
  concurrency : Int32
  timeoutSeconds : Int32
  samplesPerTest : Int32
  testEndpoint : String
  autoTestOnSubscribe : Bool
  deriving DecidableEq

def TestConfig.default : TestConfig := ⟨0,0,0,"",false⟩

def TestConfig.deserialize (f : Fields) : Option TestConfig := do
  let concurrency ← required i32 "concurrency" f
  let timeoutSeconds ← required i32 "timeout_seconds" f
  let samplesPerTest ← required i32 "samples_per_test" f
  let testEndpoint ← required string "test_endpoint" f
  let autoTestOnSubscribe ← required boolean "auto_test_on_subscribe" f
  some ⟨concurrency,timeoutSeconds,samplesPerTest,testEndpoint,autoTestOnSubscribe⟩

structure ProxyStatus where
  connection : String
  profile : Option Profile
  connectedAt : Int64
  reason : String
  deriving DecidableEq

def ProxyStatus.deserialize (f : Fields) : Option ProxyStatus := do
  let connection ← defaulted string "" "connection" f
  let profile ← defaulted (optional (record Profile.deserialize)) none "profile" f
  let connectedAt ← defaulted i64 0 "connected_at" f
  let reason ← defaulted string "" "reason" f
  some ⟨connection,profile,connectedAt,reason⟩

structure ApplicationState where
  groups : List GroupWithProfiles
  connectionStatus : ProxyStatus
  tunStatus : Bool
  hwidInfo : Option HwidData
  killSwitch : Bool
  killSwitchArmed : Bool
  splitTunnel : String
  autoconnect : AutoconnectInfo
  xrayStatus : Option XrayStatusInfo
  coreVersion : String
  protocolVersion : UInt32
  tunName : String
  testConfig : TestConfig
  configStatus : ConfigStatus
  dbStatus : DBStatus

def ApplicationState.deserialize (f : Fields) : Option ApplicationState := do
  let groups ← required (vec (record GroupWithProfiles.deserialize)) "groups" f
  let connectionStatus ← required (record ProxyStatus.deserialize) "connection-status" f
  let tunStatus ← defaulted boolean false "tun-status" f
  let hwidInfo ← defaulted (optional (record deserializeHwidData)) none "hwid_info" f
  let killSwitch ← defaulted boolean false "kill_switch" f
  let killSwitchArmed ← defaulted boolean false "kill_switch_armed" f
  let splitTunnel ← defaulted string "" "split_tunnel" f
  let autoconnect ← defaulted (record deserializeAutoconnectInfo) ⟨false,""⟩ "autoconnect" f
  let xrayStatus ← defaulted (optional (record XrayStatusInfo.deserialize)) none "xray_status" f
  let coreVersion ← defaulted string "" "core_version" f
  let protocolVersion ← defaulted u32 0 "protocol_version" f
  let tunName ← defaulted string "" "tun_name" f
  let testConfig ← defaulted (record TestConfig.deserialize) TestConfig.default "test_config" f
  let configStatus ← defaulted (record deserializeConfigStatus) ⟨"",""⟩ "config_status" f
  let dbStatus ← defaulted (record deserializeDbStatus) ⟨"","",""⟩ "db_status" f
  some ⟨groups,connectionStatus,tunStatus,hwidInfo,killSwitch,killSwitchArmed,splitTunnel,
    autoconnect,xrayStatus,coreVersion,protocolVersion,tunName,testConfig,configStatus,dbStatus⟩

end Application

section Messages

structure ProfileMoved where
  oldProfile : ProfileID
  newProfile : Profile

def ProfileMoved.deserialize (f : Fields) : Option ProfileMoved := do
  let oldProfile ← required (record ProfileID.deserialize) "old_profile" f
  let newProfile ← required (record Profile.deserialize) "new_profile" f
  some ⟨oldProfile,newProfile⟩

structure ProfilesReordered where
  groupId : Int32
  profileIds : List Int32

def ProfilesReordered.deserialize (f : Fields) : Option ProfilesReordered := do
  let groupId ← required i32 "group_id" f
  let profileIds ← required (vec i32) "profile_ids" f
  some ⟨groupId,profileIds⟩

def deserializeKillSwitchData (f : Fields) : Option SetKillSwitchData := do
  let enabled ← required boolean "enabled" f
  let force ← defaulted boolean false "force" f
  let armed ← defaulted boolean false "armed" f
  some ⟨enabled,force,armed⟩

structure TestProgress where
  groupId : Int32
  tested : Int32
  total : Int32
  deriving DecidableEq

def TestProgress.deserialize (f : Fields) : Option TestProgress := do
  let groupId ← defaulted i32 0 "group_id" f
  let tested ← required i32 "tested" f
  let total ← required i32 "total" f
  some ⟨groupId,tested,total⟩

structure TrafficStats where
  proxyUp : Int64
  proxyDown : Int64
  directUp : Int64
  directDown : Int64
  deriving DecidableEq

def TrafficStats.deserialize (f : Fields) : Option TrafficStats := do
  let proxyUp ← defaulted i64 0 "proxy_up" f
  let proxyDown ← defaulted i64 0 "proxy_down" f
  let directUp ← defaulted i64 0 "direct_up" f
  let directDown ← defaulted i64 0 "direct_down" f
  some ⟨proxyUp,proxyDown,directUp,directDown⟩

def deserializeWarning (f : Fields) : Option Warning := do
  let key ← defaulted string "" "key" f
  let content ← defaulted string "" "content" f
  some ⟨key,content⟩

structure TcpMessage where
  msg : String
  data : Value
  id : Option String

def TcpMessage.deserialize (f : Fields) : Option TcpMessage := do
  let msg ← required string "msg" f
  let data ← required some "data" f
  let id ← defaulted (optional string) none "id" f
  some ⟨msg,data,id⟩

end Messages

end Whoisthat.Protocol
