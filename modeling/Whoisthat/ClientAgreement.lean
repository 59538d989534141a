import Whoisthat.Protocol

/-!
# Each structure as the client reads it

For every structure of the core: what the client should hold of it (`seen`),
the values for which it can (`fits`: lists that were made, numbers that
keep their value in the client's width), and that reading what was written gives one exactly under the
other.
-/

set_option autoImplicit false

namespace Whoisthat.ClientAgreement
open WireRecords Structs

section Profiles

def seenProfile (p : Profile) : Protocol.Profile where
  id := narrow p.id
  groupId := narrow p.groupId
  name := p.name
  protocol := p.protocol
  uri := p.uri
  address := p.address
  host := p.host
  testResult := narrow p.testResult
  testedAt := p.testedAt
  lossPct := narrow p.lossPct
  jitterMs := narrow p.jitterMs
  port := narrow p.port
  managed := p.managed
  providerKey := p.providerKey

def fitsProfile (p : Profile) : Bool :=
  small p.id && small p.groupId && small p.testResult && small p.lossPct && small p.jitterMs &&
    small p.port

theorem read_profile (p : Profile) :
    Protocol.Profile.deserialize p.json.fields = ensure (fitsProfile p) (seenProfile p) := by
  simp [Protocol.Profile.deserialize,Profile.json,fitsProfile,seenProfile,List.lookup_cons,
    Bool.and_assoc]

def seenProfileID (p : ProfileID) : Protocol.ProfileID := ⟨narrow p.id,narrow p.groupId⟩

def fitsProfileID (p : ProfileID) : Bool := small p.id && small p.groupId

theorem read_profileID (p : ProfileID) :
    Protocol.ProfileID.deserialize p.json.fields = ensure (fitsProfileID p) (seenProfileID p) := by
  simp [Protocol.ProfileID.deserialize,ProfileID.json,fitsProfileID,seenProfileID,List.lookup_cons]

def seenDetails (d : ProfileDetails) : Protocol.ProfileDetails where
  groupId := narrow d.groupId
  id := narrow d.id
  transport := d.transport
  security := d.security
  sni := d.sni
  flow := d.flow
  alpn := d.alpn
  path := d.path
  host := d.host
  serviceName := d.serviceName
  mode := d.mode
  fingerprint := d.fingerprint
  publicKey := d.publicKey
  shortId := d.shortId
  spiderX := d.spiderX
  obfs := d.obfs
  cipher := d.cipher
  allowInsecure := d.allowInsecure

def fitsDetails (d : ProfileDetails) : Bool := small d.groupId && small d.id

theorem read_details (d : ProfileDetails) :
    Protocol.ProfileDetails.deserialize d.json.fields = ensure (fitsDetails d) (seenDetails d) := by
  simp [Protocol.ProfileDetails.deserialize,ProfileDetails.json,fitsDetails,seenDetails,
    List.lookup_cons]

end Profiles

section Groups

def seenInfo (i : RoutingProfileInfo) : Protocol.RoutingProfileInfo where
  id := i.id
  name := i.name
  state := i.state
  lastError := i.lastError
  active := i.active
  rulesCount := toU64 i.rulesCount
  globalProxy := i.globalProxy
  domainStrategy := i.domainStrategy
  fakeDnsEnabled := i.fakeDNSEnabled
  remoteDns := i.remoteDNS
  domesticDns := i.domesticDNS
  lastUpdated := i.lastUpdated
  geoUpdatedAt := i.geoUpdatedAt

theorem read_info (i : RoutingProfileInfo) :
    Protocol.RoutingProfileInfo.deserialize i.json.fields =
      ensure (natural i.rulesCount) (seenInfo i) := by
  simp [Protocol.RoutingProfileInfo.deserialize,RoutingProfileInfo.json,seenInfo,List.lookup_cons]

def seenGroup (g : Group) : Protocol.Group where
  id := narrow g.id
  name := g.name
  subscriptionUrl := g.subscriptionUrl
  lastId := narrow g.lastId
  subLastUpdated := g.subLastUpdated
  subExpires := g.subExpires
  subUpload := g.subUpload
  subDownload := g.subDownload
  subTotal := g.subTotal
  subUpdateInterval := g.subUpdateInterval
  subUpdateIntervalOverride := g.subUpdateIntervalOverride
  subAutoUpdateDisabled := g.subAutoUpdateDisabled
  profileOrder := g.profileOrder.items.map narrow
  routingMode := g.routingMode
  manualRoutingMode := g.manualRoutingMode
  activeRoutingProfileId := g.activeRoutingProfileId
  pendingActiveRoutingProfileId := g.pendingActiveRoutingProfileId
  subscriptionFormat := g.subscriptionFormat

def fitsGroup (g : Group) : Bool := small g.id && small g.lastId && g.profileOrder.items.all small

theorem read_group (g : Group) :
    Protocol.Group.deserialize g.json.fields = ensure (fitsGroup g) (seenGroup g) := by
  have order := omitEmpty_elim i32_int g.profileOrder
  simp [Protocol.Group.deserialize,Group.json,fitsGroup,seenGroup,List.lookup_cons,order,
    Bool.and_assoc]

def made {α : Type} (fits : α → Bool) (s : Slice α) : Bool := s.isSome && s.items.all fits

theorem read_profiles (s : Slice Profile) :
    vec (record Protocol.Profile.deserialize) (s.value fun p => p.json.value) =
      ensure (made fitsProfile s) (s.items.map seenProfile) :=
  vec_slice read_profile s

theorem read_infos (s : Slice RoutingProfileInfo) :
    (omitNil (fun i => i.json.value) s).elim (some [])
        (vec (record Protocol.RoutingProfileInfo.deserialize)) =
      ensure (s.items.all fun i => natural i.rulesCount) (s.items.map seenInfo) :=
  omitNil_elim read_info s

def seenGroupWithProfiles (g : GroupWithProfiles) : Protocol.GroupWithProfiles :=
  ⟨seenGroup g.group,g.profiles.items.map seenProfile,g.routingProfiles.items.map seenInfo⟩

def fitsGroupWithProfiles (g : GroupWithProfiles) : Bool :=
  fitsGroup g.group && made fitsProfile g.profiles &&
    g.routingProfiles.items.all fun i => natural i.rulesCount

theorem read_groupWithProfiles (g : GroupWithProfiles) :
    Protocol.GroupWithProfiles.deserialize g.json.fields =
      ensure (fitsGroupWithProfiles g) (seenGroupWithProfiles g) := by
  simp [Protocol.GroupWithProfiles.deserialize,GroupWithProfiles.json,fitsGroupWithProfiles,
    seenGroupWithProfiles,List.lookup_cons,read_group,read_profiles,read_infos,Bool.and_assoc]

def seenGroupAdded (g : GroupAdded) : Protocol.GroupAdded := ⟨narrow g.id,g.name,g.subscriptionUrl⟩

theorem read_groupAdded (g : GroupAdded) :
    Protocol.GroupAdded.deserialize g.json.fields = ensure (small g.id) (seenGroupAdded g) := by
  simp [Protocol.GroupAdded.deserialize,GroupAdded.json,seenGroupAdded,List.lookup_cons]

def seenSubscription (u : SubscriptionUpdated) : Protocol.SubscriptionUpdated :=
  ⟨narrow u.groupId,seenGroup u.group,u.profiles.items.map seenProfile,
    u.routingProfiles.items.map seenInfo,u.auto⟩

def fitsSubscription (u : SubscriptionUpdated) : Bool :=
  small u.groupId && fitsGroup u.group && made fitsProfile u.profiles &&
    u.routingProfiles.items.all fun i => natural i.rulesCount

theorem read_subscription (u : SubscriptionUpdated) :
    Protocol.SubscriptionUpdated.deserialize u.json.fields =
      ensure (fitsSubscription u) (seenSubscription u) := by
  simp [Protocol.SubscriptionUpdated.deserialize,SubscriptionUpdated.json,fitsSubscription,
    seenSubscription,List.lookup_cons,read_group,read_profiles,read_infos,Bool.and_assoc]

end Groups

section Routing

theorem read_rule (r : RoutingRule) :
    Protocol.deserializeRoutingRule r.json.fields = ensure true r := by
  simp [Protocol.deserializeRoutingRule,RoutingRule.json,List.lookup_cons]

def seenRouting (c : RoutingConfig) : Protocol.RoutingConfig :=
  ⟨c.domainStrategy,c.rules.items,c.dns.map fun d => d.json.value⟩

theorem read_rules (s : Slice RoutingRule) :
    vec (record Protocol.deserializeRoutingRule) (s.value fun r => r.json.value) =
      ensure s.isSome s.items := by
  have h : vec (record Protocol.deserializeRoutingRule) (s.value fun r => r.json.value) =
      ensure (s.isSome && s.items.all fun _ => true) (s.items.map fun r => r) :=
    vec_slice read_rule s
  have all : (s.items.all fun _ => true) = true := List.all_eq_true.mpr fun _ _ => rfl
  simpa [all] using h

theorem read_dns (o : Option HappDNSConfig) :
    (o.map fun d => d.json.value).elim (some none) (optional some) =
      some (o.map fun d => d.json.value) := by
  cases o <;> rfl

theorem read_routing (c : RoutingConfig) :
    Protocol.RoutingConfig.deserialize c.json.fields =
      ensure c.rules.isSome (seenRouting c) := by
  simp [-Option.elim_map,Protocol.RoutingConfig.deserialize,RoutingConfig.json,seenRouting,
    List.lookup_cons,read_rules,read_dns]

def seenRoutingUpdated (u : RoutingUpdated) : Protocol.RoutingUpdated :=
  ⟨narrow u.groupId,seenRouting u.config,u.source,u.custom.map seenRouting⟩

def fitsRoutingUpdated (u : RoutingUpdated) : Bool :=
  small u.groupId && u.config.rules.isSome && u.custom.all fun c => c.rules.isSome

theorem read_routingUpdated (u : RoutingUpdated) :
    Protocol.RoutingUpdated.deserialize u.json.fields =
      ensure (fitsRoutingUpdated u) (seenRoutingUpdated u) := by
  have custom := optional_elim read_routing u.custom
  simp [Protocol.RoutingUpdated.deserialize,RoutingUpdated.json,fitsRoutingUpdated,
    seenRoutingUpdated,List.lookup_cons,read_routing,custom,Bool.and_assoc]

end Routing

section Application

theorem read_hwidData (h : HwidData) : Protocol.deserializeHwidData h.json.fields = some h := by
  simp [Protocol.deserializeHwidData,HwidData.json,List.lookup_cons]

theorem read_autoconnectInfo (i : AutoconnectInfo) :
    Protocol.deserializeAutoconnectInfo i.json.fields = some i := by
  simp [Protocol.deserializeAutoconnectInfo,AutoconnectInfo.json,List.lookup_cons]

theorem read_configStatus (s : ConfigStatus) :
    Protocol.deserializeConfigStatus s.json.fields = some s := by
  simp [Protocol.deserializeConfigStatus,ConfigStatus.json,List.lookup_cons]

theorem read_dbStatus (s : DBStatus) : Protocol.deserializeDbStatus s.json.fields = some s := by
  simp [Protocol.deserializeDbStatus,DBStatus.json,List.lookup_cons]

def seenXrayStatus (i : XrayStatusInfo) : Protocol.XrayStatusInfo :=
  ⟨i.version,i.targetVersion,i.status,narrow i.progress,i.bytesDownloaded,i.totalBytes,i.error⟩

theorem read_xrayStatus (i : XrayStatusInfo) :
    Protocol.XrayStatusInfo.deserialize i.json.fields =
      ensure (small i.progress) (seenXrayStatus i) := by
  simp [Protocol.XrayStatusInfo.deserialize,XrayStatusInfo.json,seenXrayStatus,List.lookup_cons]

def seenXrayProgress (n : XrayProgressNotification) : Protocol.XrayProgressNotification :=
  ⟨n.status,n.version,narrow n.progress,n.bytesDownloaded,n.totalBytes,n.error⟩

theorem read_xrayProgress (n : XrayProgressNotification) :
    Protocol.XrayProgressNotification.deserialize n.json.fields =
      ensure (small n.progress) (seenXrayProgress n) := by
  simp [Protocol.XrayProgressNotification.deserialize,XrayProgressNotification.json,
    seenXrayProgress,List.lookup_cons]

def seenTestConfig (c : TestConfig) : Protocol.TestConfig :=
  ⟨narrow c.concurrency,narrow c.timeoutSeconds,narrow c.samplesPerTest,c.testEndpoint,
    c.autoTestOnSub⟩

def fitsTestConfig (c : TestConfig) : Bool :=
  small c.concurrency && small c.timeoutSeconds && small c.samplesPerTest

theorem read_testConfig (c : TestConfig) :
    Protocol.TestConfig.deserialize c.json.fields =
      ensure (fitsTestConfig c) (seenTestConfig c) := by
  simp [Protocol.TestConfig.deserialize,TestConfig.json,fitsTestConfig,seenTestConfig,
    List.lookup_cons,Bool.and_assoc]

def seenStatus (s : ProxyStatus) : Protocol.ProxyStatus :=
  ⟨s.connection,some (seenProfile s.profile),s.connectedAt,s.reason⟩

theorem read_status (s : ProxyStatus) :
    Protocol.ProxyStatus.deserialize s.json.fields =
      ensure (fitsProfile s.profile) (seenStatus s) := by
  simp [Protocol.ProxyStatus.deserialize,ProxyStatus.json,seenStatus,List.lookup_cons,read_profile]

def seenApplication (s : ApplicationState) : Protocol.ApplicationState where
  groups := s.groups.items.map seenGroupWithProfiles
  connectionStatus := seenStatus s.connectionStatus
  tunStatus := s.tunStatus
  hwidInfo := some s.hwidInfo
  killSwitch := s.killSwitch
  killSwitchArmed := s.killSwitchArmed
  splitTunnel := s.splitTunnel
  autoconnect := s.autoconnect
  xrayStatus := some (seenXrayStatus s.xrayStatus)
  coreVersion := s.coreVersion
  protocolVersion := toU32 s.protocolVersion
  tunName := s.tunName
  testConfig := seenTestConfig s.testConfig
  configStatus := s.configStatus
  dbStatus := s.dbStatus

def fitsApplication (s : ApplicationState) : Bool :=
  made fitsGroupWithProfiles s.groups && fitsProfile s.connectionStatus.profile &&
    small s.xrayStatus.progress && unsigned s.protocolVersion && fitsTestConfig s.testConfig

theorem read_groups (s : Slice GroupWithProfiles) :
    vec (record Protocol.GroupWithProfiles.deserialize) (s.value fun g => g.json.value) =
      ensure (made fitsGroupWithProfiles s) (s.items.map seenGroupWithProfiles) :=
  vec_slice read_groupWithProfiles s

theorem read_application (s : ApplicationState) :
    Protocol.ApplicationState.deserialize s.json.fields =
      ensure (fitsApplication s) (seenApplication s) := by
  have test : (omitzero (s.testConfig = ⟨0,0,0,"",false⟩) s.testConfig.json.value).elim
      (some Protocol.TestConfig.default) (record Protocol.TestConfig.deserialize) =
        ensure (fitsTestConfig s.testConfig) (seenTestConfig s.testConfig) := by
    refine (omitzero_elim _ _ _ _ fun h => ?_).trans (read_testConfig _)
    rw [record_value,read_testConfig,of_decide_eq_true h]
    rfl
  have config : (omitzero (s.configStatus = ⟨"",""⟩) s.configStatus.json.value).elim
      (some ⟨"",""⟩) (record Protocol.deserializeConfigStatus) = some s.configStatus := by
    refine (omitzero_elim _ _ _ _ fun h => ?_).trans (read_configStatus _)
    rw [record_value,read_configStatus,of_decide_eq_true h]
  have db : (omitzero (s.dbStatus = ⟨"","",""⟩) s.dbStatus.json.value).elim
      (some ⟨"","",""⟩) (record Protocol.deserializeDbStatus) = some s.dbStatus := by
    refine (omitzero_elim _ _ _ _ fun h => ?_).trans (read_dbStatus _)
    rw [record_value,read_dbStatus,of_decide_eq_true h]
  simp [Protocol.ApplicationState.deserialize,ApplicationState.json,fitsApplication,
    seenApplication,List.lookup_cons,read_groups,read_status,read_hwidData,read_autoconnectInfo,
    read_xrayStatus,test,config,db,Bool.and_assoc]

end Application

section Messages

theorem read_moved (m : ProfileMoved) :
    Protocol.ProfileMoved.deserialize m.json.fields =
      ensure (fitsProfileID m.oldProfile && fitsProfile m.newProfile)
        ⟨seenProfileID m.oldProfile,seenProfile m.newProfile⟩ := by
  simp [Protocol.ProfileMoved.deserialize,ProfileMoved.json,List.lookup_cons,read_profileID,
    read_profile]

theorem read_ids (s : Slice Int64) :
    vec i32 (s.value int) = ensure (made small s) (s.items.map narrow) :=
  vec_slice i32_int s

theorem read_reordered (r : ProfilesReordered) :
    Protocol.ProfilesReordered.deserialize r.json.fields =
      ensure (small r.groupId && made small r.profileIds)
        ⟨narrow r.groupId,r.profileIds.items.map narrow⟩ := by
  simp [Protocol.ProfilesReordered.deserialize,ProfilesReordered.json,List.lookup_cons,read_ids]

theorem read_killSwitch (d : SetKillSwitchData) :
    Protocol.deserializeKillSwitchData d.json.fields = some d := by
  simp [Protocol.deserializeKillSwitchData,SetKillSwitchData.json,List.lookup_cons]

def seenProgress (p : TestProgress) : Protocol.TestProgress :=
  ⟨narrow p.groupId,narrow p.tested,narrow p.total⟩

theorem read_progress (p : TestProgress) :
    Protocol.TestProgress.deserialize p.json.fields =
      ensure (small p.groupId && small p.tested && small p.total) (seenProgress p) := by
  simp [Protocol.TestProgress.deserialize,TestProgress.json,seenProgress,List.lookup_cons,
    Bool.and_assoc]

theorem read_stats (s : TrafficStats) :
    Protocol.TrafficStats.deserialize s.json.fields =
      some ⟨s.proxyUp,s.proxyDown,s.directUp,s.directDown⟩ := by
  simp [Protocol.TrafficStats.deserialize,TrafficStats.json,List.lookup_cons]

theorem read_warning (w : Warning) : Protocol.deserializeWarning w.json.fields = some w := by
  simp [Protocol.deserializeWarning,Warning.json,List.lookup_cons]

theorem read_profileIDs (s : Slice ProfileID) :
    vec (record Protocol.ProfileID.deserialize) (s.value fun p => p.json.value) =
      ensure (made fitsProfileID s) (s.items.map seenProfileID) :=
  vec_slice read_profileID s

end Messages

end Whoisthat.ClientAgreement
