import Whoisthat.ClientAgreement
import Whoisthat.Framing
import Whoisthat.MemberDecoding
import Whoisthat.Records

/-!
# Every request of the client, as the core dispatches it

A request is written by the client with its name and its data; the core decodes the
data into the structure of that name and calls the handler with it. What the handler
gets is what the client sent. The DNS section of a routing configuration is opaque to
the client; it comes back to the core as it was.
-/

set_option autoImplicit false

namespace Whoisthat.Requests
open Whoisthat.Json Whoisthat.StructDecoding Whoisthat.MemberDecoding Whoisthat.Framing
open Whoisthat.Utf8 (Bytes)

section Requests

/-- The commands with their data: `I`, `P`, `T` and `R` are the integers, the ids of
profiles, the settings of tests and the routing configurations of a side. -/
inductive Request (I P T R : Type) where
  | die
  | setLogLevel (level : String)
  | addProfiles (uris : String) (groupId : I)
  | deleteProfiles (profiles : List P)
  | reorderProfiles (groupId : I) (profileIds : List I)
  | reorderGroups (groupIds : List I)
  | moveProfile (profileId fromGroupId toGroupId : I)
  | addGroup (name subscriptionUrl : String)
  | deleteGroup (id : I)
  | connect (profile : P)
  | disconnect
  | testProfile (profile : P) (method : String) (sampleCount : I)
  | testGroup (groupId : I) (method : String) (sampleCount : I)
  | cancelTests
  | setTestConfig (config : T)
  | getApplicationState
  | getProfileDetails (profile : P)
  | repairConfig
  | restoreDb
  | updateSubscription (groupId : I)
  | enableTun
  | disableTun
  | isRoot
  | setTunName (tunName : String)
  | setHwid (enabled : Option Bool) (userAgent : Option String) (reset : Bool)
  | updateProfile (profile : P) (name : String)
  | updateGroup (id : I) (name subscriptionUrl : String) (autoUpdate : Option Bool)
      (updateInterval : Option Int64)
  | setKillSwitch (enabled force armed : Bool)
  | setSplitTunnel (mode : String)
  | setAutoconnect (enabled : Bool) (groupId profileId : I) (mode : String)
  | getRouting (groupId : I)
  | updateRouting (groupId : I) (config : R)
  | setManualRoutingSource (groupId : I) (source : String)
  | importHappRouting (groupId : I) (link : String)
  | setGroupRoutingMode (groupId : I) (mode : String)
  | setActiveRoutingProfile (groupId : I) (profileId : String)
  | deleteRoutingProfile (groupId : I) (profileId : String)

abbrev ClientRequest :=
  Request Int32 Protocol.ProfileID Protocol.TestConfig Protocol.RoutingConfig

abbrev CoreRequest := Request Int64 Structs.ProfileID Structs.TestConfig Structs.RoutingConfig

end Requests

section Client

def int (n : Int32) : Value := .int n.toInt

def writeProfileID (p : Protocol.ProfileID) : Value :=
  .obj [("id",int p.id),("group_id",int p.groupId)]

def writeTestConfig (c : Protocol.TestConfig) : Value :=
  .obj [("concurrency",int c.concurrency),("timeout_seconds",int c.timeoutSeconds),
    ("samples_per_test",int c.samplesPerTest),("test_endpoint",.str c.testEndpoint),
    ("auto_test_on_subscribe",.bool c.autoTestOnSubscribe)]

def writeRule (r : Structs.RoutingRule) : Value :=
  .obj [("type",.str r.type),("domain",.str r.domain),("ip",.str r.ip),
    ("protocol",.str r.protocol),("port",.str r.port),("network",.str r.network),
    ("outbound_tag",.str r.outboundTag),("enabled",.bool r.enabled)]

/-- A member that is left out without a value. -/
def skipNone (name : String) (v : Option Value) : Fields := v.elim [] fun v => [(name,v)]

def skipFalse (name : String) (b : Bool) : Fields := if b then [(name,.bool b)] else []

def writeRouting (c : Protocol.RoutingConfig) : Value :=
  .obj ([("domain_strategy",.str c.domainStrategy),("rules",.arr (c.rules.map writeRule))]++
    skipNone "dns" c.dns)

/-- A group and a text. -/
def groupText (groupId : Int32) (name text : String) : Value :=
  .obj [("group_id",int groupId),(name,.str text)]

/-- What a method of `CoreClient` sends: the name of the command and its data. -/
def write : ClientRequest → String × Value
  | .die => ("die",.obj [])
  | .setLogLevel level => ("set-log-level",.obj [("level",.str level)])
  | .addProfiles uris groupId =>
    ("add-profiles",.obj [("uris",.str uris),("group_id",int groupId)])
  | .deleteProfiles profiles =>
    ("delete-profiles",.obj [("profiles",.arr (profiles.map writeProfileID))])
  | .reorderProfiles groupId profileIds =>
    ("reorder-profiles",.obj [("group_id",int groupId),("profile_ids",.arr (profileIds.map int))])
  | .reorderGroups groupIds => ("reorder-groups",.obj [("group_ids",.arr (groupIds.map int))])
  | .moveProfile profileId fromGroupId toGroupId =>
    ("move-profile",.obj [("profile_id",int profileId),("from_group_id",int fromGroupId),
      ("to_group_id",int toGroupId)])
  | .addGroup name subscriptionUrl =>
    ("add-group",.obj [("name",.str name),("subscription_url",.str subscriptionUrl)])
  | .deleteGroup id => ("delete-group",.obj [("id",int id)])
  | .connect profile => ("connect",.obj [("profile",writeProfileID profile)])
  | .disconnect => ("disconnect",.obj [])
  | .testProfile profile method sampleCount =>
    ("test-profile",.obj [("profile",writeProfileID profile),("method",.str method),
      ("sample_count",int sampleCount)])
  | .testGroup groupId method sampleCount =>
    ("test-group",.obj [("group_id",int groupId),("method",.str method),
      ("sample_count",int sampleCount)])
  | .cancelTests => ("cancel-tests",.obj [])
  | .setTestConfig config => ("set-test-config",.obj [("config",writeTestConfig config)])
  | .getApplicationState => ("get-application-state",.obj [])
  | .getProfileDetails profile => ("get-profile-details",writeProfileID profile)
  | .repairConfig => ("repair-config",.null)
  | .restoreDb => ("restore-db",.null)
  | .updateSubscription groupId => ("update-subscription",.obj [("group_id",int groupId)])
  | .enableTun => ("enable-tun",.obj [])
  | .disableTun => ("disable-tun",.obj [])
  | .isRoot => ("is-root",.obj [])
  | .setTunName tunName => ("set-tun-name",.obj [("tun_name",.str tunName)])
  | .setHwid enabled userAgent reset =>
    ("set-hwid",.obj [("enabled",enabled.elim .null .bool),("user_agent",userAgent.elim .null .str),
      ("reset",.bool reset)])
  | .updateProfile profile name =>
    ("update-profile",.obj [("Profile",writeProfileID profile),("Name",.str name)])
  | .updateGroup id name subscriptionUrl autoUpdate updateInterval =>
    ("update-group",.obj ([("id",int id),("name",.str name),
      ("subscription_url",.str subscriptionUrl)]++
      skipNone "auto_update" (autoUpdate.map .bool)++
      skipNone "update_interval" (updateInterval.map fun n => .int n.toInt)))
  | .setKillSwitch enabled force armed =>
    ("set-kill-switch",.obj ([("enabled",.bool enabled)]++skipFalse "force" force++
      skipFalse "armed" armed))
  | .setSplitTunnel mode => ("set-split-tunnel",.obj [("mode",.str mode)])
  | .setAutoconnect enabled groupId profileId mode =>
    ("set-autoconnect",.obj [("enabled",.bool enabled),("group_id",int groupId),
      ("profile_id",int profileId),("mode",.str mode)])
  | .getRouting groupId => ("get-routing",.obj [("group_id",int groupId)])
  | .updateRouting groupId config =>
    ("update-routing",.obj [("group_id",int groupId),("config",writeRouting config)])
  | .setManualRoutingSource groupId source =>
    ("set-manual-routing-source",groupText groupId "source" source)
  | .importHappRouting groupId link => ("import-happ-routing",groupText groupId "link" link)
  | .setGroupRoutingMode groupId mode => ("set-group-routing-mode",groupText groupId "mode" mode)
  | .setActiveRoutingProfile groupId profileId =>
    ("set-active-routing-profile",groupText groupId "profile_id" profileId)
  | .deleteRoutingProfile groupId profileId =>
    ("delete-routing-profile",groupText groupId "profile_id" profileId)

end Client

section Core

variable {α β γ δ ε : Type}

def string : Decoder String := scalar text

def bool : Decoder Bool := scalar flag

def integer : Decoder Int64 := scalar int64

/-- The fields of a structure side by side. -/
def only (tag : String) (d : Decoder α) : List (Member α) := [⟨tag,d.into,d.accepts⟩]

def both (fs : List (Member α)) (gs : List (Member β)) : List (Member (α × β)) :=
  fs.map (fun f => ⟨f.tag,fun v x => (f.into v x.1,x.2),f.accepts⟩)++
    gs.map fun g => ⟨g.tag,fun v x => (x.1,g.into v x.2),g.accepts⟩

def profileID : Decoder Structs.ProfileID :=
  struct [member "id" integer (·.id) (fun x n => { x with id := n }),
    member "group_id" integer (·.groupId) (fun x n => { x with groupId := n })]

def testConfig : Decoder Structs.TestConfig :=
  struct [member "concurrency" integer (·.concurrency) (fun x n => { x with concurrency := n }),
    member "timeout_seconds" integer (·.timeoutSeconds) (fun x n => { x with timeoutSeconds := n }),
    member "samples_per_test" integer (·.samplesPerTest) (fun x n => { x with samplesPerTest := n }),
    member "test_endpoint" string (·.testEndpoint) (fun x s => { x with testEndpoint := s }),
    member "auto_test_on_subscribe" bool (·.autoTestOnSub) (fun x b => { x with autoTestOnSub := b })]

def ruleMembers : List (Member Structs.RoutingRule) :=
  [member "type" string (·.type) (fun x s => { x with type := s }),
    member "domain" string (·.domain) (fun x s => { x with domain := s }),
    member "ip" string (·.ip) (fun x s => { x with ip := s }),
    member "protocol" string (·.protocol) (fun x s => { x with protocol := s }),
    member "port" string (·.port) (fun x s => { x with port := s }),
    member "network" string (·.network) (fun x s => { x with network := s }),
    member "outbound_tag" string (·.outboundTag) (fun x s => { x with outboundTag := s }),
    member "enabled" bool (·.enabled) (fun x b => { x with enabled := b })]

def routingRule : Decoder Structs.RoutingRule := struct ruleMembers

def dnsMembers : List (Member Structs.HappDNSConfig) :=
  [member "fake_dns_enabled" bool (·.fakeDNSEnabled) (fun x b => { x with fakeDNSEnabled := b }),
    member "remote_dns_type" string (·.remoteDNSType) (fun x s => { x with remoteDNSType := s }),
    member "remote_dns_domain" string (·.remoteDNSDomain) (fun x s => { x with remoteDNSDomain := s }),
    member "remote_dns_ip" string (·.remoteDNSIP) (fun x s => { x with remoteDNSIP := s }),
    member "domestic_dns_type" string (·.domesticDNSType) (fun x s => { x with domesticDNSType := s }),
    member "domestic_dns_domain" string (·.domesticDNSDomain)
      (fun x s => { x with domesticDNSDomain := s }),
    member "domestic_dns_ip" string (·.domesticDNSIP) (fun x s => { x with domesticDNSIP := s }),
    member "hosts" (map string "") (·.hosts) (fun x m => { x with hosts := m })]

def happDNSConfig : Decoder Structs.HappDNSConfig := struct dnsMembers

def zeroProfileID : Structs.ProfileID := ⟨0,0⟩

def zeroTestConfig : Structs.TestConfig := ⟨0,0,0,"",false⟩

def zeroRule : Structs.RoutingRule := ⟨"","","","","","","",false⟩

def zeroDNS : Structs.HappDNSConfig := ⟨false,"","","","","","",none⟩

def zeroRouting : Structs.RoutingConfig := ⟨"",none,none⟩

def routingConfig : Decoder Structs.RoutingConfig :=
  struct [member "domain_strategy" string (·.domainStrategy) (fun x s => { x with domainStrategy := s }),
    member "rules" (list routingRule zeroRule) (·.rules) (fun x l => { x with rules := l }),
    member "dns" (pointer happDNSConfig zeroDNS) (·.dns) (fun x d => { x with dns := d })]

/-- What the core does with a message: `invalid` ends the connection. -/
inductive Outcome where
  | stop
  | handle (r : CoreRequest)
  | warn (key content : String)
  | invalid
  | unknown

def decoded (fs : List (Member α)) (zero : α) (data : Value) (handler : α → Outcome) : Outcome :=
  (unmarshal (struct fs) zero data).elim .invalid handler

/-- A structure without fields. -/
def empty (data : Value) (r : CoreRequest) : Outcome :=
  decoded ([] : List (Member Unit)) () data fun _ => .handle r

def decodeGroup (data : Value) (handler : Int64 → CoreRequest) : Outcome :=
  decoded (only "group_id" integer) 0 data fun n => .handle (handler n)

def decodeGroupText (name : String) (data : Value) (handler : Int64 → String → CoreRequest) :
    Outcome :=
  decoded (both (only "group_id" integer) (only name string)) (0,"") data fun x =>
    .handle (handler x.1 x.2)

/-- `unicode.ToLower`, as far as it leads to letters of ASCII. -/
def lowerRune (c : Char) : Char := if c = '\u0130' then 'i' else if c = '\u212a' then 'k' else c.toLower

def isLevel (level : String) : Bool :=
  ((Records.trimSpace level).toList.map lowerRune) ∈
    [['e','r','r','o','r'],['w','a','r','n'],['i','n','f','o'],['d','e','b','u','g'],
      ['t','r','a','c','e']]

def setLogLevel (level : String) : Outcome :=
  if isLevel level then .handle (.setLogLevel level)
  else .warn "set-log-level-failed" ("unknown log level: "++level)

def dispatch (msg : String) (data : Value) : Outcome :=
  match msg with
  | "die" => .stop
  | "set-log-level" => decoded (only "level" string) "" data setLogLevel
  | "add-profiles" =>
    decoded (both (only "uris" string) (only "group_id" integer)) ("",0) data fun x =>
      .handle (.addProfiles x.1 x.2)
  | "delete-profiles" =>
    decoded (only "profiles" (list profileID zeroProfileID)) none data fun l =>
      .handle (.deleteProfiles (l.getD []))
  | "reorder-profiles" =>
    decoded (both (only "group_id" integer) (only "profile_ids" (list integer 0))) (0,none) data
      fun x => .handle (.reorderProfiles x.1 (x.2.getD []))
  | "reorder-groups" =>
    decoded (only "group_ids" (list integer 0)) none data fun l =>
      .handle (.reorderGroups (l.getD []))
  | "move-profile" =>
    decoded (both (only "profile_id" integer) (both (only "from_group_id" integer)
      (only "to_group_id" integer))) (0,0,0) data fun x => .handle (.moveProfile x.1 x.2.1 x.2.2)
  | "add-group" =>
    decoded (both (only "name" string) (only "subscription_url" string)) ("","") data fun x =>
      .handle (.addGroup x.1 x.2)
  | "delete-group" => decoded (only "id" integer) 0 data fun n => .handle (.deleteGroup n)
  | "connect" =>
    decoded (only "profile" profileID) zeroProfileID data fun p => .handle (.connect p)
  | "disconnect" => empty data .disconnect
  | "test-profile" =>
    decoded (both (only "profile" profileID) (both (only "method" string)
      (only "sample_count" integer))) (zeroProfileID,"",0) data fun x =>
        .handle (.testProfile x.1 x.2.1 x.2.2)
  | "test-group" =>
    decoded (both (only "group_id" integer) (both (only "method" string)
      (only "sample_count" integer))) (0,"",0) data fun x =>
        .handle (.testGroup x.1 x.2.1 x.2.2)
  | "cancel-tests" => empty data .cancelTests
  | "set-test-config" =>
    decoded (only "config" testConfig) zeroTestConfig data fun c => .handle (.setTestConfig c)
  | "get-application-state" => empty data .getApplicationState
  | "get-profile-details" =>
    (unmarshal profileID zeroProfileID data).elim .invalid fun p => .handle (.getProfileDetails p)
  | "repair-config" => .handle .repairConfig
  | "restore-db" => .handle .restoreDb
  | "update-subscription" => decodeGroup data .updateSubscription
  | "enable-tun" => empty data .enableTun
  | "disable-tun" => empty data .disableTun
  | "is-root" => empty data .isRoot
  | "set-tun-name" => decoded (only "tun_name" string) "" data fun s => .handle (.setTunName s)
  | "set-hwid" =>
    decoded (both (only "enabled" (pointer bool false)) (both (only "user_agent" (pointer string ""))
      (only "reset" bool))) (none,none,false) data fun x => .handle (.setHwid x.1 x.2.1 x.2.2)
  | "update-profile" =>
    decoded (both (only "Profile" profileID) (only "Name" string)) (zeroProfileID,"") data fun x =>
      .handle (.updateProfile x.1 x.2)
  | "update-group" =>
    decoded (both (only "id" integer) (both (only "name" string) (both (only "subscription_url" string)
      (both (only "auto_update" (pointer bool false)) (only "update_interval" (pointer integer 0))))))
      (0,"","",none,none) data fun x =>
        .handle (.updateGroup x.1 x.2.1 x.2.2.1 x.2.2.2.1 x.2.2.2.2)
  | "set-kill-switch" =>
    decoded (both (only "enabled" bool) (both (only "force" bool) (only "armed" bool)))
      (false,false,false) data fun x => .handle (.setKillSwitch x.1 x.2.1 x.2.2)
  | "set-split-tunnel" => decoded (only "mode" string) "" data fun s => .handle (.setSplitTunnel s)
  | "set-autoconnect" =>
    decoded (both (only "enabled" bool) (both (only "group_id" integer) (both
      (only "profile_id" integer) (only "mode" string)))) (false,0,0,"") data fun x =>
        .handle (.setAutoconnect x.1 x.2.1 x.2.2.1 x.2.2.2)
  | "get-routing" => decodeGroup data .getRouting
  | "update-routing" =>
    decoded (both (only "group_id" integer) (only "config" routingConfig)) (0,zeroRouting) data
      fun x => .handle (.updateRouting x.1 x.2)
  | "set-manual-routing-source" => decodeGroupText "source" data .setManualRoutingSource
  | "import-happ-routing" => decodeGroupText "link" data .importHappRouting
  | "set-group-routing-mode" => decodeGroupText "mode" data .setGroupRoutingMode
  | "set-active-routing-profile" => decodeGroupText "profile_id" data .setActiveRoutingProfile
  | "delete-routing-profile" => decodeGroupText "profile_id" data .deleteRoutingProfile
  | _ => .unknown

end Core

section Agreement

variable {α : Type}

attribute [local simp] held heldFields insertKey before precedes struct member select assign
attribute [local simp] write dispatch decoded both only unmarshal

theorem int64_between {z : ℤ} (hlo : -2^63 ≤ z) (hhi : z < 2^63) :
    int64 (.int z) = some (Int64.ofInt z) := by
  have hsign : (if z < 0 then -(z.natAbs : ℤ) else z.natAbs) = z := by
    split <;> omega
  have hread : Number.int64 ⟨z < 0,z.natAbs,0,true⟩ = some z := by
    simp only [Number.int64,decide_eq_true_eq,hsign]
    rw [if_pos ⟨trivial,trivial,hlo,hhi⟩]
  change (Number.int64 _).map Int64.ofInt = _
  rw [hread,Option.map_some]

@[simp] theorem int64_i64 (n : Int64) : int64 (.int n.toInt) = some n := by
  rw [int64_between (Int64.le_toInt n) (Int64.toInt_lt n),Int64.ofInt_toInt]

@[simp] theorem int64_i32 (n : Int32) : int64 (.int n.toInt) = some n.toInt64 := by
  have hlo := Int32.le_toInt n
  have hhi := Int32.toInt_lt n
  rw [int64_between (by omega) (by omega),Int64.ofInt_int32ToInt]

def seenProfileID (p : Protocol.ProfileID) : Structs.ProfileID := ⟨p.id.toInt64,p.groupId.toInt64⟩

def seenTestConfig (c : Protocol.TestConfig) : Structs.TestConfig :=
  ⟨c.concurrency.toInt64,c.timeoutSeconds.toInt64,c.samplesPerTest.toInt64,c.testEndpoint,
    c.autoTestOnSubscribe⟩

/-- What the core makes of a DNS section. -/
def seenDNS (v : Option Value) : Option Structs.HappDNSConfig :=
  v.bind fun v => (pointer happDNSConfig zeroDNS).into (held v) none

def acceptsDNS (v : Option Value) : Bool :=
  v.all fun v => (pointer happDNSConfig zeroDNS).accepts (held v)

def seenRouting (c : Protocol.RoutingConfig) : Structs.RoutingConfig :=
  ⟨c.domainStrategy,some c.rules,seenDNS c.dns⟩

section Structures

@[simp] theorem string_into (s x : String) : string.into (.str s) x = s := rfl

@[simp] theorem string_accepts (s : String) : string.accepts (.str s) = true := rfl

@[simp] theorem bool_into (b x : Bool) : bool.into (.bool b) x = b := rfl

@[simp] theorem bool_accepts (b : Bool) : bool.accepts (.bool b) = true := rfl

@[simp] theorem int_into (n x : Int64) : integer.into (.int n.toInt) x = n := by
  simp [integer,scalar]

@[simp] theorem int_accepts (n : Int64) : integer.accepts (.int n.toInt) = true := by
  simp [integer,scalar]

@[simp] theorem held_i32 (n : Int32) : held (int n) = int n := rfl

@[simp] theorem integer_into (n : Int32) (x : Int64) : integer.into (int n) x = n.toInt64 := by
  simp [integer,scalar,int]

@[simp] theorem integer_accepts (n : Int32) : integer.accepts (int n) = true := by
  simp [integer,scalar,int]

@[simp] theorem int_ne_null (z : ℤ) : Value.int z ≠ .null := by
  simp [Value.int]

@[simp] theorem profileID_into (p : Protocol.ProfileID) (x : Structs.ProfileID) :
    profileID.into (held (writeProfileID p)) x = seenProfileID p := by
  simp [profileID,writeProfileID,seenProfileID]

@[simp] theorem profileID_accepts (p : Protocol.ProfileID) :
    profileID.accepts (held (writeProfileID p)) = true := by
  simp [profileID,writeProfileID]

@[simp] theorem testConfig_into (c : Protocol.TestConfig) (x : Structs.TestConfig) :
    testConfig.into (held (writeTestConfig c)) x = seenTestConfig c := by
  simp [testConfig,writeTestConfig,seenTestConfig]

@[simp] theorem testConfig_accepts (c : Protocol.TestConfig) :
    testConfig.accepts (held (writeTestConfig c)) = true := by
  simp [testConfig,writeTestConfig]

theorem ruleMembers_nodup : (ruleMembers.map Member.tag).Nodup := by
  simp [ruleMembers,member]

/-- The members of a rule; none of them is left out. -/
def ruleEntries (r : Structs.RoutingRule) : List (String × Option Value) :=
  [("type",some (.str r.type)),("domain",some (.str r.domain)),("ip",some (.str r.ip)),
    ("protocol",some (.str r.protocol)),("port",some (.str r.port)),
    ("network",some (.str r.network)),("outbound_tag",some (.str r.outboundTag)),
    ("enabled",some (.bool r.enabled))]

theorem ruleEntries_nodup (r : Structs.RoutingRule) : ((ruleEntries r).map Prod.fst).Nodup :=
  ruleMembers_nodup

def ruleRecord (r : Structs.RoutingRule) : WireRecords.Record := ⟨ruleEntries r,ruleEntries_nodup r⟩

theorem ruleMembers_tags (r : Structs.RoutingRule) :
    ruleMembers.map Member.tag = (ruleRecord r).entries.map Prod.fst := rfl

theorem ruleMembers_independent : Independent ruleMembers := by
  simp [Independent,ruleMembers,member]

theorem writeRule_eq (r : Structs.RoutingRule) : writeRule r = .obj (ruleRecord r).fields := rfl

theorem held_rule (r : Structs.RoutingRule) :
    ((ruleRecord r).fields.map fun e => (e.1,held e.2)) = (ruleRecord r).fields := rfl

theorem rule_into (r x : Structs.RoutingRule) : routingRule.into (held (writeRule r)) x = r := by
  have hmem : ∀ e ∈ (ruleRecord r).fields, e.1 ∈ ruleMembers.map Member.tag := fun e he =>
    ruleMembers_tags r ▸ WireRecords.mem_written he
  rw [writeRule_eq,routingRule,into_held ruleMembers_independent ruleMembers_nodup
    (names_nodup (ruleRecord r)) hmem,held_rule]
  rw [WireRecords.Record.fields,
    into_written ruleMembers_nodup (List.Subset.refl _) (ruleMembers_tags r)]
  simp only [ruleMembers,ruleEntries,ruleRecord,List.zip_cons_cons,List.zip_nil_right,
    List.foldl_cons,List.foldl_nil,Option.elim_some,member,string_into,bool_into]

theorem rule_accepts (r : Structs.RoutingRule) :
    routingRule.accepts (held (writeRule r)) = true := by
  rw [writeRule_eq,routingRule,accepts_held (names_nodup (ruleRecord r)),held_rule,
    WireRecords.Record.fields,
    accepts_written ruleMembers_nodup (List.Subset.refl _) (ruleMembers_tags r)]
  rfl

@[simp] theorem rules_into (l : List Structs.RoutingRule) :
    (list routingRule zeroRule).into (.arr (l.map fun r => held (writeRule r))) none = some l := by
  have h : ∀ r, routingRule.into (held (writeRule r)) zeroRule = id r := fun r => rule_into r zeroRule
  change some (decodeInto routingRule zeroRule (l.map fun r => held (writeRule r)) []) = some l
  rw [decodeInto_new h,List.map_id]

@[simp] theorem rules_accepts (l : List Structs.RoutingRule) :
    (list routingRule zeroRule).accepts (.arr (l.map fun r => held (writeRule r))) = true := by
  refine List.all_eq_true.mpr fun v hv => ?_
  obtain ⟨r,_,rfl⟩ := List.mem_map.mp hv
  exact rule_accepts r

@[simp] theorem routing_into (c : Protocol.RoutingConfig) :
    routingConfig.into (held (writeRouting c)) zeroRouting = seenRouting c := by
  cases h : c.dns <;>
    simp [routingConfig,writeRouting,seenRouting,seenDNS,skipNone,zeroRouting,h]

@[simp] theorem routing_accepts (c : Protocol.RoutingConfig) :
    routingConfig.accepts (held (writeRouting c)) = acceptsDNS c.dns := by
  cases h : c.dns <;>
    simp [routingConfig,writeRouting,acceptsDNS,skipNone,h]

@[simp] theorem profileIDs_into (l : List Protocol.ProfileID) :
    (list profileID zeroProfileID).into (.arr (l.map fun p => held (writeProfileID p))) none =
      some (l.map seenProfileID) := by
  simp [list,decodeInto_new fun p => profileID_into p zeroProfileID]

@[simp] theorem profileIDs_accepts (l : List Protocol.ProfileID) :
    (list profileID zeroProfileID).accepts (.arr (l.map fun p => held (writeProfileID p))) = true := by
  simp [list]

@[simp] theorem integers_into (l : List Int32) :
    (list integer 0).into (.arr (l.map int)) none = some (l.map Int32.toInt64) := by
  simp [list,decodeInto_new fun n => integer_into n 0]

@[simp] theorem integers_accepts (l : List Int32) :
    (list integer 0).accepts (.arr (l.map int)) = true := by
  simp [list]

end Structures

/-- The request under other integers, ids, settings and configurations. -/
def Request.map {I P T R I' P' T' R' : Type} (i : I → I') (p : P → P') (t : T → T') (r : R → R') :
    Request I P T R → Request I' P' T' R'
  | .die => .die
  | .setLogLevel level => .setLogLevel level
  | .addProfiles uris groupId => .addProfiles uris (i groupId)
  | .deleteProfiles profiles => .deleteProfiles (profiles.map p)
  | .reorderProfiles groupId profileIds => .reorderProfiles (i groupId) (profileIds.map i)
  | .reorderGroups groupIds => .reorderGroups (groupIds.map i)
  | .moveProfile profileId fromGroupId toGroupId =>
    .moveProfile (i profileId) (i fromGroupId) (i toGroupId)
  | .addGroup name subscriptionUrl => .addGroup name subscriptionUrl
  | .deleteGroup id => .deleteGroup (i id)
  | .connect profile => .connect (p profile)
  | .disconnect => .disconnect
  | .testProfile profile method sampleCount => .testProfile (p profile) method (i sampleCount)
  | .testGroup groupId method sampleCount => .testGroup (i groupId) method (i sampleCount)
  | .cancelTests => .cancelTests
  | .setTestConfig config => .setTestConfig (t config)
  | .getApplicationState => .getApplicationState
  | .getProfileDetails profile => .getProfileDetails (p profile)
  | .repairConfig => .repairConfig
  | .restoreDb => .restoreDb
  | .updateSubscription groupId => .updateSubscription (i groupId)
  | .enableTun => .enableTun
  | .disableTun => .disableTun
  | .isRoot => .isRoot
  | .setTunName tunName => .setTunName tunName
  | .setHwid enabled userAgent reset => .setHwid enabled userAgent reset
  | .updateProfile profile name => .updateProfile (p profile) name
  | .updateGroup id name subscriptionUrl autoUpdate updateInterval =>
    .updateGroup (i id) name subscriptionUrl autoUpdate updateInterval
  | .setKillSwitch enabled force armed => .setKillSwitch enabled force armed
  | .setSplitTunnel mode => .setSplitTunnel mode
  | .setAutoconnect enabled groupId profileId mode =>
    .setAutoconnect enabled (i groupId) (i profileId) mode
  | .getRouting groupId => .getRouting (i groupId)
  | .updateRouting groupId config => .updateRouting (i groupId) (r config)
  | .setManualRoutingSource groupId source => .setManualRoutingSource (i groupId) source
  | .importHappRouting groupId link => .importHappRouting (i groupId) link
  | .setGroupRoutingMode groupId mode => .setGroupRoutingMode (i groupId) mode
  | .setActiveRoutingProfile groupId profileId => .setActiveRoutingProfile (i groupId) profileId
  | .deleteRoutingProfile groupId profileId => .deleteRoutingProfile (i groupId) profileId

/-- What the core should do with a request: its numbers keep their values in the core's
width. -/
def received : ClientRequest → Outcome
  | .die => .stop
  | .setLogLevel level => setLogLevel level
  | .updateRouting groupId config =>
    if acceptsDNS config.dns then .handle (.updateRouting groupId.toInt64 (seenRouting config))
    else .invalid
  | r => .handle (r.map Int32.toInt64 seenProfileID seenTestConfig seenRouting)

theorem decoded_only {tag : String} {d : Decoder α} {zero : α} {v : Value} (handler : α → Outcome)
    (h : d.accepts (held v) = true) :
    decoded (only tag d) zero (held (.obj [(tag,v)])) handler =
      handler (d.into (held v) zero) := by
  simp [h]

theorem dispatched_write (r : ClientRequest) : dispatch (write r).1 (held (write r).2) = received r := by
  cases r with
  | setHwid enabled userAgent reset =>
    cases enabled <;> cases userAgent <;> simp [received,Request.map]
  | updateGroup id name subscriptionUrl autoUpdate updateInterval =>
    cases autoUpdate <;> cases updateInterval <;> simp [received,Request.map,skipNone]
  | setTestConfig config =>
    simp only [write,dispatch]
    rw [decoded_only _ (testConfig_accepts config),testConfig_into]
    rfl
  | setKillSwitch enabled force armed =>
    cases force <;> cases armed <;> simp [received,Request.map,skipFalse]
  | updateRouting groupId config =>
    cases h : acceptsDNS config.dns <;> simp [received,h]
  | _ =>
    simp [received,Request.map,empty,decodeGroup,decodeGroupText,groupText]

end Agreement

section Connection

/-- A message of the client. -/
structure Message where
  id : String
  msg : String
  data : Value

/-- The message that `send_frame` of the client writes; without an id the core takes the
empty one. -/
def message (id : Option String) (r : ClientRequest) : Message :=
  ⟨id.getD "",(write r).1,held (write r).2⟩

/-- `dispatch` says to go on. -/
def Outcome.goesOn : Outcome → Bool
  | .invalid => false
  | _ => true

/-- The loop of `handleConnection` of the core: the id and the outcome of each message. -/
def handleConnection (unmarshal : Bytes → Option Message) (segs : Reads) :
    List (String × Outcome) :=
  match _h : readMessage unmarshal segs with
  | .error _ => []
  | .ok (m,rest) =>
    let o := dispatch m.msg m.data
    (m.id,o)::(if o.goesOn then handleConnection unmarshal rest else [])
termination_by segs.flatten.length
decreasing_by exact readMessage_shorter ‹_›

/-- What the core should do with requests one after the other: a message that it cannot
decode is the last. -/
def served : List (Option String × ClientRequest) → List (String × Outcome)
  | [] => []
  | (id,r)::rest => (id.getD "",received r)::(if (received r).goesOn then served rest else [])

/-- The bytes that the client puts on the connection. -/
def stream (marshal : Message → Bytes) (rs : List (Option String × ClientRequest)) : Bytes :=
  rs.flatMap fun r => (sendFrame (marshal (message r.1 r.2))).getD []

variable {marshal : Message → Bytes} {unmarshal : Bytes → Option Message} {segs : Reads}

theorem handleConnection_end (h : segs.flatten = []) : handleConnection unmarshal segs = [] := by
  rw [handleConnection]
  split
  · rfl
  · next hread => cases hread.symm.trans (readMessage_end h)

theorem handleConnection_ok {m : Message} {rest : Reads}
    (h : readMessage unmarshal segs = .ok (m,rest)) :
    handleConnection unmarshal segs = (m.id,dispatch m.msg m.data)::
      (if (dispatch m.msg m.data).goesOn then handleConnection unmarshal rest else []) := by
  rw [handleConnection]
  split
  · next hread => cases hread.symm.trans h
  · next hread =>
    cases hread.symm.trans h
    rfl

/-- The text of a request to disconnect with the id `r1`. -/
def disconnectText : Bytes :=
  [0x7B,0x22,0x64,0x61,0x74,0x61,0x22,0x3A,0x7B,0x7D,0x2C,0x22,0x69,0x64,0x22,0x3A,
    0x22,0x72,0x31,0x22,0x2C,0x22,0x6D,0x73,0x67,0x22,0x3A,0x22,0x64,0x69,0x73,0x63,
    0x6F,0x6E,0x6E,0x65,0x63,0x74,0x22,0x7D]

end Connection

end Whoisthat.Requests
