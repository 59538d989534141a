import Whoisthat.StructDecoding

/-!
# Reading config.json

A file the ordinary decoder reads without an error is taken as decoded. One
that is an object with values it cannot read is taken up again by name: the
last member of each exact name is decoded over the default of its field,
whatever the attempt leaves behind. That is compared with the ordinary decoding
of the file less the members that are `null` or cannot be read.
-/

set_option autoImplicit false

namespace Whoisthat.ConfigFile
open Whoisthat.Json Whoisthat.StructDecoding

section Kinds

inductive Leaf where
  | text
  | integer
  | flag
  deriving DecidableEq

abbrev Leaf.Type : Leaf → Type
  | .text => String
  | .integer => Int64
  | .flag => Bool

def Leaf.read : (k : Leaf) → Value → Option k.Type
  | .text => StructDecoding.text
  | .integer => int64
  | .flag => StructDecoding.flag

structure PortRange where
  start : Int64
  finish : Int64
  deriving DecidableEq

inductive PortField where
  | start
  | finish
  deriving DecidableEq

def portRange : Layout PortField (fun _ => Int64) PortRange where
  shape := {
    toFun := fun r i => match i with
      | .start => r.start
      | .finish => r.finish
    invFun := fun g => ⟨g .start,g .finish⟩
    left_inv := fun _ => rfl
    right_inv := fun g => funext fun i => by cases i <;> rfl }
  fields := [.start,.finish]
  tag
    | .start => "start"
    | .finish => "end"
  decoder _ := scalar int64

structure TestConfig where
  concurrency : Int64
  timeoutSeconds : Int64
  samplesPerTest : Int64
  testEndpoint : String
  autoTestOnSub : Bool
  deriving DecidableEq

inductive TestField where
  | concurrency
  | timeoutSeconds
  | samplesPerTest
  | testEndpoint
  | autoTestOnSub
  deriving DecidableEq

def TestField.leaf : TestField → Leaf
  | .testEndpoint => .text
  | .autoTestOnSub => .flag
  | _ => .integer

def testConfig : Layout TestField (fun i => i.leaf.Type) TestConfig where
  shape := {
    toFun := fun c i => match i with
      | .concurrency => c.concurrency
      | .timeoutSeconds => c.timeoutSeconds
      | .samplesPerTest => c.samplesPerTest
      | .testEndpoint => c.testEndpoint
      | .autoTestOnSub => c.autoTestOnSub
    invFun := fun g =>
      ⟨g .concurrency,g .timeoutSeconds,g .samplesPerTest,g .testEndpoint,g .autoTestOnSub⟩
    left_inv := fun _ => rfl
    right_inv := fun g => funext fun i => by cases i <;> rfl }
  fields := [.concurrency,.timeoutSeconds,.samplesPerTest,.testEndpoint,.autoTestOnSub]
  tag
    | .concurrency => "concurrency"
    | .timeoutSeconds => "timeout-seconds"
    | .samplesPerTest => "samples-per-test"
    | .testEndpoint => "test-endpoint"
    | .autoTestOnSub => "auto-test-on-subscribe"
  decoder i := scalar i.leaf.read

structure SplitTunnelConfig where
  mode : String
  deriving DecidableEq

def splitTunnelConfig : Layout Unit (fun _ => String) SplitTunnelConfig where
  shape := {
    toFun := fun c _ => c.mode
    invFun := fun g => ⟨g ()⟩
    left_inv := fun _ => rfl
    right_inv := fun _ => rfl }
  fields := [()]
  tag _ := "mode"
  decoder _ := scalar StructDecoding.text

inductive Kind where
  | leaf (k : Leaf)
  | ports
  | servers
  | tests
  | split
  deriving DecidableEq

abbrev Kind.Type : Kind → Type
  | .leaf k => k.Type
  | .ports => PortRange
  | .servers => Slice String
  | .tests => TestConfig
  | .split => SplitTunnelConfig

def stringSlice : Decoder (Slice String) := sliceOf (scalar StructDecoding.text) ""

def Kind.decoder : (k : Kind) → Decoder k.Type
  | .leaf k => scalar k.read
  | .ports => portRange.decode
  | .servers => stringSlice
  | .tests => testConfig.decode
  | .split => splitTunnelConfig.decode

end Kinds

section Source

structure AppConfig where
  socksPort : Int64
  httpPort : Int64
  coreTCPPort : Int64
  testPortRange : PortRange
  dnsServers : Slice String
  tunName : String
  hwidEnabled : Bool
  hwid : String
  userAgent : String
  killSwitchEnabled : Bool
  autoconnectEnabled : Bool
  autoconnectGroupId : Int64
  autoconnectProfileId : Int64
  autoconnectMode : String
  testConfig : TestConfig
  ipcSocketPath : String
  tcpEnabled : Bool
  splitTunnel : SplitTunnelConfig
  deriving DecidableEq

inductive Field where
  | socksPort
  | httpPort
  | coreTCPPort
  | testPortRange
  | dnsServers
  | tunName
  | hwidEnabled
  | hwid
  | userAgent
  | killSwitchEnabled
  | autoconnectEnabled
  | autoconnectGroupId
  | autoconnectProfileId
  | autoconnectMode
  | testConfig
  | ipcSocketPath
  | tcpEnabled
  | splitTunnel
  deriving DecidableEq

def Field.kind : Field → Kind
  | .socksPort => .leaf .integer
  | .httpPort => .leaf .integer
  | .coreTCPPort => .leaf .integer
  | .testPortRange => .ports
  | .dnsServers => .servers
  | .tunName => .leaf .text
  | .hwidEnabled => .leaf .flag
  | .hwid => .leaf .text
  | .userAgent => .leaf .text
  | .killSwitchEnabled => .leaf .flag
  | .autoconnectEnabled => .leaf .flag
  | .autoconnectGroupId => .leaf .integer
  | .autoconnectProfileId => .leaf .integer
  | .autoconnectMode => .leaf .text
  | .testConfig => .tests
  | .ipcSocketPath => .leaf .text
  | .tcpEnabled => .leaf .flag
  | .splitTunnel => .split

/-- The names in the tags of the struct. -/
def Field.tag : Field → String
  | .socksPort => "socks-port"
  | .httpPort => "http-port"
  | .coreTCPPort => "core-tcp-port"
  | .testPortRange => "test-port-range"
  | .dnsServers => "dns-servers"
  | .tunName => "tun-name"
  | .hwidEnabled => "hwid-enabled"
  | .hwid => "hwid"
  | .userAgent => "user-agent"
  | .killSwitchEnabled => "kill-switch-enabled"
  | .autoconnectEnabled => "autoconnect-enabled"
  | .autoconnectGroupId => "autoconnect-group-id"
  | .autoconnectProfileId => "autoconnect-profile-id"
  | .autoconnectMode => "autoconnect-mode"
  | .testConfig => "test-config"
  | .ipcSocketPath => "ipc-socket-path"
  | .tcpEnabled => "tcp-enabled"
  | .splitTunnel => "split-tunnel"

def AppConfig.field (c : AppConfig) : (f : Field) → f.kind.Type
  | .socksPort => c.socksPort
  | .httpPort => c.httpPort
  | .coreTCPPort => c.coreTCPPort
  | .testPortRange => c.testPortRange
  | .dnsServers => c.dnsServers
  | .tunName => c.tunName
  | .hwidEnabled => c.hwidEnabled
  | .hwid => c.hwid
  | .userAgent => c.userAgent
  | .killSwitchEnabled => c.killSwitchEnabled
  | .autoconnectEnabled => c.autoconnectEnabled
  | .autoconnectGroupId => c.autoconnectGroupId
  | .autoconnectProfileId => c.autoconnectProfileId
  | .autoconnectMode => c.autoconnectMode
  | .testConfig => c.testConfig
  | .ipcSocketPath => c.ipcSocketPath
  | .tcpEnabled => c.tcpEnabled
  | .splitTunnel => c.splitTunnel

def appConfig : Layout Field (fun f => f.kind.Type) AppConfig where
  shape := {
    toFun := AppConfig.field
    invFun := fun g =>
      ⟨g .socksPort,g .httpPort,g .coreTCPPort,g .testPortRange,g .dnsServers,g .tunName,
        g .hwidEnabled,g .hwid,g .userAgent,g .killSwitchEnabled,g .autoconnectEnabled,
        g .autoconnectGroupId,g .autoconnectProfileId,g .autoconnectMode,g .testConfig,
        g .ipcSocketPath,g .tcpEnabled,g .splitTunnel⟩
    left_inv := fun _ => rfl
    right_inv := fun g => funext fun f => by cases f <;> rfl }
  fields := [.socksPort,.httpPort,.coreTCPPort,.testPortRange,.dnsServers,.tunName,.hwidEnabled,
    .hwid,.userAgent,.killSwitchEnabled,.autoconnectEnabled,.autoconnectGroupId,
    .autoconnectProfileId,.autoconnectMode,.testConfig,.ipcSocketPath,.tcpEnabled,.splitTunnel]
  tag := Field.tag
  decoder f := f.kind.decoder

/-- `version` is that of the build. -/
def defaultConfig (version : String) : AppConfig where
  socksPort := 3090
  httpPort := 3091
  coreTCPPort := 4897
  testPortRange := ⟨3095,30120⟩
  dnsServers := ⟨["1.1.1.1","8.8.8.8","2606:4700:4700::1111","2001:4860:4860::8888"],[]⟩
  tunName := "whoisthattun"
  hwidEnabled := true
  hwid := ""
  userAgent := "whoisthat/v" ++ version
  killSwitchEnabled := false
  autoconnectEnabled := false
  autoconnectGroupId := 0
  autoconnectProfileId := 0
  autoconnectMode := "proxy"
  testConfig := ⟨16,5,3,"https://cp.cloudflare.com/generate_204",true⟩
  ipcSocketPath := ""
  tcpEnabled := false
  splitTunnel := ⟨""⟩

/-- The cases of `applyField`. -/
def caseOf : String → Option Field
  | "socks-port" => some .socksPort
  | "http-port" => some .httpPort
  | "core-tcp-port" => some .coreTCPPort
  | "test-port-range" => some .testPortRange
  | "dns-servers" => some .dnsServers
  | "tun-name" => some .tunName
  | "hwid-enabled" => some .hwidEnabled
  | "hwid" => some .hwid
  | "user-agent" => some .userAgent
  | "kill-switch-enabled" => some .killSwitchEnabled
  | "autoconnect-enabled" => some .autoconnectEnabled
  | "autoconnect-group-id" => some .autoconnectGroupId
  | "autoconnect-profile-id" => some .autoconnectProfileId
  | "autoconnect-mode" => some .autoconnectMode
  | "test-config" => some .testConfig
  | "ipc-socket-path" => some .ipcSocketPath
  | "tcp-enabled" => some .tcpEnabled
  | "split-tunnel" => some .splitTunnel
  | _ => none

/-- The flag tells whether the value was read without an error. -/
def applyField (cfg : AppConfig) (key : String) (raw : Value) : AppConfig × Bool :=
  match caseOf key with
  | some f => (appConfig.set cfg f (f.kind.decoder.into raw (cfg.field f)),
      f.kind.decoder.accepts raw)
  | none => (cfg,true)

def applyMember (cfg : AppConfig) (member : String × Value) : AppConfig :=
  if isNull member.2 then cfg else (applyField cfg member.1 member.2).1

/-- The recovery of an object with values that cannot be read; `order` are the
members of the decoded map as they are visited. -/
def recovered (version : String) (order : Fields) : AppConfig :=
  order.foldl applyMember (defaultConfig version)

inductive Parsed where
  | ok (cfg : AppConfig)
  | corrupt (cfg : AppConfig)
  | garbage

/-- `parseConfig` up to the backups. A document is `none` when the file is no
JSON, and `visit` is the order of the iteration over the decoded map. -/
def parseConfig (version : String) (visit : Fields → Fields) (document : Option Value) : Parsed :=
  match document with
  | none => .garbage
  | some v =>
    if appConfig.decode.accepts v then .ok (appConfig.decode.into v (defaultConfig version))
    else match v with
      | .obj ms => .corrupt (recovered version (visit (membersOf ms)))
      | _ => .garbage

end Source

section Specification

/-- A member that is not `null` and that the ordinary decoder reads. -/
def sound (member : String × Value) : Bool :=
  !isNull member.2 && appConfig.assigns member.1 member.2

/-- The ordinary decoding of the file less its invalid and null members. -/
def reference (version : String) (ms : Fields) : AppConfig :=
  appConfig.decode.into (.obj (ms.filter sound)) (defaultConfig version)

/-- Equal values; of a slice the items count. -/
def Kind.Equal : (k : Kind) → k.Type → k.Type → Prop
  | .servers,x,y => x.items = y.items
  | .leaf _,x,y => x = y
  | .ports,x,y => x = y
  | .tests,x,y => x = y
  | .split,x,y => x = y

def SameConfig (c c' : AppConfig) : Prop := ∀ f : Field, f.kind.Equal (c.field f) (c'.field f)

/-- The last member with the exact name of the field, unless it is `null`. -/
def exactly (f : Field) (ms : Fields) : List Value :=
  ((lastMember ms f.tag).filter fun v => !isNull v).toList

/-- The members that go to the field, in any spelling, and can be read. -/
def valid (f : Field) (ms : Fields) : List Value := appConfig.taken f (ms.filter sound)

/-- Two lists of values leave the same in a field that holds `x`: the last one
that can be read says the same, or none says anything but `x`; of an object
this is asked of each of its fields. -/
def Kind.Agree : (k : Kind) → List Value → List Value → k.Type → Prop
  | .leaf k,vs,ws,x => said k.read vs x = said k.read ws x
  | .ports,vs,ws,x => ∀ i, said int64 (portRange.inner i vs) (portRange.get x i) =
      said int64 (portRange.inner i ws) (portRange.get x i)
  | .tests,vs,ws,x => ∀ i, said i.leaf.read (testConfig.inner i vs) (testConfig.get x i) =
      said i.leaf.read (testConfig.inner i ws) (testConfig.get x i)
  | .split,vs,ws,x => said StructDecoding.text (splitTunnelConfig.inner () vs) x.mode =
      said StructDecoding.text (splitTunnelConfig.inner () ws) x.mode
  | .servers,vs,ws,x => (stringSlice.inTurn vs x).items = (stringSlice.inTurn ws x).items

/-- The last member of the exact name says what all valid members say. -/
def Agrees (version : String) (ms : Fields) (f : Field) : Prop :=
  f.kind.Agree (exactly f ms) (valid f ms) ((defaultConfig version).field f)

end Specification

section Recovery

theorem caseOf_eq_some {key : String} {f : Field} : caseOf key = some f ↔ key = f.tag := by
  constructor
  · intro h
    unfold caseOf at h
    split at h <;> cases h <;> rfl
  · rintro rfl
    cases f <;> rfl

theorem field_set_self (c : AppConfig) (f : Field) (y : f.kind.Type) :
    (appConfig.set c f y).field f = y := appConfig.get_set_self c f y

theorem field_set_of_ne {f g : Field} (h : f ≠ g) (c : AppConfig) (y : g.kind.Type) :
    (appConfig.set c g y).field f = c.field f := appConfig.get_set_of_ne h c y

/-- The values of the members that are visited under the exact name. -/
def named (f : Field) (order : Fields) : List Value :=
  order.filterMap fun e => if e.1 = f.tag ∧ isNull e.2 = false then some e.2 else none

theorem field_applyMember (c : AppConfig) (e : String × Value) (f : Field) :
    (applyMember c e).field f =
      if e.1 = f.tag ∧ isNull e.2 = false then f.kind.decoder.into e.2 (c.field f)
      else c.field f := by
  unfold applyMember
  cases hnull : isNull e.2 with
  | true => simp
  | false =>
    simp only [Bool.false_eq_true,if_false,and_true,applyField]
    cases hcase : caseOf e.1 with
    | none =>
      have hne : e.1 ≠ f.tag := fun h => by rw [caseOf_eq_some.mpr h] at hcase; cases hcase
      rw [if_neg hne]
    | some g =>
      have hg := caseOf_eq_some.mp hcase
      by_cases h : f = g
      · subst h
        rw [if_pos hg]
        exact field_set_self c f _
      · have hne : e.1 ≠ f.tag := fun hf =>
          h (Option.some.inj ((caseOf_eq_some.mpr hf).symm.trans hcase))
        rw [if_neg hne]
        exact field_set_of_ne h c _

theorem field_foldl (order : Fields) (c : AppConfig) (f : Field) :
    (order.foldl applyMember c).field f =
      f.kind.decoder.inTurn (named f order) (c.field f) := by
  induction order generalizing c with
  | nil => rfl
  | cons e order ih =>
    rw [List.foldl_cons,ih,field_applyMember,named,named,List.filterMap_cons]
    split <;> rfl

theorem named_of_nodup {m : Fields} (h : m.keys.Nodup) (f : Field) :
    named f m = ((m.lookup f.tag).filter fun v => !isNull v).toList := by
  induction m with
  | nil => rfl
  | cons e m ih =>
    obtain ⟨k,v⟩ := e
    obtain ⟨hk,hrest⟩ := List.nodup_cons.mp h
    rw [named,List.filterMap_cons]
    by_cases hname : k = f.tag
    · subst hname
      have hnone : named f m = [] := by
        have hlookup : m.lookup f.tag = none := List.lookup_eq_none_iff.mpr fun e he => by
          have hne : f.tag ≠ e.1 := fun heq => hk (List.mem_map.mpr ⟨e,he,heq.symm⟩)
          simpa using hne
        rw [ih hrest,hlookup]
        rfl
      rw [named] at hnone
      cases hnull : isNull v <;> simp [hnone,hnull,Option.filter]
    · have hlookup : List.lookup f.tag ((k,v)::m) = m.lookup f.tag := by
        rw [List.lookup_cons,beq_false_of_ne (Ne.symm hname)]
      rw [hlookup,← ih hrest,named]
      simp [hname]

theorem named_membersOf (ms : Fields) (f : Field) : named f (membersOf ms) = exactly f ms := by
  rw [named_of_nodup (nodup_membersOf ms),lookup_membersOf,exactly]

/-- The order of the visit does not matter: a name is there once. -/
theorem named_perm {order ms : Fields} (h : order.Perm (membersOf ms)) (f : Field) :
    named f order = exactly f ms := by
  have hperm : (named f order).Perm (exactly f ms) := by
    rw [← named_membersOf]
    exact h.filterMap _
  unfold exactly at hperm ⊢
  cases hv : (lastMember ms f.tag).filter fun v => !isNull v with
  | none =>
    rw [hv] at hperm
    exact hperm.eq_nil
  | some v =>
    rw [hv] at hperm
    exact List.perm_singleton.mp hperm

theorem field_recovered (version : String) {order ms : Fields} (h : order.Perm (membersOf ms))
    (f : Field) : (recovered version order).field f =
      f.kind.decoder.inTurn (exactly f ms) ((defaultConfig version).field f) := by
  rw [recovered,field_foldl,named_perm h]

theorem field_reference (version : String) (ms : Fields) (f : Field) :
    (reference version ms).field f =
      f.kind.decoder.inTurn (valid f ms) ((defaultConfig version).field f) :=
  appConfig.get_into_obj (ms.filter sound) (defaultConfig version) f

theorem recovered_perm (version : String) {order ms : Fields} (h : order.Perm (membersOf ms)) :
    recovered version order = recovered version (membersOf ms) :=
  appConfig.ext fun f => (field_recovered version h f).trans
    (field_recovered version (List.Perm.refl _) f).symm

end Recovery

section Agreement

theorem Kind.agree_iff (k : Kind) (vs ws : List Value) (x : k.Type) :
    k.Equal (k.decoder.inTurn vs x) (k.decoder.inTurn ws x) ↔ k.Agree vs ws x := by
  cases k with
  | leaf k =>
    change (scalar k.read).inTurn vs x = (scalar k.read).inTurn ws x ↔ _
    rw [inTurn_scalar,inTurn_scalar]
    rfl
  | servers => exact Iff.rfl
  | ports =>
    refine (portRange.inTurn_eq_iff vs ws x x).trans (forall_congr' fun i => ?_)
    change (scalar int64).inTurn _ _ = (scalar int64).inTurn _ _ ↔ _
    rw [inTurn_scalar,inTurn_scalar]
  | tests =>
    refine (testConfig.inTurn_eq_iff vs ws x x).trans (forall_congr' fun i => ?_)
    change (scalar i.leaf.read).inTurn _ _ = (scalar i.leaf.read).inTurn _ _ ↔ _
    rw [inTurn_scalar,inTurn_scalar]
  | split =>
    refine (splitTunnelConfig.inTurn_eq_iff vs ws x x).trans ?_
    change (∀ _, (scalar StructDecoding.text).inTurn _ _ =
      (scalar StructDecoding.text).inTurn _ _) ↔ _
    simp only [inTurn_scalar]
    exact ⟨fun h => h (),fun h _ => h⟩

theorem valid_eq (f : Field) (ms : Fields) : valid f ms =
    (appConfig.taken f ms).filter fun v => !isNull v && f.kind.decoder.accepts v := by
  unfold valid Layout.taken
  rw [List.filterMap_filter,List.filter_filterMap]
  refine List.filterMap_congr fun e _ => ?_
  by_cases h : appConfig.select e.1 = some f
  · have hsound : sound e = (!isNull e.2 && f.kind.decoder.accepts e.2) := by
      rw [sound,Layout.assigns,h]
      rfl
    rw [hsound]
    cases hs : !isNull e.2 && f.kind.decoder.accepts e.2 <;> simp [h,hs,Option.filter]
  · simp [h]

/-- A field that is written once, under its own name and as it should be, is
recovered as decoded. -/
theorem agrees_of_once (version : String) {ms : Fields} {f : Field} {v : Value}
    (hlast : lastMember ms f.tag = some v) (honce : appConfig.taken f ms = [v])
    (hv : f.kind.decoder.accepts v = true) : Agrees version ms f := by
  have heq : exactly f ms = valid f ms := by
    rw [valid_eq,honce,exactly,hlast]
    cases hnull : isNull v <;> simp [hnull,hv,Option.filter]
  rw [Agrees,heq]
  exact (Kind.agree_iff _ _ _ _).mp (by cases f <;> rfl)

/-- What recovery makes of an object with invalid values does not depend on the
order of the visit, and is what decoding its valid members gives just when in
each field the last member of the exact name says what the valid ones say. -/
theorem recovered_iff (version : String) (ms : Fields)
    (hinvalid : appConfig.decode.accepts (.obj ms) = false) :
    ∃ cfg, (∀ visit : Fields → Fields, (∀ m, (visit m).Perm m) →
        parseConfig version visit (some (.obj ms)) = .corrupt cfg) ∧
      (SameConfig cfg (reference version ms) ↔ ∀ f, Agrees version ms f) := by
  refine ⟨recovered version (membersOf ms),fun visit hvisit => ?_,forall_congr' fun f => ?_⟩
  · rw [parseConfig,hinvalid,← recovered_perm version (hvisit (membersOf ms))]
    rfl
  · rw [field_recovered version (List.Perm.refl _),field_reference,Kind.agree_iff]
    rfl

/-- A wrong kind of value next to good ones. -/
def misfit : Fields :=
  [("tun-name",.str "tun7"),("socks-port",.str "x"),("test-config",.obj [("concurrency",.int 8)])]

theorem recovered_misfit :
    appConfig.decode.accepts (.obj misfit) = false ∧ ∃ cfg,
      parseConfig "1" id (some (.obj misfit)) = .corrupt cfg ∧
        SameConfig cfg (reference "1" misfit) := by
  have hinvalid : appConfig.decode.accepts (.obj misfit) = false := by decide
  obtain ⟨cfg,hcfg,hsame⟩ := recovered_iff "1" misfit hinvalid
  refine ⟨hinvalid,cfg,hcfg id fun m => List.Perm.refl m,hsame.mpr fun f => ?_⟩
  cases f <;> first | rfl | (intro i; cases i <;> rfl)

/-- A range of which one end cannot be read, and a name in another spelling
next to it. -/
def halfRead : Fields :=
  [("test-port-range",.obj [("start",.int 4000),("end",.str "x")])]

def respelled : Fields := [("Tun-Name",.str "tun7"),("socks-port",.str "x")]

theorem recovered_differs :
    (appConfig.decode.accepts (.obj halfRead) = false ∧
      parseConfig "1" id (some (.obj halfRead)) = .corrupt (recovered "1" (membersOf halfRead)) ∧
      ¬SameConfig (recovered "1" (membersOf halfRead)) (reference "1" halfRead)) ∧
    appConfig.decode.accepts (.obj respelled) = false ∧
      parseConfig "1" id (some (.obj respelled)) = .corrupt (recovered "1" (membersOf respelled)) ∧
      ¬SameConfig (recovered "1" (membersOf respelled)) (reference "1" respelled) := by
  refine ⟨⟨by decide,rfl,fun h => ?_⟩,by decide,rfl,fun h => ?_⟩
  · have hports : (⟨4000,30120⟩ : PortRange) = ⟨3095,30120⟩ := h .testPortRange
    revert hports
    decide
  · have hname : "whoisthattun" = "tun7" := h .tunName
    revert hname
    decide

end Agreement

end Whoisthat.ConfigFile
