import Whoisthat.ConfigFile
import Whoisthat.InjectedRouting
import Whoisthat.SettingsBackup
import Whoisthat.StatsPorts

/-!
# A start from any config.json

Whatever the settings file and its backups hold, loading them gives a
configuration: the file, what could be recovered of it, or a backup. Names,
servers, modes and test settings pass a check of their own on the way. The
range of the test ports and the mode of the split tunnel do not.
-/

set_option autoImplicit false

namespace Whoisthat.ConfigStart
open Whoisthat.Json Whoisthat.StructDecoding Whoisthat.ConfigFile
open Whoisthat.IPLiterals (parseIP)
open Whoisthat.InjectedRouting (sanitizeDnsServers defaultDnsServers sanitizeDnsServers_ne_nil)
open Whoisthat.SettingsBackup (Contents Format State Answer normalised readConfig
  readUsableBackup restoreBackupFile LoadConfig)
open Whoisthat.StatsPorts (PortPool createPortPool)

section Format

/-- The fields of the configuration that saving and restoring do not look at. -/
structure Settings where
  socksPort : Int64
  httpPort : Int64
  coreTCPPort : Int64
  testPortRange : PortRange
  dnsServers : List String
  tunName : String
  autoconnectEnabled : Bool
  autoconnectGroupId : Int64
  autoconnectProfileId : Int64
  autoconnectMode : String
  testConfig : TestConfig
  ipcSocketPath : String
  tcpEnabled : Bool
  deriving DecidableEq

abbrev Config := SettingsBackup.AppConfig Settings

def configOf (c : ConfigFile.AppConfig) : Config where
  hwidEnabled := c.hwidEnabled
  hwid := c.hwid
  userAgent := c.userAgent
  splitTunnelMode := c.splitTunnel.mode
  killSwitchEnabled := c.killSwitchEnabled
  rest := {
    socksPort := c.socksPort
    httpPort := c.httpPort
    coreTCPPort := c.coreTCPPort
    testPortRange := c.testPortRange
    dnsServers := c.dnsServers.items
    tunName := c.tunName
    autoconnectEnabled := c.autoconnectEnabled
    autoconnectGroupId := c.autoconnectGroupId
    autoconnectProfileId := c.autoconnectProfileId
    autoconnectMode := c.autoconnectMode
    testConfig := c.testConfig
    ipcSocketPath := c.ipcSocketPath
    tcpEnabled := c.tcpEnabled }

/-- A configuration in memory whose slice of servers was made by decoding. -/
def fileOf (old : Slice String) (c : Config) : ConfigFile.AppConfig where
  socksPort := c.rest.socksPort
  httpPort := c.rest.httpPort
  coreTCPPort := c.rest.coreTCPPort
  testPortRange := c.rest.testPortRange
  dnsServers := stringSlice.into (.strs c.rest.dnsServers) old
  tunName := c.rest.tunName
  hwidEnabled := c.hwidEnabled
  hwid := c.hwid
  userAgent := c.userAgent
  killSwitchEnabled := c.killSwitchEnabled
  autoconnectEnabled := c.rest.autoconnectEnabled
  autoconnectGroupId := c.rest.autoconnectGroupId
  autoconnectProfileId := c.rest.autoconnectProfileId
  autoconnectMode := c.rest.autoconnectMode
  testConfig := c.rest.testConfig
  ipcSocketPath := c.rest.ipcSocketPath
  tcpEnabled := c.rest.tcpEnabled
  splitTunnel := ⟨c.splitTunnelMode⟩

def int (n : Int64) : Value := .int n.toInt

def marshalPorts (r : PortRange) : Value :=
  .obj [("start",int r.start),("end",int r.finish)]

def marshalTests (c : TestConfig) : Value :=
  .obj [("concurrency",int c.concurrency),("timeout-seconds",int c.timeoutSeconds),
    ("samples-per-test",int c.samplesPerTest),("test-endpoint",.str c.testEndpoint),
    ("auto-test-on-subscribe",.bool c.autoTestOnSub)]

/-- `json.MarshalIndent`; an empty socket path is left out. -/
def marshal (c : Config) : Value :=
  .obj ([("socks-port",int c.rest.socksPort),("http-port",int c.rest.httpPort),
    ("core-tcp-port",int c.rest.coreTCPPort),
    ("test-port-range",marshalPorts c.rest.testPortRange),
    ("dns-servers",.strs c.rest.dnsServers),("tun-name",.str c.rest.tunName),
    ("hwid-enabled",.bool c.hwidEnabled),("hwid",.str c.hwid),("user-agent",.str c.userAgent),
    ("kill-switch-enabled",.bool c.killSwitchEnabled),
    ("autoconnect-enabled",.bool c.rest.autoconnectEnabled),
    ("autoconnect-group-id",int c.rest.autoconnectGroupId),
    ("autoconnect-profile-id",int c.rest.autoconnectProfileId),
    ("autoconnect-mode",.str c.rest.autoconnectMode),
    ("test-config",marshalTests c.rest.testConfig)] ++
    (if c.rest.ipcSocketPath = "" then [] else [("ipc-socket-path",.str c.rest.ipcSocketPath)]) ++
    [("tcp-enabled",.bool c.rest.tcpEnabled),
      ("split-tunnel",.obj [("mode",.str c.splitTunnelMode)])])

theorem int64_int (n : Int64) : int64 (int n) = some n := by
  have hlo := Int64.le_toInt n
  have hhi := Int64.toInt_lt n
  have hsign : (if n.toInt < 0 then -(n.toInt.natAbs : ℤ) else n.toInt.natAbs) = n.toInt := by
    split <;> omega
  have hread : Number.int64 ⟨n.toInt < 0,n.toInt.natAbs,0,true⟩ = some n.toInt := by
    simp only [Number.int64,decide_eq_true_eq,hsign]
    rw [if_pos ⟨trivial,trivial,hlo,hhi⟩]
  change (Number.int64 _).map Int64.ofInt = _
  rw [hread,Option.map_some,Int64.ofInt_toInt]

theorem into_int (n old : Int64) : (scalar int64).into (int n) old = n := by
  change (int64 (int n)).getD old = n
  rw [int64_int]
  rfl

theorem accepts_int (n : Int64) : (scalar int64).accepts (int n) = true := by
  change (isNull (int n) || (int64 (int n)).isSome) = true
  rw [int64_int]
  rfl

def PortField.write (r : PortRange) (i : PortField) : Value := int (portRange.get r i)

theorem marshalPorts_eq (r : PortRange) : marshalPorts r =
    .obj (portRange.fields.map fun i => (portRange.tag i,PortField.write r i)) := rfl

theorem select_port (i : PortField) : portRange.select (portRange.tag i) = some i := by
  cases i <;> decide

theorem into_ports (r old : PortRange) : portRange.decode.into (marshalPorts r) old = r := by
  rw [marshalPorts_eq]
  refine portRange.into_written (by decide) (fun i _ => select_port i) _ (fun i _ => ?_)
    fun i hi => absurd (by cases i <;> decide) hi
  exact into_int _ _

theorem accepts_ports (r : PortRange) : portRange.decode.accepts (marshalPorts r) = true := by
  rw [marshalPorts_eq]
  exact portRange.accepts_written (fun i _ => select_port i) _ fun i _ => accepts_int _

def TestField.write (c : TestConfig) : TestField → Value
  | .concurrency => int c.concurrency
  | .timeoutSeconds => int c.timeoutSeconds
  | .samplesPerTest => int c.samplesPerTest
  | .testEndpoint => .str c.testEndpoint
  | .autoTestOnSub => .bool c.autoTestOnSub

theorem marshalTests_eq (c : TestConfig) : marshalTests c =
    .obj (testConfig.fields.map fun i => (testConfig.tag i,TestField.write c i)) := rfl

theorem select_test (i : TestField) : testConfig.select (testConfig.tag i) = some i := by
  cases i <;> decide

theorem into_tests (c old : TestConfig) : testConfig.decode.into (marshalTests c) old = c := by
  rw [marshalTests_eq]
  refine testConfig.into_written (by decide) (fun i _ => select_test i) _ (fun i _ => ?_)
    fun i hi => absurd (by cases i <;> decide) hi
  cases i with
  | concurrency => exact into_int _ _
  | timeoutSeconds => exact into_int _ _
  | samplesPerTest => exact into_int _ _
  | testEndpoint => rfl
  | autoTestOnSub => rfl

theorem accepts_tests (c : TestConfig) : testConfig.decode.accepts (marshalTests c) = true := by
  rw [marshalTests_eq]
  refine testConfig.accepts_written (fun i _ => select_test i) _ fun i _ => ?_
  cases i with
  | concurrency => exact accepts_int _
  | timeoutSeconds => exact accepts_int _
  | samplesPerTest => exact accepts_int _
  | testEndpoint => rfl
  | autoTestOnSub => rfl

def Field.write (c : Config) : Field → Value
  | .socksPort => int c.rest.socksPort
  | .httpPort => int c.rest.httpPort
  | .coreTCPPort => int c.rest.coreTCPPort
  | .testPortRange => marshalPorts c.rest.testPortRange
  | .dnsServers => .strs c.rest.dnsServers
  | .tunName => .str c.rest.tunName
  | .hwidEnabled => .bool c.hwidEnabled
  | .hwid => .str c.hwid
  | .userAgent => .str c.userAgent
  | .killSwitchEnabled => .bool c.killSwitchEnabled
  | .autoconnectEnabled => .bool c.rest.autoconnectEnabled
  | .autoconnectGroupId => int c.rest.autoconnectGroupId
  | .autoconnectProfileId => int c.rest.autoconnectProfileId
  | .autoconnectMode => .str c.rest.autoconnectMode
  | .testConfig => marshalTests c.rest.testConfig
  | .ipcSocketPath => .str c.rest.ipcSocketPath
  | .tcpEnabled => .bool c.rest.tcpEnabled
  | .splitTunnel => .obj [("mode",.str c.splitTunnelMode)]

/-- The fields that are written. -/
def kept (c : Config) : List Field :=
  appConfig.fields.filter fun f => f ≠ .ipcSocketPath ∨ c.rest.ipcSocketPath ≠ ""

theorem marshal_eq (c : Config) :
    marshal c = .obj ((kept c).map fun f => (appConfig.tag f,Field.write c f)) := by
  by_cases h : c.rest.ipcSocketPath = ""
  · rw [marshal,kept,if_pos h]
    simp only [h]
    rfl
  · have hkept : kept c = appConfig.fields :=
      List.filter_eq_self.mpr fun f _ => decide_eq_true (.inr h)
    rw [marshal,hkept,if_neg h]
    rfl

theorem select_tag (f : Field) : appConfig.select (appConfig.tag f) = some f := by
  cases f <;> decide

theorem accepts_servers (l : List String) : stringSlice.accepts (.strs l) = true :=
  List.all_eq_true.mpr fun v hv => by
    obtain ⟨s,-,rfl⟩ := List.mem_map.mp hv
    rfl

theorem items_servers (l : List String) (old : Slice String) :
    (stringSlice.into (.strs l) old).items = l := by
  cases l with
  | nil => rfl
  | cons s l => exact decodeInto_scalar StructDecoding.text .str (fun _ => rfl) "" (s::l) _

variable (version : String)

theorem into_field (c : Config) (f : Field) :
    f.kind.decoder.into (Field.write c f) ((defaultConfig version).field f) =
      (fileOf (defaultConfig version).dnsServers c).field f := by
  cases f with
  | testPortRange => exact into_ports _ _
  | testConfig => exact into_tests _ _
  | socksPort => exact into_int _ _
  | httpPort => exact into_int _ _
  | coreTCPPort => exact into_int _ _
  | autoconnectGroupId => exact into_int _ _
  | autoconnectProfileId => exact into_int _ _
  | _ => rfl

theorem accepts_field (c : Config) (f : Field) :
    f.kind.decoder.accepts (Field.write c f) = true := by
  cases f with
  | testPortRange => exact accepts_ports _
  | testConfig => exact accepts_tests _
  | dnsServers => exact accepts_servers _
  | socksPort => exact accepts_int _
  | httpPort => exact accepts_int _
  | coreTCPPort => exact accepts_int _
  | autoconnectGroupId => exact accepts_int _
  | autoconnectProfileId => exact accepts_int _
  | _ => rfl

theorem accepts_marshal (c : Config) : appConfig.decode.accepts (marshal c) = true := by
  rw [marshal_eq]
  exact appConfig.accepts_written (fun f _ => select_tag f) _ fun f _ => accepts_field c f

theorem into_marshal (c : Config) :
    appConfig.decode.into (marshal c) (defaultConfig version) =
      fileOf (defaultConfig version).dnsServers c := by
  rw [marshal_eq]
  refine appConfig.into_written ?_ (fun f _ => select_tag f) _ (fun f _ => into_field version c f)
    fun f hf => ?_
  · exact List.Nodup.filter _ (by decide)
  · -- Only an empty path is left out, which is its default.
    have hall : f ∈ appConfig.fields := by cases f <;> decide
    have hpath : f = .ipcSocketPath ∧ c.rest.ipcSocketPath = "" := by
      by_contra hne
      refine hf (List.mem_filter.mpr ⟨hall,decide_eq_true ?_⟩)
      tauto
    obtain ⟨rfl,hempty⟩ := hpath
    exact hempty.symm

theorem configOf_fileOf (old : Slice String) (c : Config) : configOf (fileOf old c) = c := by
  rw [configOf,fileOf]
  simp only [items_servers]

end Format

section Source

/-- Texts, the documents of those that are JSON, and what is written of a
document. -/
structure JsonText (β : Type) where
  json : β → Option Value
  render : Value → β
  json_render : ∀ v, json (render v) = some v

/-- Characters of `[a-zA-Z0-9_-]`. -/
def isTunChar (c : Char) : Bool := c.isAlphanum || c = '_' || c = '-'

/-- `tunNameRe` -/
def matchesTunName (name : String) : Bool :=
  match name.toList with
  | [] => false
  | c::rest => c.isAlpha && rest.length ≤ 14 && rest.all isTunChar

def sanitizeTunName (name : String) : String :=
  if name = "" ∨ matchesTunName name = false then "whoisthattun" else name

def sanitizeAutoconnectMode (mode : String) : String :=
  if mode ≠ "proxy" ∧ mode ≠ "tun" then "proxy" else mode

def isHttp (endpoint : String) : Bool :=
  "http://".toList.isPrefixOf endpoint.toList || "https://".toList.isPrefixOf endpoint.toList

/-- What is not positive is taken from the configuration in memory. -/
def sanitizeTestConfig (current cfg : TestConfig) : TestConfig where
  concurrency := if cfg.concurrency.toInt < 1 then current.concurrency else cfg.concurrency
  timeoutSeconds :=
    if cfg.timeoutSeconds.toInt < 1 then current.timeoutSeconds else cfg.timeoutSeconds
  samplesPerTest :=
    if cfg.samplesPerTest.toInt < 1 then current.samplesPerTest else cfg.samplesPerTest
  testEndpoint := if isHttp cfg.testEndpoint then cfg.testEndpoint else current.testEndpoint
  autoTestOnSub := cfg.autoTestOnSub

def sanitize (current c : Settings) : Settings :=
  { c with
    dnsServers := sanitizeDnsServers c.dnsServers
    tunName := sanitizeTunName c.tunName
    autoconnectMode := sanitizeAutoconnectMode c.autoconnectMode
    testConfig := sanitizeTestConfig current.testConfig c.testConfig }

def contents : Parsed → Contents Settings
  | .ok cfg => .valid (configOf cfg)
  | .corrupt cfg => .partly (configOf cfg)
  | .garbage => .garbage

theorem parseConfig_accepted (version : String) (visit : Fields → Fields) {v : Value}
    (h : appConfig.decode.accepts v = true) :
    ConfigFile.parseConfig version visit (some v) =
      .ok (appConfig.decode.into v (defaultConfig version)) := if_pos h

theorem parseConfig_object (version : String) (visit : Fields → Fields) {ms : Fields}
    (h : appConfig.decode.accepts (.obj ms) ≠ true) :
    ConfigFile.parseConfig version visit (some (.obj ms)) =
      .corrupt (recovered version (visit (membersOf ms))) := if_neg h

theorem default_current (version : String) :
    SettingsBackup.isLegacy (defaultConfig version).userAgent = false := by
  have hchars : ("whoisthat/v" ++ version).toList =
      "whoisthat".toList ++ '/' :: 'v' :: version.toList := by
    rw [String.toList_append]
    rfl
  change List.isPrefixOf _ ("whoisthat/v" ++ version).toList = false
  rw [hchars]
  rfl

variable {β : Type} (T : JsonText β) (version : String)

/-- The settings file as a format. The order of the visit is any, and so that of the map. -/
def format : Format β Settings where
  marshal c := T.render (marshal c)
  read b := contents (ConfigFile.parseConfig version id (T.json b))
  defaultConfig := configOf (defaultConfig version)
  sanitize := sanitize
  read_marshal c := by
    rw [T.json_render,parseConfig_accepted version id (accepts_marshal c),contents,into_marshal,
      configOf_fileOf]
  default_current := default_current version

/-- A process that has not loaded anything yet. -/
def fresh (files : SettingsBackup.Path → Option β) : State β Settings :=
  ⟨files,configOf (defaultConfig version),.ok,false⟩

/-- `Init`, of which only the pool of test ports can end the process. -/
def initPool (c : Config) : Option PortPool :=
  createPortPool c.rest.testPortRange.start.toInt c.rest.testPortRange.finish.toInt

end Source

section Specification

/-- What Linux takes as the name of an interface. -/
def ValidInterfaceName (name : String) : Prop :=
  name ≠ "" ∧ (name.toList.map Char.utf8Size).sum < 16 ∧ name ≠ "." ∧ name ≠ ".." ∧
    ∀ c ∈ name.toList, c ≠ '/' ∧ c ≠ ':' ∧ c.isWhitespace = false

/-- The empty mode is the one that was never set: off. -/
def splitModes : List String := ["","off","exclude","include"]

/-- The daemon runs, with values every part of it can use. -/
structure Runs (c : Config) : Prop where
  starts : (initPool c).isSome = true
  tun : ValidInterfaceName c.rest.tunName
  dns : c.rest.dnsServers ≠ [] ∧ ∀ s ∈ c.rest.dnsServers, (parseIP s).isSome = true
  split : c.splitTunnelMode ∈ splitModes
  autoconnect : c.rest.autoconnectMode = "proxy" ∨ c.rest.autoconnectMode = "tun"
  test : 1 ≤ c.rest.testConfig.concurrency.toInt ∧ 1 ≤ c.rest.testConfig.timeoutSeconds.toInt ∧
    1 ≤ c.rest.testConfig.samplesPerTest.toInt
  ports : c.rest.testPortRange.start < c.rest.testPortRange.finish ∧
    ∀ port : ℤ, c.rest.testPortRange.start.toInt ≤ port →
      port < c.rest.testPortRange.finish.toInt → 1 ≤ port ∧ port ≤ 65535

/-- The ends of the range that the values of its member name. -/
def startSaid (vs : List Value) : Int64 := said int64 (portRange.inner .start vs) 3095

def finishSaid (vs : List Value) : Int64 := said int64 (portRange.inner .finish vs) 30120

def modeSaid (vs : List Value) : String :=
  said StructDecoding.text (splitTunnelConfig.inner () vs) ""

/-- The values of the member for the range, and of that for the split tunnel,
name a range of ports and a known mode. -/
def Proper (ranges splits : List Value) : Prop :=
  1 ≤ (startSaid ranges).toInt ∧ (startSaid ranges).toInt < (finishSaid ranges).toInt ∧
    (finishSaid ranges).toInt ≤ 65536 ∧ modeSaid splits ∈ splitModes

/-- A document that is decoded as it is. -/
def ProperDocument (v : Value) : Prop :=
  Proper (appConfig.taken .testPortRange v.asMap) (appConfig.taken .splitTunnel v.asMap)

variable {β : Type} (T : JsonText β) (version : String)

/-- The backup that replaces a file that is no object. -/
def ProperBackup (a : Answer) (s : State β Settings) : Prop :=
  ∀ data c v, readUsableBackup (format T version) a s = some (data,c) →
    a.writable .config = true → T.json data = some v → ProperDocument v

/-- The members that count say what can be used: those the decoder takes, or in
a file with invalid values those of the exact name. -/
def ProperFiles (a : Answer) (s : State β Settings) : Prop :=
  ∀ data, s.files .config = some data → a.readable .config = true →
    match T.json data with
    | some v =>
      if appConfig.decode.accepts v then ProperDocument v
      else match v with
        | .obj ms => Proper (exactly .testPortRange ms) (exactly .splitTunnel ms)
        | _ => ProperBackup T version a s
    | none => ProperBackup T version a s

end Specification

section Checks

variable {name mode endpoint : String}

theorem isTunChar_plain {c : Char} (h : isTunChar c = true) :
    c ≠ '/' ∧ c ≠ ':' ∧ c.isWhitespace = false := by
  refine ⟨?_,?_,?_⟩
  · rintro rfl
    cases h
  · rintro rfl
    cases h
  · by_contra hspace
    have hlast : ¬c = ' ' → ¬c = '\t' → ¬c = '\r' → c = '\n' := by
      simpa [Char.isWhitespace] using hspace
    have hcases : c = ' ' ∨ c = '\t' ∨ c = '\r' ∨ c = '\n' := by tauto
    rcases hcases with rfl | rfl | rfl | rfl <;> cases h

theorem isTunChar_size {c : Char} (h : isTunChar c = true) : c.utf8Size = 1 := by
  have hval : c.val ≤ 0x7f := by
    by_contra hlarge
    have hrange : 0x7f < c.val := UInt32.not_le.mp hlarge
    change (((decide (c.val ≥ 'A'.val ∧ c.val ≤ 'Z'.val) ||
      (c.val ≥ 'a'.val && c.val ≤ 'z'.val)) ||
      (c.val ≥ '0'.val && c.val ≤ '9'.val)) || c = '_' || c = '-') = true at h
    simp only [Bool.or_eq_true,Bool.and_eq_true,decide_eq_true_eq] at h
    rcases h with ((h | h) | rfl) | rfl
    · rcases h with ⟨-,h⟩ | ⟨-,h⟩
      · exact absurd (UInt32.lt_of_lt_of_le hrange h) (by decide)
      · exact absurd (UInt32.lt_of_lt_of_le hrange h) (by decide)
    · exact absurd (UInt32.lt_of_lt_of_le hrange h.2) (by decide)
    · exact absurd hrange (by decide)
    · exact absurd hrange (by decide)
  rw [Char.utf8Size]
  exact if_pos hval

theorem valid_of_matches (h : matchesTunName name = true) : ValidInterfaceName name := by
  unfold matchesTunName at h
  cases hname : name.toList with
  | nil =>
    rw [hname] at h
    cases h
  | cons c rest =>
    rw [hname] at h
    simp only [Bool.and_eq_true,decide_eq_true_eq] at h
    obtain ⟨⟨hc,hlen⟩,hrest⟩ := h
    have hfirst : isTunChar c = true := by simp [isTunChar,Char.isAlphanum,hc]
    have hall : ∀ d ∈ c::rest, isTunChar d = true :=
      List.forall_mem_cons.mpr ⟨hfirst,List.all_eq_true.mp hrest⟩
    have hsum : ((c::rest).map Char.utf8Size).sum = rest.length + 1 := by
      rw [List.map_congr_left fun d hd => isTunChar_size (hall d hd)]
      simp [add_comm]
    have hdot : ∀ t : List Char, name ≠ String.ofList ('.'::t) := fun t heq => by
      rw [heq,String.toList_ofList] at hname
      obtain ⟨rfl,-⟩ := List.cons.inj hname
      cases hc
    refine ⟨fun heq => ?_,?_,hdot [],hdot ['.'],?_⟩
    · rw [heq] at hname
      cases hname
    · rw [hname,hsum]
      omega
    · rw [hname]
      exact fun d hd => isTunChar_plain (hall d hd)

theorem sanitizeTunName_valid (name : String) : ValidInterfaceName (sanitizeTunName name) := by
  unfold sanitizeTunName
  split
  · exact valid_of_matches (by decide)
  · rename_i h
    exact valid_of_matches (Bool.eq_true_of_not_eq_false (not_or.mp h).2)

theorem sanitizeAutoconnectMode_known (mode : String) :
    sanitizeAutoconnectMode mode = "proxy" ∨ sanitizeAutoconnectMode mode = "tun" := by
  unfold sanitizeAutoconnectMode
  split
  · exact .inl rfl
  · tauto

theorem sanitizeDnsServers_usable (servers : List String) :
    ∀ s ∈ sanitizeDnsServers servers, (parseIP s).isSome = true := by
  unfold sanitizeDnsServers
  dsimp only
  split
  · exact List.all_eq_true.mp (by decide)
  · exact fun s hs => (List.mem_filter.mp hs).2

theorem sanitizeTestConfig_positive {current : TestConfig} (cfg : TestConfig)
    (h : 1 ≤ current.concurrency.toInt ∧ 1 ≤ current.timeoutSeconds.toInt ∧
      1 ≤ current.samplesPerTest.toInt) :
    1 ≤ (sanitizeTestConfig current cfg).concurrency.toInt ∧
      1 ≤ (sanitizeTestConfig current cfg).timeoutSeconds.toInt ∧
      1 ≤ (sanitizeTestConfig current cfg).samplesPerTest.toInt := by
  obtain ⟨hc,ht,hs⟩ := h
  unfold sanitizeTestConfig
  refine ⟨?_,?_,?_⟩ <;> dsimp only <;> split <;> omega

end Checks

section Loading

variable {β : Type} (T : JsonText β) (version : String)

/-- The range and the mode as they are in a configuration. -/
def ProperConfig (c : Config) : Prop :=
  1 ≤ c.rest.testPortRange.start.toInt ∧
    c.rest.testPortRange.start.toInt < c.rest.testPortRange.finish.toInt ∧
    c.rest.testPortRange.finish.toInt ≤ 65536 ∧ c.splitTunnelMode ∈ splitModes

theorem isSome_createPortPool (lo hi : ℤ) :
    (createPortPool lo hi).isSome = true ↔ 0 ≤ lo ∧ lo < hi := by
  unfold createPortPool
  split <;> simp_all

theorem tests_positive :
    1 ≤ (16 : Int64).toInt ∧ 1 ≤ (5 : Int64).toInt ∧ 1 ≤ (3 : Int64).toInt := by decide

/-- The checks see to everything but the range and the mode. -/
theorem runs_normalised (a : Answer) (c : Config) :
    Runs (normalised (format T version) a (configOf (defaultConfig version)) c) ↔
      ProperConfig c := by
  constructor
  · intro h
    have hlt : c.rest.testPortRange.start.toInt < c.rest.testPortRange.finish.toInt :=
      ((isSome_createPortPool _ _).mp h.starts).2
    have hports : ∀ port : ℤ, c.rest.testPortRange.start.toInt ≤ port →
        port < c.rest.testPortRange.finish.toInt → 1 ≤ port ∧ port ≤ 65535 := h.ports.2
    have hfirst := hports _ le_rfl hlt
    have hlast := hports (c.rest.testPortRange.finish.toInt - 1) (by omega) (by omega)
    exact ⟨hfirst.1,hlt,by omega,h.split⟩
  · rintro ⟨hstart,hlt,hfinish,hmode⟩
    refine ⟨(isSome_createPortPool _ _).mpr ⟨?_,hlt⟩,sanitizeTunName_valid _,
      ⟨sanitizeDnsServers_ne_nil _,sanitizeDnsServers_usable _⟩,hmode,
      sanitizeAutoconnectMode_known _,sanitizeTestConfig_positive _ tests_positive,
      Int64.lt_iff_toInt_lt.mpr hlt,fun port hlo hhi => ⟨?_,?_⟩⟩
    · change 0 ≤ c.rest.testPortRange.start.toInt
      omega
    · change c.rest.testPortRange.start.toInt ≤ port at hlo
      omega
    · change port < c.rest.testPortRange.finish.toInt at hhi
      omega

theorem proper_default : ProperConfig (configOf (defaultConfig version)) := by
  have hrange : 1 ≤ (3095 : Int64).toInt ∧ (3095 : Int64).toInt < (30120 : Int64).toInt ∧
      (30120 : Int64).toInt ≤ 65536 := by decide
  exact ⟨hrange.1,hrange.2.1,hrange.2.2,List.mem_cons_self⟩

theorem ports_said (vs : List Value) :
    (portRange.decode.inTurn vs (defaultConfig version).testPortRange).start = startSaid vs ∧
      (portRange.decode.inTurn vs (defaultConfig version).testPortRange).finish =
        finishSaid vs :=
  ⟨(portRange.get_inTurn vs _ .start).trans (inTurn_scalar _ _ _),
    (portRange.get_inTurn vs _ .finish).trans (inTurn_scalar _ _ _)⟩

theorem mode_said (vs : List Value) :
    (splitTunnelConfig.decode.inTurn vs (defaultConfig version).splitTunnel).mode = modeSaid vs :=
  (splitTunnelConfig.get_inTurn vs _ ()).trans (inTurn_scalar _ _ _)

theorem proper_iff {c : ConfigFile.AppConfig} {ranges splits : List Value}
    (hports : c.testPortRange =
      portRange.decode.inTurn ranges (defaultConfig version).testPortRange)
    (hsplit : c.splitTunnel =
      splitTunnelConfig.decode.inTurn splits (defaultConfig version).splitTunnel) :
    ProperConfig (configOf c) ↔ Proper ranges splits := by
  obtain ⟨hstart,hfinish⟩ := ports_said version ranges
  rw [ProperConfig,Proper,configOf]
  simp only [hports,hsplit,hstart,hfinish,mode_said]

theorem properDocument_iff (v : Value) :
    ProperConfig (configOf (appConfig.decode.into v (defaultConfig version))) ↔
      ProperDocument v :=
  proper_iff version (appConfig.get_into v _ .testPortRange) (appConfig.get_into v _ .splitTunnel)

theorem properParts_iff (ms : Fields) :
    ProperConfig (configOf (recovered version (membersOf ms))) ↔
      Proper (exactly .testPortRange ms) (exactly .splitTunnel ms) :=
  proper_iff version (field_recovered version (List.Perm.refl _) .testPortRange)
    (field_recovered version (List.Perm.refl _) .splitTunnel)

variable (a : Answer) (s : State β Settings)

/-- A file that is taken as it is. -/
theorem read_valid {data : β} {c : Config}
    (h : (format T version).read data = .valid c) :
    ∃ v, T.json data = some v ∧ c = configOf (appConfig.decode.into v (defaultConfig version)) := by
  change contents (ConfigFile.parseConfig version id (T.json data)) = .valid c at h
  cases hv : T.json data with
  | none =>
    rw [hv] at h
    cases h
  | some v =>
    rw [hv] at h
    by_cases haccepts : appConfig.decode.accepts v = true
    · rw [parseConfig_accepted version id haccepts] at h
      exact ⟨v,rfl,(Contents.valid.inj h).symm⟩
    · cases v with
      | obj ms =>
        rw [parseConfig_object version id haccepts] at h
        cases h
      | null => exact absurd rfl haccepts
      | _ => cases h

theorem properBackup_iff :
    (∀ c t, restoreBackupFile (format T version) a s = some (c,t) →
        ProperConfig c) ↔ ProperBackup T version a s := by
  unfold restoreBackupFile ProperBackup
  constructor
  · intro h data c v hbackup hwritable hv
    rw [hbackup] at h
    have hproper := h c _ (if_pos hwritable)
    obtain ⟨-,-,-,hread,-⟩ := SettingsBackup.readUsableBackup_some _ a hbackup
    obtain ⟨w,hw,rfl⟩ := read_valid T version hread
    obtain rfl := Option.some.inj (hw.symm.trans hv)
    exact (properDocument_iff version w).mp hproper
  · intro h c t hrestored
    split at hrestored
    · rename_i data c' hbackup
      split at hrestored
      · rename_i hwritable
        obtain ⟨rfl,-⟩ := Prod.mk.inj (Option.some.inj hrestored)
        obtain ⟨-,-,-,hread,-⟩ := SettingsBackup.readUsableBackup_some _ a hbackup
        obtain ⟨w,hw,rfl⟩ := read_valid T version hread
        exact (properDocument_iff version w).mpr (h data _ w hbackup hwritable hw)
      · cases hrestored
    · cases hrestored

/-- A file that is no object is replaced by a backup or by the defaults. -/
theorem proper_garbage {data : β}
    (hgarbage : (format T version).read data = .garbage) :
    ProperConfig (SettingsBackup.parseConfig (format T version) a data s).1 ↔
      ProperBackup T version a s := by
  rw [← properBackup_iff,SettingsBackup.parseConfig,hgarbage]
  cases hrestored : restoreBackupFile (format T version) a s with
  | none => exact iff_of_true (proper_default version) fun c t h => by cases h
  | some r =>
    obtain ⟨c,t⟩ := r
    refine ⟨fun h c' t' heq => ?_,fun h => h c t rfl⟩
    obtain ⟨rfl,-⟩ := Prod.mk.inj (Option.some.inj heq)
    exact h

theorem properFiles_iff :
    ProperConfig (readConfig (format T version) a s).1 ↔
      ProperFiles T version a s := by
  unfold readConfig ProperFiles
  cases hdata : s.files .config with
  | none => exact iff_of_true (proper_default version) fun _ h => by cases h
  | some data =>
    by_cases hreadable : a.readable .config = true
    · simp only [hreadable,if_true]
      have hread : (format T version).read data =
        contents (ConfigFile.parseConfig version id (T.json data)) := rfl
      simp only [Option.some.injEq,forall_eq',forall_const]
      cases hv : T.json data with
      | none =>
        rw [hv] at hread
        exact proper_garbage T version a s hread
      | some v =>
        rw [hv] at hread
        dsimp only
        by_cases haccepts : appConfig.decode.accepts v = true
        · rw [parseConfig_accepted version id haccepts] at hread
          rw [SettingsBackup.parseConfig,hread,if_pos haccepts]
          exact properDocument_iff version v
        · rw [if_neg haccepts]
          cases v with
          | obj ms =>
            rw [parseConfig_object version id haccepts] at hread
            rw [SettingsBackup.parseConfig,hread]
            exact properParts_iff version ms
          | null => exact absurd rfl haccepts
          | _ => exact proper_garbage T version a s hread
    · simp only [hreadable]
      refine iff_of_true (proper_default version) fun d _ h => ?_
      cases h

variable [DecidableEq β]

/-- A start ends in a running daemon with values all its parts can use, just
when the members in force name a range of ports and a known mode. -/
theorem runs_iff (files : SettingsBackup.Path → Option β) :
    Runs (LoadConfig (format T version) a (fresh version files)).config ↔
      ProperFiles T version a (fresh version files) := by
  rw [SettingsBackup.loadConfig_config,← properFiles_iff]
  exact runs_normalised T version a _

/-- Texts as their documents. -/
def documents : JsonText (Option Value) := ⟨id,some,fun _ => rfl⟩

/-- A file without backups. -/
def alone (ms : Fields) : SettingsBackup.Path → Option (Option Value)
  | .config => some (some (.obj ms))
  | _ => none

def able : Answer := ⟨fun _ => true,fun _ => true,"0123456789abcdef",0⟩

/-- An empty range, and a mode nobody knows. -/
def emptyRange : Fields := [("test-port-range",.obj [("start",.int 5000),("end",.int 5000)])]

def strangeMode : Fields := [("split-tunnel",.obj [("mode",.str "all")])]

open Classical in
theorem runs_fails :
    ¬Runs (LoadConfig (format documents "1") able (fresh "1" (alone emptyRange))).config ∧
      ¬Runs (LoadConfig (format documents "1") able (fresh "1" (alone strangeMode))).config := by
  rw [SettingsBackup.loadConfig_config,SettingsBackup.loadConfig_config]
  refine ⟨fun h => ?_,fun h => ?_⟩
  · have hlt : (5000 : Int64) < 5000 := h.ports.1
    revert hlt
    decide
  · have hmode : "all" ∈ splitModes := h.split
    revert hmode
    decide

end Loading

end Whoisthat.ConfigStart
