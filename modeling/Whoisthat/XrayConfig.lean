import Whoisthat.Json
import Whoisthat.RoutingResolution

/-!
# The configuration of a share-link profile

The configuration starts from the outbound of the link and our inbounds, then
receives the statistics switches and the selected routing with its DNS
section. A configuration is the object `json.Marshal` wrote in the step before,
so decoding it again never fails.
-/

set_option autoImplicit false

namespace Whoisthat.XrayConfig
open Whoisthat.Records Whoisthat.RoutingResolution Whoisthat.Json

/-- What the builders take from the settings and from the libraries. -/
structure Env where
  dnsServers : List String
  splitTunnelMode : String
  /-- `strings.ToLower` -/
  lower : String → String
  /-- `url.Parse` and `Hostname`, empty when either gives nothing. -/
  hostname : String → String

def member (present : Bool) (name : String) (value : Value) : Fields :=
  if present then [(name,value)] else []

def splitComma (s : String) : List String := (s.toList.splitOn ',').map String.ofList

def splitAndTrim (s : String) : List String := ((splitComma s).map trimSpace).filter (· ≠ "")

section Inbounds

def sniffingSettings (routeOnly : Bool) : Value :=
  .obj [("enabled",.bool true),("destOverride",.strs ["http","tls"]),("metadataOnly",.bool false),
    ("routeOnly",.bool routeOnly)]

/-- `uint16` of a positive port -/
def portOf (port : ℤ) : ℤ := port % 65536

/-- `json.Marshal` leaves a zero port out. -/
def generateSocksInbound (port : ℤ) : Fields :=
  [("listen",.str "127.0.0.1")] ++ member (portOf port ≠ 0) "port" (.int (portOf port)) ++
    [("protocol",.str "socks"),("tag",.str "socks-in"),("settings",.obj [("udp",.bool true)]),
      ("sniffing",sniffingSettings true)]

def generateHTTPInbound (port : ℤ) : Fields :=
  [("listen",.str "127.0.0.1")] ++ member (portOf port ≠ 0) "port" (.int (portOf port)) ++
    [("protocol",.str "http"),("tag",.str "http-in"),("sniffing",sniffingSettings true)]

def generateTunInbound (tunName : String) (mtu : ℤ) : Fields :=
  [("protocol",.str "tun"),("tag",.str "tun-in"),
    ("settings",.obj [("name",.str tunName),("MTU",.int (if mtu ≤ 0 then 1400 else mtu))]),
    ("sniffing",sniffingSettings false)]

def generateInboundConfig (socksPort httpPort : ℤ) : List Fields :=
  (if socksPort > 0 then [generateSocksInbound socksPort] else []) ++
    (if httpPort > 0 then [generateHTTPInbound httpPort] else [])

def generateInboundConfigWithTun (socksPort httpPort : ℤ) (tunName : String) : List Fields :=
  generateInboundConfig socksPort httpPort ++
    (if tunName ≠ "" then [generateTunInbound tunName 1400] else [])

/-- `createOutboundObject` of the link is a parameter, `none` for its errors. -/
def parseUriWithTun (createOutboundObject : String → Option Fields) (uri : String)
    (socksPort httpPort : ℤ) (tunName : String) : Option Fields :=
  (createOutboundObject uri).map fun outbound =>
    [("outbounds",.arr [.obj outbound]),
      ("inbounds",.arr ((generateInboundConfigWithTun socksPort httpPort tunName).map .obj))]

end Inbounds

section Stats

def apiService : Value := .obj [("tag",.str "api"),("services",.strs ["StatsService"])]

def apiInbound (apiPort : ℤ) : Value :=
  .obj [("tag",.str "api"),("listen",.str "127.0.0.1"),("port",.int apiPort),
    ("protocol",.str "dokodemo-door"),("settings",.obj [("address",.str "127.0.0.1")])]

/-- Only the two switches of the policy are ours. -/
def statsPolicy (policy : Fields) : Fields :=
  let system := (policy.index "system").asMap
  let system := Fields.put system "statsOutboundUplink" (.bool true)
  let system := Fields.put system "statsOutboundDownlink" (.bool true)
  policy.put "system" (.obj system)

def injectStatsConfig (config : Fields) (apiPort : ℤ) : Fields :=
  let config := Fields.put config "stats" (.obj [])
  let config := Fields.put config "policy" (.obj (statsPolicy (config.index "policy").asMap))
  if apiPort > 0 then
    let config := Fields.put config "api" apiService
    config.put "inbounds" (.arr ((config.index "inbounds").asSlice ++ [apiInbound apiPort]))
  else config

end Stats

section Rules

def apiRule : Value :=
  .obj [("type",.str "field"),("outboundTag",.str "api"),("inboundTag",.strs ["api"])]

def dnsCaptureRule : Value :=
  .obj [("type",.str "field"),("inboundTag",.strs ["tun-in"]),("port",.str "53"),
    ("network",.str "tcp,udp"),("outboundTag",.str "dns-out")]

def inboundRule (inboundTag outboundTag : String) : Value :=
  .obj [("type",.str "field"),("inboundTag",.strs [inboundTag]),("outboundTag",.str outboundTag)]

def legacyDNSRule : Value :=
  .obj [("type",.str "field"),("port",.str "53"),("network",.str "udp"),("outboundTag",.str "proxy")]

def userRule (r : RoutingRule) : Value :=
  .obj ([("type",.str r.type),("outboundTag",.str r.outboundTag)] ++
    member (r.domain ≠ "") "domain" (.arrOrNull ((splitAndTrim r.domain).map .str)) ++
    member (r.ip ≠ "") "ip" (.arrOrNull ((splitAndTrim r.ip).map .str)) ++
    member (r.protocol ≠ "") "protocol" (.strs [r.protocol]) ++
    member (r.port ≠ "") "port" (.str r.port) ++
    member (r.network ≠ "") "network" (.str r.network))

def buildUserRules (configured : List RoutingRule) : List Value :=
  (configured.filter (·.enabled)).map userRule

end Rules

section Dns

variable (env : Env)

def dnsServerAddress (kind domain ip : String) : String :=
  if kind = "DoH" then domain
  else if kind = "DoU" then ip
  else if domain ≠ "" then domain
  else ip

def dnsServer (tag address : String) (domains : List String) (skipFallback : Bool) : Fields :=
  [("address",.str address),("tag",.str tag)] ++
    member (domains ≠ []) "domains" (.strs domains) ++
    member (domains ≠ []) "skipFallback" (.bool skipFallback)

def fallbackDNSServers : List Fields := env.dnsServers.map fun address => [("address",.str address)]

def hasFallbackServer (servers : List Fields) : Bool := servers.any fun s => !s.has "domains"

def addDNSHost (hosts : Fields) (domain : String) (ips : List String) : Fields :=
  let domain := trimSpace domain
  if domain = "" ∨ hosts.has domain then hosts
  else match (ips.map trimSpace).filter (· ≠ "") with
    | [] => hosts
    | [ip] => hosts.put domain (.str ip)
    | values => hosts.put domain (.strs values)

def hostFromDNSAddress (address : String) : String :=
  let address := trimSpace address
  if address = "" then ""
  else if env.hostname address ≠ "" then env.hostname address
  else address

def buildDNSHosts (cfg : HappDNSConfig) (bootstrap : List (String × List String)) : Fields :=
  let hosts := cfg.hosts.foldl (fun hosts e => addDNSHost hosts e.1 [e.2]) []
  let hosts := if cfg.remoteDNSDomain ≠ "" ∧ cfg.remoteDNSIP ≠ "" then
      addDNSHost hosts (hostFromDNSAddress env cfg.remoteDNSDomain) [cfg.remoteDNSIP]
    else hosts
  let hosts := if cfg.domesticDNSDomain ≠ "" ∧ cfg.domesticDNSIP ≠ "" then
      addDNSHost hosts (hostFromDNSAddress env cfg.domesticDNSDomain) [cfg.domesticDNSIP]
    else hosts
  bootstrap.foldl (fun hosts e => addDNSHost hosts e.1 e.2) hosts

/-- The first spelling of every domain of the enabled rules for one outbound. -/
def domainsForOutbound (rules : List RoutingRule) (outboundTag : String) : List String :=
  let candidates := rules.filter fun r =>
    r.enabled && r.outboundTag = outboundTag && trimSpace r.domain ≠ ""
  (candidates.flatMap fun r => splitAndTrim r.domain).foldl (fun domains domain =>
    if domains.any (fun d => env.lower d = env.lower domain) then domains
    else domains ++ [domain]) []

structure TaggedServers where
  servers : List Fields
  hasDomestic : Bool
  hasRemote : Bool

/-- With `globalProxy` the remote server is the fallback and the domestic one
serves direct domains; without it the roles are exchanged. -/
def taggedServers (globalProxy : Bool) (domesticAddr remoteAddr : String)
    (directDomains proxyDomains : List String) : TaggedServers :=
  if globalProxy then
    let domestic : Bool := domesticAddr ≠ "" && directDomains ≠ []
    let remote : Bool := remoteAddr ≠ ""
    { servers :=
        (if domestic then [dnsServer "domestic-dns" domesticAddr directDomains true] else []) ++
        (if remote then [dnsServer "remote-dns" remoteAddr [] false] else [])
      hasDomestic := domestic
      hasRemote := remote }
  else
    let domestic : Bool := domesticAddr ≠ ""
    let fallback : Bool := remoteAddr ≠ "" && domesticAddr = ""
    let remote : Bool := remoteAddr ≠ "" && domesticAddr ≠ "" && proxyDomains ≠ []
    { servers :=
        (if domestic then [dnsServer "domestic-dns" domesticAddr [] false] else []) ++
        (if fallback then [dnsServer "remote-dns" remoteAddr [] false] else []) ++
        (if remote then [dnsServer "remote-dns" remoteAddr proxyDomains true] else [])
      hasDomestic := domestic
      hasRemote := fallback || remote }

def happServers (selection : RoutingSelection) (cfg : HappDNSConfig) : TaggedServers :=
  taggedServers selection.globalProxy
    (dnsServerAddress cfg.domesticDNSType cfg.domesticDNSDomain cfg.domesticDNSIP)
    (dnsServerAddress cfg.remoteDNSType cfg.remoteDNSDomain cfg.remoteDNSIP)
    (domainsForOutbound env selection.config.rules "direct")
    (domainsForOutbound env selection.config.rules "proxy")

def buildHappDNSSection (selection : RoutingSelection) (cfg : HappDNSConfig) (fakeDNS : Bool) :
    Fields :=
  let tagged := (happServers env selection cfg).servers
  let servers := if hasFallbackServer tagged then tagged else tagged ++ fallbackDNSServers env
  let servers := if fakeDNS then [("address",.str "fakedns"),("tag",.str "fakedns")]::servers
    else servers
  let hosts := buildDNSHosts env cfg selection.bootstrapHosts
  [("servers",.arr (servers.map .obj))] ++ member (!hosts.isEmpty) "hosts" (.obj hosts)

/-- Fake addresses are only handed out inside the tunnel, when everything that
is not matched goes to the proxy. -/
def fakeDNSActive (selection : RoutingSelection) (tunActive : Bool) : Bool :=
  match selection.config.dns with
  | none => false
  | some cfg => tunActive && selection.source = "happ" && cfg.fakeDNSEnabled &&
      selection.globalProxy && env.splitTunnelMode ≠ "include"

def fakeDNSPools : Value :=
  .arr [.obj [("ipPool",.str "198.19.0.0/16"),("poolSize",.int 32768)],
    .obj [("ipPool",.str "fc00::/18"),("poolSize",.int 32768)]]

end Dns

section Routing

variable (env : Env)

def isStr (value : Value) (s : String) : Bool :=
  match value with
  | .str t => t = s
  | _ => false

def addDestOverride (sniffing : Fields) (value : String) : Fields :=
  let overrides := (sniffing.index "destOverride").asSlice
  if overrides.any (isStr · value) then sniffing
  else sniffing.put "destOverride" (.arr (overrides ++ [.str value]))

/-- Sniffed names replace the destination, so that domain rules apply. -/
def sniffInbound (fakeDNS : Bool) : Value → Value
  | .obj inbound =>
    match Fields.index inbound "sniffing" with
    | .obj sniffing =>
      let sniffing := Fields.put sniffing "routeOnly" (.bool false)
      let sniffing := if fakeDNS && isStr (Fields.index inbound "tag") "tun-in" then
        addDestOverride sniffing "fakedns" else sniffing
      .obj (Fields.put inbound "sniffing" (.obj sniffing))
    | _ => .obj inbound
  | other => other

def isUnset : Value → Bool
  | .null => true
  | .str s => s = ""
  | _ => false

/-- The outbound of the link is the target of `proxy` rules. -/
def tagProxy : List Value → List Value
  | .obj outbound::rest =>
    .obj (if isUnset (Fields.index outbound "tag") then Fields.put outbound "tag" (.str "proxy")
      else outbound)::rest
  | outbounds => outbounds

def directOutbound : Value :=
  .obj [("tag",.str "direct"),("protocol",.str "freedom"),
    ("settings",.obj [("domainStrategy",.str "UseIP")]),
    ("streamSettings",.obj [("sockopt",.obj [("mark",.int 1)])])]

def blockOutbound : Value :=
  .obj [("tag",.str "block"),("protocol",.str "blackhole"),("settings",.obj [])]

def dnsOutbound : Value :=
  .obj [("tag",.str "dns-out"),("protocol",.str "dns"),("settings",.obj [])]

def outboundTagExists (outbounds : List Value) (tag : String) : Bool :=
  outbounds.any fun raw => isStr (Fields.index raw.asMap "tag") tag

def routingOutbounds (dnsOut : Bool) (outbounds : List Value) : List Value :=
  let outbounds := tagProxy outbounds ++ [directOutbound,blockOutbound]
  if dnsOut && !outboundTagExists outbounds "dns-out" then outbounds ++ [dnsOutbound] else outbounds

/-- The DNS settings of a Happ selection; a manual one has none. -/
def happDNS (selection : RoutingSelection) : Option HappDNSConfig :=
  if selection.source = "happ" then selection.config.dns else none

def structuralRules (selection : RoutingSelection) (tunActive hasAPI : Bool) : List Value :=
  match happDNS selection with
  | some cfg =>
    (if hasAPI then [apiRule] else []) ++
    (if tunActive then [dnsCaptureRule] else []) ++
    (if (happServers env selection cfg).hasDomestic then [inboundRule "domestic-dns" "direct"]
      else []) ++
    (if (happServers env selection cfg).hasRemote then [inboundRule "remote-dns" "proxy"] else [])
  | none => [legacyDNSRule] ++ (if hasAPI then [apiRule] else [])

def injectDNS (selection : RoutingSelection) (tunActive : Bool) (config : Fields) : Fields :=
  let fakeDNS := fakeDNSActive env selection tunActive
  match happDNS selection with
  | some cfg =>
    let config := config.put "dns" (.obj (buildHappDNSSection env selection cfg fakeDNS))
    if fakeDNS then config.put "fakedns" fakeDNSPools else config
  | none =>
    if config.has "dns" then config
    else config.put "dns" (.obj [("servers",.arr ((fallbackDNSServers env).map .obj))])

/-- Rules on addresses need real ones, which `AsIs` never asks for. -/
def domainStrategy (selection : RoutingSelection) (fakeDNS : Bool) : String :=
  let strategy := if selection.config.domainStrategy = "" then "IPIfNonMatch"
    else selection.config.domainStrategy
  if fakeDNS && strategy = "AsIs" then "IPIfNonMatch" else strategy

def routingSection (selection : RoutingSelection) (tunActive hasAPI : Bool) : Value :=
  .obj [("domainStrategy",.str (domainStrategy selection (fakeDNSActive env selection tunActive))),
    ("rules",.arrOrNull (structuralRules env selection tunActive hasAPI ++
      buildUserRules selection.config.rules))]

def injectRoutingConfig (config : Fields) (selection : RoutingSelection) (tunActive : Bool) :
    Fields :=
  let fakeDNS := fakeDNSActive env selection tunActive
  let hasAPI := config.has "api"
  let config := injectDNS env selection tunActive config
  let config := Fields.put config "routing" (routingSection env selection tunActive hasAPI)
  let config := match config.index "inbounds" with
    | .arr inbounds => Fields.put config "inbounds" (.arr (inbounds.map (sniffInbound fakeDNS)))
    | _ => config
  match config.index "outbounds" with
  | .arr outbounds => Fields.put config "outbounds"
      (.arr (routingOutbounds ((happDNS selection).isSome && tunActive) outbounds))
  | _ => config

end Routing

end Whoisthat.XrayConfig
