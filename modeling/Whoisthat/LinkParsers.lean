import Mathlib.Data.Rat.Floor
import Whoisthat.Base64
import Whoisthat.LinkText

/-!
# The parsers of share links

Six formats of links become one outbound each. All but the base64 form of vmess
are a text with credentials before the first at sign, an address behind it, a
query and a name. JSON decoding is a parameter, and so is what becomes of a
number that does not fit the type of a port. User levels are always zero and
left out.
-/

set_option autoImplicit false

namespace Whoisthat.LinkParsers
open Whoisthat.Utf8 (Bytes)
open Whoisthat.Delimiters
open Whoisthat.HappLinks (ascii)
open Whoisthat.LinkText

section Data

/-- A decoded JSON value; a number is that of its double. -/
inductive Item where
  | null
  | bool (b : Bool)
  | num (q : ℚ)
  | str (s : Bytes)
  | arr (items : List Item)
  | obj (members : List (Bytes × Item))

abbrev Members := List (Bytes × Item)

/-- `json.Unmarshal` into an empty interface and into a map that may hold
members already, and the conversion of a float64 that does not fit. -/
structure Library where
  unmarshal : Bytes → Option Item
  unmarshalMap : Bytes → Members → Members × Bool
  wrap : ℚ → UInt16

structure RawData where
  remarks : Bytes := []
  security : Option Bytes := none
  vnextSecurity : Option Bytes := none
  sni : Option Bytes := none
  fp : Option Bytes := none
  pbk : Option Bytes := none
  sid : Option Bytes := none
  type : Option Bytes := none
  flow : Option Bytes := none
  path : Option Bytes := none
  encryption : Option Bytes := none
  headerType : Option Bytes := none
  host : Option Bytes := none
  seed : Option Bytes := none
  quicSecurity : Option Bytes := none
  key : Option Bytes := none
  mode : Option Bytes := none
  serviceName : Option Bytes := none
  authority : Option Bytes := none
  slpn : Option Bytes := none
  spx : Option Bytes := none
  alpn : Option Bytes := none
  extra : Option Bytes := none
  allowInsecure : Option Bytes := none
  uuid : Option Bytes := none
  address : Option Bytes := none
  port : Option UInt16 := none
  serverMethod : Option Bytes := none
  username : Option Bytes := none
  obfs : Option Bytes := none
  obfsPassword : Option Bytes := none
  up : Option Bytes := none
  down : Option Bytes := none
  ports : Option Bytes := none
  fm : Option Bytes := none

/-- The outbound settings of each protocol, all with one server. -/
inductive Settings where
  | vless (address : Option Bytes) (port : Option UInt16) (id encryption flow : Option Bytes)
  | vmess (address : Option Bytes) (port : Option UInt16) (id security : Option Bytes)
  | trojan (address : Option Bytes) (port : Option UInt16) (password : Option Bytes)
  | shadowsocks (address : Option Bytes) (port : Option UInt16) (password method : Option Bytes)
  | socks (address : Option Bytes) (port : Option UInt16)
      (users : List (Option Bytes × Option Bytes))
  | hysteria (version : ℕ) (address : Option Bytes) (port : Option UInt16)

def Settings.address : Settings → Option Bytes
  | .vless a .. | .vmess a .. | .trojan a .. | .shadowsocks a .. | .socks a .. | .hysteria _ a _ => a

def Settings.port : Settings → Option UInt16
  | .vless _ p .. | .vmess _ p .. | .trojan _ p .. | .shadowsocks _ p .. | .socks _ p _
  | .hysteria _ _ p => p

structure TLSSettings where
  alpn : List Bytes
  allowInsecure : Bool
  fingerprint : Option Bytes
  serverName : Option Bytes

structure RealitySettings where
  publicKey : Option Bytes
  serverName : Option Bytes
  shortId : Option Bytes
  spiderX : Option Bytes
  fingerprint : Option Bytes

structure HostPath where
  host : Option Bytes
  path : Option Bytes

structure GRPCSettings where
  authority : Option Bytes
  multiMode : Bool
  serviceName : Option Bytes

structure QuicSettings where
  headerType : Bytes
  security : Bytes
  key : Bytes

structure XHTTPSettings where
  host : Option Bytes
  path : Option Bytes
  mode : Option Bytes
  extra : Option Item

structure HysteriaSettings where
  version : ℕ
  auth : Bytes
  udpIdleTimeout : ℕ

structure QuicParams where
  brutalUp : Option Bytes
  brutalDown : Option Bytes

structure Finalmask where
  quicParams : Option QuicParams
  udp : List Item

structure StreamSettings where
  network : Bytes
  security : Option Bytes
  tlsSettings : Option TLSSettings := none
  realitySettings : Option RealitySettings := none
  wsSettings : Option HostPath := none
  tcpHeaderType : Option Bytes := none
  grpcSettings : Option GRPCSettings := none
  quicSettings : Option QuicSettings := none
  kcpSeed : Option (Option Bytes) := none
  xhttpSettings : Option XHTTPSettings := none
  httpUpgradeSettings : Option HostPath := none
  hysteriaSettings : Option HysteriaSettings := none
  finalmask : Option Finalmask := none

structure Outbound where
  protocol : Bytes
  tag : Bytes
  settings : Settings
  streamSettings : StreamSettings

end Data

section Parsers

/-- The parts of a link behind its scheme. -/
structure Parts where
  user : Bytes
  hostPort : Bytes
  query : Bytes
  name : Bytes

def splitLink (data : Bytes) : Result Parts := do
  let (rest,name,_) ← splitOnce data [hash]
  let (rawAddr,rawQuery,_) ← splitOnce rest [question]
  let (user,rawHostPort,ok) ← splitOnce rawAddr [atSign]
  if ok then return ⟨user,rawHostPort,rawQuery,name⟩ else .error .refused

/-- The fields that most parsers take from the query. -/
def queryData (q : Query) : RawData where
  alpn := (getQueryParam q ["alpn"]).map urlDecode
  path := (getQueryParam q ["path"]).map urlDecode
  authority := (getQueryParam q ["authority"]).map urlDecode
  pbk := (getQueryParam q ["pbk"]).map urlDecode
  security := getQueryParam q ["security"]
  sid := (getQueryParam q ["sid"]).map urlDecode
  flow := getQueryParam q ["flow"]
  sni := getQueryParam q ["sni"]
  fp := (getQueryParam q ["fp"]).map urlDecode
  type := getQueryParam q ["type"]
  encryption := getQueryParam q ["encryption"]
  headerType := getQueryParam q ["headerType"]
  host := (getQueryParam q ["host"]).map urlDecode
  seed := (getQueryParam q ["seed"]).map urlDecode
  quicSecurity := getQueryParam q ["quicSecurity"]
  key := getQueryParam q ["key"]
  mode := (getQueryParam q ["mode"]).map urlDecode
  serviceName := (getQueryParam q ["serviceName"]).map urlDecode
  slpn := getQueryParam q ["slpn"]
  spx := (getQueryParam q ["spx"]).map urlDecode
  extra := (getQueryParam q ["extra"]).map urlDecode
  allowInsecure := getQueryParam q ["allowInsecure"]

/-- The links of vless, trojan and the plain form of vmess. -/
def parseAddressed (data : Bytes) : Result (Query × RawData) := do
  let parts ← splitLink data
  let (host,port) ← parseHostPort parts.hostPort
  let query ← parseQuery parts.query
  return (query,{ queryData query with
    remarks := urlDecode parts.name
    uuid := some (urlDecode parts.user)
    address := some host
    port := some port })

def orElseDefault (value : Option Bytes) (default : String) : Bytes :=
  (value.filter fun v => v ≠ []).getD (ascii default)

def parseVless (uri : Bytes) : Result (RawData × Settings) :=
  if (ascii "vless://").isPrefixOf uri then do
    let (_,rd) ← parseAddressed (trimPrefix (ascii "vless://") uri)
    return (rd,.vless rd.address rd.port rd.uuid (some (orElseDefault rd.encryption "none")) rd.flow)
  else .error .refused

def parseTrojan (uri : Bytes) : Result (RawData × Settings) :=
  if (ascii "trojan://").isPrefixOf uri then do
    let (_,rd) ← parseAddressed (trimPrefix (ascii "trojan://") uri)
    return (rd,.trojan rd.address rd.port rd.uuid)
  else .error .refused

/-- The variants of base64 in the order of the source. -/
def encodings : List Base64.Variant := [⟨false,true⟩,⟨true,true⟩,⟨false,false⟩,⟨true,false⟩]

def decodeVmessPayload (data : Bytes) : Option Bytes :=
  [urlDecode data,data].findSome? fun candidate =>
    encodings.findSome? fun enc => Base64.decode enc candidate

/-- A failed first attempt may have filled the map already. -/
def vmessMembers (lib : Library) (decoded : Bytes) : Option Members :=
  let first := lib.unmarshalMap decoded []
  if first.2 then some first.1
  else if urlDecode decoded ≠ decoded then
    let second := lib.unmarshalMap (urlDecode decoded) first.1
    if second.2 then some second.1 else none
  else none

def getString (m : Members) (key : String) : Option Bytes :=
  match m.lookup (ascii key) with
  | some (.str s) => if s ≠ [] then some s else none
  | _ => none

/-- `uint16(val)` -/
def uint16 (lib : Library) (q : ℚ) : UInt16 :=
  let n : ℤ := if 0 ≤ q then ⌊q⌋ else -⌊-q⌋
  if 0 ≤ n ∧ n < 2^16 then UInt16.ofNat n.toNat else lib.wrap q

def vmessPort (lib : Library) (m : Members) : Option UInt16 :=
  match m.lookup (ascii "port") with
  | some (.num q) => some (uint16 lib q)
  | some (.str s) => parseUint s
  | _ => none

def vmessData (lib : Library) (m : Members) : RawData where
  remarks := ((getString m "ps").map urlDecode).getD []
  uuid := getString m "id"
  port := vmessPort lib m
  address := getString m "add"
  alpn := (getString m "alpn").map urlDecode
  path := (getString m "path").map urlDecode
  authority := (getString m "host").map urlDecode
  pbk := (getString m "pbk").map urlDecode
  security := getString m "tls"
  vnextSecurity := getString m "scy"
  sid := (getString m "sid").map urlDecode
  flow := (getString m "flow").map urlDecode
  sni := getString m "sni"
  fp := (getString m "fp").map urlDecode
  type := (getString m "net").map urlDecode
  headerType := (getString m "type").map urlDecode
  host := (getString m "host").map urlDecode
  seed := (getString m "seed").map urlDecode
  mode := (getString m "mode").map urlDecode
  serviceName := (getString m "path").map urlDecode
  slpn := (getString m "slpn").map urlDecode
  spx := (getString m "spx").map urlDecode
  extra := (getString m "extra").map urlDecode

def parseVmessBase64 (lib : Library) (data : Bytes) : Option RawData :=
  (decodeVmessPayload data).bind fun decoded => (vmessMembers lib decoded).map (vmessData lib)

def parseVmessRaw (data : Bytes) : Result RawData := do
  let (query,rd) ← parseAddressed data
  return { rd with
    vnextSecurity := getQueryParam query ["scy"]
    encryption := none
    quicSecurity := none
    key := none }

def createVmessOutboundSettings (rd : RawData) : Settings :=
  .vmess rd.address rd.port rd.uuid (some (orElseDefault rd.vnextSecurity "auto"))

def parseVmess (lib : Library) (uri : Bytes) : Result (RawData × Settings) :=
  if (ascii "vmess://").isPrefixOf uri then
    let data := trimPrefix (ascii "vmess://") uri
    match parseVmessBase64 lib data with
    | some rd => .ok (rd,createVmessOutboundSettings rd)
    | none => do
      let rd ← parseVmessRaw data
      return (rd,createVmessOutboundSettings rd)
  else .error .refused

def decodeShadowsocksUserinfo (userinfo : Bytes) : Option Bytes :=
  encodings.findSome? fun enc => (Base64.decode enc userinfo).filter fun decoded => colon ∈ decoded

def parseShadowsocks (uri : Bytes) : Result (RawData × Settings) :=
  if (ascii "ss://").isPrefixOf uri then do
    let parts ← splitLink (trimPrefix (ascii "ss://") uri)
    let (host,port) ← parseHostPort parts.hostPort
    let userinfo := urlDecode parts.user
    let decodedStr := (decodeShadowsocksUserinfo userinfo).getD userinfo
    let (method,password,ok) ← splitOnce decodedStr [colon]
    if ok then
      let rd : RawData :=
        { remarks := urlDecode parts.name
          serverMethod := some method
          address := some host
          port := some port
          uuid := some password
          type := some (ascii "tcp")
          headerType := some (ascii "none") }
      return (rd,.shadowsocks rd.address rd.port rd.uuid rd.serverMethod)
    else .error .refused
  else .error .refused

/-- The user name and the password of a SOCKS link. -/
def socksCredentials (userinfoRaw : Bytes) : Result (Option Bytes × Option Bytes) := do
  let userinfo := urlDecode userinfoRaw
  let userPassStr := (Base64.decode ⟨false,true⟩ userinfo).getD userinfo
  let (u,p,ok) ← splitOnce userPassStr [colon]
  if ok then return (some (urlDecode u),if p ≠ [] then some (urlDecode p) else none)
  else return (some (urlDecode userPassStr),none)

def parseSocks (uri : Bytes) : Result (RawData × Settings) :=
  match Occurrences.index (ascii "://") uri with
  | none => .error .refused
  | some idx => do
    let data ← slice uri (idx+3) uri.length
    let (rawPart,name,_) ← splitOnce data [hash]
    let (rawURI,_,_) ← splitOnce rawPart [question]
    let (front,behind,ok) ← splitOnce rawURI [atSign]
    let (host,port) ← parseHostPort (if ok then behind else rawURI)
    let (username,password) ← if ok then socksCredentials front else .ok (none,none)
    let rd : RawData :=
      { remarks := urlDecode name
        username := username
        uuid := password
        address := some host
        port := some port
        type := some (ascii "tcp") }
    return (rd,.socks rd.address rd.port
      (if rd.username.isSome ∧ rd.uuid.isSome then [(rd.username,rd.uuid)] else []))

/-- The host of a Hysteria link and its port, 443 unless there is one. -/
def hysteriaAddress (rawHostPort : Bytes) : Result (Bytes × UInt16) :=
  if [opening].isPrefixOf rawHostPort then
    match Occurrences.index [closing] rawHostPort with
    | none => .error .refused
    | some bracketEnd => do
      let host ← slice rawHostPort 1 bracketEnd
      let behind ← slice rawHostPort (bracketEnd+1) rawHostPort.length
      if [colon].isPrefixOf behind then
        let portStr ← slice behind 1 behind.length
        match parseUint portStr with
        | some p => return (host,p)
        | none => .error .refused
      else return (host,443)
  else match lastIndex colon rawHostPort with
    | none => .ok (rawHostPort,443)
    | some lastColon => do
      let portStr ← slice rawHostPort (lastColon+1) rawHostPort.length
      match parseUint portStr with
      | some p => do
        let host ← slice rawHostPort 0 lastColon
        return (host,p)
      | none => return (rawHostPort,443)

def memberMap (m : Members) (key : String) : Option Members :=
  match m.lookup (ascii key) with
  | some (.obj inner) => some inner
  | _ => none

def memberArray (m : Members) (key : String) : Option (List Item) :=
  match m.lookup (ascii key) with
  | some (.arr items) => some items
  | _ => none

def memberString (m : Members) (key : String) : Option Bytes :=
  match m.lookup (ascii key) with
  | some (.str s) => some s
  | _ => none

/-- The masks of a final mask, under its own name or not. -/
def maskItems (m : Members) : List Item :=
  match memberMap m "finalmask" with
  | some fmObj => (memberArray fmObj "udp").getD []
  | none => (memberArray m "udp").getD []

/-- One mask fills in what is not known of the obfuscation yet. -/
def fillObfs (found : Option Bytes × Option Bytes) (item : Item) : Option Bytes × Option Bytes :=
  match item with
  | .obj m => (found.1.or (memberString m "type"),
      found.2.or ((memberMap m "settings").bind fun s => memberString s "password"))
  | _ => found

def obfsOf (lib : Library) (query : Query) (decodedFM : Option Bytes) :
    Option Bytes × Option Bytes :=
  let obfs := (getQueryParam query ["obfs","obfs-type","obfs_type"]).map urlDecode
  let obfsPassword := (getQueryParam query
    ["obfs-password","obfs_password","obfs-param","obfs_param"]).map urlDecode
  match decodedFM with
  | some text =>
    if obfs = none ∨ obfsPassword = none then
      let decoded := lib.unmarshalMap text []
      if decoded.2 then (maskItems decoded.1).foldl fillObfs (obfs,obfsPassword)
      else (obfs,obfsPassword)
    else (obfs,obfsPassword)
  | none => (obfs,obfsPassword)

def parseHysteria2Data (lib : Library) (data : Bytes) : Result (RawData × Settings) := do
  let parts ← splitLink data
  let rawHostPort := trimSuffix [slash] parts.hostPort
  if rawHostPort = [] then .error .refused
  else
    let (host,port) ← hysteriaAddress rawHostPort
    if host = [] then .error .refused
    else
      let query ← parseQuery parts.query
      let decodedFM := (getQueryParam query ["fm"]).map urlDecode
      let obfs := obfsOf lib query decodedFM
      let rd : RawData := { queryData query with
        remarks := urlDecode parts.name
        uuid := some (urlDecode parts.user)
        address := some host
        port := some port
        allowInsecure := getQueryParam query ["allowInsecure","insecure"]
        obfs := obfs.1
        obfsPassword := obfs.2
        up := (getQueryParam query ["up"]).map urlDecode
        down := (getQueryParam query ["down"]).map urlDecode
        ports := (getQueryParam query ["ports","mport"]).map urlDecode
        fm := decodedFM }
      return (rd,.hysteria 2 rd.address rd.port)

def parseHysteria2 (lib : Library) (uri : Bytes) : Result (RawData × Settings) :=
  if (ascii "hysteria2://").isPrefixOf uri then
    parseHysteria2Data lib (trimPrefix (ascii "hysteria2://") uri)
  else if (ascii "hy2://").isPrefixOf uri then
    parseHysteria2Data lib (trimPrefix (ascii "hy2://") uri)
  else .error .refused

end Parsers

section Outbounds

inductive Protocol where
  | vless
  | vmess
  | trojan
  | shadowsocks
  | socks
  | hysteria2
  deriving DecidableEq

def getUriProtocol (uri : Bytes) : Option Protocol :=
  if (ascii "vmess://").isPrefixOf uri then some .vmess
  else if (ascii "vless://").isPrefixOf uri then some .vless
  else if (ascii "ss://").isPrefixOf uri then some .shadowsocks
  else if (ascii "socks5://").isPrefixOf uri || (ascii "socks4://").isPrefixOf uri ||
    (ascii "socks://").isPrefixOf uri then some .socks
  else if (ascii "http://").isPrefixOf uri then none
  else if (ascii "trojan://").isPrefixOf uri then some .trojan
  else if (ascii "hysteria2://").isPrefixOf uri || (ascii "hy2://").isPrefixOf uri then
    some .hysteria2
  else none

def parseAs (lib : Library) (uri : Bytes) : Protocol → Result (RawData × Settings)
  | .vless => parseVless uri
  | .vmess => parseVmess lib uri
  | .trojan => parseTrojan uri
  | .shadowsocks => parseShadowsocks uri
  | .socks => parseSocks uri
  | .hysteria2 => parseHysteria2 lib uri

/-- The name of the protocol in the outbound. -/
def Protocol.outbound : Protocol → String
  | .vless => "vless"
  | .vmess => "vmess"
  | .trojan => "trojan"
  | .shadowsocks => "shadowsocks"
  | .socks => "socks"
  | .hysteria2 => "hysteria"

def networkType (proto : Protocol) (rd : RawData) : Bytes :=
  if proto = .hysteria2 then ascii "hysteria" else orElseDefault rd.type "tcp"

def effectiveSecurity (proto : Protocol) (rd : RawData) : Option Bytes :=
  match proto with
  | .hysteria2 => some (ascii "tls")
  | .trojan => some (orElseDefault rd.security "tls")
  | _ => rd.security

def parseRawJSON (lib : Library) (s : Bytes) : Option Item :=
  match lib.unmarshal s with
  | some (.obj m) => some (.obj m)
  | _ => none

def securitySettings (proto : Protocol) (rd : RawData) (s : StreamSettings) : StreamSettings :=
  if s.security = some (ascii "tls") then
    let alpn := splitALPN rd.alpn
    { s with tlsSettings := some {
        alpn := if proto = .hysteria2 ∧ alpn = [] then [ascii "h3"] else alpn
        allowInsecure := rd.allowInsecure = some (ascii "true") ∨ rd.allowInsecure = some (ascii "1")
        fingerprint := rd.fp
        serverName := rd.sni } }
  else if s.security = some (ascii "reality") then
    { s with realitySettings := some {
        publicKey := rd.pbk
        serverName := rd.sni
        shortId := rd.sid
        spiderX := some (rd.spx.getD [])
        fingerprint := rd.fp } }
  else s

def networkSettings (lib : Library) (rd : RawData) (s : StreamSettings) : StreamSettings :=
  if s.network = ascii "ws" then { s with wsSettings := some ⟨rd.host,rd.path⟩ }
  else if s.network = ascii "tcp" then
    { s with tcpHeaderType := some (orElseDefault rd.headerType "none") }
  else if s.network = ascii "grpc" then
    { s with grpcSettings := some ⟨rd.authority,rd.mode = some (ascii "multi"),rd.serviceName⟩ }
  else if s.network = ascii "quic" then
    { s with quicSettings := some ⟨ascii "none",ascii "none",[]⟩ }
  else if s.network = ascii "kcp" then { s with kcpSeed := some rd.seed }
  else if s.network = ascii "xhttp" then
    { s with xhttpSettings := some ⟨rd.host,rd.path,rd.mode,rd.extra.bind (parseRawJSON lib)⟩ }
  else if s.network = ascii "httpupgrade" then
    { s with httpUpgradeSettings := some ⟨rd.host,rd.path⟩ }
  else s

/-- The mask for hopping between ports. -/
def hopItem (ports : Bytes) : Item :=
  .obj [(ascii "type",.str (ascii "udphop")),
    (ascii "settings",.obj [(ascii "mode",.str (ascii "intervalLocal,intervalRemote")),
      (ascii "remotePorts",.str ports),(ascii "interval",.str (ascii "5-30"))])]

def obfsItem (obfs : Option Bytes) (password : Bytes) : Item :=
  .obj [(ascii "type",.str (orElseDefault obfs "salamander")),
    (ascii "settings",.obj [(ascii "password",.str password)])]

def maskOf (lib : Library) (rd : RawData) : Finalmask :=
  let own : Option QuicParams :=
    if rd.up.isSome ∨ rd.down.isSome then some ⟨rd.up,rd.down⟩ else none
  let hops : List Item := (rd.ports.map hopItem).toList
  match rd.fm with
  | some text =>
    let decoded := lib.unmarshalMap text []
    if decoded.2 then
      let target := (memberMap decoded.1 "finalmask").getD decoded.1
      let brutal := (memberMap target "quicParams").bind fun qp =>
        let bUp := memberString qp "brutalUp"
        let bDown := memberString qp "brutalDown"
        if bUp.isSome ∨ bDown.isSome then some ⟨bUp,bDown⟩ else none
      ⟨own.or brutal,hops ++ (memberArray target "udp").getD []⟩
    else ⟨own,hops⟩
  | none => ⟨own,hops ++ (rd.obfsPassword.map (obfsItem rd.obfs)).toList⟩

def hysteriaSettings (lib : Library) (proto : Protocol) (rd : RawData) (s : StreamSettings) :
    StreamSettings :=
  if proto = .hysteria2 then
    let mask := maskOf lib rd
    { s with
      hysteriaSettings := some ⟨2,rd.uuid.getD [],60⟩
      finalmask := if mask.quicParams.isSome ∨ mask.udp ≠ [] then some mask else none }
  else s

def streamSettingsOf (lib : Library) (proto : Protocol) (rd : RawData) : StreamSettings :=
  hysteriaSettings lib proto rd (networkSettings lib rd (securitySettings proto rd
    { network := networkType proto rd, security := effectiveSecurity proto rd }))

def createOutboundObject (lib : Library) (uri : Bytes) : Result (Outbound × RawData) :=
  match getUriProtocol uri with
  | none => .error .refused
  | some proto => do
    let (rd,settings) ← parseAs lib uri proto
    return (⟨ascii proto.outbound,ascii "proxy",settings,streamSettingsOf lib proto rd⟩,rd)

end Outbounds

section Shapes

/-- The credentials and the address. -/
def front (data : Bytes) : Bytes := before question (before hash data)

def queryText (data : Bytes) : Bytes := after question (before hash data)

theorem splitLink_eq (data : Bytes) : splitLink data =
    if atSign ∈ front data then
      .ok ⟨before atSign (front data),after atSign (front data),queryText data,after hash data⟩
    else .error .refused := by
  unfold splitLink
  simp only [splitOnce_eq,bind,Except.bind]
  change (if decide (atSign ∈ front data) = true then _ else _) = _
  simp only [decide_eq_true_eq]
  rfl

/-- What the parsers of links with credentials read before their own settings. -/
def addressedData (data host : Bytes) (port : UInt16) : RawData :=
  { queryData (queryOf (queryText data)) with
    remarks := urlDecode (after hash data)
    uuid := some (urlDecode (before atSign (front data)))
    address := some host
    port := some port }

theorem parseAddressed_eq (data : Bytes) : parseAddressed data =
    if atSign ∈ front data then
      parseHostPort (after atSign (front data)) >>= fun x =>
        .ok (queryOf (queryText data),addressedData data x.1 x.2)
    else .error .refused := by
  rw [parseAddressed,splitLink_eq]
  split
  · simp only [bind,Except.bind,parseQuery_eq]
    rfl
  · rfl

end Shapes

end Whoisthat.LinkParsers
