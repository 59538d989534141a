import Whoisthat.LinkSpelling

/-!
# From settings to a link and back

A link is written from credentials, a server and a transport, in one of nine
forms, and read again. An outbound with the same values comes out unless a
value is decoded once too often, or not at all: the server name of a query is
never decoded, what a vmess object holds is decoded although it was never
escaped, and so are the credentials of SOCKS, which are cut only after a first
decoding.
-/

set_option autoImplicit false

namespace Whoisthat.LinkRoundTrip
open Whoisthat.Utf8 (Bytes)
open Whoisthat.Delimiters
open Whoisthat.HappLinks (ascii)
open Whoisthat.LinkText Whoisthat.LinkParsers Whoisthat.LinkPorts Whoisthat.LinkSpelling

section Links

inductive Security where
  | tls
  | reality

def Security.name : Security → Bytes
  | .tls => ascii "tls"
  | .reality => ascii "reality"

/-- The networks with a host and a path. -/
inductive Network where
  | ws
  | httpupgrade
  | xhttp

def Network.name : Network → Bytes
  | .ws => ascii "ws"
  | .httpupgrade => ascii "httpupgrade"
  | .xhttp => ascii "xhttp"

inductive Transport (T : Type) where
  | hosted (network : Network) (host path : T)
  | grpc (serviceName : T)

def Transport.map {T S : Type} (f : T → S) : Transport T → Transport S
  | .hosted network host path => .hosted network (f host) (f path)
  | .grpc serviceName => .grpc (f serviceName)

structure Parameters where
  security : Security
  sni : Component
  transport : Transport Component

def Transport.pairs : Transport Component → Query
  | .hosted network host path =>
    [(ascii "type",network.name),(ascii "host",host.text),(ascii "path",path.text)]
  | .grpc serviceName => [(ascii "type",ascii "grpc"),(ascii "serviceName",serviceName.text)]

def Parameters.pairs (p : Parameters) : Query :=
  (ascii "security",p.security.name)::(ascii "sni",p.sni.text)::p.transport.pairs

/-- What a vmess object says of the transport. -/
def Transport.members : Transport Component → Members
  | .hosted network host path =>
    [(ascii "net",.str network.name),(ascii "host",.str host.value),(ascii "path",.str path.value)]
  | .grpc serviceName =>
    [(ascii "net",.str (ascii "grpc")),(ascii "host",.str []),(ascii "path",.str serviceName.value)]

/-- The object of a vmess link, with the port as a number or as a text. -/
def vmessObject (server : Server) (remark uuid : Component) (p : Parameters) (asText : Bool) :
    Members :=
  [(ascii "v",.str (ascii "2")),(ascii "ps",.str remark.value),(ascii "add",.str server.host),
    (ascii "port",if asText then .str server.digits else .num server.port.toNat),
    (ascii "id",.str uuid.value),(ascii "aid",.str (ascii "0")),
    (ascii "scy",.str (ascii "auto")),(ascii "type",.str (ascii "none")),
    (ascii "tls",.str p.security.name),(ascii "sni",.str p.sni.value)] ++ p.transport.members

/-- A JSON text of an object, in base64. -/
structure Payload (lib : Library) (object : Members) where
  json : Bytes
  members : Members
  read : lib.unmarshalMap json [] = (members,true)
  agrees : ∀ key, members.lookup key = object.lookup key
  encoded : Base64Text json

/-- The forms of a link to a server. -/
inductive Form (lib : Library) (server : Server) (remark : Component) where
  | vless (uuid : Component) (p : Parameters)
  | vmess (uuid : Component) (p : Parameters)
  | vmessBase64 (uuid : Component) (p : Parameters) (asText : Bool)
      (payload : Payload lib (vmessObject server remark uuid p asText))
  | trojan (password : Component) (p : Parameters)
  | shadowsocks (method password : Component)
  | shadowsocksBase64 (method password : Component)
      (userinfo : Base64Text (method.value ++ colon::password.value))
  | socks (scheme : {s // s ∈ schemes .socks}) (user password : Component)
  | socksBase64 (scheme : {s // s ∈ schemes .socks}) (user password : Component)
      (userinfo : Base64Text (user.value ++ colon::password.value))
  | hysteria2 (scheme : {s // s ∈ schemes .hysteria2}) (password sni : Component)

variable {lib : Library} {server : Server} {remark : Component}

def Form.protocol : Form lib server remark → Protocol
  | .vless .. => .vless
  | .vmess .. | .vmessBase64 .. => .vmess
  | .trojan .. => .trojan
  | .shadowsocks .. | .shadowsocksBase64 .. => .shadowsocks
  | .socks .. | .socksBase64 .. => .socks
  | .hysteria2 .. => .hysteria2

def Form.scheme : Form lib server remark → Bytes
  | .vless .. => ascii "vless"
  | .vmess .. | .vmessBase64 .. => ascii "vmess"
  | .trojan .. => ascii "trojan"
  | .shadowsocks .. | .shadowsocksBase64 .. => ascii "ss"
  | .socks scheme .. | .socksBase64 scheme .. => scheme
  | .hysteria2 scheme .. => scheme

def Form.data : Form lib server remark → Bytes
  | .vless uuid p | .vmess uuid p | .trojan uuid p =>
    linkData uuid.text server p.pairs remark.text
  | .vmessBase64 _ _ _ payload => payload.encoded.text
  | .shadowsocks method password =>
    linkData (method.text ++ colon::password.text) server [] remark.text
  | .socks _ user password => linkData (user.text ++ colon::password.text) server [] remark.text
  | .shadowsocksBase64 _ _ userinfo | .socksBase64 _ _ _ userinfo =>
    linkData userinfo.text server [] remark.text
  | .hysteria2 _ password sni =>
    linkData password.text server [(ascii "sni",sni.text)] remark.text

def Form.text (form : Form lib server remark) : Bytes := form.scheme ++ ascii "://" ++ form.data

/-- The settings with the credentials of the link. -/
def Form.settings : Form lib server remark → Settings
  | .vless uuid _ =>
    .vless (some server.host) (some server.port) (some uuid.value) (some (ascii "none")) none
  | .vmess uuid _ | .vmessBase64 uuid _ _ _ =>
    .vmess (some server.host) (some server.port) (some uuid.value) (some (ascii "auto"))
  | .trojan password _ => .trojan (some server.host) (some server.port) (some password.value)
  | .shadowsocks method password | .shadowsocksBase64 method password _ =>
    .shadowsocks (some server.host) (some server.port) (some password.value) (some method.value)
  | .socks _ user password | .socksBase64 _ user password _ =>
    .socks (some server.host) (some server.port) [(some user.value,some password.value)]
  | .hysteria2 .. => .hysteria 2 (some server.host) (some server.port)

/-- What is read of the parameters. -/
def readData (security : Security) (sni : Bytes) : Transport Bytes → RawData
  | .hosted network host path =>
    { security := some security.name
      sni := some sni
      type := some network.name
      host := some host
      path := some path }
  | .grpc serviceName =>
    { security := some security.name
      sni := some sni
      type := some (ascii "grpc")
      serviceName := some serviceName }

/-- Stream settings with a server name. -/
def secured (network : Bytes) (sni : Bytes) : Security → StreamSettings
  | .tls =>
    { network := network
      security := some (ascii "tls")
      tlsSettings := some ⟨[],false,none,some sni⟩ }
  | .reality =>
    { network := network
      security := some (ascii "reality")
      realitySettings := some ⟨none,some sni,none,some [],none⟩ }

def streamOf (security : Security) (sni : Bytes) : Transport Bytes → StreamSettings
  | .hosted .ws host path =>
    { secured (ascii "ws") sni security with wsSettings := some ⟨some host,some path⟩ }
  | .hosted .httpupgrade host path =>
    { secured (ascii "httpupgrade") sni security with
      httpUpgradeSettings := some ⟨some host,some path⟩ }
  | .hosted .xhttp host path =>
    { secured (ascii "xhttp") sni security with
      xhttpSettings := some ⟨some host,some path,none,none⟩ }
  | .grpc serviceName =>
    { secured (ascii "grpc") sni security with
      grpcSettings := some ⟨none,false,some serviceName⟩ }

def Parameters.stream (p : Parameters) : StreamSettings :=
  streamOf p.security p.sni.value (p.transport.map Component.value)

def plainStream : StreamSettings :=
  { network := ascii "tcp", security := none, tcpHeaderType := some (ascii "none") }

def hysteriaStream (password sni : Bytes) : StreamSettings :=
  { network := ascii "hysteria"
    security := some (ascii "tls")
    tlsSettings := some ⟨[ascii "h3"],false,none,some sni⟩
    hysteriaSettings := some ⟨2,password,60⟩ }

def Form.stream : Form lib server remark → StreamSettings
  | .vless _ p | .vmess _ p | .vmessBase64 _ p _ _ | .trojan _ p => p.stream
  | .shadowsocks .. | .shadowsocksBase64 .. | .socks .. | .socksBase64 .. => plainStream
  | .hysteria2 _ password sni => hysteriaStream password.value sni.value

def Form.outbound (form : Form lib server remark) : Outbound :=
  ⟨ascii form.protocol.outbound,ascii "proxy",form.settings,form.stream⟩

/-- The link is read as what it was written from. -/
def Form.Carried (form : Form lib server remark) : Prop :=
  ∃ rd, createOutboundObject lib form.text = .ok (form.outbound,rd) ∧ rd.remarks = remark.value

/-- The values of a transport have no escapes. -/
def Transport.Unescaped : Transport Component → Prop
  | .hosted _ host path => LinkSpelling.Unescaped host.value ∧ LinkSpelling.Unescaped path.value
  | .grpc serviceName => LinkSpelling.Unescaped serviceName.value

/-- User name and password survive a decoding too many, and the first colon
stands between them. -/
def PlainCredentials (user password : Component) : Prop :=
  colon ∉ user.value ∧ Unescaped user.value ∧ Unescaped password.value

/-- No value of the link is changed on the way. -/
def Form.Faithful : Form lib server remark → Prop
  | .vless _ p | .vmess _ p | .trojan _ p => p.sni.text = p.sni.value
  | .vmessBase64 _ p _ _ => Unescaped remark.value ∧ p.transport.Unescaped
  | .shadowsocks method _ | .shadowsocksBase64 method _ _ => colon ∉ method.value
  | .socks _ user password => PlainCredentials user password
  | .socksBase64 _ user password userinfo => PlainCredentials user password ∧
    (Base64.decode ⟨false,true⟩
      (Base64.encode userinfo.variant (user.value ++ colon::password.value))).isSome = true
  | .hysteria2 _ _ sni => sni.text = sni.value

end Links

section Reading

variable {lib : Library} {server : Server} {remark : Component}

theorem sni_writable (sni : Component) : Writable [(ascii "sni",sni.text)] :=
  writable_cons (by decide) (by decide) sni.text_ne (text_plain sni) writable_nil

theorem transport_writable (t : Transport Component) :
    Writable t.pairs ∧
      ∀ k ∈ t.pairs.map Prod.fst, k ∈ ["type","host","path","serviceName"].map ascii := by
  cases t with
  | hosted network host path =>
    have hname : network.name ≠ [] ∧
        network.name.all (fun c => c ≠ hash && c ≠ ampersand) = true := by
      cases network <;> decide
    refine ⟨?_,by simp [Transport.pairs]⟩
    refine writable_cons (by simp; decide) (by decide) hname.1 (word_plain hname.2) ?_
    refine writable_cons (by simp; decide) (by decide) host.text_ne (text_plain host) ?_
    exact writable_cons (by simp) (by decide) path.text_ne (text_plain path) writable_nil
  | grpc serviceName =>
    refine ⟨?_,by simp [Transport.pairs]⟩
    refine writable_cons (by simp; decide) (by decide) (by decide) (word_plain (by decide)) ?_
    exact writable_cons (by simp) (by decide) serviceName.text_ne (text_plain serviceName)
      writable_nil

theorem pairs_writable (p : Parameters) : Writable p.pairs := by
  obtain ⟨hwritable,hkeys⟩ := transport_writable p.transport
  have hname : p.security.name ≠ [] ∧
      p.security.name.all (fun c => c ≠ hash && c ≠ ampersand) = true := by
    cases p.security <;> decide
  have hsni : ascii "sni" ∉ p.transport.pairs.map Prod.fst := fun h => by
    have hin := hkeys _ h
    revert hin
    decide
  have hsecurity : ascii "security" ∉ p.transport.pairs.map Prod.fst := fun h => by
    have hin := hkeys _ h
    revert hin
    decide
  have hother : ascii "security" ≠ ascii "sni" := by decide
  refine writable_cons ?_ (by decide) hname.1 (word_plain hname.2) ?_
  · exact List.not_mem_cons_of_ne_of_not_mem hother hsecurity
  · exact writable_cons hsni (by decide) p.sni.text_ne (text_plain p.sni) hwritable

theorem getQueryParam_some {q : Query} {k : String} {v : Bytes}
    (h : q.lookup (ascii k) = some v) (hv : v ≠ []) : getQueryParam q [k] = some v := by
  simp [getQueryParam,h,hv]

theorem queryData_pairs (p : Parameters) : queryData p.pairs =
    readData p.security p.sni.text (p.transport.map Component.value) := by
  obtain ⟨security,sni,transport⟩ := p
  have hname : security.name ≠ [] := by cases security <;> decide
  cases transport with
  | hosted network host path =>
    have hnetwork : network.name ≠ [] := by cases network <;> decide
    generalize hq : Parameters.pairs ⟨security,sni,.hosted network host path⟩ = q
    have hsecurity : getQueryParam q ["security"] = some security.name :=
      getQueryParam_some (hq ▸ rfl) hname
    have hsni : getQueryParam q ["sni"] = some sni.text :=
      getQueryParam_some (hq ▸ rfl) sni.text_ne
    have htype : getQueryParam q ["type"] = some network.name :=
      getQueryParam_some (hq ▸ rfl) hnetwork
    have hhost : getQueryParam q ["host"] = some host.text :=
      getQueryParam_some (hq ▸ rfl) host.text_ne
    have hpath : getQueryParam q ["path"] = some path.text :=
      getQueryParam_some (hq ▸ rfl) path.text_ne
    unfold queryData
    rw [hsecurity,hsni,htype,hhost,hpath,Option.map_some,Option.map_some,
      urlDecode_spelled host.escaped,urlDecode_spelled path.escaped,← hq]
    rfl
  | grpc serviceName =>
    generalize hq : Parameters.pairs ⟨security,sni,.grpc serviceName⟩ = q
    have hsecurity : getQueryParam q ["security"] = some security.name :=
      getQueryParam_some (hq ▸ rfl) hname
    have hsni : getQueryParam q ["sni"] = some sni.text :=
      getQueryParam_some (hq ▸ rfl) sni.text_ne
    have htype : getQueryParam q ["type"] = some (ascii "grpc") :=
      getQueryParam_some (hq ▸ rfl) (by decide)
    have hservice : getQueryParam q ["serviceName"] = some serviceName.text :=
      getQueryParam_some (hq ▸ rfl) serviceName.text_ne
    unfold queryData
    rw [hsecurity,hsni,htype,hservice,Option.map_some,urlDecode_spelled serviceName.escaped,← hq]
    rfl

theorem queryData_sni (sni : Component) :
    queryData [(ascii "sni",sni.text)] = { sni := some sni.text } := by
  have hsni : getQueryParam [(ascii "sni",sni.text)] ["sni"] = some sni.text :=
    getQueryParam_some rfl sni.text_ne
  unfold queryData
  rw [hsni]
  rfl

/-- The link is read with the protocol it was written for. -/
theorem protocol_text (form : Form lib server remark) :
    getUriProtocol form.text = some form.protocol := by
  have hsocks : ∀ scheme ∈ schemes .socks, ∀ data,
      getUriProtocol (scheme ++ ascii "://" ++ data) = some .socks := by
    intro scheme hmem data
    simp only [schemes,List.mem_cons,List.not_mem_nil,or_false] at hmem
    rcases hmem with rfl | rfl | rfl <;> rfl
  have hhysteria : ∀ scheme ∈ schemes .hysteria2, ∀ data,
      getUriProtocol (scheme ++ ascii "://" ++ data) = some .hysteria2 := by
    intro scheme hmem data
    simp only [schemes,List.mem_cons,List.not_mem_nil,or_false] at hmem
    rcases hmem with rfl | rfl <;> rfl
  cases form with
  | vless => rfl
  | vmess => rfl
  | vmessBase64 => rfl
  | trojan => rfl
  | shadowsocks => rfl
  | shadowsocksBase64 => rfl
  | socks scheme => exact hsocks scheme.1 scheme.2 _
  | socksBase64 scheme => exact hsocks scheme.1 scheme.2 _
  | hysteria2 scheme => exact hhysteria scheme.1 scheme.2 _

theorem carried_of_read {form : Form lib server remark} {rd : RawData} {settings : Settings}
    (h : parseAs lib form.text form.protocol = .ok (rd,settings)) :
    form.Carried ↔ settings = form.settings ∧
      streamSettingsOf lib form.protocol rd = form.stream ∧ rd.remarks = remark.value := by
  have hcreate : createOutboundObject lib form.text =
      .ok (⟨ascii form.protocol.outbound,ascii "proxy",settings,
        streamSettingsOf lib form.protocol rd⟩,rd) := by
    rw [createOutboundObject,protocol_text]
    simp only [h,bind,Except.bind]
    rfl
  unfold Form.Carried
  rw [hcreate]
  constructor
  · rintro ⟨rd',heq,hremark⟩
    obtain ⟨hout,rfl⟩ := Prod.mk.inj (Except.ok.inj heq)
    obtain ⟨-,-,hsettings,hstream⟩ := Outbound.mk.inj hout
    exact ⟨hsettings,hstream,hremark⟩
  · rintro ⟨rfl,hstream,hremark⟩
    exact ⟨rd,by rw [hstream]; rfl,hremark⟩

theorem streamOf_map {T : Type} (security : Security) (a b : Bytes) (t : Transport T)
    (f g : T → Bytes) : streamOf security a (t.map f) = streamOf security b (t.map g) ↔
      a = b ∧ t.map f = t.map g := by
  constructor
  · intro h
    cases security <;> cases t with
    | grpc serviceName => simp_all [Transport.map,streamOf,secured]
    | hosted network host path =>
      cases network <;> simp_all [Transport.map,streamOf,secured]
  · rintro ⟨rfl,hmap⟩
    rw [hmap]

end Reading

section Addressed

variable {lib : Library} {server : Server} {remark : Component}

theorem user_free (c : Component) : ∀ b ∈ [hash,question,atSign], b ∉ c.text := by
  intro b hb
  refine separators_free c.escaped b ?_
  exact List.mem_append_left [ampersand] hb

/-- What the parsers of links with credentials read of one. -/
def linkedData (server : Server) (remark credential : Component) (p : Parameters) : RawData :=
  { readData p.security p.sni.text (p.transport.map Component.value) with
    remarks := remark.value
    uuid := some credential.value
    address := some server.host
    port := some server.port }

theorem parseAddressed_form (credential : Component) (p : Parameters) :
    parseAddressed (linkData credential.text server p.pairs remark.text) =
      .ok (p.pairs,linkedData server remark credential p) := by
  rw [parseAddressed_data (user_free credential) (pairs_writable p),queryData_pairs,
    urlDecode_spelled remark.escaped,urlDecode_spelled credential.escaped]
  rfl

theorem linkedData_stream {proto : Protocol} (hproto : proto = .vless ∨ proto = .vmess ∨
    proto = .trojan) (credential : Component) (p : Parameters) :
    streamSettingsOf lib proto (linkedData server remark credential p) =
      streamOf p.security p.sni.text (p.transport.map Component.value) := by
  obtain ⟨security,sni,transport⟩ := p
  cases transport with
  | grpc serviceName => rcases hproto with rfl | rfl | rfl <;> cases security <;> rfl
  | hosted network host path =>
    rcases hproto with rfl | rfl | rfl <;> cases security <;> cases network <;> rfl

theorem linkedData_carried {proto : Protocol} (hproto : proto = .vless ∨ proto = .vmess ∨
    proto = .trojan) (credential : Component) (p : Parameters) :
    streamSettingsOf lib proto (linkedData server remark credential p) = p.stream ↔
      p.sni.text = p.sni.value := by
  rw [linkedData_stream hproto,Parameters.stream,streamOf_map,and_iff_left rfl]

theorem vless_carried (uuid : Component) (p : Parameters) :
    (Form.vless uuid p : Form lib server remark).Carried ↔ p.sni.text = p.sni.value := by
  have hread : parseAs lib (Form.vless uuid p : Form lib server remark).text .vless =
      .ok (linkedData server remark uuid p,
        .vless (some server.host) (some server.port) (some uuid.value) (some (ascii "none"))
          none) := by
    have hstarts : (ascii "vless://").isPrefixOf (ascii "vless://" ++
        linkData uuid.text server p.pairs remark.text) = true := rfl
    change parseVless (ascii "vless://" ++ linkData uuid.text server p.pairs remark.text) = _
    rw [parseVless,if_pos hstarts,trimPrefix_hit,parseAddressed_form]
    obtain ⟨security,sni,transport⟩ := p
    cases transport <;> rfl
  rw [carried_of_read hread,← linkedData_carried (.inl rfl) uuid p]
  exact ⟨fun h => h.2.1,fun h => ⟨rfl,h,rfl⟩⟩

theorem trojan_carried (password : Component) (p : Parameters) :
    (Form.trojan password p : Form lib server remark).Carried ↔ p.sni.text = p.sni.value := by
  have hread : parseAs lib (Form.trojan password p : Form lib server remark).text .trojan =
      .ok (linkedData server remark password p,
        .trojan (some server.host) (some server.port) (some password.value)) := by
    have hstarts : (ascii "trojan://").isPrefixOf (ascii "trojan://" ++
        linkData password.text server p.pairs remark.text) = true := rfl
    change parseTrojan (ascii "trojan://" ++ linkData password.text server p.pairs remark.text) = _
    rw [parseTrojan,if_pos hstarts,trimPrefix_hit,parseAddressed_form]
    rfl
  rw [carried_of_read hread,← linkedData_carried (.inr (.inr rfl)) password p]
  exact ⟨fun h => h.2.1,fun h => ⟨rfl,h,rfl⟩⟩

end Addressed

section Encoded

variable {lib : Library} {server : Server} {remark : Component}

theorem vmess_carried (uuid : Component) (p : Parameters) :
    (Form.vmess uuid p : Form lib server remark).Carried ↔ p.sni.text = p.sni.value := by
  have hscy : getQueryParam p.pairs ["scy"] = none := by
    obtain ⟨security,sni,transport⟩ := p
    cases transport <;> rfl
  have hread : parseAs lib (Form.vmess uuid p : Form lib server remark).text .vmess =
      .ok (linkedData server remark uuid p,
        .vmess (some server.host) (some server.port) (some uuid.value) (some (ascii "auto"))) := by
    have hstarts : (ascii "vmess://").isPrefixOf (ascii "vmess://" ++
        linkData uuid.text server p.pairs remark.text) = true := rfl
    change parseVmess lib (ascii "vmess://" ++ linkData uuid.text server p.pairs remark.text) = _
    have hnone : parseVmessBase64 lib (linkData uuid.text server p.pairs remark.text) = none := by
      have hat : atSign ∈ linkData uuid.text server p.pairs remark.text := by simp [linkData]
      rw [parseVmessBase64,decodeVmessPayload_at hat,Option.bind_none]
    rw [parseVmess,if_pos hstarts,trimPrefix_hit]
    simp only [hnone,parseVmessRaw,parseAddressed_form,bind,Except.bind,hscy]
    obtain ⟨security,sni,transport⟩ := p
    cases transport <;> rfl
  rw [carried_of_read hread,← linkedData_carried (.inr (.inl rfl)) uuid p]
  exact ⟨fun h => h.2.1,fun h => ⟨rfl,h,rfl⟩⟩

end Encoded

section Objects

variable {lib : Library} {server : Server} {remark : Component}

theorem vmessData_congr {m m' : Members} (h : ∀ key, m.lookup key = m'.lookup key) :
    vmessData lib m = vmessData lib m' := by
  have hstring : ∀ key, getString m key = getString m' key := fun key => by
    rw [getString,getString,h]
  have hport : vmessPort lib m = vmessPort lib m' := by rw [vmessPort,vmessPort,h]
  simp only [vmessData,hstring,hport]

theorem payload_read {object : Members} (payload : Payload lib object) :
    parseVmessBase64 lib payload.encoded.text = some (vmessData lib object) := by
  have hdecoded : decodeVmessPayload payload.encoded.text = some payload.json := by
    have hown := decode_encode payload.encoded.variant payload.json
    have hfirst : (encodings.findSome? fun enc => Base64.decode enc
        (Base64.encode payload.encoded.variant payload.json)) = some payload.json :=
      findSome_encodings hown fun enc x h => Base64.decode_unique h hown
    rw [decodeVmessPayload,List.findSome?_cons,urlDecode_spelled payload.encoded.escaped,hfirst]
  have hmembers : vmessMembers lib payload.json = some payload.members := by
    simp [vmessMembers,payload.read]
  rw [parseVmessBase64,hdecoded,Option.bind_some,hmembers,Option.map_some,
    vmessData_congr payload.agrees]

theorem getString_of {m : Members} {key : String} {s : Bytes}
    (h : m.lookup (ascii key) = some (.str s)) (hs : s ≠ []) : getString m key = some s :=
  getString_some.mpr ⟨h,hs⟩

theorem object_port (uuid : Component) (p : Parameters) (asText : Bool) :
    vmessPort lib (vmessObject server remark uuid p asText) = some server.port := by
  cases asText with
  | true => exact parseUint_digits server
  | false =>
    have hnat : uint16 lib server.port.toNat = UInt16.ofNat server.port.toNat :=
      uint16_nat server.port.toNat_lt
    rw [UInt16.ofNat_toNat] at hnat
    exact congrArg some hnat

/-- What a vmess object gives for the stream settings. -/
theorem object_stream (uuid : Component) (p : Parameters) (asText : Bool) :
    streamSettingsOf lib .vmess (vmessData lib (vmessObject server remark uuid p asText)) =
      streamOf p.security p.sni.value (p.transport.map fun c => urlDecode c.value) := by
  obtain ⟨security,sni,transport⟩ := p
  have hname : security.name ≠ [] := by cases security <;> decide
  cases transport with
  | hosted network host path =>
    have hnetwork : network.name ≠ [] := by cases network <;> decide
    generalize hm :
      vmessObject server remark uuid ⟨security,sni,.hosted network host path⟩ asText = m
    have htls : getString m "tls" = some security.name := getString_of (hm ▸ rfl) hname
    have hsni : getString m "sni" = some sni.value := getString_of (hm ▸ rfl) sni.nonempty
    have hnet : getString m "net" = some network.name := getString_of (hm ▸ rfl) hnetwork
    have hhost : getString m "host" = some host.value := getString_of (hm ▸ rfl) host.nonempty
    have hpath : getString m "path" = some path.value := getString_of (hm ▸ rfl) path.nonempty
    unfold vmessData
    rw [htls,hsni,hnet,hhost,hpath,← hm]
    cases security <;> cases network <;> rfl
  | grpc serviceName =>
    generalize hm : vmessObject server remark uuid ⟨security,sni,.grpc serviceName⟩ asText = m
    have htls : getString m "tls" = some security.name := getString_of (hm ▸ rfl) hname
    have hsni : getString m "sni" = some sni.value := getString_of (hm ▸ rfl) sni.nonempty
    have hpath : getString m "path" = some serviceName.value :=
      getString_of (hm ▸ rfl) serviceName.nonempty
    unfold vmessData
    rw [htls,hsni,hpath,← hm]
    cases security <;> rfl

theorem transport_unescaped (t : Transport Component) :
    t.map (fun c => urlDecode c.value) = t.map Component.value ↔ t.Unescaped := by
  cases t with
  | hosted network host path =>
    simp [Transport.map,Transport.Unescaped,urlDecode_self]
  | grpc serviceName => simp [Transport.map,Transport.Unescaped,urlDecode_self]

theorem vmessBase64_carried (uuid : Component) (p : Parameters) (asText : Bool)
    (payload : Payload lib (vmessObject server remark uuid p asText)) :
    (Form.vmessBase64 uuid p asText payload).Carried ↔
      LinkSpelling.Unescaped remark.value ∧ p.transport.Unescaped := by
  have hremark : getString (vmessObject server remark uuid p asText) "ps" = some remark.value :=
    getString_of rfl remark.nonempty
  have hid : getString (vmessObject server remark uuid p asText) "id" = some uuid.value :=
    getString_of rfl uuid.nonempty
  have hadd : getString (vmessObject server remark uuid p asText) "add" = some server.host :=
    getString_of rfl server.nonempty
  generalize hrd : vmessData lib (vmessObject server remark uuid p asText) = rd
  have hread : parseAs lib (Form.vmessBase64 uuid p asText payload).text .vmess =
      .ok (rd,createVmessOutboundSettings rd) := by
    have hstarts : (ascii "vmess://").isPrefixOf (ascii "vmess://" ++ payload.encoded.text) =
        true := rfl
    change parseVmess lib (ascii "vmess://" ++ payload.encoded.text) = _
    rw [parseVmess,if_pos hstarts,trimPrefix_hit]
    simp only [payload_read payload,hrd]
  have hsettings : createVmessOutboundSettings rd =
      .vmess (some server.host) (some server.port) (some uuid.value) (some (ascii "auto")) := by
    rw [← hrd,createVmessOutboundSettings,vmessData,object_port,hid,hadd]
    rfl
  have hname : rd.remarks = urlDecode remark.value := by
    rw [← hrd,vmessData,hremark]
    rfl
  rw [carried_of_read hread,hsettings,hname,urlDecode_self,← hrd,
    ← transport_unescaped p.transport]
  change _ ∧ streamSettingsOf lib .vmess _ = p.stream ∧ _ ↔ _
  rw [object_stream,Parameters.stream,streamOf_map]
  exact ⟨fun h => ⟨h.2.2,h.2.1.2⟩,fun h => ⟨rfl,⟨rfl,h.2⟩,h.1⟩⟩

end Objects

section Credentials

variable {lib : Library} {server : Server} {remark : Component}

theorem userinfo_free (a b : Component) :
    ∀ c ∈ [hash,question,atSign], c ∉ a.text ++ colon::b.text := by
  intro c hc hin
  have hcolon : [hash,question,atSign].all (fun c => c ≠ colon) = true := by decide
  have hne := List.all_eq_true.mp hcolon c hc
  simp [user_free a c hc,user_free b c hc,of_decide_eq_true hne] at hin

theorem base64_free {plain : Bytes} (t : Base64Text plain) :
    ∀ c ∈ [hash,question,atSign], c ∉ t.text := by
  intro c hc
  refine separators_free t.escaped c ?_
  exact List.mem_append_left [ampersand] hc

theorem userinfo_decoded (a b : Component) :
    urlDecode (a.text ++ colon::b.text) = a.value ++ colon::b.value := by
  have hcolon : colon ≠ percent := by decide
  rw [urlDecode_escaped a.escaped,urlDecode_keep hcolon,urlDecode_spelled b.escaped]

/-- A cut at the first colon finds the parts unless it stands in the first. -/
theorem before_colon {a b : Bytes} : before colon (a ++ colon::b) = a ↔ colon ∉ a := by
  constructor
  · intro h hin
    rw [← h] at hin
    exact not_mem_before colon _ hin
  · exact before_cut

theorem parseShadowsocks_data (lib : Library) {user credentials : Bytes}
    (huser : ∀ c ∈ [hash,question,atSign], c ∉ user)
    (h : (decodeShadowsocksUserinfo (urlDecode user)).getD (urlDecode user) = credentials)
    (hcolon : colon ∈ credentials) :
    ∃ rd, parseShadowsocks (ascii "ss" ++ ascii "://" ++ linkData user server [] remark.text) =
        .ok (rd,.shadowsocks (some server.host) (some server.port)
          (some (after colon credentials)) (some (before colon credentials))) ∧
      rd.remarks = remark.value ∧ streamSettingsOf lib .shadowsocks rd = plainStream := by
  have hstarts : (ascii "ss" ++ ascii "://").isPrefixOf
      (ascii "ss" ++ ascii "://" ++ linkData user server [] remark.text) = true := rfl
  change ∃ rd, (if (ascii "ss" ++ ascii "://").isPrefixOf _ then
    splitLink (trimPrefix (ascii "ss" ++ ascii "://") _) >>= _ else _) = _ ∧ _
  rw [if_pos hstarts,trimPrefix_hit,splitLink_data huser writable_nil]
  simp only [parseHostPort_text,splitOnce_eq,h,bind,Except.bind,decide_eq_true hcolon,if_true]
  refine ⟨_,rfl,?_,rfl⟩
  exact urlDecode_spelled remark.escaped

theorem cut_settings (method password : Component) :
    Settings.shadowsocks (some server.host) (some server.port)
        (some (after colon (method.value ++ colon::password.value)))
        (some (before colon (method.value ++ colon::password.value))) =
      .shadowsocks (some server.host) (some server.port) (some password.value)
        (some method.value) ↔ colon ∉ method.value := by
  constructor
  · intro h
    injection h with _ _ _ hmethod
    exact before_colon.mp (Option.some.inj hmethod)
  · intro h
    rw [before_cut h,after_cut h]

theorem shadowsocks_carried (method password : Component) :
    (Form.shadowsocks method password : Form lib server remark).Carried ↔
      colon ∉ method.value := by
  have hcolon : colon ∈ method.value ++ colon::password.value := by simp
  have hplain : decodeShadowsocksUserinfo (method.value ++ colon::password.value) = none := by
    refine List.findSome?_eq_none_iff.mpr fun enc _ => ?_
    rw [decode_foreign hcolon (by decide) enc]
    rfl
  obtain ⟨rd,hread,hremark,hstream⟩ := parseShadowsocks_data lib (userinfo_free method password)
    (by rw [userinfo_decoded,hplain]; rfl) hcolon
  have hparse : parseAs lib (Form.shadowsocks method password : Form lib server remark).text
    .shadowsocks = _ := hread
  rw [carried_of_read hparse,← cut_settings method password]
  exact ⟨fun h => h.1,fun h => ⟨h,hstream,hremark⟩⟩

theorem shadowsocksBase64_carried (method password : Component)
    (userinfo : Base64Text (method.value ++ colon::password.value)) :
    (Form.shadowsocksBase64 method password userinfo : Form lib server remark).Carried ↔
      colon ∉ method.value := by
  have hcolon : colon ∈ method.value ++ colon::password.value := by simp
  have hdecoded : decodeShadowsocksUserinfo (urlDecode userinfo.text) =
      some (method.value ++ colon::password.value) := by
    have hown := decode_encode userinfo.variant (method.value ++ colon::password.value)
    rw [urlDecode_spelled userinfo.escaped]
    refine findSome_encodings (Option.filter_eq_some_iff.mpr ⟨hown,decide_eq_true hcolon⟩) ?_
    exact fun enc x h => Base64.decode_unique (Option.filter_eq_some_iff.mp h).1 hown
  obtain ⟨rd,hread,hremark,hstream⟩ := parseShadowsocks_data lib (base64_free userinfo)
    (by rw [hdecoded]; rfl) hcolon
  have hparse : parseAs lib
    (Form.shadowsocksBase64 method password userinfo : Form lib server remark).text
    .shadowsocks = _ := hread
  rw [carried_of_read hparse,← cut_settings method password]
  exact ⟨fun h => h.1,fun h => ⟨h,hstream,hremark⟩⟩

/-- The credentials of SOCKS as they come out. -/
def socksUsers (credentials : Bytes) : List (Option Bytes × Option Bytes) :=
  if colon ∈ credentials ∧ after colon credentials ≠ [] then
    [(some (urlDecode (before colon credentials)),some (urlDecode (after colon credentials)))]
  else []

theorem socksCredentials_of {user credentials : Bytes}
    (h : (Base64.decode ⟨false,true⟩ (urlDecode user)).getD (urlDecode user) = credentials) :
    ∃ username password, socksCredentials user = .ok (username,password) ∧
      (if username.isSome = true ∧ password.isSome = true then [(username,password)] else []) =
        socksUsers credentials := by
  unfold socksCredentials socksUsers
  simp only [splitOnce_eq,h,bind,Except.bind,decide_eq_true_eq]
  by_cases hcolon : colon ∈ credentials
  · rw [if_pos hcolon]
    refine ⟨_,_,rfl,?_⟩
    by_cases hafter : after colon credentials = []
    · simp [hafter]
    · simp [hcolon,hafter]
  · rw [if_neg hcolon]
    refine ⟨_,_,rfl,?_⟩
    simp [hcolon]

theorem parseSocks_data (lib : Library) {user credentials : Bytes}
    (scheme : {s // s ∈ schemes .socks})
    (huser : ∀ c ∈ [hash,question,atSign], c ∉ user)
    (h : (Base64.decode ⟨false,true⟩ (urlDecode user)).getD (urlDecode user) = credentials) :
    ∃ rd, parseSocks (scheme ++ ascii "://" ++ linkData user server [] remark.text) =
        .ok (rd,.socks (some server.host) (some server.port) (socksUsers credentials)) ∧
      rd.remarks = remark.value ∧ streamSettingsOf lib .socks rd = plainStream := by
  have hcolon := schemes_plain .socks scheme.1 scheme.2
  have hindex : Occurrences.index (ascii "://")
      (scheme ++ ascii "://" ++ linkData user server [] remark.text) = some scheme.1.length :=
    index_word hcolon [slash,slash] _
  have hat : atSign ∉ user := huser atSign (by simp)
  have hin : decide (atSign ∈ user ++ atSign::server.text) = true := by simp
  have hfront : before question (before hash (linkData user server [] remark.text)) =
      user ++ atSign::server.text := front_data huser writable_nil
  have hname : after hash (linkData user server [] remark.text) = remark.text :=
    (before_hash (huser hash (by simp)) writable_nil).2
  obtain ⟨username,password,hcredentials,husers⟩ := socksCredentials_of h
  rw [parseSocks,hindex]
  simp only [slice_dataOf hindex,dataOf_scheme hcolon,splitOnce_eq,hfront,hname,bind,Except.bind,
    hin,if_true,after_cut hat,before_cut hat,parseHostPort_text,hcredentials,husers]
  refine ⟨_,rfl,?_,rfl⟩
  exact urlDecode_spelled remark.escaped

/-- User name and password come out just when they survive being cut and decoded. -/
theorem socksUsers_eq (user password : Component) :
    socksUsers (user.value ++ colon::password.value) =
      [(some user.value,some password.value)] ↔ PlainCredentials user password := by
  have hin : colon ∈ user.value ++ colon::password.value := by simp
  unfold PlainCredentials
  rw [← urlDecode_self,← urlDecode_self]
  by_cases hcolon : colon ∈ user.value
  · refine iff_of_false (fun h => ?_) fun h => h.1 hcolon
    obtain ⟨a,b,hcut,ha⟩ := first_cut hcolon
    have hbefore : before colon (user.value ++ colon::password.value) = a := by
      rw [hcut,List.append_assoc,List.cons_append,before_cut ha]
    unfold socksUsers at h
    split at h
    · have huser := Option.some.inj (Prod.mk.inj (List.cons.inj h).1).1
      rw [hbefore] at huser
      have hlong := urlDecode_length a
      rw [huser,hcut,List.length_append,List.length_cons] at hlong
      omega
    · cases h
  · rw [socksUsers,before_cut hcolon,after_cut hcolon,if_pos ⟨hin,password.nonempty⟩]
    simp [hcolon]

theorem socks_carried (scheme : {s // s ∈ schemes .socks}) (user password : Component) :
    (Form.socks scheme user password : Form lib server remark).Carried ↔
      PlainCredentials user password := by
  have hcolon : colon ∈ user.value ++ colon::password.value := by simp
  have hplain : (Base64.decode ⟨false,true⟩ (urlDecode (user.text ++ colon::password.text))).getD
      (urlDecode (user.text ++ colon::password.text)) = user.value ++ colon::password.value := by
    rw [userinfo_decoded,decode_foreign hcolon (by decide)]
    rfl
  obtain ⟨rd,hread,hremark,hstream⟩ :=
    parseSocks_data lib scheme (userinfo_free user password) hplain
  have hparse : parseAs lib (Form.socks scheme user password : Form lib server remark).text
    .socks = _ := hread
  rw [carried_of_read hparse,← socksUsers_eq]
  constructor
  · intro h
    injection h.1
  · intro h
    exact ⟨by rw [h]; rfl,hstream,hremark⟩

theorem socksBase64_carried (scheme : {s // s ∈ schemes .socks}) (user password : Component)
    (userinfo : Base64Text (user.value ++ colon::password.value)) :
    (Form.socksBase64 scheme user password userinfo : Form lib server remark).Carried ↔
      PlainCredentials user password ∧ (Base64.decode ⟨false,true⟩
        (Base64.encode userinfo.variant (user.value ++ colon::password.value))).isSome = true := by
  have hown := decode_encode userinfo.variant (user.value ++ colon::password.value)
  cases hstd : Base64.decode ⟨false,true⟩
      (Base64.encode userinfo.variant (user.value ++ colon::password.value)) with
  | none =>
    have hget : (Base64.decode ⟨false,true⟩ (urlDecode userinfo.text)).getD
        (urlDecode userinfo.text) = Base64.encode userinfo.variant
          (user.value ++ colon::password.value) := by
      rw [urlDecode_spelled userinfo.escaped,hstd,Option.getD_none]
    obtain ⟨rd,hread,-,-⟩ := parseSocks_data lib scheme (base64_free userinfo) hget
    have hparse : parseAs lib
      (Form.socksBase64 scheme user password userinfo : Form lib server remark).text .socks = _ :=
      hread
    have husers : socksUsers (Base64.encode userinfo.variant
        (user.value ++ colon::password.value)) = [] :=
      if_neg fun h => colon_encode _ _ h.1
    rw [carried_of_read hparse,husers]
    refine iff_of_false (fun h => ?_) fun h => by cases h.2
    injection h.1 with _ _ hlist
    cases hlist
  | some credentials =>
    obtain rfl := Base64.decode_unique hstd hown
    have hget : (Base64.decode ⟨false,true⟩ (urlDecode userinfo.text)).getD
        (urlDecode userinfo.text) = user.value ++ colon::password.value := by
      rw [urlDecode_spelled userinfo.escaped,hstd,Option.getD_some]
    obtain ⟨rd,hread,hremark,hstream⟩ := parseSocks_data lib scheme (base64_free userinfo) hget
    have hparse : parseAs lib
      (Form.socksBase64 scheme user password userinfo : Form lib server remark).text .socks = _ :=
      hread
    rw [carried_of_read hparse,Option.isSome_some,and_iff_left rfl,← socksUsers_eq]
    constructor
    · intro h
      injection h.1
    · intro h
      exact ⟨by rw [h]; rfl,hstream,hremark⟩

end Credentials

section Hysteria

variable {lib : Library} {server : Server} {remark : Component}

theorem parseHysteria2_data (lib : Library) (server : Server) (remark password sni : Component) :
    ∃ rd, parseHysteria2Data lib
        (linkData password.text server [(ascii "sni",sni.text)] remark.text) =
          .ok (rd,.hysteria 2 (some server.host) (some server.port)) ∧
      rd.remarks = remark.value ∧
        streamSettingsOf lib .hysteria2 rd = hysteriaStream password.value sni.text := by
  have hnil : server.text ≠ [] := by simp [Server.text]
  rw [parseHysteria2Data,splitLink_data (user_free password) (sni_writable sni)]
  simp only [bind,Except.bind,trimSuffix_text,hnil,if_false,hysteriaAddress_text,server.nonempty,
    parseQuery_eq,queryOf_data (user_free password) (sni_writable sni),queryData_sni]
  refine ⟨_,rfl,?_,?_⟩
  · exact urlDecode_spelled remark.escaped
  · rw [← urlDecode_spelled password.escaped]
    rfl

theorem hysteria2_carried (scheme : {s // s ∈ schemes .hysteria2}) (password sni : Component) :
    (Form.hysteria2 scheme password sni : Form lib server remark).Carried ↔
      sni.text = sni.value := by
  obtain ⟨rd,hread,hremark,hstream⟩ := parseHysteria2_data lib server remark password sni
  have hproto := protocol_text (Form.hysteria2 scheme password sni : Form lib server remark)
  have hparse : parseAs lib (Form.hysteria2 scheme password sni : Form lib server remark).text
      .hysteria2 = .ok (rd,.hysteria 2 (some server.host) (some server.port)) := by
    have hdata := dataOf_scheme (schemes_plain .hysteria2 scheme.1 scheme.2)
      (linkData password.text server [(ascii "sni",sni.text)] remark.text)
    rw [parseAs,parseHysteria2_eq hproto,← hread,← hdata]
    rfl
  rw [carried_of_read hparse]
  change _ ∧ streamSettingsOf lib .hysteria2 rd = _ ∧ _ ↔ _
  rw [hstream]
  constructor
  · rintro ⟨-,h,-⟩
    have htls := (StreamSettings.mk.inj h).2.2.1
    injection htls with htls
    exact Option.some.inj (TLSSettings.mk.inj htls).2.2.2
  · intro h
    rw [h]
    exact ⟨rfl,rfl,hremark⟩

end Hysteria

section Results

variable {lib : Library} {server : Server} {remark : Component}

/-- A link is read as what it was written from just when no value of it is
changed on the way. -/
theorem carried_iff (form : Form lib server remark) : form.Carried ↔ form.Faithful := by
  cases form with
  | vless uuid p => exact vless_carried uuid p
  | vmess uuid p => exact vmess_carried uuid p
  | vmessBase64 uuid p asText payload => exact vmessBase64_carried uuid p asText payload
  | trojan password p => exact trojan_carried password p
  | shadowsocks method password => exact shadowsocks_carried method password
  | shadowsocksBase64 method password userinfo =>
    exact shadowsocksBase64_carried method password userinfo
  | socks scheme user password => exact socks_carried scheme user password
  | socksBase64 scheme user password userinfo =>
    exact socksBase64_carried scheme user password userinfo
  | hysteria2 scheme password sni => exact hysteria2_carried scheme password sni

/-- A text written without escapes. -/
def unspelled : Component :=
  ⟨ascii "u",by decide,ascii "u",.keep (by decide) (by decide) .nil⟩

/-- A space, escaped. -/
def space : Component := ⟨ascii " ",by decide,ascii "%20",.escape (by decide) .nil⟩

/-- A text that looks like an escape, escaped. -/
def escapeLike : Component :=
  ⟨ascii "%41",by decide,ascii "%2541",
    .escape (by decide) (.keep (by decide) (by decide) (.keep (by decide) (by decide) .nil))⟩

def named : Server where
  host := ascii "h"
  bracketed := false
  port := 443
  digits := ascii "443"
  nonempty := by decide
  plain c hc := by
    obtain rfl : c = 0x68 := List.mem_singleton.mp hc
    decide
  colons := fun h => by revert h; decide
  isDecimal :=
    ⟨by decide,List.all_eq_true.mp (show (ascii "443").all decimalDigit = true by decide)⟩
  reads := by decide

theorem carried_fails :
    ¬(Form.vless unspelled ⟨.tls,space,.grpc unspelled⟩ : Form nullOnly named unspelled).Carried ∧
    ¬(Form.socks ⟨ascii "socks",by decide⟩ unspelled escapeLike :
      Form nullOnly named unspelled).Carried := by
  refine ⟨fun h => ?_,fun h => ?_⟩
  · have htext := (vless_carried unspelled ⟨.tls,space,.grpc unspelled⟩).mp h
    revert htext
    decide
  · obtain ⟨-,-,hplain⟩ := (socks_carried ⟨ascii "socks",by decide⟩ unspelled escapeLike).mp h
    have hself := urlDecode_self.mpr hplain
    revert hself
    decide

end Results

end Whoisthat.LinkRoundTrip
