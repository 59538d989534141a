import Whoisthat.XrayConfig

/-!
# Provider configurations

A profile of a JSON subscription keeps the provider's whole Xray document.
`Prepare` puts our inbounds, the service outbounds and the manual rules into
it; the provider's rules, balancers and servers stay as they are.
-/

set_option autoImplicit false

namespace Whoisthat.ProviderConfig
open Whoisthat.Records Whoisthat.RoutingStore Whoisthat.Json
open Whoisthat.XrayConfig (isStr member splitComma splitAndTrim)

structure Options where
  socksPort : ℤ
  httpPort : ℤ
  tunName : String
  apiPort : ℤ
  dnsServers : List String
  bootstrapHosts : List (String × List String)
  userRules : List RoutingRule
  userDomainStrategy : String
  globalGeoExt : Bool

inductive PrepareError where
  | parseConfig
  | noOutbounds
  | noProxyOutbound
  deriving DecidableEq

structure Prepared where
  config : Fields
  proxyTags : List String

def serviceProtocols : List String := ["","freedom","blackhole","dns","loopback"]

def isServiceProtocol (protocol : String) : Bool := toLower (trimSpace protocol) ∈ serviceProtocols

section Outbounds

def tagOf (outbound : Fields) : String := (outbound.index "tag").asString

/-- Outbounds that carry a proxy connection and can be named by a rule. -/
def isProxyOutbound (outbound : Fields) : Bool :=
  !isServiceProtocol (outbound.index "protocol").asString && tagOf outbound ≠ ""

def collectProxyTags (outbounds : List Value) : List String :=
  outbounds.filterMap fun raw =>
    match raw with
    | .obj outbound => if isProxyOutbound outbound then some (tagOf outbound) else none
    | _ => none

def ensureOutbound (outbounds : List Value) (tag protocol : String) (settings : Fields) :
    List Value :=
  if outbounds.any fun raw => isStr (Fields.index raw.asMap "tag") tag then outbounds
  else outbounds ++
    [.obj [("tag",.str tag),("protocol",.str protocol),("settings",.obj settings)]]

def ensureServiceOutbounds (outbounds : List Value) : List Value :=
  let outbounds := ensureOutbound outbounds "direct" "freedom" [("domainStrategy",.str "UseIP")]
  let outbounds := ensureOutbound outbounds "block" "blackhole" []
  ensureOutbound outbounds "dns-out" "dns" []

def sockoptOf (outbound : Fields) : Fields :=
  (Fields.index (outbound.index "streamSettings").asMap "sockopt").asMap

def markFreedomOutbound : Value → Value
  | .obj outbound =>
    if isStr (Fields.index outbound "protocol") "freedom" then
      let stream := (Fields.index outbound "streamSettings").asMap
      let sockopt := Fields.put (sockoptOf outbound) "mark" (.int 1)
      .obj (Fields.put outbound "streamSettings" (.obj (stream.put "sockopt" (.obj sockopt))))
    else .obj outbound
  | other => other

def markFreedomOutbounds (outbounds : List Value) : List Value := outbounds.map markFreedomOutbound

/-- The tags that are strings, the empty one included. -/
def stringTags (values : List Value) : List String :=
  values.filterMap fun raw =>
    match Fields.index raw.asMap "tag" with
    | .str tag => some tag
    | _ => none

/-- Objects of transport settings that have become empty disappear. -/
def putOrDelete (fields : Fields) (name : String) (value : Fields) : Fields :=
  if value.isEmpty then fields.delete name else fields.put name (.obj value)

def dialerProxy (outbound : Fields) : String :=
  (Fields.index (sockoptOf outbound) "dialerProxy").asString

/-- A reference to no outbound is pointed at the first proxy, unless it is
that proxy's own. -/
def fixDialerProxy (tags : List String) (fallback : String) : Value → Value
  | .obj outbound =>
    let stream := (Fields.index outbound "streamSettings").asMap
    if dialerProxy outbound = "" ∨ dialerProxy outbound ∈ tags then .obj outbound
    else
      let sockopt :=
        if fallback = "" ∨ isStr (Fields.index outbound "tag") fallback then
          Fields.delete (sockoptOf outbound) "dialerProxy"
        else Fields.put (sockoptOf outbound) "dialerProxy" (.str fallback)
      .obj (putOrDelete outbound "streamSettings" (putOrDelete stream "sockopt" sockopt))
  | other => other

def fixDanglingDialerProxy (outbounds : List Value) (proxyTags : List String) : List Value :=
  outbounds.map (fixDialerProxy (stringTags outbounds) (proxyTags.headD ""))

end Outbounds

section Inbounds

def sniffing (value : Value) : Fields :=
  let s := Fields.put value.asMap "enabled" (.bool true)
  let s := Fields.put s "routeOnly" (.bool false)
  if s.has "destOverride" then s else s.put "destOverride" (.strs ["http","tls"])

/-- A provider inbound of one of our two protocols listens on our port. -/
def rebound (inbound : Fields) (port : ℤ) : Value :=
  let inbound := inbound.put "port" (.int port)
  let inbound := Fields.put inbound "listen" (.str "127.0.0.1")
  .obj (Fields.put inbound "sniffing" (.obj (sniffing (Fields.index inbound "sniffing"))))

def rewriteInbound (opts : Options) : Value → Option Value
  | .obj inbound =>
    let protocol := (Fields.index inbound "protocol").asString
    if protocol = "socks" ∧ opts.socksPort > 0 then some (rebound inbound opts.socksPort)
    else if protocol = "http" ∧ opts.httpPort > 0 then some (rebound inbound opts.httpPort)
    else none
  | _ => none

def hasInboundProtocol (inbounds : List Value) (protocol : String) : Bool :=
  inbounds.any fun raw => isStr (Fields.index raw.asMap "protocol") protocol

def socksInbound (port : ℤ) : Value :=
  .obj [("tag",.str "socks-in"),("protocol",.str "socks"),("port",.int port),
    ("listen",.str "127.0.0.1"),
    ("settings",.obj [("udp",.bool true),("auth",.str "noauth")]),
    ("sniffing",.obj (sniffing .null))]

def httpInbound (port : ℤ) : Value :=
  .obj [("tag",.str "http-in"),("protocol",.str "http"),("port",.int port),
    ("listen",.str "127.0.0.1"),("sniffing",.obj (sniffing .null))]

def tunInbound (tunName : String) : Value :=
  .obj [("tag",.str "tun-in"),("protocol",.str "tun"),
    ("settings",.obj [("name",.str tunName),("MTU",.int 1400)]),
    ("sniffing",.obj [("enabled",.bool true),("routeOnly",.bool false),
      ("metadataOnly",.bool false),("destOverride",.strs ["http","tls"])])]

def rewriteInbounds (value : Value) (opts : Options) : List Value :=
  let out := value.asSlice.filterMap (rewriteInbound opts)
  let out := if opts.socksPort > 0 ∧ hasInboundProtocol out "socks" = false then
    out ++ [socksInbound opts.socksPort] else out
  let out := if opts.httpPort > 0 ∧ hasInboundProtocol out "http" = false then
    out ++ [httpInbound opts.httpPort] else out
  if opts.tunName ≠ "" then out ++ [tunInbound opts.tunName] else out

end Inbounds

section Dns

def addBootstrapHost (hosts : Fields) (e : String × List String) : Fields :=
  if hosts.has e.1 then hosts
  else match e.2 with
    | [] => hosts
    | [ip] => hosts.put e.1 (.str ip)
    | ips => hosts.put e.1 (.strs ips)

def mergeDNS (value : Value) (opts : Options) : Fields :=
  let configured := if opts.dnsServers = [] then ["1.1.1.1","8.8.8.8"] else opts.dnsServers
  let dns := value.asMap
  let dns := if (dns.index "servers").asSlice.isEmpty then
      dns.put "servers" (.arr (configured.map fun address => .obj [("address",.str address)]))
    else dns
  let hosts := opts.bootstrapHosts.foldl addBootstrapHost (Fields.index dns "hosts").asMap
  if hosts.isEmpty then dns else Fields.put dns "hosts" (.obj hosts)

end Dns

section Rules

def rewriteGeo (value : String) (ip : Bool) : String :=
  let kind := if ip then "geoip:" else "geosite:"
  let target := if ip then "ext-ip:geoip-global.dat:" else "ext-domain:geosite-global.dat:"
  if value.startsWith (kind ++ "ext:") then value
  else if value.startsWith kind then target ++ String.ofList (value.toList.drop kind.length)
  else value

def rewriteGeoList (values : List String) (enabled ip : Bool) : List String :=
  if enabled then values.map (rewriteGeo · ip) else values

/-- The tcp and udp parts of a network field; nothing else may be named. -/
def isFullNetwork (value : Value) : Bool :=
  let full (parts : List String) : Bool :=
    let set := (parts.map fun part => toLower (trimSpace part)).filter (· ≠ "")
    set.contains "tcp" && set.contains "udp" && set.all fun p => p = "tcp" || p = "udp"
  match value with
  | .str v => full (splitComma v)
  | .arr items => items.all Value.isString && full (items.map Value.asString)
  | _ => false

/-- A field nobody knows here may be a condition, so only listed ones pass. -/
def isCatchAll (rule : Fields) : Bool :=
  rule.all fun e =>
    e.1 ∈ ["type","ruleTag","outboundTag","balancerTag"] || (e.1 = "network" && isFullNetwork e.2)

/-- `asStringSlice`, `[]` also for a list that holds something else -/
def asStringSlice (value : Value) : List String :=
  match value with
  | .arr items => if items.all Value.isString then items.map Value.asString else []
  | _ => []

/-- Xray matches selectors against the beginning of a tag. -/
def hasPrefix (tag selector : String) : Bool := selector.toList.isPrefixOf tag.toList

def findBalancer (balancers : List Value) (tag : String) : Option Fields :=
  (balancers.find? fun raw => isStr (Fields.index raw.asMap "tag") tag).map Value.asMap

def taggedOutbounds (outbounds : List Value) : List String :=
  (outbounds.map fun raw => tagOf raw.asMap).filter (· ≠ "")

/-- For every tag the first selector that is empty or matches decides. -/
def balancerSelectsOnlyProxy (balancers outbounds : List Value) (tag : String)
    (proxyTags : List String) : Bool :=
  match findBalancer balancers tag with
  | none => false
  | some balancer =>
    let selectors := asStringSlice (balancer.index "selector")
    let tags := taggedOutbounds outbounds
    let selectorOf (t : String) := selectors.find? fun s => s = "" || hasPrefix t s
    (tags.all fun t => match selectorOf t with
      | some s => s ≠ "" && proxyTags.contains t
      | none => true) &&
    tags.any fun t => (selectorOf t).isSome

structure ProxyTarget where
  tag : String
  balancer : Bool
  deriving DecidableEq

def targetOfCatchAll (rule : Fields) (outbounds balancers : List Value) (proxyTags : List String) :
    Option ProxyTarget :=
  let outboundTag := (rule.index "outboundTag").asString
  let balancerTag := (rule.index "balancerTag").asString
  if outboundTag ≠ "" then
    if outboundTag ∈ proxyTags then some ⟨outboundTag,false⟩ else none
  else if balancerTag ≠ "" then
    if balancerSelectsOnlyProxy balancers outbounds balancerTag proxyTags then
      some ⟨balancerTag,true⟩
    else none
  else none

/-- Only the first catch-all rule of the provider can be reached. -/
def defaultProxyTarget (providerRules outbounds balancers : List Value) (proxyTags : List String) :
    Option ProxyTarget :=
  match providerRules.find? fun raw => match raw with | .obj rule => isCatchAll rule | _ => false with
  | some raw => targetOfCatchAll raw.asMap outbounds balancers proxyTags
  | none => none

def outboundHasDialerProxy (outbounds : List Value) (tag : String) : Bool :=
  match outbounds.find? fun raw => isStr (Fields.index raw.asMap "tag") tag with
  | some raw => dialerProxy raw.asMap ≠ ""
  | none => false

def proxyTagsWithoutDialerProxy (outbounds : List Value) (proxyTags : List String) : List String :=
  proxyTags.filter fun tag => !outboundHasDialerProxy outbounds tag

def balancerName : ℕ → String
  | 0 => "whoisthat-user-proxy"
  | n+1 => "whoisthat-user-proxy-" ++ toString (n+2)

/-- The first numbered name nobody carries; among one more names than there are
carriers one is free. -/
def uniqueBalancerTag (existing outbounds : List Value) : String :=
  let taken := stringTags existing ++ stringTags outbounds
  (((List.range (taken.length+1)).map balancerName).find? fun tag => !taken.contains tag).getD
    (balancerName 0)

/-- Where manual `proxy` rules go: an outbound, a balancer of the provider, or
a balancer generated over the given tags. -/
inductive UserTarget where
  | outbound (tag : String)
  | balancer (tag : String)
  | generated (tag : String) (selector : List String)
  deriving DecidableEq

def userTarget (outbounds balancers : List Value) (proxyTags : List String)
    (defaultTarget : Option ProxyTarget) : UserTarget :=
  if "proxy" ∈ proxyTags then .outbound "proxy"
  else match proxyTags,defaultTarget with
    | [tag],_ => .outbound tag
    | _,some target => if target.balancer then .balancer target.tag else .outbound target.tag
    | _,none =>
      let unchained := proxyTagsWithoutDialerProxy outbounds proxyTags
      .generated (uniqueBalancerTag balancers outbounds)
        (if unchained = [] then proxyTags else unchained)

def targetMember (target : UserTarget) (outboundTag : String) : String × Value :=
  if outboundTag = "proxy" then
    match target with
    | .outbound tag => ("outboundTag",.str (if tag = "" then outboundTag else tag))
    | .balancer tag => ("balancerTag",.str tag)
    | .generated tag _ => ("balancerTag",.str tag)
  else ("outboundTag",.str outboundTag)

/-- The conditions of a manual rule, with the geo files of the manual rules. -/
def ruleConditions (globalGeoExt : Bool) (r : RoutingRule) : Fields :=
  [("type",.str (if r.type = "" then "field" else r.type))] ++
  member (r.domain ≠ "") "domain"
    (.strs (rewriteGeoList (splitAndTrim r.domain) globalGeoExt false)) ++
  member (r.ip ≠ "") "ip" (.strs (rewriteGeoList (splitAndTrim r.ip) globalGeoExt true)) ++
  member (r.protocol ≠ "") "protocol" (.strs [r.protocol]) ++
  member (r.port ≠ "") "port" (.str r.port) ++
  member (r.network ≠ "") "network" (.str r.network)

def userRule (globalGeoExt : Bool) (target : UserTarget) (r : RoutingRule) : Value :=
  .obj (ruleConditions globalGeoExt r ++ [targetMember target r.outboundTag])

def buildUserRules (configured : List RoutingRule) (globalGeoExt : Bool) (target : UserTarget) :
    List Value :=
  (configured.filter (·.enabled)).map (userRule globalGeoExt target)

def randomBalancer (tag : String) (selector : List String) : Fields :=
  [("tag",.str tag),("selector",.strs selector),("strategy",.obj [("type",.str "random")])]

/-- The generated balancer, made as soon as there is any manual rule. -/
def extraBalancer (configured : List RoutingRule) (target : UserTarget) : List Value :=
  match configured,target with
  | [],_ => []
  | _,.generated tag selector => [.obj (randomBalancer tag selector)]
  | _,_ => []

def structuralRules (opts : Options) : List Value :=
  (if opts.apiPort > 0 then
    [.obj [("type",.str "field"),("inboundTag",.strs ["api"]),("outboundTag",.str "api")]]
   else []) ++
  (if opts.tunName ≠ "" then [XrayConfig.dnsCaptureRule] else [])

def mergeRouting (routing : Fields) (outbounds : List Value) (proxyTags : List String)
    (opts : Options) : Fields :=
  let balancers := (routing.index "balancers").asSlice
  let providerRules := (routing.index "rules").asSlice
  let target := userTarget outbounds balancers proxyTags
    (defaultProxyTarget providerRules outbounds balancers proxyTags)
  let extra := extraBalancer opts.userRules target
  let routing := routing.put "rules" (.arr (structuralRules opts ++
    buildUserRules opts.userRules opts.globalGeoExt target ++ providerRules))
  let routing := if extra.isEmpty then routing
    else Fields.put routing "balancers" (.arr (balancers ++ extra))
  if routing.has "domainStrategy" then routing
  else routing.put "domainStrategy"
    (.str (if opts.userDomainStrategy ≠ "" then opts.userDomainStrategy else "IPIfNonMatch"))

end Rules

/-- The outbounds of the prepared configuration. -/
def preparedOutbounds (outbounds : List Value) : List Value :=
  fixDanglingDialerProxy (markFreedomOutbounds (ensureServiceOutbounds outbounds))
    (collectProxyTags outbounds)

def prepareFields (config : Fields) (opts : Options) : Fields :=
  let outbounds := preparedOutbounds (config.index "outbounds").asSlice
  let proxyTags := collectProxyTags (config.index "outbounds").asSlice
  let config := config.put "outbounds" (.arr outbounds)
  let config := Fields.put config "inbounds"
    (.arrOrNull (rewriteInbounds (config.index "inbounds") opts))
  let config := Fields.put config "dns" (.obj (mergeDNS (config.index "dns") opts))
  Fields.put config "routing"
    (.obj (mergeRouting (Fields.index config "routing").asMap outbounds proxyTags opts))

def prepare (raw : Value) (opts : Options) : Except PrepareError Prepared :=
  match unmarshalMap raw with
  | none => .error .parseConfig
  | some config =>
    let outbounds := (config.index "outbounds").asSlice
    if outbounds.isEmpty then .error .noOutbounds
    else if (collectProxyTags outbounds).isEmpty then .error .noProxyOutbound
    else .ok ⟨prepareFields config opts,collectProxyTags outbounds⟩

section FreshName

theorem balancerName_zero_ne (n : ℕ) : balancerName 0 ≠ balancerName (n+1) := by
  intro h
  have hlist := congrArg String.toList h
  rw [show balancerName 0 = "whoisthat-user-proxy" from rfl,
    show balancerName (n+1) = "whoisthat-user-proxy-" ++ toString (n+2) from rfl,
    String.toList_append] at hlist
  have hlen := congrArg List.length hlist
  simp at hlen

theorem balancerName_injective : Function.Injective balancerName := by
  intro m n h
  cases m with
  | zero =>
    cases n with
    | zero => rfl
    | succ n => exact absurd h (balancerName_zero_ne n)
  | succ m =>
    cases n with
    | zero => exact absurd h.symm (balancerName_zero_ne m)
    | succ n =>
      have htext : "whoisthat-user-proxy-" ++ toString (m+2) =
          "whoisthat-user-proxy-" ++ toString (n+2) := h
      have hlist := congrArg String.toList htext
      rw [String.toList_append,String.toList_append] at hlist
      have hdigits := List.append_cancel_left hlist
      rw [Nat.toString_eq_ofList_toDigits,Nat.toString_eq_ofList_toDigits,String.toList_ofList,
        String.toList_ofList] at hdigits
      have hnum := congrArg (fun ds => Nat.ofDigitChars 10 ds 0) hdigits
      simp only [Nat.ofDigitChars_ten_toDigits] at hnum
      omega

theorem uniqueBalancerTag_fresh (existing outbounds : List Value) :
    uniqueBalancerTag existing outbounds ∉ stringTags existing ++ stringTags outbounds := by
  unfold uniqueBalancerTag
  generalize stringTags existing ++ stringTags outbounds = taken
  dsimp only
  cases hf : ((List.range (taken.length+1)).map balancerName).find?
      fun tag => !taken.contains tag with
  | some tag => simpa using List.find?_some hf
  | none =>
    -- one more name than there are taken ones
    have hsub : (List.range (taken.length+1)).map balancerName ⊆ taken := by
      intro tag htag
      simpa using List.find?_eq_none.mp hf tag htag
    have hnodup : ((List.range (taken.length+1)).map balancerName).Nodup :=
      List.nodup_range.map balancerName_injective
    have hlen := hnodup.length_le_of_subset hsub
    rw [List.length_map,List.length_range] at hlen
    omega

theorem uniqueBalancerTag_ne (existing outbounds : List Value) :
    uniqueBalancerTag existing outbounds ≠ "" := by
  have hname (n : ℕ) : balancerName n ≠ "" := by
    cases n with
    | zero => decide
    | succ n =>
      rw [show balancerName (n+1) = "whoisthat-user-proxy-" ++ toString (n+2) from rfl]
      intro h
      have hlist := congrArg String.toList h
      simp [String.toList_append] at hlist
  unfold uniqueBalancerTag
  dsimp only
  cases hf : ((List.range _).map balancerName).find? _ with
  | none => exact hname 0
  | some tag =>
    obtain ⟨n,_,rfl⟩ := List.mem_map.mp (List.mem_of_find?_eq_some hf)
    exact hname n

end FreshName

theorem mem_collectProxyTags {outbounds : List Value} {tag : String} :
    tag ∈ collectProxyTags outbounds ↔
      ∃ ob, Value.obj ob ∈ outbounds ∧ isProxyOutbound ob = true ∧ tagOf ob = tag := by
  unfold collectProxyTags
  rw [List.mem_filterMap]
  constructor
  · rintro ⟨raw,hraw,h⟩
    cases raw with
    | obj ob =>
      simp only [Option.ite_none_right_eq_some,Option.some.injEq] at h
      exact ⟨ob,hraw,h.1,h.2⟩
    | _ => exact nomatch h
  · rintro ⟨ob,hob,hp,ht⟩
    exact ⟨_,hob,by simp [hp,ht]⟩

theorem isProxyOutbound_iff {ob : Fields} :
    isProxyOutbound ob = true ↔
      isServiceProtocol (ob.index "protocol").asString = false ∧ tagOf ob ≠ "" := by
  simp [isProxyOutbound]

/-- `prepare` succeeds on the decoded documents that name a proxy outbound. -/
theorem prepare_ok {raw : Value} {opts : Options} {prepared : Prepared} :
    prepare raw opts = .ok prepared ↔
      ∃ config, unmarshalMap raw = some config ∧
        (∃ ob, Value.obj ob ∈ (config.index "outbounds").asSlice ∧ isProxyOutbound ob = true) ∧
        prepared = ⟨prepareFields config opts,
          collectProxyTags (config.index "outbounds").asSlice⟩ := by
  unfold prepare
  cases hc : unmarshalMap raw with
  | none => simp
  | some config =>
    have htags : (collectProxyTags (config.index "outbounds").asSlice).isEmpty = false ↔
        ∃ ob, Value.obj ob ∈ (config.index "outbounds").asSlice ∧ isProxyOutbound ob = true := by
      rw [List.isEmpty_eq_false_iff_exists_mem]
      simp only [mem_collectProxyTags]
      exact ⟨fun ⟨_,ob,hob,hp,_⟩ => ⟨ob,hob,hp⟩,fun ⟨ob,hob,hp⟩ => ⟨_,ob,hob,hp,rfl⟩⟩
    simp only [Option.some.injEq,exists_eq_left']
    rw [← htags]
    cases hl : (config.index "outbounds").asSlice with
    | nil => simp [collectProxyTags]
    | cons v vs =>
      cases (collectProxyTags (v::vs)).isEmpty <;> simp [eq_comm]

end Whoisthat.ProviderConfig
