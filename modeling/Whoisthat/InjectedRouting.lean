import Whoisthat.ConfigShape
import Whoisthat.HappRules
import Whoisthat.IPLiterals

/-!
# The routing of a share-link configuration

The selected routing is written into the configuration of a link: outbounds for
the rules to name, our own rules before those of the user, and a DNS section
whose two servers answer for the domains of the rules. Every name that is
written leads somewhere. The domains of a server keep one spelling of each
matcher, although regular expressions tell letters apart by their case.
-/

set_option autoImplicit false

namespace Whoisthat.InjectedRouting
open Whoisthat.Records Whoisthat.RoutingResolution Whoisthat.Json Whoisthat.XrayConfig
open Whoisthat.RuleEnforcement (outboundsOf rulesOf outboundTag)
open Whoisthat.ProviderConfig (tagOf)
open Whoisthat.ConfigShape (inboundsOf tagsOf inboundTags NamesOutbound apiTag mem_tagsOf)
open Whoisthat.IPLiterals (parseIP)
open Whoisthat.FirstMatch (firsts mem_firsts firsts_covers)

section Links

/-- What the parser of its protocol finds in a link. -/
structure Link where
  protocol : String
  settings : Value
  streamSettings : Value

def linkOutbound (link : Link) : Fields :=
  [("protocol",.str link.protocol),("tag",.str "proxy"),("settings",link.settings),
    ("streamSettings",link.streamSettings)]

def createOutboundObject (parseLink : String → Option Link) (uri : String) : Option Fields :=
  (parseLink uri).map linkOutbound

/-- With the statistics, as the routing finds it. -/
def linkConfig (parseLink : String → Option Link) (uri : String)
    (socksPort httpPort apiPort : ℤ) (tunName : String) : Option Fields :=
  (parseUriWithTun (createOutboundObject parseLink) uri socksPort httpPort tunName).map
    (injectStatsConfig · apiPort)

def defaultDnsServers : List String :=
  ["1.1.1.1","8.8.8.8","2606:4700:4700::1111","2001:4860:4860::8888"]

def sanitizeDnsServers (servers : List String) : List String :=
  let valid := servers.filter fun s => (parseIP s).isSome
  if valid = [] then defaultDnsServers else valid

theorem sanitizeDnsServers_ne_nil (servers : List String) : sanitizeDnsServers servers ≠ [] := by
  unfold sanitizeDnsServers
  dsimp only
  split
  · decide
  · assumption

end Links

section Meaning

def dnsServersOf (config : Fields) : List Fields :=
  (Fields.index (config.index "dns").asMap "servers").asSlice.map Value.asMap

def domainsOf (server : Fields) : List String :=
  (server.index "domains").asSlice.map Value.asString

def overridesOf (inbound : Value) : List Value :=
  (Fields.index (Fields.index inbound.asMap "sniffing").asMap "destOverride").asSlice

/-- The rules that nobody configured. -/
def ownRules : List Value :=
  [apiRule,dnsCaptureRule,inboundRule "domestic-dns" "direct",inboundRule "remote-dns" "proxy",
    legacyDNSRule]

structure Leads (config rule : Fields) : Prop where
  outbound : NamesOutbound config (outboundTag rule)
  inbound : ∀ tag ∈ inboundTags rule,
    tag ∈ tagsOf (inboundsOf config) ∨ tag ∈ (dnsServersOf config).map tagOf

/-- The profile asks for fake addresses where they are safe. -/
structure FakesWanted (env : Env) (selection : RoutingSelection) (tunActive : Bool) : Prop where
  tun : tunActive = true
  globalProxy : selection.globalProxy = true
  profile : ∃ cfg, happDNS selection = some cfg ∧ cfg.fakeDNSEnabled = true
  split : env.splitTunnelMode ≠ "include"

/-- Pools, server and sniffing of the fake addresses come together. -/
structure FakesWhen (config : Fields) (wanted : Prop) : Prop where
  pools : config.has "fakedns" = true ↔ wanted
  server : "fakedns" ∈ (dnsServersOf config).map tagOf ↔ wanted
  sniffed : ∀ inbound ∈ inboundsOf config,
    Value.str "fakedns" ∈ overridesOf inbound ↔ wanted ∧ tagOf inbound.asMap = "tun-in"

/-- The two servers a profile may name. -/
inductive Resolver where
  | domestic
  | remote
  deriving DecidableEq

def Resolver.tag : Resolver → String
  | .domestic => "domestic-dns"
  | .remote => "remote-dns"

def Resolver.outbound : Resolver → String
  | .domestic => "direct"
  | .remote => "proxy"

def Resolver.address (cfg : HappDNSConfig) : Resolver → String
  | .domestic => dnsServerAddress cfg.domesticDNSType cfg.domesticDNSDomain cfg.domesticDNSIP
  | .remote => dnsServerAddress cfg.remoteDNSType cfg.remoteDNSDomain cfg.remoteDNSIP

/-- The domain matchers of the enabled rules for one outbound. -/
def matchersFor (rules : List RoutingRule) (outbound : String) : List String :=
  (rules.filter fun r => r.enabled && r.outboundTag = outbound).flatMap fun r =>
    splitAndTrim r.domain

/-- Under another spelling only where the case of letters says nothing. -/
def Assigned (env : Env) (caseCounts : String → Bool) (domains : List String)
    (matcher : String) : Prop :=
  if caseCounts matcher then matcher ∈ domains
  else ∃ d ∈ domains, env.lower d = env.lower matcher

structure WellRouted (env : Env) (caseCounts : String → Bool) (selection : RoutingSelection)
    (tunActive : Bool) (config : Fields) : Prop where
  outbounds : ((outboundsOf config).map fun raw => tagOf raw.asMap).Nodup
  rules : ∃ own, rulesOf config = own ++ buildUserRules selection.config.rules ∧
    ∀ raw ∈ own, raw ∈ ownRules ∧ Leads config raw.asMap
  fallback : ∃ server ∈ dnsServersOf config, server.has "domains" = false
  fakes : FakesWhen config (FakesWanted env selection tunActive)
  matchers : ∀ r : Resolver, ∀ server ∈ dnsServersOf config, tagOf server = r.tag →
    server.has "domains" = true → ∀ d ∈ matchersFor selection.config.rules r.outbound,
      Assigned env caseCounts (domainsOf server) d

end Meaning

section Condition

/-- The server answers for the domains of the rules only. -/
def Resolver.Selective (selection : RoutingSelection) (cfg : HappDNSConfig) : Resolver → Prop
  | .domestic => selection.globalProxy = true ∧ Resolver.address cfg .domestic ≠ ""
  | .remote => selection.globalProxy = false ∧ Resolver.address cfg .domestic ≠ "" ∧
      Resolver.address cfg .remote ≠ ""

/-- Where the case of letters counts, a matcher comes before other spellings. -/
def FirstSpelt (env : Env) (caseCounts : String → Bool) (matchers : List String) : Prop :=
  ∀ d ∈ matchers, caseCounts d → matchers.find? (fun e => env.lower e = env.lower d) = some d

structure Respects (env : Env) (caseCounts : String → Bool) (selection : RoutingSelection)
    (tunActive : Bool) (tunName : String) : Prop where
  matchers : ∀ cfg, happDNS selection = some cfg → ∀ r : Resolver, r.Selective selection cfg →
    FirstSpelt env caseCounts (matchersFor selection.config.rules r.outbound)
  /-- Queries are captured where there is a tunnel. -/
  capture : (happDNS selection).isSome = true → tunActive = true → tunName ≠ ""

/-- The outbounds a rule of the user may name. -/
def Offered (selection : RoutingSelection) (tunActive : Bool) (apiPort : ℤ) (tag : String) : Prop :=
  tag ∈ ["proxy","direct","block"] ∨
    (tag = "dns-out" ∧ (happDNS selection).isSome = true ∧ tunActive = true) ∨
    (tag = "api" ∧ apiPort > 0)

end Condition

section Base

/-- What the routing finds in the configuration of a link. -/
structure LinkBased (socksPort httpPort apiPort : ℤ) (tunName : String) (config : Fields) :
    Prop where
  outbounds : ∃ link, config.index "outbounds" = .arr [.obj (linkOutbound link)]
  inbounds : config.index "inbounds" =
    .arr ((generateInboundConfigWithTun socksPort httpPort tunName).map .obj ++
      if apiPort > 0 then [apiInbound apiPort] else [])
  api : config.index "api" = if apiPort > 0 then apiService else .null
  hasAPI : config.has "api" = decide (apiPort > 0)
  dns : config.has "dns" = false
  fakedns : config.has "fakedns" = false

theorem has_injectStats {name : String} (h : name ∉ ["stats","policy","api","inbounds"])
    (config : Fields) (apiPort : ℤ) :
    (injectStatsConfig config apiPort).has name = config.has name := by
  simp only [List.mem_cons,List.not_mem_nil,or_false,not_or] at h
  obtain ⟨hs,hp,ha,hi⟩ := h
  unfold injectStatsConfig
  dsimp only
  split
  · rw [has_put_of_ne hi,has_put_of_ne ha,has_put_of_ne hp,has_put_of_ne hs]
  · rw [has_put_of_ne hp,has_put_of_ne hs]

theorem hasAPI_injectStats {config : Fields} (h : config.has "api" = false) (apiPort : ℤ) :
    (injectStatsConfig config apiPort).has "api" = decide (apiPort > 0) := by
  unfold injectStatsConfig
  dsimp only
  split
  · rename_i hport
    rw [has_put_of_ne (by decide),has_put_self,decide_eq_true hport]
  · rename_i hport
    rw [has_put_of_ne (by decide),has_put_of_ne (by decide),h,decide_eq_false hport]

theorem inbounds_injectStats {config : Fields} {inbounds : List Value}
    (h : config.index "inbounds" = .arr inbounds) (apiPort : ℤ) :
    (injectStatsConfig config apiPort).index "inbounds" =
      .arr (inbounds ++ if apiPort > 0 then [apiInbound apiPort] else []) := by
  unfold injectStatsConfig
  dsimp only
  split
  · rw [index_put_self,index_put_of_ne (by decide),index_put_of_ne (by decide),
      index_put_of_ne (by decide),h]
    rfl
  · rw [index_put_of_ne (by decide),index_put_of_ne (by decide),h,List.append_nil]

theorem linkBased_of {parseLink : String → Option Link} {uri tunName : String}
    {socksPort httpPort apiPort : ℤ} {config : Fields}
    (h : linkConfig parseLink uri socksPort httpPort apiPort tunName = some config) :
    LinkBased socksPort httpPort apiPort tunName config := by
  unfold linkConfig parseUriWithTun createOutboundObject at h
  simp only [Option.map_map,Option.map_eq_some_iff,Function.comp_apply] at h
  obtain ⟨link,-,rfl⟩ := h
  exact {
    outbounds := ⟨link,by rw [ConfigShape.index_injectStats _ _ (by decide)]; rfl⟩
    inbounds := inbounds_injectStats rfl apiPort
    api := ConfigShape.api_injectStats _ apiPort
    hasAPI := hasAPI_injectStats rfl apiPort
    dns := by rw [has_injectStats (by decide)]; rfl
    fakedns := by rw [has_injectStats (by decide)]; rfl }

end Base

section Injection

variable {env : Env} {selection : RoutingSelection} {tunActive : Bool} {config : Fields}

theorem index_injectDNS {name : String} (h : name ∉ ["dns","fakedns"]) :
    (injectDNS env selection tunActive config).index name = config.index name := by
  simp only [List.mem_cons,List.not_mem_nil,or_false,not_or] at h
  obtain ⟨hdns,hfake⟩ := h
  unfold injectDNS
  dsimp only
  split
  · split
    · rw [index_put_of_ne hfake,index_put_of_ne hdns]
    · rw [index_put_of_ne hdns]
  · split
    · rfl
    · rw [index_put_of_ne hdns]

theorem lookup_injected {name : String} (h : name ∉ ["inbounds","outbounds","routing"]) :
    (injectRoutingConfig env config selection tunActive).lookup name =
      (injectDNS env selection tunActive config).lookup name := by
  simp only [List.mem_cons,List.not_mem_nil,or_false,not_or] at h
  obtain ⟨hin,hout,hrouting⟩ := h
  unfold injectRoutingConfig
  dsimp only
  repeat' split
  all_goals simp only [lookup_put_of_ne hin,lookup_put_of_ne hout,lookup_put_of_ne hrouting]

theorem index_injected {name : String} (h : name ∉ ["inbounds","outbounds","routing"]) :
    (injectRoutingConfig env config selection tunActive).index name =
      (injectDNS env selection tunActive config).index name := by
  rw [Fields.index,lookup_injected h]
  rfl

theorem has_injected {name : String} (h : name ∉ ["inbounds","outbounds","routing"]) :
    (injectRoutingConfig env config selection tunActive).has name =
      (injectDNS env selection tunActive config).has name := by
  rw [Fields.has,lookup_injected h]
  rfl

theorem rulesOf_injected : rulesOf (injectRoutingConfig env config selection tunActive) =
    structuralRules env selection tunActive (config.has "api") ++
      buildUserRules selection.config.rules := by
  have hrouting : (injectRoutingConfig env config selection tunActive).index "routing" =
      routingSection env selection tunActive (config.has "api") := by
    unfold injectRoutingConfig
    dsimp only
    repeat' split
    all_goals simp only [index_put_of_ne (show "routing" ≠ "inbounds" by decide),
      index_put_of_ne (show "routing" ≠ "outbounds" by decide),index_put_self]
  rw [rulesOf,RuleEnforcement.routingOf,hrouting]
  exact asSlice_arrOrNull _

theorem inboundsOf_injected {inbounds : List Value}
    (h : config.index "inbounds" = .arr inbounds) :
    inboundsOf (injectRoutingConfig env config selection tunActive) =
      inbounds.map (sniffInbound (fakeDNSActive env selection tunActive)) := by
  have hdns : (injectDNS env selection tunActive config).index "inbounds" = .arr inbounds := by
    rw [index_injectDNS (by decide),h]
  unfold inboundsOf injectRoutingConfig
  dsimp only
  rw [index_put_of_ne (by decide),hdns]
  dsimp only
  split
  · rw [index_put_of_ne (by decide),index_put_self]
    rfl
  · rw [index_put_self]
    rfl

theorem outboundsOf_injected {outbounds : List Value}
    (h : config.index "outbounds" = .arr outbounds) :
    outboundsOf (injectRoutingConfig env config selection tunActive) =
      routingOutbounds ((happDNS selection).isSome && tunActive) outbounds := by
  have hdns : (injectDNS env selection tunActive config).index "outbounds" = .arr outbounds := by
    rw [index_injectDNS (by decide),h]
  unfold outboundsOf injectRoutingConfig
  dsimp only
  generalize routingSection env selection tunActive _ = routing
  have hrouting : ((injectDNS env selection tunActive config).put "routing" routing).index
      "outbounds" = .arr outbounds := by
    rw [index_put_of_ne (by decide),hdns]
  generalize Fields.put (injectDNS env selection tunActive config) "routing" routing = routed
    at hrouting
  cases Fields.index routed "inbounds" with
  | arr inbounds =>
    dsimp only
    rw [index_put_of_ne (by decide),hrouting]
    dsimp only
    rw [index_put_self]
    rfl
  | _ =>
    dsimp only
    rw [hrouting]
    dsimp only
    rw [index_put_self]
    rfl

end Injection

section Servers

variable {env : Env} {selection : RoutingSelection} {tunActive : Bool} {config : Fields}
  {cfg : HappDNSConfig}

@[simp] theorem tagOf_dnsServer (tag address : String) (domains : List String) (skip : Bool) :
    tagOf (dnsServer tag address domains skip) = tag := rfl

@[simp] theorem has_dnsServer (tag address : String) (domains : List String) (skip : Bool) :
    (dnsServer tag address domains skip).has "domains" = decide (domains ≠ []) := by
  by_cases h : domains = []
  · simp [dnsServer,member,h,Fields.has]
  · simp [dnsServer,member,h,Fields.has]

theorem domainsOf_dnsServer (tag address : String) (domains : List String) (skip : Bool) :
    domainsOf (dnsServer tag address domains skip) = domains := by
  by_cases h : domains = []
  · subst h
    rfl
  · have hindex : (dnsServer tag address domains skip).index "domains" = .strs domains := by
      simp only [dnsServer,member,h,ne_eq,not_false_eq_true,decide_true,if_true]
      rfl
    rw [domainsOf,hindex]
    simp [Value.strs,Value.asSlice,Function.comp_def,Value.asString]

theorem map_asMap_obj (l : List Fields) : (l.map Value.obj).map Value.asMap = l := by
  rw [List.map_map]
  exact List.map_id l

def fakeServer : Fields := [("address",.str "fakedns"),("tag",.str "fakedns")]

theorem servers_section (fakeDNS : Bool) :
    (Fields.index (buildHappDNSSection env selection cfg fakeDNS) "servers").asSlice.map
      Value.asMap = (if fakeDNS then [fakeServer] else []) ++
        ((happServers env selection cfg).servers ++
          if hasFallbackServer (happServers env selection cfg).servers then []
          else fallbackDNSServers env) := by
  unfold buildHappDNSSection
  dsimp only
  rw [List.singleton_append,Fields.index,List.lookup_cons_self]
  simp only [Option.getD_some,Value.asSlice,map_asMap_obj]
  cases fakeDNS <;> cases hasFallbackServer (happServers env selection cfg).servers <;>
    simp [fakeServer]

theorem dnsServersOf_happ (h : happDNS selection = some cfg) :
    dnsServersOf (injectRoutingConfig env config selection tunActive) =
      (if fakeDNSActive env selection tunActive then [fakeServer] else []) ++
        ((happServers env selection cfg).servers ++
          if hasFallbackServer (happServers env selection cfg).servers then []
          else fallbackDNSServers env) := by
  rw [dnsServersOf,index_injected (by decide),← servers_section]
  unfold injectDNS
  dsimp only
  rw [h]
  dsimp only
  split
  · rw [index_put_of_ne (by decide),index_put_self]
    rfl
  · rw [index_put_self]
    rfl

theorem dnsServersOf_manual (h : happDNS selection = none) (hdns : config.has "dns" = false) :
    dnsServersOf (injectRoutingConfig env config selection tunActive) =
      fallbackDNSServers env := by
  rw [dnsServersOf,index_injected (by decide)]
  unfold injectDNS
  dsimp only
  rw [h]
  dsimp only
  rw [hdns,if_neg (by decide),index_put_self]
  exact map_asMap_obj _

/-- The servers with a name, by the role of the profile. -/
theorem mem_taggedServers {globalProxy : Bool} {domestic remote : String}
    {direct proxy : List String} {server : Fields} :
    server ∈ (taggedServers globalProxy domestic remote direct proxy).servers ↔
      (globalProxy = true ∧ domestic ≠ "" ∧ direct ≠ [] ∧
        server = dnsServer "domestic-dns" domestic direct true) ∨
      (globalProxy = true ∧ remote ≠ "" ∧ server = dnsServer "remote-dns" remote [] false) ∨
      (globalProxy = false ∧ domestic ≠ "" ∧
        server = dnsServer "domestic-dns" domestic [] false) ∨
      (globalProxy = false ∧ remote ≠ "" ∧ domestic = "" ∧
        server = dnsServer "remote-dns" remote [] false) ∨
      (globalProxy = false ∧ remote ≠ "" ∧ domestic ≠ "" ∧ proxy ≠ [] ∧
        server = dnsServer "remote-dns" remote proxy true) := by
  cases globalProxy with
  | true => simp [taggedServers,and_assoc]
  | false => simp [taggedServers,and_assoc]

/-- A text of white space holds no matcher. -/
theorem splitAndTrim_blank {text : String} (h : trimSpace text = "") : splitAndTrim text = [] := by
  have hcomma : ',' ∉ text.toList := by
    intro hc
    have hmem := (HappRules.mem_trimSpace (by decide)).mpr hc
    rw [h] at hmem
    exact List.not_mem_nil hmem
  have hsplit : text.toList.splitOn ',' = [text.toList] := by
    have hone : ([','].intercalate [text.toList]).splitOn ',' = [text.toList] :=
      List.splitOn_intercalate _ (by simpa using hcomma) (List.cons_ne_nil _ _)
    simpa using hone
  rw [splitAndTrim,splitComma,hsplit]
  simp [h]

theorem domainsFor_eq (rules : List RoutingRule) (outbound : String) :
    domainsForOutbound env rules outbound = firsts env.lower (matchersFor rules outbound) := by
  have hblank : ∀ rules : List RoutingRule, (rules.filter fun r => r.enabled &&
      r.outboundTag = outbound && trimSpace r.domain ≠ "").flatMap (splitAndTrim ·.domain) =
      matchersFor rules outbound := by
    intro rules
    unfold matchersFor
    induction rules with
    | nil => rfl
    | cons r rest ih =>
      rw [List.filter_cons,List.filter_cons]
      by_cases hr : r.enabled && r.outboundTag = outbound
      · by_cases hd : trimSpace r.domain = ""
        · simpa [hr,hd,splitAndTrim_blank hd] using ih
        · simpa [hr,hd] using ih
      · simpa [hr] using ih
  unfold domainsForOutbound
  dsimp only
  rw [hblank]
  rfl

theorem assigned_iff {caseCounts : String → Bool} {matchers : List String} :
    (∀ d ∈ matchers, Assigned env caseCounts (firsts env.lower matchers) d) ↔
      FirstSpelt env caseCounts matchers := by
  constructor
  · intro h d hd hcase
    have had := h d hd
    rw [Assigned,if_pos hcase] at had
    exact (mem_firsts env.lower).mp had
  · intro h d hd
    unfold Assigned
    split
    · rename_i hcase
      exact (mem_firsts env.lower).mpr (h d hd hcase)
    · exact firsts_covers env.lower hd

end Servers

section Filtered

variable {env : Env} {selection : RoutingSelection} {tunActive : Bool} {config : Fields}
  {cfg : HappDNSConfig}

theorem mem_servers_happ (h : happDNS selection = some cfg) {server : Fields} :
    server ∈ dnsServersOf (injectRoutingConfig env config selection tunActive) ↔
      (fakeDNSActive env selection tunActive = true ∧ server = fakeServer) ∨
      server ∈ (happServers env selection cfg).servers ∨
      (hasFallbackServer (happServers env selection cfg).servers = false ∧
        server ∈ fallbackDNSServers env) := by
  rw [dnsServersOf_happ h,List.mem_append,List.mem_append]
  cases fakeDNSActive env selection tunActive <;>
    cases hasFallbackServer (happServers env selection cfg).servers <;> simp

theorem tag_fallback {server : Fields} (h : server ∈ fallbackDNSServers env) :
    tagOf server = "" := by
  obtain ⟨address,-,rfl⟩ := List.mem_map.mp h
  rfl

theorem domains_fallback {server : Fields} (h : server ∈ fallbackDNSServers env) :
    server.has "domains" = false := by
  obtain ⟨address,-,rfl⟩ := List.mem_map.mp h
  rfl

theorem tag_named {server : Fields} (h : server ∈ (happServers env selection cfg).servers) :
    tagOf server = "domestic-dns" ∨ tagOf server = "remote-dns" := by
  rw [happServers,mem_taggedServers] at h
  rcases h with ⟨-,-,-,rfl⟩ | ⟨-,-,rfl⟩ | ⟨-,-,rfl⟩ | ⟨-,-,-,rfl⟩ | ⟨-,-,-,-,rfl⟩ <;> simp

/-- A server with domains is one of the two, in the role that filters. -/
theorem filtered_iff (h : happDNS selection = some cfg) {r : Resolver} {server : Fields} :
    (server ∈ dnsServersOf (injectRoutingConfig env config selection tunActive) ∧
      tagOf server = r.tag ∧ server.has "domains" = true) ↔
    r.Selective selection cfg ∧
      domainsForOutbound env selection.config.rules r.outbound ≠ [] ∧
      server = dnsServer r.tag (r.address cfg)
        (domainsForOutbound env selection.config.rules r.outbound) true := by
  rw [mem_servers_happ h,happServers,mem_taggedServers]
  constructor
  · rintro ⟨⟨-,rfl⟩ | hnamed | ⟨-,hplain⟩,htag,hdomains⟩
    · cases r <;> exact absurd htag (by decide)
    · rcases hnamed with ⟨hg,hd,hne,rfl⟩ | ⟨-,-,rfl⟩ | ⟨-,-,rfl⟩ | ⟨-,-,-,rfl⟩ |
        ⟨hg,hr,hd,hne,rfl⟩
      · cases r with
        | domestic => exact ⟨⟨hg,hd⟩,hne,rfl⟩
        | remote => exact absurd (show "domestic-dns" = "remote-dns" from htag) (by decide)
      · simp at hdomains
      · simp at hdomains
      · simp at hdomains
      · cases r with
        | domestic => exact absurd (show "remote-dns" = "domestic-dns" from htag) (by decide)
        | remote => exact ⟨⟨hg,hd,hr⟩,hne,rfl⟩
    · rw [domains_fallback hplain] at hdomains
      exact absurd hdomains (by decide)
  · rintro ⟨hsel,hne,rfl⟩
    refine ⟨.inr (.inl ?_),tagOf_dnsServer _ _ _ _,by simpa using hne⟩
    cases r with
    | domestic => exact .inl ⟨hsel.1,hsel.2,hne,rfl⟩
    | remote => exact .inr (.inr (.inr (.inr ⟨hsel.1,hsel.2.2,hsel.2.1,hne,rfl⟩)))

theorem matchers_iff (caseCounts : String → Bool) (hdns : config.has "dns" = false) :
    (∀ r : Resolver,
      ∀ server ∈ dnsServersOf (injectRoutingConfig env config selection tunActive),
        tagOf server = r.tag → server.has "domains" = true →
        ∀ d ∈ matchersFor selection.config.rules r.outbound,
          Assigned env caseCounts (domainsOf server) d) ↔
    ∀ cfg, happDNS selection = some cfg → ∀ r : Resolver, r.Selective selection cfg →
      FirstSpelt env caseCounts (matchersFor selection.config.rules r.outbound) := by
  constructor
  · intro h cfg hcfg r hsel
    by_cases hne : domainsForOutbound env selection.config.rules r.outbound = []
    · -- no domains, no matchers
      intro d hd
      rw [domainsFor_eq] at hne
      obtain ⟨b,hb,-⟩ := firsts_covers env.lower hd
      rw [hne] at hb
      exact absurd hb List.not_mem_nil
    · obtain ⟨hmem,htag,hdomains⟩ := (@filtered_iff env selection tunActive config cfg hcfg r
        _).mpr ⟨hsel,hne,rfl⟩
      have hall := h r _ hmem htag hdomains
      rw [domainsOf_dnsServer,domainsFor_eq] at hall
      exact assigned_iff.mp hall
  · intro h r server hmem htag hdomains
    cases hcfg : happDNS selection with
    | none =>
      rw [dnsServersOf_manual hcfg hdns] at hmem
      rw [domains_fallback hmem] at hdomains
      exact absurd hdomains (by decide)
    | some cfg =>
      obtain ⟨hsel,-,rfl⟩ := (filtered_iff hcfg).mp ⟨hmem,htag,hdomains⟩
      rw [domainsOf_dnsServer,domainsFor_eq]
      exact assigned_iff.mpr (h cfg hcfg r hsel)

/-- Whatever the profile names, somebody answers for the other domains. -/
theorem fallback_there (hservers : env.dnsServers ≠ []) (hdns : config.has "dns" = false) :
    ∃ server ∈ dnsServersOf (injectRoutingConfig env config selection tunActive),
      server.has "domains" = false := by
  obtain ⟨address,haddress⟩ := List.exists_mem_of_ne_nil _ hservers
  have hplain : [("address",.str address)] ∈ fallbackDNSServers env :=
    List.mem_map.mpr ⟨address,haddress,rfl⟩
  cases hcfg : happDNS selection with
  | none =>
    rw [dnsServersOf_manual hcfg hdns]
    exact ⟨_,hplain,rfl⟩
  | some cfg =>
    cases hfallback : hasFallbackServer (happServers env selection cfg).servers with
    | true =>
      obtain ⟨server,hserver,hno⟩ := List.any_eq_true.mp hfallback
      exact ⟨server,(mem_servers_happ hcfg).mpr (.inr (.inl hserver)),by simpa using hno⟩
    | false => exact ⟨_,(mem_servers_happ hcfg).mpr (.inr (.inr ⟨hfallback,hplain⟩)),rfl⟩

end Filtered

section Fakes

variable {env : Env} {selection : RoutingSelection} {tunActive : Bool} {config : Fields}

theorem fakeDNSActive_iff :
    fakeDNSActive env selection tunActive = true ↔ FakesWanted env selection tunActive := by
  have hhapp : ∀ cfg, happDNS selection = some cfg ↔
      selection.source = "happ" ∧ selection.config.dns = some cfg := by
    intro cfg
    simp [happDNS]
  constructor
  · intro h
    unfold fakeDNSActive at h
    split at h
    · exact absurd h (by decide)
    · rename_i cfg hcfg
      simp only [Bool.and_eq_true,decide_eq_true_eq] at h
      obtain ⟨⟨⟨⟨htun,hsource⟩,hask⟩,hglobal⟩,hsplit⟩ := h
      exact ⟨htun,hglobal,⟨cfg,(hhapp cfg).mpr ⟨hsource,hcfg⟩,hask⟩,hsplit⟩
  · rintro ⟨htun,hglobal,⟨cfg,hcfg,hask⟩,hsplit⟩
    obtain ⟨hsource,hdns⟩ := (hhapp cfg).mp hcfg
    simp [fakeDNSActive,hdns,htun,hsource,hask,hglobal,hsplit]

theorem wanted_happ (h : FakesWanted env selection tunActive) :
    ∃ cfg, happDNS selection = some cfg :=
  let ⟨cfg,hcfg,_⟩ := h.profile
  ⟨cfg,hcfg⟩

theorem pools_iff (hfake : config.has "fakedns" = false) :
    (injectRoutingConfig env config selection tunActive).has "fakedns" = true ↔
      FakesWanted env selection tunActive := by
  rw [has_injected (by decide),← fakeDNSActive_iff]
  unfold injectDNS
  dsimp only
  cases hcfg : happDNS selection with
  | none =>
    have hoff : ¬fakeDNSActive env selection tunActive = true := by
      intro hon
      obtain ⟨cfg,hsome⟩ := wanted_happ (fakeDNSActive_iff.mp hon)
      cases hcfg.symm.trans hsome
    dsimp only
    split
    · simp [hfake,hoff]
    · simp [has_put_of_ne (show "fakedns" ≠ "dns" by decide),hfake,hoff]
  | some cfg =>
    dsimp only
    split
    · rename_i hon
      simp [hon]
    · rename_i hoff
      simp [has_put_of_ne (show "fakedns" ≠ "dns" by decide),hfake,hoff]

theorem fakeServer_iff (hdns : config.has "dns" = false) :
    "fakedns" ∈ (dnsServersOf (injectRoutingConfig env config selection tunActive)).map tagOf ↔
      FakesWanted env selection tunActive := by
  rw [← fakeDNSActive_iff,List.mem_map]
  constructor
  · rintro ⟨server,hserver,htag⟩
    cases hcfg : happDNS selection with
    | none =>
      rw [dnsServersOf_manual hcfg hdns] at hserver
      rw [tag_fallback hserver] at htag
      exact absurd htag (by decide)
    | some cfg =>
      rcases (mem_servers_happ hcfg).mp hserver with ⟨hon,-⟩ | hnamed | ⟨-,hplain⟩
      · exact hon
      · rcases tag_named hnamed with hname | hname <;> rw [hname] at htag <;>
          exact absurd htag (by decide)
      · rw [tag_fallback hplain] at htag
        exact absurd htag (by decide)
  · intro hon
    obtain ⟨cfg,hcfg⟩ := wanted_happ (fakeDNSActive_iff.mp hon)
    exact ⟨fakeServer,(mem_servers_happ hcfg).mpr (.inl ⟨hon,rfl⟩),rfl⟩

end Fakes

section Inbounds

variable {socksPort httpPort apiPort : ℤ} {tunName : String}

/-- Each inbound of a link, with what is sniffed in it. -/
theorem mem_inbounds {raw : Value}
    (h : raw ∈ (generateInboundConfigWithTun socksPort httpPort tunName).map Value.obj ++
      if apiPort > 0 then [apiInbound apiPort] else []) :
    (∃ inbound routeOnly, raw = .obj inbound ∧
      Fields.index inbound "sniffing" = sniffingSettings routeOnly) ∨ raw = apiInbound apiPort := by
  rw [List.mem_append] at h
  rcases h with h | h
  · obtain ⟨inbound,hinbound,rfl⟩ := List.mem_map.mp h
    simp only [generateInboundConfigWithTun,generateInboundConfig,List.mem_append] at hinbound
    left
    rcases hinbound with (hin | hin) | hin <;> split at hin
    · cases List.mem_singleton.mp hin
      refine ⟨_,true,rfl,?_⟩
      unfold generateSocksInbound member
      split <;> rfl
    · exact absurd hin List.not_mem_nil
    · cases List.mem_singleton.mp hin
      refine ⟨_,true,rfl,?_⟩
      unfold generateHTTPInbound member
      split <;> rfl
    · exact absurd hin List.not_mem_nil
    · cases List.mem_singleton.mp hin
      exact ⟨_,false,rfl,rfl⟩
    · exact absurd hin List.not_mem_nil
  · split at h
    · exact .inr (List.mem_singleton.mp h)
    · exact absurd h List.not_mem_nil

theorem tags_inbounds :
    tagsOf ((generateInboundConfigWithTun socksPort httpPort tunName).map Value.obj ++
      if apiPort > 0 then [apiInbound apiPort] else []) =
    (if socksPort > 0 then ["socks-in"] else []) ++ (if httpPort > 0 then ["http-in"] else []) ++
      (if tunName ≠ "" then ["tun-in"] else []) ++ (if apiPort > 0 then ["api"] else []) := by
  have hsocks : tagsOf [.obj (generateSocksInbound socksPort)] = ["socks-in"] := by
    unfold generateSocksInbound member
    split <;> rfl
  have hhttp : tagsOf [.obj (generateHTTPInbound httpPort)] = ["http-in"] := by
    unfold generateHTTPInbound member
    split <;> rfl
  unfold generateInboundConfigWithTun generateInboundConfig
  rw [List.map_append,List.map_append,ConfigShape.tagsOf_append,ConfigShape.tagsOf_append,
    ConfigShape.tagsOf_append]
  congr 1
  · congr 1
    · congr 1
      · split
        · exact hsocks
        · rfl
      · split
        · exact hhttp
        · rfl
    · split <;> rfl
  · split <;> rfl

theorem tagOf_sniff (fakeDNS : Bool) (raw : Value) :
    tagOf (sniffInbound fakeDNS raw).asMap = tagOf raw.asMap := by
  unfold sniffInbound
  split
  · split
    · exact congrArg Value.asString (index_put_of_ne (by decide) _ _)
    · rfl
  · rfl

theorem tagsOf_sniff (fakeDNS : Bool) (inbounds : List Value) :
    tagsOf (inbounds.map (sniffInbound fakeDNS)) = tagsOf inbounds := by
  unfold tagsOf ProviderConfig.taggedOutbounds
  rw [List.map_map]
  congr 2
  funext raw
  exact tagOf_sniff fakeDNS raw

theorem isStr_tag (inbound : Fields) :
    isStr (inbound.index "tag") "tun-in" = decide (tagOf inbound = "tun-in") := by
  unfold tagOf isStr
  cases inbound.index "tag" <;> rfl

theorem overridesOf_sniff (fakeDNS routeOnly : Bool) {inbound : Fields}
    (h : inbound.index "sniffing" = sniffingSettings routeOnly) :
    overridesOf (sniffInbound fakeDNS (.obj inbound)) = [.str "http",.str "tls"] ++
      if fakeDNS = true ∧ tagOf inbound = "tun-in" then [.str "fakedns"] else [] := by
  unfold overridesOf sniffInbound
  dsimp only
  rw [h]
  simp only [sniffingSettings,isStr_tag,Bool.and_eq_true,decide_eq_true_eq]
  rw [Value.asMap,index_put_self]
  split <;> rfl

/-- Only what leaves the tunnel is looked up among the fake addresses. -/
theorem sniffed_iff (fakeDNS : Bool) {raw : Value}
    (h : raw ∈ (generateInboundConfigWithTun socksPort httpPort tunName).map Value.obj ++
      if apiPort > 0 then [apiInbound apiPort] else []) :
    Value.str "fakedns" ∈ overridesOf (sniffInbound fakeDNS raw) ↔
      fakeDNS = true ∧ tagOf raw.asMap = "tun-in" := by
  rcases mem_inbounds h with ⟨inbound,routeOnly,rfl,hsniff⟩ | rfl
  · rw [overridesOf_sniff fakeDNS routeOnly hsniff]
    split
    · rename_i hfake
      simp [hfake,Value.asMap]
    · rename_i hfake
      simp [Value.asMap,hfake]
  · have hnone : overridesOf (sniffInbound fakeDNS (apiInbound apiPort)) = [] := rfl
    have htag : tagOf (apiInbound apiPort).asMap = "api" := rfl
    simp [hnone,htag]

end Inbounds

section Names

variable {env : Env} {selection : RoutingSelection} {tunActive : Bool} {config : Fields}
  {socksPort httpPort apiPort : ℤ} {tunName : String}

theorem tags_routingOutbounds (dnsOut : Bool) (link : Link) :
    ((routingOutbounds dnsOut [.obj (linkOutbound link)]).map fun raw => tagOf raw.asMap) =
      ["proxy","direct","block"] ++ if dnsOut then ["dns-out"] else [] := by
  cases dnsOut <;> rfl

theorem tags_outbounds (h : LinkBased socksPort httpPort apiPort tunName config) :
    ((outboundsOf (injectRoutingConfig env config selection tunActive)).map
      fun raw => tagOf raw.asMap) = ["proxy","direct","block"] ++
        if (happDNS selection).isSome && tunActive then ["dns-out"] else [] := by
  obtain ⟨link,hlink⟩ := h.outbounds
  rw [outboundsOf_injected hlink,tags_routingOutbounds]

theorem nodup_outbounds (h : LinkBased socksPort httpPort apiPort tunName config) :
    ((outboundsOf (injectRoutingConfig env config selection tunActive)).map
      fun raw => tagOf raw.asMap).Nodup := by
  rw [tags_outbounds h]
  cases (happDNS selection).isSome && tunActive <;> decide

theorem apiTag_injected (h : LinkBased socksPort httpPort apiPort tunName config) :
    apiTag (injectRoutingConfig env config selection tunActive) =
      if apiPort > 0 then "api" else "" := by
  rw [apiTag,index_injected (by decide),index_injectDNS (by decide),h.api]
  split <;> rfl

theorem namesOutbound_iff (h : LinkBased socksPort httpPort apiPort tunName config)
    {tag : String} : NamesOutbound (injectRoutingConfig env config selection tunActive) tag ↔
      Offered selection tunActive apiPort tag := by
  have htags : tag ∈ tagsOf (outboundsOf (injectRoutingConfig env config selection tunActive)) ↔
      tag ≠ "" ∧ (tag ∈ ["proxy","direct","block"] ∨
        (tag = "dns-out" ∧ (happDNS selection).isSome = true ∧ tunActive = true)) := by
    rw [tagsOf,ProviderConfig.taggedOutbounds,tags_outbounds h,List.mem_filter,List.mem_append,
      decide_eq_true_eq,and_comm]
    cases (happDNS selection).isSome <;> cases tunActive <;> simp
  unfold NamesOutbound Offered
  rw [htags,apiTag_injected h]
  constructor
  · rintro ⟨hne,⟨-,hlisted | hdns⟩ | hapi⟩
    · exact .inl hlisted
    · exact .inr (.inl hdns)
    · split at hapi
      · rename_i hport
        exact .inr (.inr ⟨hapi,hport⟩)
      · exact absurd hapi hne
  · rintro (hlisted | hdns | ⟨rfl,hport⟩)
    · have hne : tag ≠ "" := by
        rintro rfl
        exact absurd hlisted (by decide)
      exact ⟨hne,.inl ⟨hne,.inl hlisted⟩⟩
    · have hne : tag ≠ "" := by
        rw [hdns.1]
        decide
      exact ⟨hne,.inl ⟨hne,.inr hdns⟩⟩
    · exact ⟨by decide,.inr (if_pos hport).symm⟩

theorem tags_injected (h : LinkBased socksPort httpPort apiPort tunName config) :
    tagsOf (inboundsOf (injectRoutingConfig env config selection tunActive)) =
      (if socksPort > 0 then ["socks-in"] else []) ++ (if httpPort > 0 then ["http-in"] else []) ++
        (if tunName ≠ "" then ["tun-in"] else []) ++ (if apiPort > 0 then ["api"] else []) := by
  rw [inboundsOf_injected h.inbounds,tagsOf_sniff,tags_inbounds]

theorem tagged_there (globalProxy : Bool) (domestic remote : String)
    (direct proxy : List String) :
    let tagged := taggedServers globalProxy domestic remote direct proxy
    (tagged.hasDomestic = true → "domestic-dns" ∈ tagged.servers.map tagOf) ∧
      (tagged.hasRemote = true → "remote-dns" ∈ tagged.servers.map tagOf) := by
  dsimp only
  cases globalProxy with
  | true => constructor <;> intro h <;> simpa [taggedServers] using h
  | false => constructor <;> intro h <;> simpa [taggedServers] using h

theorem named_there {cfg : HappDNSConfig} (hcfg : happDNS selection = some cfg) {tag : String}
    (h : tag ∈ (happServers env selection cfg).servers.map tagOf) :
    tag ∈ (dnsServersOf (injectRoutingConfig env config selection tunActive)).map tagOf := by
  obtain ⟨server,hserver,rfl⟩ := List.mem_map.mp h
  exact List.mem_map_of_mem ((mem_servers_happ hcfg).mpr (.inr (.inl hserver)))

end Names

section OwnRules

variable {env : Env} {selection : RoutingSelection} {tunActive : Bool} {config : Fields}
  {socksPort httpPort apiPort : ℤ} {tunName : String}

theorem structural_cases {hasAPI : Bool} {raw : Value}
    (h : raw ∈ structuralRules env selection tunActive hasAPI) :
    (hasAPI = true ∧ raw = apiRule) ∨ (happDNS selection = none ∧ raw = legacyDNSRule) ∨
    ∃ cfg, happDNS selection = some cfg ∧ ((tunActive = true ∧ raw = dnsCaptureRule) ∨
      ((happServers env selection cfg).hasDomestic = true ∧
        raw = inboundRule "domestic-dns" "direct") ∨
      ((happServers env selection cfg).hasRemote = true ∧
        raw = inboundRule "remote-dns" "proxy")) := by
  have hone : ∀ {b : Bool} {rule : Value}, raw ∈ (if b then [rule] else []) →
      b = true ∧ raw = rule := by
    intro b rule hmem
    cases b with
    | true => exact ⟨rfl,List.mem_singleton.mp hmem⟩
    | false => exact absurd hmem List.not_mem_nil
  unfold structuralRules at h
  split at h
  · rename_i cfg hcfg
    simp only [List.mem_append] at h
    rcases h with ((h | h) | h) | h
    · exact .inl (hone h)
    · exact .inr (.inr ⟨cfg,hcfg,.inl (hone h)⟩)
    · exact .inr (.inr ⟨cfg,hcfg,.inr (.inl (hone h))⟩)
    · exact .inr (.inr ⟨cfg,hcfg,.inr (.inr (hone h))⟩)
  · rename_i hnone
    rcases List.mem_append.mp h with h | h
    · exact .inr (.inl ⟨hnone,List.mem_singleton.mp h⟩)
    · exact .inl (hone h)

theorem mem_ownRules {hasAPI : Bool} {raw : Value}
    (h : raw ∈ structuralRules env selection tunActive hasAPI) : raw ∈ ownRules := by
  unfold ownRules
  rcases structural_cases h with ⟨-,rfl⟩ | ⟨-,rfl⟩ | ⟨-,-,⟨-,rfl⟩ | ⟨-,rfl⟩ | ⟨-,rfl⟩⟩ <;> simp

/-- A rule with one inbound name, from a name that is there to one that is. -/
theorem leads_of (inboundTag : String) {result rule : Fields}
    (hout : NamesOutbound result (outboundTag rule)) (hin : inboundTags rule = [inboundTag])
    (hthere : inboundTag ∈ tagsOf (inboundsOf result) ∨
      inboundTag ∈ (dnsServersOf result).map tagOf) : Leads result rule := by
  refine ⟨hout,fun tag htag => ?_⟩
  rw [hin] at htag
  cases List.mem_singleton.mp htag
  exact hthere

theorem leads_own (h : LinkBased socksPort httpPort apiPort tunName config)
    (hcapture : (happDNS selection).isSome = true → tunActive = true → tunName ≠ "")
    {raw : Value} (hraw : raw ∈ structuralRules env selection tunActive (config.has "api")) :
    Leads (injectRoutingConfig env config selection tunActive) raw.asMap := by
  have hnames {tag : String} := @namesOutbound_iff env selection tunActive _ _ _ _ _ h tag
  rcases structural_cases hraw with ⟨hapi,rfl⟩ | ⟨-,rfl⟩ | ⟨cfg,hcfg,hrule⟩
  · rw [h.hasAPI,decide_eq_true_eq] at hapi
    refine leads_of "api" (hnames.mpr (.inr (.inr ⟨rfl,hapi⟩))) rfl (.inl ?_)
    rw [tags_injected h]
    simp [hapi]
  · exact ⟨hnames.mpr (.inl (by decide)),fun tag htag => absurd htag List.not_mem_nil⟩
  · have hsome : (happDNS selection).isSome = true := by rw [hcfg]; rfl
    have htagged := tagged_there selection.globalProxy (Resolver.address cfg .domestic)
      (Resolver.address cfg .remote) (domainsForOutbound env selection.config.rules "direct")
      (domainsForOutbound env selection.config.rules "proxy")
    rcases hrule with ⟨htun,rfl⟩ | ⟨hdomestic,rfl⟩ | ⟨hremote,rfl⟩
    · refine leads_of "tun-in" (hnames.mpr (.inr (.inl ⟨rfl,hsome,htun⟩))) rfl (.inl ?_)
      rw [tags_injected h]
      simp [hcapture hsome htun]
    · exact leads_of "domestic-dns" (hnames.mpr (.inl (by decide))) rfl
        (.inr (named_there hcfg (htagged.1 hdomestic)))
    · exact leads_of "remote-dns" (hnames.mpr (.inl (by decide))) rfl
        (.inr (named_there hcfg (htagged.2 hremote)))

/-- Captured queries come from an inbound, never from a server. -/
theorem capture_needs (h : LinkBased socksPort httpPort apiPort tunName config)
    {cfg : HappDNSConfig} (hcfg : happDNS selection = some cfg)
    (hleads : Leads (injectRoutingConfig env config selection tunActive) dnsCaptureRule.asMap) :
    tunName ≠ "" := by
  rcases hleads.inbound "tun-in" (by decide) with hin | hserver
  · rw [tags_injected h] at hin
    rintro rfl
    simp only [List.mem_append,ne_eq,not_true_eq_false,if_false,List.not_mem_nil,or_false] at hin
    rcases hin with (hin | hin) | hin <;> split at hin <;> simp at hin
  · obtain ⟨server,hserver,htag⟩ := List.mem_map.mp hserver
    rcases (mem_servers_happ hcfg).mp hserver with ⟨-,rfl⟩ | hnamed | ⟨-,hplain⟩
    · exact absurd htag (by decide)
    · rcases tag_named hnamed with hname | hname <;> rw [hname] at htag <;>
        exact absurd htag (by decide)
    · rw [tag_fallback hplain] at htag
      exact absurd htag (by decide)

end OwnRules

section Agreement

variable {env : Env} {selection : RoutingSelection} {tunActive : Bool} {config : Fields}
  {socksPort httpPort apiPort : ℤ} {tunName : String} {caseCounts : String → Bool}

theorem respects_of_wellRouted (h : LinkBased socksPort httpPort apiPort tunName config)
    (hwell : WellRouted env caseCounts selection tunActive
      (injectRoutingConfig env config selection tunActive)) :
    Respects env caseCounts selection tunActive tunName := by
  refine ⟨(matchers_iff caseCounts h.dns).mp hwell.matchers,fun hsome htun => ?_⟩
  obtain ⟨cfg,hcfg⟩ := Option.isSome_iff_exists.mp hsome
  obtain ⟨own,hrules,hown⟩ := hwell.rules
  rw [rulesOf_injected] at hrules
  have hsame := List.append_cancel_right hrules
  have hmem : dnsCaptureRule ∈ own := by
    rw [← hsame,structuralRules,hcfg]
    simp [htun]
  exact capture_needs h hcfg (hown _ hmem).2

theorem wellRouted_of_respects (h : LinkBased socksPort httpPort apiPort tunName config)
    (hservers : env.dnsServers ≠ [])
    (hrespects : Respects env caseCounts selection tunActive tunName) :
    WellRouted env caseCounts selection tunActive
      (injectRoutingConfig env config selection tunActive) where
  outbounds := nodup_outbounds h
  rules := ⟨_,rulesOf_injected,fun _ hraw =>
    ⟨mem_ownRules hraw,leads_own h hrespects.capture hraw⟩⟩
  fallback := fallback_there hservers h.dns
  fakes := {
    pools := pools_iff h.fakedns
    server := fakeServer_iff h.dns
    sniffed := by
      intro inbound hinbound
      rw [inboundsOf_injected h.inbounds] at hinbound
      obtain ⟨raw,hraw,rfl⟩ := List.mem_map.mp hinbound
      rw [sniffed_iff _ hraw,tagOf_sniff,fakeDNSActive_iff] }
  matchers := (matchers_iff caseCounts h.dns).mpr hrespects.matchers

theorem wellRouted_iff {parseLink : String → Option Link} {uri : String} {configured : List String}
    (hservers : env.dnsServers = sanitizeDnsServers configured)
    (hconfig : linkConfig parseLink uri socksPort httpPort apiPort tunName = some config) :
    (WellRouted env caseCounts selection tunActive
        (injectRoutingConfig env config selection tunActive) ↔
      Respects env caseCounts selection tunActive tunName) ∧
    ((∀ raw ∈ buildUserRules selection.config.rules,
        NamesOutbound (injectRoutingConfig env config selection tunActive)
          (outboundTag raw.asMap)) ↔
      ∀ r ∈ selection.config.rules, r.enabled = true →
        Offered selection tunActive apiPort r.outboundTag) := by
  have hbase := linkBased_of hconfig
  constructor
  · constructor
    · exact respects_of_wellRouted hbase
    · refine wellRouted_of_respects hbase ?_
      rw [hservers]
      exact sanitizeDnsServers_ne_nil configured
  · have htag : ∀ r : RoutingRule, outboundTag (userRule r).asMap = r.outboundTag := fun _ => rfl
    simp only [buildUserRules,List.forall_mem_map,List.mem_filter,htag,namesOutbound_iff hbase,
      and_imp]

end Agreement

section Samples

def isRegexp (matcher : String) : Bool := "regexp:".toList.isPrefixOf matcher.toList

def plainEnv : Env := ⟨sanitizeDnsServers [],"",RoutingStore.toLower,fun _ => ""⟩

def anyLink (uri : String) : Option Link :=
  if uri = "vless://a@b:443" then some ⟨"vless",.obj [],.obj []⟩ else none

/-- A Happ profile whose direct rule has these matchers. -/
def directProfile (matchers : String) : RoutingSelection :=
  { config :=
      { domainStrategy := ""
        rules := [⟨"field",matchers,"","","","","direct",true⟩]
        dns := some ⟨true,"DoU","","1.1.1.1","DoU","","77.88.8.8",[]⟩ }
    source := "happ"
    profileId := ""
    geoDir := none
    globalProxy := true
    bootstrapHosts := [] }

theorem sample_parses : ∃ config,
    linkConfig anyLink "vless://a@b:443" 1080 1081 10085 "tun0" = some config := ⟨_,rfl⟩

theorem names_wellRouted : ∃ config,
    linkConfig anyLink "vless://a@b:443" 1080 1081 10085 "tun0" = some config ∧
      WellRouted plainEnv isRegexp (directProfile "domain:de,regexp:^ya$,DOMAIN:de") true
        (injectRoutingConfig plainEnv config (directProfile "domain:de,regexp:^ya$,DOMAIN:de")
          true) := by
  have hservers : plainEnv.dnsServers = sanitizeDnsServers [] := rfl
  obtain ⟨config,hconfig⟩ := sample_parses
  refine ⟨config,hconfig,(wellRouted_iff hservers hconfig).1.mpr
    ⟨fun cfg _ r _ => ?_,fun _ _ => by decide⟩⟩
  cases r <;> unfold FirstSpelt <;> decide +kernel

/-- One of two expressions for digits and for anything else is dropped. -/
theorem expressions_lost : ∃ config,
    linkConfig anyLink "vless://a@b:443" 1080 1081 10085 "tun0" = some config ∧
      ¬WellRouted plainEnv isRegexp (directProfile "regexp:^\\d+$,regexp:^\\D+$") true
        (injectRoutingConfig plainEnv config (directProfile "regexp:^\\d+$,regexp:^\\D+$")
          true) := by
  obtain ⟨config,hconfig⟩ := sample_parses
  refine ⟨config,hconfig,fun hwell => ?_⟩
  have hfirst := (respects_of_wellRouted (linkBased_of hconfig) hwell).matchers _ rfl .domestic
    ⟨rfl,by decide⟩
  revert hfirst
  unfold FirstSpelt
  decide +kernel

end Samples

end Whoisthat.InjectedRouting
