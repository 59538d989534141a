import Whoisthat.FirstMatch
import Whoisthat.RoutingStore
import Whoisthat.XrayConfig
import Mathlib.Data.List.DropRight

/-!
# Happ profiles as Xray rules

The site and address lists of a Happ profile are joined to one text per rule
when the profile is compiled and split again when the configuration is written.
Rules are read here as Xray reads them, so that the priority of the format is a
statement about destinations.
-/

set_option autoImplicit false

namespace Whoisthat.HappRules
open Whoisthat.Records Whoisthat.RoutingStore Whoisthat.XrayConfig Whoisthat.Json
open Whoisthat.FirstMatch

section Source

structure FlexibleUnix where
  val : ℤ
  invalid : Bool
  raw : String

/-- `happdns.Raw` -/
structure RawDNS where
  remoteDNSType : String
  remoteDNSDomain : String
  remoteDNSIP : String
  domesticDNSType : String
  domesticDNSDomain : String
  domesticDNSIP : String
  dnsHosts : RawMessage
  fakeDNS : RawMessage

structure HappProfile where
  name : String
  globalProxy : Option Bool
  directSites : List String
  directIp : List String
  proxySites : List String
  proxyIp : List String
  blockSites : List String
  blockIp : List String
  domainStrategy : String
  geoipurl : String
  geositeurl : String
  lastUpdated : FlexibleUnix
  dns : RawDNS

/-- What the compilation takes from other packages. -/
structure Lib where
  /-- `happdns.Parse` -/
  parse : RawDNS → Option HappDNSConfig × List String
  /-- The scheme `url.Parse` finds, `none` for its errors. -/
  scheme : String → Option String
  /-- `%q` -/
  quote : String → String

variable (lib : Lib)

def cleanSlice (items : List String) : List String := (items.map trimSpace).filter (· ≠ "")

def joinComma (items : List String) : String := String.intercalate "," items

/-- The canonical strategy and the warnings about it. -/
def canonicalStrategy (domainStrategy : String) : String × List String :=
  let strategy := trimSpace domainStrategy
  if toLower strategy = "" then ("IPIfNonMatch",[])
  else if toLower strategy = "asis" then ("AsIs",[])
  else if toLower strategy = "ipifnonmatch" then ("IPIfNonMatch",[])
  else if toLower strategy = "ipondemand" then ("IPOnDemand",[])
  else ("IPIfNonMatch",
    ["unknown domain strategy " ++ lib.quote strategy ++ ", fallback to IPIfNonMatch"])

def geoWarnings (field url : String) : List String :=
  if url ≠ "" ∧ lib.scheme url ≠ some "https" then [field ++ " must use https scheme: " ++ url]
  else []

def lastUpdatedWarnings (u : FlexibleUnix) : List String :=
  if u.invalid then ["invalid LastUpdated value " ++ lib.quote u.raw ++ ", fallback to 0"] else []

def fieldRule (domain ip network outboundTag : String) : RoutingRule :=
  { type := "field"
    domain := domain
    ip := ip
    protocol := ""
    port := ""
    network := network
    outboundTag := outboundTag
    enabled := true }

def lanRule : RoutingRule := fieldRule "" lanRuleIP "" "direct"

def sitesRule (items : List String) (outboundTag : String) : List RoutingRule :=
  let sites := cleanSlice items
  if sites ≠ [] then [fieldRule (joinComma sites) "" "" outboundTag] else []

def ipsRule (items : List String) (outboundTag : String) : List RoutingRule :=
  let ips := cleanSlice items
  if ips ≠ [] then [fieldRule "" (joinComma ips) "" outboundTag] else []

/-- The rule of the LAN is not repeated. -/
def directIpRule (items : List String) : List RoutingRule :=
  let ips := cleanSlice items
  if ips ≠ [] then
    if joinComma ips ≠ lanRuleIP then [fieldRule "" (joinComma ips) "" "direct"] else []
  else []

def catchAll (globalProxy : Bool) : List RoutingRule :=
  if globalProxy then [] else [fieldRule "" "" "tcp,udp" "direct"]

def compiledRules (p : HappProfile) : List RoutingRule :=
  [lanRule] ++ sitesRule p.blockSites "block" ++ ipsRule p.blockIp "block" ++
    sitesRule p.directSites "direct" ++ directIpRule p.directIp ++
    sitesRule p.proxySites "proxy" ++ ipsRule p.proxyIp "proxy" ++
    catchAll (p.globalProxy.getD true)

def toRoutingConfig (p : HappProfile) : Except String (RoutingConfig × List String) :=
  if trimSpace p.name = "" then .error "profile Name is required"
  else
    let dns := lib.parse p.dns
    let strategy := canonicalStrategy lib p.domainStrategy
    .ok ({ domainStrategy := strategy.1, rules := compiledRules p, dns := dns.1 },
      dns.2 ++ strategy.2 ++ geoWarnings lib "Geoipurl" p.geoipurl ++
        geoWarnings lib "Geositeurl" p.geositeurl ++ lastUpdatedWarnings lib p.lastUpdated)

end Source

section Reading

inductive Network where
  | tcp
  | udp
  deriving DecidableEq

def Network.name : Network → String
  | .tcp => "tcp"
  | .udp => "udp"

/-- What the conditions of a rule mean for a connection. -/
structure Matching (δ : Type) where
  site : String → δ → Bool
  ip : String → δ → Bool
  protocol : String → δ → Bool
  port : String → δ → Bool
  network : δ → Network

structure XrayRule where
  outboundTag : String
  domain : List String
  ip : List String
  protocol : List String
  port : String
  network : String
  deriving DecidableEq

def strings (v : Value) : List String := v.asSlice.map Value.asString

def readRule (v : Value) : XrayRule :=
  let rule := v.asMap
  { outboundTag := (Fields.index rule "outboundTag").asString
    domain := strings (Fields.index rule "domain")
    ip := strings (Fields.index rule "ip")
    protocol := strings (Fields.index rule "protocol")
    port := (Fields.index rule "port").asString
    network := (Fields.index rule "network").asString }

/-- An empty list is no condition; a rule without any is not a rule for Xray. -/
def XrayRule.Conditioned (r : XrayRule) : Prop :=
  r.domain ≠ [] ∨ r.ip ≠ [] ∨ r.protocol ≠ [] ∨ r.port ≠ "" ∨ r.network ≠ ""

variable {δ : Type} (m : Matching δ)

def XrayRule.accepts (r : XrayRule) (d : δ) : Bool :=
  (r.domain.isEmpty || r.domain.any (m.site · d)) &&
  (r.ip.isEmpty || r.ip.any (m.ip · d)) &&
  (r.protocol.isEmpty || r.protocol.any (m.protocol · d)) &&
  (r.port = "" || m.port r.port d) &&
  (r.network = "" || (splitComma r.network).contains (m.network d).name)

/-- What no rule accepts leaves by the first outbound, the one of the link. -/
def outboundOf (rules : List Value) (d : δ) : String :=
  verdict (XrayRule.accepts m) XrayRule.outboundTag (rules.map readRule) "proxy" d

end Reading

section Format

def lanMatchers : List String :=
  ["10.0.0.0/8","172.16.0.0/12","192.168.0.0/16","fc00::/7","fe80::/10","::1/128"]

def siteList (items : List String) (outboundTag : String) : List XrayRule :=
  if cleanSlice items = [] then [] else [⟨outboundTag,cleanSlice items,[],[],"",""⟩]

def ipList (items : List String) (outboundTag : String) : List XrayRule :=
  if cleanSlice items = [] then [] else [⟨outboundTag,[],cleanSlice items,[],"",""⟩]

/-- One rule for every list that is not empty, with exactly its matchers. The
LAN list of the first rule is not repeated. -/
def documentedRules (p : HappProfile) : List XrayRule :=
  [⟨"direct",[],lanMatchers,[],"",""⟩] ++ siteList p.blockSites "block" ++
    ipList p.blockIp "block" ++ siteList p.directSites "direct" ++
    (if cleanSlice p.directIp = lanMatchers then [] else ipList p.directIp "direct") ++
    siteList p.proxySites "proxy" ++ ipList p.proxyIp "proxy" ++
    (if p.globalProxy.getD true then [] else [⟨"direct",[],[],[],"","tcp,udp"⟩])

variable {δ : Type} (m : Matching δ)

def listed (hit : String → δ → Bool) (items : List String) (d : δ) : Bool :=
  (cleanSlice items).any (hit · d)

/-- LAN direct, then block, direct and proxy, then `GlobalProxy`. -/
def documentedOutbound (p : HappProfile) (d : δ) : String :=
  if lanMatchers.any (m.ip · d) then "direct"
  else if listed m.site p.blockSites d || listed m.ip p.blockIp d then "block"
  else if listed m.site p.directSites d || listed m.ip p.directIp d then "direct"
  else if listed m.site p.proxySites d || listed m.ip p.proxyIp d then "proxy"
  else if p.globalProxy.getD true then "proxy" else "direct"

structure Follows (p : HappProfile) (rules : List Value) : Prop where
  outbounds : ∀ {δ : Type} (m : Matching δ) (d : δ), outboundOf m rules d = documentedOutbound m p d
  matchers : rules.map readRule = documentedRules p
  conditioned : ∀ r ∈ rules.map readRule, r.Conditioned

def HappProfile.lists (p : HappProfile) : List (List String) :=
  [p.blockSites,p.blockIp,p.directSites,p.directIp,p.proxySites,p.proxyIp]

/-- No entry of a list holds the separator of the joined text. -/
def HappProfile.NoComma (p : HappProfile) : Prop :=
  ∀ items ∈ p.lists, ∀ item ∈ items, ',' ∉ item.toList

end Format

section Joining

variable {items l : List String} {s t : String}

theorem not_mem_of_mem_splitOn {α : Type*} [DecidableEq α] {a : α} {xs w : List α}
    (h : w ∈ xs.splitOn a) : a ∉ w := by
  induction xs generalizing w with
  | nil =>
    rw [List.splitOn_nil,List.mem_singleton] at h
    simp [h]
  | cons x xs ih =>
    rw [List.splitOn_cons_eq_if_modifyHead] at h
    obtain ⟨first,rest,hsplit⟩ := List.exists_cons_of_ne_nil (List.splitOn_ne_nil a xs)
    rw [hsplit] at h
    split_ifs at h with hx
    · rcases List.mem_cons.mp h with rfl | hw
      · exact List.not_mem_nil
      · exact ih (hsplit ▸ hw)
    · rcases List.mem_cons.mp h with rfl | hw
      · have hne : ¬a = x := fun he => hx (by simp [he])
        simpa [hne] using ih (hsplit ▸ List.mem_cons_self)
      · exact ih (hsplit ▸ List.mem_cons_of_mem _ hw)

theorem mem_dropWhile_of_not {α : Type*} {p : α → Bool} {a : α} {xs : List α} (h : a ∈ xs)
    (hp : p a = false) : a ∈ xs.dropWhile p := by
  rw [← List.takeWhile_append_dropWhile (p := p) (l := xs),List.mem_append] at h
  refine h.resolve_left fun ht => ?_
  rw [List.mem_takeWhile_imp ht] at hp
  exact nomatch hp

/-- What is not white space survives trimming, and trimming adds nothing. -/
theorem mem_trimSpace {c : Char} (hc : isSpace c = false) :
    c ∈ (trimSpace s).toList ↔ c ∈ s.toList := by
  rw [trimSpace,String.toList_ofList,List.mem_reverse]
  constructor
  · intro h
    exact (List.dropWhile_sublist _).subset
      (List.mem_reverse.mp ((List.dropWhile_sublist _).subset h))
  · intro h
    exact mem_dropWhile_of_not (List.mem_reverse.mpr (mem_dropWhile_of_not h hc)) hc

theorem trimSpace_trimSpace (s : String) : trimSpace (trimSpace s) = trimSpace s := by
  have htrim : ∀ l : List Char, ((l.dropWhile isSpace).reverse.dropWhile isSpace).reverse =
      (l.dropWhile isSpace).rdropWhile isSpace := fun _ => rfl
  unfold trimSpace
  rw [String.toList_ofList,htrim,htrim]
  have hfront : ((s.toList.dropWhile isSpace).rdropWhile isSpace).dropWhile isSpace =
      (s.toList.dropWhile isSpace).rdropWhile isSpace := by
    rw [List.dropWhile_eq_self_iff]
    intro hl
    have hstarts := List.rdropWhile_prefix isSpace (s.toList.dropWhile isSpace)
    rw [hstarts.getElem hl]
    exact List.dropWhile_get_zero_not _ _ (hl.trans_le hstarts.length_le)
  rw [hfront,List.rdropWhile_idempotent]

theorem mem_cleanSlice : t ∈ cleanSlice items ↔ (∃ item ∈ items, trimSpace item = t) ∧ t ≠ "" := by
  simp [cleanSlice]

theorem not_comma_of_splitAndTrim (h : t ∈ splitAndTrim s) : ',' ∉ t.toList := by
  simp only [splitAndTrim,splitComma,List.mem_filter,List.map_map,List.mem_map] at h
  obtain ⟨⟨w,hw,rfl⟩,-⟩ := h
  rw [Function.comp_apply,mem_trimSpace (by decide),String.toList_ofList]
  exact not_mem_of_mem_splitOn hw

theorem splitComma_joinComma (hne : l ≠ []) (hc : ∀ t ∈ l, ',' ∉ t.toList) :
    splitComma (joinComma l) = l := by
  have hsplit : (List.intercalate [','] (l.map String.toList)).splitOn ',' =
      l.map String.toList := by
    refine List.splitOn_intercalate _ (fun w hw => ?_) (by simpa using hne)
    obtain ⟨t,ht,rfl⟩ := List.mem_map.mp hw
    exact hc t ht
  have hcomma : ",".toList = [','] := rfl
  rw [splitComma,joinComma,String.toList_intercalate,hcomma,hsplit,List.map_map]
  simp

/-- Splitting the joined text gives the list back when no entry holds a comma. -/
theorem splitAndTrim_joinComma (hc : ∀ t ∈ cleanSlice items, ',' ∉ t.toList) :
    splitAndTrim (joinComma (cleanSlice items)) = cleanSlice items := by
  by_cases hne : cleanSlice items = []
  · rw [hne]
    decide
  · rw [splitAndTrim,splitComma_joinComma hne hc]
    have hmap : (cleanSlice items).map trimSpace = cleanSlice items := by
      refine (List.map_congr_left fun t ht => ?_).trans (List.map_id _)
      obtain ⟨⟨item,-,rfl⟩,-⟩ := mem_cleanSlice.mp ht
      exact trimSpace_trimSpace item
    rw [hmap,List.filter_eq_self]
    intro t ht
    simpa using (mem_cleanSlice.mp ht).2

theorem splitAndTrim_lan : splitAndTrim lanRuleIP = lanMatchers := by decide +kernel

end Joining

section Rendering

/-- What Xray reads of a configured rule. -/
def readConfigured (r : RoutingRule) : XrayRule :=
  ⟨r.outboundTag,splitAndTrim r.domain,splitAndTrim r.ip,
    if r.protocol = "" then [] else [r.protocol],r.port,r.network⟩

theorem strings_arrOrNull (l : List String) : strings (.arrOrNull (l.map .str)) = l := by
  cases l with
  | nil => rfl
  | cons t l => simp [strings,Value.arrOrNull,Value.asSlice,Value.asString,Function.comp_def]

theorem index_member (b : Bool) (name key : String) (v : Value) (rest : Fields) :
    Fields.index (member b name v ++ rest) key =
      if b ∧ key = name then v else Fields.index rest key := by
  cases b
  · simp [member]
  · by_cases hk : key = name
    · simp [member,Fields.index,hk]
    · simp [member,Fields.index,hk,List.lookup_cons,beq_false_of_ne hk]

theorem readRule_userRule (r : RoutingRule) : readRule (userRule r) = readConfigured r := by
  have hempty : splitAndTrim "" = [] := by decide
  have hnull : strings .null = [] := rfl
  have hstrs : ∀ t, strings (.strs [t]) = [t] := fun _ => rfl
  have hlast : ∀ (b : Bool) (name key : String) (v : Value), Fields.index (member b name v) key =
      if b ∧ key = name then v else .null := fun b name key v => by
    have h := index_member b name key v []
    rwa [List.append_nil] at h
  have htag : ∀ (rest : Fields) (key : String), key ≠ "type" → key ≠ "outboundTag" →
      Fields.index (("type",Value.str r.type)::("outboundTag",.str r.outboundTag)::rest) key =
        Fields.index rest key := fun rest key h h' => by
    simp [Fields.index,List.lookup_cons,beq_false_of_ne h,beq_false_of_ne h']
  simp only [readRule,userRule,Value.asMap,List.append_assoc,List.cons_append,List.nil_append,
    readConfigured,XrayRule.mk.injEq]
  refine ⟨rfl,?_,?_,?_,?_,?_⟩ <;> rw [htag _ _ (by decide) (by decide)] <;>
    simp only [index_member,hlast,String.reduceEq,and_false,and_true,if_false,decide_eq_true_eq,
      ne_eq,ite_not]
  · split_ifs with h
    · rw [h,hempty,hnull]
    · exact strings_arrOrNull _
  · split_ifs with h
    · rw [h,hempty,hnull]
    · exact strings_arrOrNull _
  · split_ifs with h
    · exact hnull
    · exact hstrs _
  · split_ifs with h
    · exact h.symm
    · rfl
  · split_ifs with h
    · exact h.symm
    · rfl

theorem read_userRules (rules : List RoutingRule) :
    (buildUserRules rules).map readRule = (rules.filter (·.enabled)).map readConfigured := by
  rw [buildUserRules,List.map_map]
  exact List.map_congr_left fun r _ => readRule_userRule r

end Rendering

section Priority

variable {p : HappProfile} {δ : Type} (m : Matching δ)

theorem verdict_siteList (items : List String) (tag otherwise : String) (d : δ) :
    verdict (XrayRule.accepts m) XrayRule.outboundTag (siteList items tag) otherwise d =
      if listed m.site items d then tag else otherwise := by
  unfold siteList listed
  by_cases h : cleanSlice items = []
  · simp [h]
  · simp [h,XrayRule.accepts]

theorem verdict_ipList (items : List String) (tag otherwise : String) (d : δ) :
    verdict (XrayRule.accepts m) XrayRule.outboundTag (ipList items tag) otherwise d =
      if listed m.ip items d then tag else otherwise := by
  unfold ipList listed
  by_cases h : cleanSlice items = []
  · simp [h]
  · simp [h,XrayRule.accepts]

theorem verdict_catchAll (globalProxy : Bool) (d : δ) :
    verdict (XrayRule.accepts m) XrayRule.outboundTag
      (if globalProxy then [] else [⟨"direct",[],[],[],"","tcp,udp"⟩]) "proxy" d =
      if globalProxy then "proxy" else "direct" := by
  cases globalProxy
  · have hnetwork : (m.network d).name ∈ splitComma "tcp,udp" := by
      cases m.network d <;> decide
    simp [XrayRule.accepts,hnetwork]
  · rfl

theorem verdict_documentedRules (d : δ) :
    verdict (XrayRule.accepts m) XrayRule.outboundTag (documentedRules p) "proxy" d =
      documentedOutbound m p d := by
  unfold documentedRules documentedOutbound
  simp only [List.append_assoc,verdict_append,verdict_siteList,verdict_ipList,verdict_catchAll]
  have hlan : XrayRule.accepts m ⟨"direct",[],lanMatchers,[],"",""⟩ d =
      lanMatchers.any (m.ip · d) := by
    simp [XrayRule.accepts,lanMatchers]
  rw [verdict_cons,verdict_nil,hlan]
  by_cases h : lanMatchers.any (m.ip · d) = true
  · rw [if_pos h,if_pos h]
  · rw [if_neg h,if_neg h]
    by_cases hip : cleanSlice p.directIp = lanMatchers
    · have hnone : listed m.ip p.directIp d = false := by
        rw [listed,hip]
        exact Bool.eq_false_iff.mpr h
      simp only [hip,if_pos,verdict_nil,hnone,Bool.or_false]
      cases listed m.site p.blockSites d <;> cases listed m.ip p.blockIp d <;>
        cases listed m.site p.directSites d <;> cases listed m.site p.proxySites d <;> rfl
    · simp only [hip,if_false,verdict_ipList]
      cases listed m.site p.blockSites d <;> cases listed m.ip p.blockIp d <;>
        cases listed m.site p.directSites d <;> cases listed m.ip p.directIp d <;>
        cases listed m.site p.proxySites d <;> rfl

theorem conditioned_siteList {items : List String} {tag : String} :
    ∀ r ∈ siteList items tag, r.Conditioned := by
  intro r hr
  unfold siteList at hr
  split_ifs at hr with h
  · exact absurd hr List.not_mem_nil
  · rw [List.mem_singleton.mp hr]
    exact .inl h

theorem conditioned_ipList {items : List String} {tag : String} :
    ∀ r ∈ ipList items tag, r.Conditioned := by
  intro r hr
  unfold ipList at hr
  split_ifs at hr with h
  · exact absurd hr List.not_mem_nil
  · rw [List.mem_singleton.mp hr]
    exact .inr (.inl h)

theorem conditioned_documentedRules : ∀ r ∈ documentedRules p, r.Conditioned := by
  intro r hr
  simp only [documentedRules,List.mem_append] at hr
  rcases hr with ((((((hr | hr) | hr) | hr) | hr) | hr) | hr) | hr
  · rw [List.mem_singleton.mp hr]
    exact .inr (.inl (by decide))
  · exact conditioned_siteList r hr
  · exact conditioned_ipList r hr
  · exact conditioned_siteList r hr
  · split_ifs at hr
    · exact absurd hr List.not_mem_nil
    · exact conditioned_ipList r hr
  · exact conditioned_siteList r hr
  · exact conditioned_ipList r hr
  · split_ifs at hr
    · exact absurd hr List.not_mem_nil
    · rw [List.mem_singleton.mp hr]
      exact .inr (.inr (.inr (.inr (by decide))))

end Priority

section Compilation

variable {lib : Lib} {p : HappProfile} {cfg : RoutingConfig} {warnings : List String}

theorem read_sitesRule {items : List String} (hc : ∀ t ∈ cleanSlice items, ',' ∉ t.toList)
    (tag : String) : (sitesRule items tag).map readConfigured = siteList items tag := by
  have hsplit := splitAndTrim_joinComma hc
  have hempty : splitAndTrim "" = [] := by decide
  unfold sitesRule siteList
  by_cases h : cleanSlice items = []
  · simp [h]
  · simp [h,readConfigured,fieldRule,hsplit,hempty]

theorem read_ipsRule {items : List String} (hc : ∀ t ∈ cleanSlice items, ',' ∉ t.toList)
    (tag : String) : (ipsRule items tag).map readConfigured = ipList items tag := by
  have hsplit := splitAndTrim_joinComma hc
  have hempty : splitAndTrim "" = [] := by decide
  unfold ipsRule ipList
  by_cases h : cleanSlice items = []
  · simp [h]
  · simp [h,readConfigured,fieldRule,hsplit,hempty]

/-- The joined text is the one of the LAN rule exactly for the LAN list. -/
theorem read_directIpRule {items : List String}
    (hc : ∀ t ∈ cleanSlice items, ',' ∉ t.toList) :
    (directIpRule items).map readConfigured =
      if cleanSlice items = lanMatchers then [] else ipList items "direct" := by
  have hjoin : joinComma (cleanSlice items) = lanRuleIP ↔ cleanSlice items = lanMatchers := by
    constructor
    · intro h
      rw [← splitAndTrim_joinComma hc,h,splitAndTrim_lan]
    · intro h
      rw [h]
      decide +kernel
  by_cases h : cleanSlice items = lanMatchers
  · have hdrop : directIpRule items = [] := by simp [directIpRule,hjoin.mpr h]
    rw [hdrop,if_pos h,List.map_nil]
  · have hkeep : directIpRule items = ipsRule items "direct" := by
      unfold directIpRule ipsRule
      simp [mt hjoin.mp h]
    rw [hkeep,if_neg h,read_ipsRule hc]

theorem cleaned_noComma (h : p.NoComma) {items : List String} (hi : items ∈ p.lists) :
    ∀ t ∈ cleanSlice items, ',' ∉ t.toList := by
  intro t ht
  obtain ⟨⟨item,hitem,rfl⟩,-⟩ := mem_cleanSlice.mp ht
  rw [mem_trimSpace (by decide)]
  exact h items hi item hitem

theorem enabled_compiledRules : ∀ r ∈ compiledRules p, r.enabled = true := by
  have hsites : ∀ (items : List String) (tag : String), ∀ r ∈ sitesRule items tag,
      r.enabled = true := by
    intro items tag r hr
    simp only [sitesRule] at hr
    split_ifs at hr
    · rw [List.mem_singleton.mp hr]
      rfl
    · exact absurd hr List.not_mem_nil
  have hips : ∀ (items : List String) (tag : String), ∀ r ∈ ipsRule items tag,
      r.enabled = true := by
    intro items tag r hr
    simp only [ipsRule] at hr
    split_ifs at hr
    · rw [List.mem_singleton.mp hr]
      rfl
    · exact absurd hr List.not_mem_nil
  intro r hr
  simp only [compiledRules,List.mem_append] at hr
  rcases hr with ((((((hr | hr) | hr) | hr) | hr) | hr) | hr) | hr
  · rw [List.mem_singleton.mp hr]
    rfl
  · exact hsites _ _ r hr
  · exact hips _ _ r hr
  · exact hsites _ _ r hr
  · simp only [directIpRule] at hr
    split_ifs at hr
    · rw [List.mem_singleton.mp hr]
      rfl
    · exact absurd hr List.not_mem_nil
    · exact absurd hr List.not_mem_nil
  · exact hsites _ _ r hr
  · exact hips _ _ r hr
  · unfold catchAll at hr
    split_ifs at hr
    · exact absurd hr List.not_mem_nil
    · rw [List.mem_singleton.mp hr]
      rfl

theorem read_compiled (p : HappProfile) :
    (buildUserRules (compiledRules p)).map readRule = (compiledRules p).map readConfigured := by
  rw [read_userRules,List.filter_eq_self.mpr enabled_compiledRules]

/-- Without commas every list comes back as its own rule. -/
theorem read_compiled_documented (h : p.NoComma) :
    (buildUserRules (compiledRules p)).map readRule = documentedRules p := by
  have hc : ∀ items ∈ p.lists, ∀ t ∈ cleanSlice items, ',' ∉ t.toList :=
    fun _ hi => cleaned_noComma h hi
  have hlan : readConfigured lanRule = ⟨"direct",[],lanMatchers,[],"",""⟩ := by decide +kernel
  have hcatch : (catchAll (p.globalProxy.getD true)).map readConfigured =
      if p.globalProxy.getD true then [] else [⟨"direct",[],[],[],"","tcp,udp"⟩] := by
    cases p.globalProxy.getD true <;> decide
  rw [read_compiled,compiledRules,documentedRules]
  simp only [List.map_append,List.map_cons,List.map_nil,hlan,hcatch]
  rw [read_sitesRule (hc _ (by simp [HappProfile.lists])),
    read_ipsRule (hc _ (by simp [HappProfile.lists])),
    read_sitesRule (hc _ (by simp [HappProfile.lists])),
    read_directIpRule (hc _ (by simp [HappProfile.lists])),
    read_sitesRule (hc _ (by simp [HappProfile.lists])),
    read_ipsRule (hc _ (by simp [HappProfile.lists]))]

/-- Every cleaned entry is a matcher of the documented rules. -/
theorem documented_matcher {items : List String} (hi : items ∈ p.lists) {t : String}
    (ht : t ∈ cleanSlice items) :
    t ∈ lanMatchers ∨ ∃ r ∈ documentedRules p, t ∈ r.domain ∨ t ∈ r.ip := by
  have hsite : ∀ tag, ⟨tag,cleanSlice items,[],[],"",""⟩ ∈ siteList items tag := fun tag => by
    simp [siteList,List.ne_nil_of_mem ht]
  have hip : ∀ tag, ⟨tag,[],cleanSlice items,[],"",""⟩ ∈ ipList items tag := fun tag => by
    simp [ipList,List.ne_nil_of_mem ht]
  by_cases hlan : cleanSlice items = lanMatchers
  · exact .inl (hlan ▸ ht)
  refine .inr ?_
  simp only [HappProfile.lists,List.mem_cons,List.not_mem_nil,or_false] at hi
  rcases hi with rfl | rfl | rfl | rfl | rfl | rfl
  · exact ⟨⟨"block",cleanSlice p.blockSites,[],[],"",""⟩,
      by simp only [documentedRules,List.mem_append,hsite "block",true_or,or_true],.inl ht⟩
  · exact ⟨⟨"block",[],cleanSlice p.blockIp,[],"",""⟩,
      by simp only [documentedRules,List.mem_append,hip "block",true_or,or_true],.inr ht⟩
  · exact ⟨⟨"direct",cleanSlice p.directSites,[],[],"",""⟩,
      by simp only [documentedRules,List.mem_append,hsite "direct",true_or,or_true],.inl ht⟩
  · exact ⟨⟨"direct",[],cleanSlice p.directIp,[],"",""⟩,
      by simp only [documentedRules,List.mem_append,hlan,if_false,hip "direct",true_or,or_true],
      .inr ht⟩
  · exact ⟨⟨"proxy",cleanSlice p.proxySites,[],[],"",""⟩,
      by simp only [documentedRules,List.mem_append,hsite "proxy",true_or,or_true],.inl ht⟩
  · exact ⟨⟨"proxy",[],cleanSlice p.proxyIp,[],"",""⟩,
      by simp only [documentedRules,List.mem_append,hip "proxy",or_true,true_or],.inr ht⟩

theorem rules_compiled (h : toRoutingConfig lib p = .ok (cfg,warnings)) :
    cfg.rules = compiledRules p := by
  unfold toRoutingConfig at h
  split_ifs at h
  obtain ⟨rfl,-⟩ := Prod.mk.inj (Except.ok.inj h)
  rfl

/-- The rules follow the format if and only if no entry holds a comma. -/
theorem compiled_follows (h : toRoutingConfig lib p = .ok (cfg,warnings)) :
    Follows p (buildUserRules cfg.rules) ↔ p.NoComma := by
  rw [rules_compiled h]
  constructor
  · intro hf items hi item hitem hcomma
    have hmem : ',' ∈ (trimSpace item).toList := (mem_trimSpace (by decide)).mpr hcomma
    have hclean : trimSpace item ∈ cleanSlice items := by
      refine mem_cleanSlice.mpr ⟨⟨item,hitem,rfl⟩,fun he => ?_⟩
      rw [he] at hmem
      exact absurd hmem List.not_mem_nil
    rcases documented_matcher hi hclean with hlan | ⟨r,hr,ht⟩
    · rw [← splitAndTrim_lan] at hlan
      exact not_comma_of_splitAndTrim hlan hmem
    · rw [← hf.matchers,read_compiled] at hr
      obtain ⟨c,-,rfl⟩ := List.mem_map.mp hr
      rcases ht with ht | ht
      · exact not_comma_of_splitAndTrim ht hmem
      · exact not_comma_of_splitAndTrim ht hmem
  · intro hn
    have hread := read_compiled_documented hn
    refine ⟨fun m d => ?_,hread,?_⟩
    · rw [outboundOf,hread,verdict_documentedRules]
    · rw [hread]
      exact conditioned_documentedRules

/-- No DNS settings, no geo addresses. -/
def plainLib : Lib := ⟨fun _ => (none,[]),fun _ => none,id⟩

def blockingProfile (blockSites : List String) : HappProfile :=
  ⟨"ru",none,["domain:example.org"],["10.0.0.1"],[],[],blockSites,[],"","","",⟨0,false,""⟩,
    ⟨"","","","","","","",""⟩⟩

theorem plain_follows :
    Follows (blockingProfile [" geosite:ads ","full:ads.example"]) (buildUserRules
      (compiledRules (blockingProfile [" geosite:ads ","full:ads.example"]))) :=
  (@compiled_follows plainLib (blockingProfile [" geosite:ads ","full:ads.example"]) _ _ rfl).mpr
    (by unfold HappProfile.NoComma; decide)

/-- A regular expression with a comma is cut in two; an entry that is only a
separator leaves a rule that blocks everything. -/
theorem comma_split :
    (∃ cfg warnings, toRoutingConfig plainLib (blockingProfile
        ["regexp:^ads[0-9]\x7b1,3\x7d[.]example$"]) = .ok (cfg,warnings) ∧
      ¬Follows (blockingProfile ["regexp:^ads[0-9]\x7b1,3\x7d[.]example$"])
        (buildUserRules cfg.rules)) ∧
    ∃ cfg warnings, toRoutingConfig plainLib (blockingProfile [","]) = .ok (cfg,warnings) ∧
      ¬Follows (blockingProfile [","]) (buildUserRules cfg.rules) :=
  ⟨⟨_,_,rfl,fun h => absurd h.matchers (by decide +kernel)⟩,
    ⟨_,_,rfl,fun h => absurd h.matchers (by decide +kernel)⟩⟩

end Compilation

end Whoisthat.HappRules
