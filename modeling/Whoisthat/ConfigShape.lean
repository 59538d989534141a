import Whoisthat.RuleEnforcement

/-!
# The shape of the started configuration

Names in an Xray configuration lead somewhere: rules to outbounds, balancers
and inbounds, chained outbounds to outbounds. Preparing a provider's document
and adding the statistics inbound keeps its shape exactly when the provider
leaves our names and ports free and refers to nothing that gets replaced.
-/

set_option autoImplicit false

namespace Whoisthat.ConfigShape
open Whoisthat.Records Whoisthat.RoutingStore Whoisthat.Json Whoisthat.ProviderConfig
open Whoisthat.RuleEnforcement
open Whoisthat.XrayConfig (isStr splitComma injectStatsConfig apiInbound apiService inboundRule)

section Shape

def inboundsOf (config : Fields) : List Value := (config.index "inbounds").asSlice

/-- Of inbounds and balancers as of outbounds. -/
abbrev tagsOf (values : List Value) : List String := taggedOutbounds values

/-- The API service takes connections under its tag, like an outbound. -/
def apiTag (config : Fields) : String := tagOf (config.index "api").asMap

/-- A list, or one text with commas. -/
def inboundTags (rule : Fields) : List String :=
  let tags := match rule.index "inboundTag" with
    | .str s => splitComma s
    | value => value.asSlice.map Value.asString
  tags.filter (· ≠ "")

def NamesOutbound (config : Fields) (tag : String) : Prop :=
  tag ≠ "" ∧ (tag ∈ tagsOf (outboundsOf config) ∨ tag = apiTag config)

structure Distinct (config : Fields) : Prop where
  outbounds : (tagsOf (outboundsOf config)).Nodup
  inbounds : (tagsOf (inboundsOf config)).Nodup

/-- Only with a balancer beside it may the outbound of a rule be empty. -/
structure RuleResolves (config rule : Fields) : Prop where
  outbound : ∀ tag, rule.index "outboundTag" = .str tag →
    NamesOutbound config tag ∨ (tag = "" ∧ balancerTag rule ≠ "")
  balancer : balancerTag rule ≠ "" → balancerTag rule ∈ tagsOf (balancersOf config)
  inbound : ∀ tag ∈ inboundTags rule, tag ∈ tagsOf (inboundsOf config)

structure Resolves (config : Fields) : Prop where
  rule : ∀ raw ∈ rulesOf config, RuleResolves config raw.asMap
  dialer : ∀ raw ∈ outboundsOf config, dialerProxy raw.asMap ≠ "" →
    dialerProxy raw.asMap ∈ tagsOf (outboundsOf config)

def portsOf (inbounds : List Value) : List Value :=
  inbounds.filterMap fun raw => raw.asMap.lookup "port"

/-- What enters at our API inbound goes to our API service, before any other
rule is asked. -/
structure ReachesApi (config : Fields) (apiPort : ℤ) : Prop where
  rule : ∃ rest, rulesOf config = inboundRule "api" "api"::rest
  service : config.index "api" = apiService
  inbound : apiInbound apiPort ∈ inboundsOf config
  outbound : "api" ∉ tagsOf (outboundsOf config)

structure WellFormed (config : Fields) (apiPort : ℤ) : Prop where
  distinct : Distinct config
  ports : (portsOf (inboundsOf config)).Nodup
  resolves : Resolves config
  api : apiPort > 0 → ReachesApi config apiPort

end Shape

section Condition

/-- The inbounds of the provider that stay. -/
def Kept (opts : Options) (inbound : Fields) : Prop :=
  ((inbound.index "protocol").asString = "socks" ∧ opts.socksPort > 0) ∨
    ((inbound.index "protocol").asString = "http" ∧ opts.httpPort > 0)

def protocolCount (config : Fields) (protocol : String) : ℕ :=
  (inboundsOf config).countP fun raw => isStr (Fields.index raw.asMap "protocol") protocol

/-- The names of the inbounds that are added. -/
def addedTags (config : Fields) (opts : Options) : List String :=
  (if opts.socksPort > 0 ∧ protocolCount config "socks" = 0 then ["socks-in"] else []) ++
  (if opts.httpPort > 0 ∧ protocolCount config "http" = 0 then ["http-in"] else []) ++
  (if opts.tunName ≠ "" then ["tun-in"] else []) ++
  (if opts.apiPort > 0 then ["api"] else [])

def Known (config : Fields) (opts : Options) (tag : String) : Prop :=
  tag ≠ "" ∧ (tag ∈ tagsOf (outboundsOf config) ∨ tag ∈ ["direct","block","dns-out"] ∨
    tag = if opts.apiPort > 0 then "api" else apiTag config)

/-- What the provider's document and the user's rules must leave room for. -/
structure Compatible (config : Fields) (opts : Options) : Prop where
  names : ∀ raw ∈ inboundsOf config, Kept opts raw.asMap →
    tagOf raw.asMap ∉ addedTags config opts
  socks : opts.socksPort > 0 → protocolCount config "socks" ≤ 1
  http : opts.httpPort > 0 → protocolCount config "http" ≤ 1
  ports : ([opts.socksPort,opts.httpPort,opts.apiPort].filter (· > 0)).Nodup
  manual : ∀ r ∈ opts.userRules, r.enabled = true →
    r.outboundTag = "proxy" ∨ Known config opts r.outboundTag
  outbound : ∀ raw ∈ rulesOf config, outboundTag raw.asMap ≠ "" →
    Known config opts (outboundTag raw.asMap)
  inbound : ∀ raw ∈ rulesOf config, ∀ tag ∈ inboundTags raw.asMap,
    tag ∈ addedTags config opts ∨
      ∃ inbound ∈ inboundsOf config, Kept opts inbound.asMap ∧ tagOf inbound.asMap = tag
  api : opts.apiPort > 0 → "api" ∉ tagsOf (outboundsOf config)

end Condition

section Stats

variable (config : Fields) (apiPort : ℤ)

theorem index_injectStats {name : String} (h : name ∉ ["stats","policy","api","inbounds"]) :
    (injectStatsConfig config apiPort).index name = config.index name := by
  simp only [List.mem_cons,List.not_mem_nil,or_false,not_or] at h
  obtain ⟨hs,hp,ha,hi⟩ := h
  unfold injectStatsConfig
  dsimp only
  split
  · rw [index_put_of_ne hi,index_put_of_ne ha,index_put_of_ne hp,index_put_of_ne hs]
  · rw [index_put_of_ne hp,index_put_of_ne hs]

theorem inboundsOf_injectStats :
    inboundsOf (injectStatsConfig config apiPort) =
      inboundsOf config ++ if apiPort > 0 then [apiInbound apiPort] else [] := by
  unfold inboundsOf injectStatsConfig
  dsimp only
  split
  · rw [index_put_self,index_put_of_ne (by decide),index_put_of_ne (by decide),
      index_put_of_ne (by decide)]
    rfl
  · rw [index_put_of_ne (by decide),index_put_of_ne (by decide),List.append_nil]

theorem api_injectStats :
    (injectStatsConfig config apiPort).index "api" =
      if apiPort > 0 then apiService else config.index "api" := by
  unfold injectStatsConfig
  dsimp only
  split
  · rw [index_put_of_ne (by decide),index_put_self]
  · rw [index_put_of_ne (by decide),index_put_of_ne (by decide)]

end Stats

section Inbounds

variable {config : Fields} {opts : Options}

theorem inboundsOf_prepared :
    inboundsOf (prepareFields config opts) = rewriteInbounds (config.index "inbounds") opts := by
  unfold inboundsOf prepareFields
  rw [index_put_of_ne (by decide),index_put_of_ne (by decide),index_put_self,
    index_put_of_ne (by decide),asSlice_arrOrNull]

theorem not_kept_nil : ¬Kept opts [] := by
  rintro (⟨h,-⟩ | ⟨h,-⟩) <;> exact absurd h (by decide)

/-- One inbound of the provider, kept with our port or dropped. -/
theorem rewriteInbound_cases (raw : Value) :
    (¬Kept opts raw.asMap ∧ rewriteInbound opts raw = none) ∨
    (Kept opts raw.asMap ∧
      ∃ ob port, raw = .obj ob ∧ rewriteInbound opts raw = some (rebound ob port)) := by
  cases raw with
  | obj ob =>
    unfold rewriteInbound Kept
    dsimp only [Value.asMap]
    split_ifs with hs hh
    · exact .inr ⟨.inl hs,ob,_,rfl,rfl⟩
    · exact .inr ⟨.inr hh,ob,_,rfl,rfl⟩
    · exact .inl ⟨by tauto,rfl⟩
  | _ => exact .inl ⟨not_kept_nil,rfl⟩

theorem index_rebound {name : String} (h : name ∉ ["port","listen","sniffing"]) (ob : Fields)
    (port : ℤ) : Fields.index (rebound ob port).asMap name = ob.index name := by
  simp only [List.mem_cons,List.not_mem_nil,or_false,not_or] at h
  obtain ⟨hp,hl,hs⟩ := h
  unfold rebound
  dsimp only [Value.asMap]
  rw [index_put_of_ne hs,index_put_of_ne hl,index_put_of_ne hp]

theorem tagOf_rebound (ob : Fields) (port : ℤ) : tagOf (rebound ob port).asMap = tagOf ob := by
  rw [tagOf,tagOf,index_rebound (by decide)]

theorem tagsOf_append (l m : List Value) : tagsOf (l ++ m) = tagsOf l ++ tagsOf m := by
  simp [tagsOf,taggedOutbounds]

theorem mem_tagsOf {values : List Value} {tag : String} :
    tag ∈ tagsOf values ↔ tag ≠ "" ∧ ∃ raw ∈ values, tagOf raw.asMap = tag := by
  simp only [tagsOf,taggedOutbounds,List.mem_filter,List.mem_map,decide_eq_true_eq]
  tauto

def keptInbounds (config : Fields) (opts : Options) : List Value :=
  (inboundsOf config).filterMap (rewriteInbound opts)

theorem mem_keptInbounds {raw : Value} :
    raw ∈ keptInbounds config opts ↔ ∃ ob port, .obj ob ∈ inboundsOf config ∧ Kept opts ob ∧
      rewriteInbound opts (.obj ob) = some (rebound ob port) ∧ raw = rebound ob port := by
  unfold keptInbounds
  rw [List.mem_filterMap]
  constructor
  · rintro ⟨v,hv,h⟩
    rcases @rewriteInbound_cases opts v with ⟨-,hn⟩ | ⟨hk,ob,port,rfl,hs⟩
    · rw [hn] at h
      exact nomatch h
    · rw [hs] at h
      exact ⟨ob,port,hv,hk,hs,(Option.some.inj h).symm⟩
  · rintro ⟨ob,port,hob,-,hs,rfl⟩
    exact ⟨_,hob,hs⟩

theorem mem_tags_kept {tag : String} :
    tag ∈ tagsOf (keptInbounds config opts) ↔
      tag ≠ "" ∧ ∃ raw ∈ inboundsOf config, Kept opts raw.asMap ∧ tagOf raw.asMap = tag := by
  rw [mem_tagsOf]
  refine and_congr_right fun _ => ⟨?_,?_⟩
  · rintro ⟨raw,hraw,htag⟩
    obtain ⟨ob,port,hob,hk,-,rfl⟩ := mem_keptInbounds.mp hraw
    exact ⟨_,hob,hk,(tagOf_rebound ob port).symm.trans htag⟩
  · rintro ⟨raw,hraw,hk,htag⟩
    rcases @rewriteInbound_cases opts raw with ⟨hn,-⟩ | ⟨-,ob,port,rfl,hs⟩
    · exact absurd hk hn
    · exact ⟨_,mem_keptInbounds.mpr ⟨ob,port,hraw,hk,hs,rfl⟩,(tagOf_rebound ob port).trans htag⟩

theorem tags_kept_sublist :
    (tagsOf (keptInbounds config opts)).Sublist (tagsOf (inboundsOf config)) := by
  have hmap (l : List Value) :
      ((l.filterMap (rewriteInbound opts)).map fun raw => tagOf raw.asMap).Sublist
        (l.map fun raw => tagOf raw.asMap) := by
    induction l with
    | nil => exact List.Sublist.slnil
    | cons raw rest ih =>
      rcases @rewriteInbound_cases opts raw with ⟨-,hn⟩ | ⟨-,ob,port,rfl,hs⟩
      · rw [List.filterMap_cons_none hn]
        exact ih.cons _
      · rw [List.filterMap_cons_some hs,List.map_cons,List.map_cons,tagOf_rebound]
        exact ih.cons_cons _
  exact (hmap _).filter _

/-- The inbounds of one of our protocols stay when its port is set. -/
theorem hasProtocol_kept {protocol : String} (hne : protocol ≠ "")
    (hk : ∀ ob : Fields, (ob.index "protocol").asString = protocol → Kept opts ob) :
    hasInboundProtocol (keptInbounds config opts) protocol = false ↔
      protocolCount config protocol = 0 := by
  unfold protocolCount hasInboundProtocol
  rw [List.countP_eq_zero,List.any_eq_false]
  constructor
  · intro h raw hraw hp
    have hkept := hk raw.asMap ((isStr_iff_asString hne).mp hp)
    rcases @rewriteInbound_cases opts raw with ⟨hn,-⟩ | ⟨-,ob,port,rfl,hs⟩
    · exact hn hkept
    · refine h _ (mem_keptInbounds.mpr ⟨ob,port,hraw,hkept,hs,rfl⟩) ?_
      rw [index_rebound (by decide)]
      exact hp
  · intro h raw hraw hp
    obtain ⟨ob,port,hob,-,-,rfl⟩ := mem_keptInbounds.mp hraw
    rw [index_rebound (by decide)] at hp
    exact h _ hob hp

/-- The inbounds that are added behind those that stay. -/
def addedInbounds (config : Fields) (opts : Options) : List Value :=
  (if opts.socksPort > 0 ∧ protocolCount config "socks" = 0 then [socksInbound opts.socksPort]
    else []) ++
  (if opts.httpPort > 0 ∧ protocolCount config "http" = 0 then [httpInbound opts.httpPort]
    else []) ++
  (if opts.tunName ≠ "" then [tunInbound opts.tunName] else []) ++
  (if opts.apiPort > 0 then [apiInbound opts.apiPort] else [])

theorem needs_socks :
    (opts.socksPort > 0 ∧ hasInboundProtocol (keptInbounds config opts) "socks" = false) ↔
      opts.socksPort > 0 ∧ protocolCount config "socks" = 0 :=
  and_congr_right fun h => hasProtocol_kept (by decide) fun _ hp => .inl ⟨hp,h⟩

theorem needs_http (extra : List Value)
    (hextra : hasInboundProtocol extra "http" = false) :
    (opts.httpPort > 0 ∧ hasInboundProtocol (keptInbounds config opts ++ extra) "http" = false) ↔
      opts.httpPort > 0 ∧ protocolCount config "http" = 0 := by
  refine and_congr_right fun h => ?_
  rw [← hasProtocol_kept (by decide) fun _ hp => .inr ⟨hp,h⟩]
  unfold hasInboundProtocol at hextra ⊢
  rw [List.any_append,hextra,Bool.or_false]

theorem rewriteInbounds_eq :
    rewriteInbounds (config.index "inbounds") opts ++
        (if opts.apiPort > 0 then [apiInbound opts.apiPort] else []) =
      keptInbounds config opts ++ addedInbounds config opts := by
  have hkept : (config.index "inbounds").asSlice.filterMap (rewriteInbound opts) =
      keptInbounds config opts := rfl
  unfold rewriteInbounds addedInbounds
  rw [hkept]
  dsimp only
  by_cases hs : opts.socksPort > 0 ∧ protocolCount config "socks" = 0
  · rw [if_pos (needs_socks.mpr hs),if_pos hs]
    simp only [needs_http [socksInbound opts.socksPort] rfl]
    split_ifs <;> simp
  · rw [if_neg (mt needs_socks.mp hs),if_neg hs]
    have hh := @needs_http config opts [] rfl
    rw [List.append_nil] at hh
    simp only [hh]
    split_ifs <;> simp

theorem tags_added : tagsOf (addedInbounds config opts) = addedTags config opts := by
  unfold addedInbounds addedTags
  rw [tagsOf_append,tagsOf_append,tagsOf_append]
  split_ifs <;> rfl

end Inbounds

section Ports

variable {config : Fields} {opts : Options}

def keptPort (opts : Options) (raw : Value) : Option ℤ :=
  if isStr (Fields.index raw.asMap "protocol") "socks" ∧ opts.socksPort > 0 then
    some opts.socksPort
  else if isStr (Fields.index raw.asMap "protocol") "http" ∧ opts.httpPort > 0 then
    some opts.httpPort
  else none

def addedPorts (config : Fields) (opts : Options) : List ℤ :=
  (if opts.socksPort > 0 ∧ protocolCount config "socks" = 0 then [opts.socksPort] else []) ++
  (if opts.httpPort > 0 ∧ protocolCount config "http" = 0 then [opts.httpPort] else []) ++
  (if opts.apiPort > 0 then [opts.apiPort] else [])

theorem lookup_rebound (ob : Fields) (port : ℤ) :
    (rebound ob port).asMap.lookup "port" = some (.int port) := by
  unfold rebound
  dsimp only [Value.asMap]
  rw [lookup_put_of_ne (by decide),lookup_put_of_ne (by decide),lookup_put_self]

theorem asMap_obj (fields : Fields) : (Value.obj fields).asMap = fields := rfl

theorem port_rewriteInbound (raw : Value) :
    ((rewriteInbound opts raw).bind fun inbound => inbound.asMap.lookup "port") =
      (keptPort opts raw).map Value.int := by
  cases raw with
  | obj ob =>
    unfold rewriteInbound keptPort
    have hsocks := @isStr_iff_asString (Fields.index ob "protocol") "socks" (by decide)
    have hhttp := @isStr_iff_asString (Fields.index ob "protocol") "http" (by decide)
    simp only [asMap_obj,hsocks,hhttp]
    split_ifs <;> simp [lookup_rebound]
  | _ => rfl

theorem portsOf_append (l m : List Value) : portsOf (l ++ m) = portsOf l ++ portsOf m :=
  List.filterMap_append

theorem ports_kept : portsOf (keptInbounds config opts) =
    ((inboundsOf config).filterMap (keptPort opts)).map Value.int := by
  unfold portsOf keptInbounds
  rw [List.filterMap_filterMap,List.map_filterMap]
  simp only [port_rewriteInbound]

theorem ports_added : portsOf (addedInbounds config opts) =
    (addedPorts config opts).map Value.int := by
  unfold addedInbounds addedPorts
  rw [portsOf_append,portsOf_append,portsOf_append]
  split_ifs <;> rfl

theorem int_injective : Function.Injective Value.int := by
  intro m n h
  simp only [Value.int,Value.num.injEq,Number.mk.injEq,decide_eq_decide] at h
  omega

theorem isStr_other {v : Value} {s t : String} (h : isStr v s = true) (hne : s ≠ t) :
    isStr v t = false := by
  rw [isStr_iff.mp h]
  simpa [isStr] using hne

theorem count_keptPort (raw : Value) (port : ℤ) :
    (if keptPort opts raw = some port then 1 else 0) =
      (if opts.socksPort > 0 ∧ port = opts.socksPort then
        if isStr (Fields.index raw.asMap "protocol") "socks" = true then 1 else 0 else 0) +
      (if opts.httpPort > 0 ∧ port = opts.httpPort then
        if isStr (Fields.index raw.asMap "protocol") "http" = true then 1 else 0 else 0) := by
  unfold keptPort
  -- an inbound has one protocol, so it can count for one port only
  cases hs : isStr (Fields.index raw.asMap "protocol") "socks" with
  | true =>
    have hh := isStr_other hs (by decide : "socks" ≠ "http")
    by_cases hp : opts.socksPort > 0 <;> simp [hh,hp,@eq_comm _ port]
  | false =>
    cases hh : isStr (Fields.index raw.asMap "protocol") "http" with
    | true => by_cases hp : opts.httpPort > 0 <;> simp [hp,@eq_comm _ port]
    | false => simp

theorem count_kept (l : List Value) (port : ℤ) :
    (l.filterMap (keptPort opts)).count port =
      (if opts.socksPort > 0 ∧ port = opts.socksPort then
        l.countP fun raw => isStr (Fields.index raw.asMap "protocol") "socks" else 0) +
      (if opts.httpPort > 0 ∧ port = opts.httpPort then
        l.countP fun raw => isStr (Fields.index raw.asMap "protocol") "http" else 0) := by
  induction l with
  | nil => simp
  | cons raw rest ih =>
    have hcons : ((raw::rest).filterMap (keptPort opts)).count port =
        (rest.filterMap (keptPort opts)).count port +
          if keptPort opts raw = some port then 1 else 0 := by
      cases h : keptPort opts raw with
      | none => rw [List.filterMap_cons_none h]; simp
      | some p => rw [List.filterMap_cons_some h,List.count_cons]; simp
    rw [hcons,ih,count_keptPort,List.countP_cons,List.countP_cons]
    split_ifs <;> omega

theorem count_added (port : ℤ) :
    (addedPorts config opts).count port =
      (if opts.socksPort > 0 ∧ port = opts.socksPort then
        if protocolCount config "socks" = 0 then 1 else 0 else 0) +
      (if opts.httpPort > 0 ∧ port = opts.httpPort then
        if protocolCount config "http" = 0 then 1 else 0 else 0) +
      (if opts.apiPort > 0 ∧ port = opts.apiPort then 1 else 0) := by
  have hone (p : Prop) [Decidable p] (n : ℤ) : (if p then [n] else []).count port =
      if p ∧ port = n then 1 else 0 := by
    by_cases hp : p <;> simp [hp,List.count_singleton,@eq_comm _ port]
  unfold addedPorts
  rw [List.count_append,List.count_append,hone,hone,hone]
  split_ifs <;> first | rfl | omega

/-- Every port that is set occurs, as often as its protocol does. -/
theorem count_ports (port : ℤ) :
    ((inboundsOf config).filterMap (keptPort opts) ++ addedPorts config opts).count port =
      (if opts.socksPort > 0 ∧ port = opts.socksPort then max 1 (protocolCount config "socks")
        else 0) +
      (if opts.httpPort > 0 ∧ port = opts.httpPort then max 1 (protocolCount config "http")
        else 0) +
      (if opts.apiPort > 0 ∧ port = opts.apiPort then 1 else 0) := by
  rw [List.count_append,count_kept,count_added]
  have hmax (n : ℕ) : max 1 n = n + if n = 0 then 1 else 0 := by split_ifs <;> omega
  rw [hmax,hmax]
  unfold protocolCount
  split_ifs <;> omega

theorem positive_nodup_iff (a b c : ℤ) : ([a,b,c].filter (· > 0)).Nodup ↔
    (a > 0 → b > 0 → a ≠ b) ∧ (a > 0 → c > 0 → a ≠ c) ∧ (b > 0 → c > 0 → b ≠ c) := by
  by_cases ha : a > 0 <;> by_cases hb : b > 0 <;> by_cases hc : c > 0 <;> simp [ha,hb,hc]
  all_goals tauto

theorem ports_nodup_iff :
    (portsOf (keptInbounds config opts ++ addedInbounds config opts)).Nodup ↔
      (opts.socksPort > 0 → protocolCount config "socks" ≤ 1) ∧
      (opts.httpPort > 0 → protocolCount config "http" ≤ 1) ∧
      ([opts.socksPort,opts.httpPort,opts.apiPort].filter (· > 0)).Nodup := by
  rw [portsOf_append,ports_kept,ports_added,← List.map_append,List.nodup_map_iff int_injective,
    List.nodup_iff_count_le_one,positive_nodup_iff]
  simp only [count_ports]
  constructor
  · intro h
    have hs := h opts.socksPort
    have hh := h opts.httpPort
    have ha := h opts.apiPort
    refine ⟨fun hp => ?_,fun hp => ?_,fun hp hq he => ?_,fun hp hq he => ?_,fun hp hq he => ?_⟩
    · rw [if_pos ⟨hp,rfl⟩] at hs
      omega
    · rw [if_pos (c := opts.httpPort > 0 ∧ _) ⟨hp,rfl⟩] at hh
      omega
    · rw [if_pos ⟨hp,rfl⟩,if_pos ⟨hq,he⟩] at hs
      omega
    · rw [if_pos ⟨hp,rfl⟩,if_pos (c := opts.apiPort > 0 ∧ _) ⟨hq,he⟩] at hs
      omega
    · rw [if_pos (c := opts.httpPort > 0 ∧ _) ⟨hp,rfl⟩,
        if_pos (c := opts.apiPort > 0 ∧ _) ⟨hq,he⟩] at hh
      omega
  · rintro ⟨hs,hh,hsh,hsa,hha⟩ port
    split_ifs <;> omega

end Ports

section Started

variable {config : Fields} {opts : Options}

/-- What the managed path hands to the core. -/
def started (config : Fields) (opts : Options) : Fields :=
  injectStatsConfig (prepareFields config opts) opts.apiPort

theorem outboundsOf_started :
    outboundsOf (started config opts) = preparedOutbounds (outboundsOf config) := by
  rw [outboundsOf,started,index_injectStats _ _ (by decide)]
  exact outboundsOf_prepared config opts

theorem routingOf_started : routingOf (started config opts) = routingOf (prepareFields config opts) := by
  rw [routingOf,started,index_injectStats _ _ (by decide)]
  rfl

theorem inboundsOf_started :
    inboundsOf (started config opts) = keptInbounds config opts ++ addedInbounds config opts := by
  rw [started,inboundsOf_injectStats,inboundsOf_prepared,rewriteInbounds_eq]

theorem apiTag_started :
    apiTag (started config opts) = if opts.apiPort > 0 then "api" else apiTag config := by
  have hkeep : Fields.index (prepareFields config opts) "api" = config.index "api" := by
    unfold prepareFields
    rw [index_put_of_ne (by decide),index_put_of_ne (by decide),index_put_of_ne (by decide),
      index_put_of_ne (by decide)]
  rw [apiTag,started,api_injectStats,hkeep]
  split_ifs <;> rfl

theorem tags_started : tagsOf (outboundsOf (started config opts)) = tagsOf (servicesOf config) := by
  rw [outboundsOf_started,preparedOutbounds_eq]
  exact taggedOutbounds_map (index_repair _ (by decide) _) _

theorem mem_tags_services {tag : String} (hne : tag ≠ "") :
    tag ∈ tagsOf (servicesOf config) ↔
      tag ∈ tagsOf (outboundsOf config) ∨ tag ∈ ["direct","block","dns-out"] := by
  rw [mem_tagsOf,mem_tagsOf]
  constructor
  · rintro ⟨-,raw,hraw,rfl⟩
    cases raw with
    | obj ob =>
      rcases mem_services hraw with hob | hob
      · exact .inl ⟨hne,_,hob,rfl⟩
      · right
        simp only [serviceOutbounds,List.mem_cons,List.not_mem_nil,or_false] at hob
        rcases hob with rfl | rfl | rfl <;> decide
    | _ => exact absurd rfl hne
  · rintro (⟨-,raw,hraw,htag⟩ | h)
    · exact ⟨hne,raw,subset_services config hraw,htag⟩
    · obtain ⟨ob,hob,htag⟩ := @services_has config _ h
      exact ⟨hne,_,hob,htag⟩

theorem namesOutbound_started {tag : String} :
    NamesOutbound (started config opts) tag ↔ Known config opts tag := by
  unfold NamesOutbound Known
  refine and_congr_right fun hne => ?_
  rw [tags_started,apiTag_started,mem_tags_services hne,or_assoc]

theorem nodup_ensureOutbound {outbounds : List Value} (h : (tagsOf outbounds).Nodup)
    {tag : String} (hne : tag ≠ "") (protocol : String) (settings : Fields) :
    (tagsOf (ensureOutbound outbounds tag protocol settings)).Nodup := by
  unfold ensureOutbound
  split
  · exact h
  · rename_i hany
    rw [Bool.not_eq_true,List.any_eq_false] at hany
    have hadded : tagsOf [Value.obj [("tag",.str tag),("protocol",.str protocol),
        ("settings",.obj settings)]] = [tag] := by
      simp [tagsOf,taggedOutbounds,tagOf,asMap_obj,Fields.index,Value.asString,hne]
    have hfresh : tag ∉ tagsOf outbounds := by
      intro hmem
      obtain ⟨-,raw,hraw,htag⟩ := mem_tagsOf.mp hmem
      exact hany raw hraw ((isStr_iff_asString hne).mpr htag)
    rw [tagsOf_append,hadded]
    exact h.append (List.nodup_singleton tag) (List.disjoint_singleton.mpr hfresh)

theorem distinct_outbounds (h : (tagsOf (outboundsOf config)).Nodup) :
    (tagsOf (outboundsOf (started config opts))).Nodup := by
  rw [tags_started]
  unfold servicesOf ensureServiceOutbounds
  have hdirect := nodup_ensureOutbound h (by decide : "direct" ≠ "") "freedom"
    [("domainStrategy",.str "UseIP")]
  have hblock := nodup_ensureOutbound hdirect (by decide : "block" ≠ "") "blackhole" []
  exact nodup_ensureOutbound hblock (by decide) "dns" []

theorem mem_tags_inbounds {tag : String} :
    tag ∈ tagsOf (inboundsOf (started config opts)) ↔
      tag ∈ tagsOf (keptInbounds config opts) ∨ tag ∈ addedTags config opts := by
  rw [inboundsOf_started,tagsOf_append,tags_added,List.mem_append]

theorem nodup_addedTags : (addedTags config opts).Nodup := by
  unfold addedTags
  split_ifs <;> decide

theorem ne_of_mem_addedTags {tag : String} (h : tag ∈ addedTags config opts) : tag ≠ "" := by
  have hne : "" ∉ addedTags config opts := by
    unfold addedTags
    split_ifs <;> decide
  exact fun he => hne (he ▸ h)

theorem distinct_started_iff (h : Distinct config) :
    Distinct (started config opts) ↔
      ∀ raw ∈ inboundsOf config, Kept opts raw.asMap →
        tagOf raw.asMap ∉ addedTags config opts := by
  have hkept := @tags_kept_sublist config opts
  constructor
  · intro hd raw hraw hk hmem
    have hnodup := hd.inbounds
    rw [inboundsOf_started,tagsOf_append,tags_added,List.nodup_append] at hnodup
    have hin := mem_tags_kept.mpr ⟨ne_of_mem_addedTags hmem,raw,hraw,hk,rfl⟩
    exact hnodup.2.2 _ hin _ hmem rfl
  · intro hall
    refine ⟨distinct_outbounds h.outbounds,?_⟩
    rw [inboundsOf_started,tagsOf_append,tags_added,List.nodup_append]
    refine ⟨h.inbounds.sublist hkept,nodup_addedTags,?_⟩
    rintro tag hin _ hmem rfl
    obtain ⟨-,raw,hraw,hk,rfl⟩ := mem_tags_kept.mp hin
    exact hall raw hraw hk hmem

end Started

section References

variable {config : Fields} {opts : Options}

theorem balancerTag_inboundRule (inboundTag outboundTag : String) :
    balancerTag (inboundRule inboundTag outboundTag).asMap = "" := rfl

/-- A rule of ours for one inbound, from a name that is there to one that is. -/
theorem resolves_ours {rule : Fields} {inboundTag outboundTag : String}
    (hout : rule.index "outboundTag" = .str outboundTag) (hbal : balancerTag rule = "")
    (hin : inboundTags rule = [inboundTag]) (hknown : Known config opts outboundTag)
    (hadded : inboundTag ∈ addedTags config opts) : RuleResolves (started config opts) rule := by
  refine ⟨fun tag htag => ?_,fun hne => absurd hbal hne,fun tag htag => ?_⟩
  · cases hout.symm.trans htag
    exact .inl (namesOutbound_started.mpr hknown)
  · rw [hin] at htag
    cases List.mem_singleton.mp htag
    exact mem_tags_inbounds.mpr (.inr hadded)

theorem resolves_structural {raw : Value} (h : raw ∈ structuralRules opts) :
    RuleResolves (started config opts) raw.asMap := by
  rcases List.mem_append.mp h with h | h
  · split_ifs at h with hapi
    · cases List.mem_singleton.mp h
      have hknown : Known config opts "api" := ⟨by decide,.inr (.inr (if_pos hapi).symm)⟩
      have hadded : "api" ∈ addedTags config opts := List.mem_append_right _ (by simp [hapi])
      exact resolves_ours rfl rfl rfl hknown hadded
    · exact absurd h List.not_mem_nil
  · split_ifs at h with htun
    · cases List.mem_singleton.mp h
      have hknown : Known config opts "dns-out" := ⟨by decide,.inr (.inl (by decide))⟩
      have hadded : "tun-in" ∈ addedTags config opts :=
        List.mem_append_left _ (List.mem_append_right _ (by simp [htun]))
      exact resolves_ours rfl rfl rfl hknown hadded
    · exact absurd h List.not_mem_nil

theorem inboundTags_emitted (target : UserTarget) (r : RoutingRule) :
    inboundTags (emitted opts target r) = [] := by
  have hnone : Fields.index (emitted opts target r) "inboundTag" = .null := by
    have hcond : (ruleConditions opts.globalGeoExt r).lookup "inboundTag" = none := by
      unfold ruleConditions
      simp [List.lookup_append,List.lookup_cons,lookup_member_of_ne]
    have hkey : Fields.index [targetMember target r.outboundTag] "inboundTag" = .null := by
      unfold targetMember
      split_ifs
      · cases target <;> rfl
      · rfl
    rw [← hkey,Fields.index,emitted,List.lookup_append,hcond]
    rfl
  unfold inboundTags
  rw [hnone]
  rfl

theorem index_outbound_emitted (target : UserTarget) (r : RoutingRule) :
    Fields.index (emitted opts target r) "outboundTag" =
      Fields.index [targetMember target r.outboundTag] "outboundTag" :=
  index_emitted (by simp)

theorem balancerTag_emitted (target : UserTarget) (r : RoutingRule) :
    balancerTag (emitted opts target r) =
      balancerTag [targetMember target r.outboundTag] := by
  rw [balancerTag,index_emitted (by simp)]
  rfl

theorem targetMember_plain {tag : String} (h : tag ≠ "proxy") (target : UserTarget) :
    targetMember target tag = ("outboundTag",.str tag) := if_neg h

theorem balancersOf_started :
    balancersOf (started config opts) = balancersOf (prepareFields config opts) := by
  rw [balancersOf,routingOf_started]
  rfl

theorem target_outbound_known
    (h : ∃ ob, Value.obj ob ∈ outboundsOf config ∧ isProxyOutbound ob = true) {tag : String}
    (ht : targetOf config = .outbound tag) : Known config opts tag := by
  have hchecked := targetOf_checked h
  rw [ht] at hchecked
  obtain ⟨ob,hob,hp,rfl⟩ := mem_collectProxyTags.mp hchecked
  have hne := (isProxyOutbound_iff.mp hp).2
  exact ⟨hne,.inl (mem_tagsOf.mpr ⟨hne,_,hob,rfl⟩)⟩

theorem target_balancer_there
    (h : ∃ ob, Value.obj ob ∈ outboundsOf config ∧ isProxyOutbound ob = true) {tag : String}
    (hne : tag ≠ "") (hr : opts.userRules ≠ [])
    (ht : targetOf config = .balancer tag ∨ ∃ selector, targetOf config = .generated tag selector) :
    tag ∈ tagsOf (balancersOf (started config opts)) := by
  have hchecked := targetOf_checked h
  rw [balancersOf_started,balancersOf_prepared h]
  rcases ht with ht | ⟨selector,ht⟩
  · rw [ht] at hchecked
    obtain ⟨balancer,hmem,htag,-⟩ := selectsOnlyProxy_picks hchecked.2
    exact mem_tagsOf.mpr ⟨hne,_,List.mem_append_left _ hmem,htag⟩
  · have hextra : extraBalancer opts.userRules (targetOf config) =
        [.obj (randomBalancer tag selector)] := by
      rw [ht]
      cases hu : opts.userRules with
      | nil => exact absurd hu hr
      | cons r rest => rfl
    rw [hextra]
    exact mem_tagsOf.mpr ⟨hne,_,List.mem_append_right _ (List.mem_singleton.mpr rfl),rfl⟩

/-- The target of `proxy` rules is always there. -/
theorem resolves_proxy
    (h : ∃ ob, Value.obj ob ∈ outboundsOf config ∧ isProxyOutbound ob = true)
    {r : RoutingRule} (hr : r ∈ opts.userRules) (htag : r.outboundTag = "proxy") :
    RuleResolves (started config opts) (emitted opts (targetOf config) r) := by
  have hin : ∀ tag ∈ inboundTags (emitted opts (targetOf config) r),
      tag ∈ tagsOf (inboundsOf (started config opts)) := by
    rw [inboundTags_emitted]
    exact fun _ ht => absurd ht List.not_mem_nil
  have hne := List.ne_nil_of_mem hr
  refine ⟨fun tag ht => ?_,fun hb => ?_,hin⟩
  · cases htarget : targetOf config with
    | outbound tag' =>
      have hknown := @target_outbound_known config opts h tag' htarget
      have hemit : Fields.index (emitted opts (.outbound tag') r) "outboundTag" = .str tag' := by
        rw [index_outbound_emitted,targetMember,if_pos htag]
        simp [Fields.index,hknown.1]
      rw [htarget] at ht
      cases hemit.symm.trans ht
      exact .inl (namesOutbound_started.mpr hknown)
    | balancer tag' =>
      rw [htarget,index_outbound_emitted,targetMember,if_pos htag] at ht
      cases ht
    | generated tag' selector =>
      rw [htarget,index_outbound_emitted,targetMember,if_pos htag] at ht
      cases ht
  · cases htarget : targetOf config with
    | outbound tag' =>
      rw [htarget,balancerTag_emitted,targetMember,if_pos htag] at hb
      exact absurd rfl hb
    | balancer tag' =>
      have hemit := (@balancer_proxy opts r htag tag').2
      rw [htarget,hemit] at hb
      rw [hemit]
      exact target_balancer_there h hb hne (.inl htarget)
    | generated tag' selector =>
      have hemit := (@generated_proxy opts r htag tag' selector).2
      rw [htarget,hemit] at hb
      rw [hemit]
      exact target_balancer_there h hb hne (.inr ⟨selector,htarget⟩)

theorem resolves_manual_iff
    (h : ∃ ob, Value.obj ob ∈ outboundsOf config ∧ isProxyOutbound ob = true)
    {r : RoutingRule} (hr : r ∈ opts.userRules) :
    RuleResolves (started config opts) (emitted opts (targetOf config) r) ↔
      r.outboundTag = "proxy" ∨ Known config opts r.outboundTag := by
  by_cases htag : r.outboundTag = "proxy"
  · exact ⟨fun _ => .inl htag,fun _ => resolves_proxy h hr htag⟩
  have hout : Fields.index (emitted opts (targetOf config) r) "outboundTag" =
      .str r.outboundTag := by
    rw [index_outbound_emitted,targetMember_plain htag]
    rfl
  have hbal : balancerTag (emitted opts (targetOf config) r) = "" := by
    rw [balancerTag_emitted,targetMember_plain htag]
    rfl
  constructor
  · intro hres
    rcases hres.outbound _ hout with hn | ⟨-,hb⟩
    · exact .inr (namesOutbound_started.mp hn)
    · exact absurd hbal hb
  · intro hk
    have hknown := hk.resolve_left htag
    refine ⟨fun tag ht => ?_,fun hb => absurd hbal hb,fun tag ht => ?_⟩
    · cases hout.symm.trans ht
      exact .inl (namesOutbound_started.mpr hknown)
    · rw [inboundTags_emitted] at ht
      exact absurd ht List.not_mem_nil

theorem mem_kept_or_added {tag : String} (hne : tag ≠ "") :
    tag ∈ tagsOf (inboundsOf (started config opts)) ↔
      tag ∈ addedTags config opts ∨
        ∃ inbound ∈ inboundsOf config, Kept opts inbound.asMap ∧ tagOf inbound.asMap = tag := by
  rw [mem_tags_inbounds,mem_tags_kept,or_comm]
  exact or_congr_right ⟨And.right,fun h => ⟨hne,h⟩⟩

theorem inboundTag_ne {rule : Fields} {tag : String} (h : tag ∈ inboundTags rule) : tag ≠ "" := by
  simpa using (List.mem_filter.mp h).2

theorem resolves_provider_iff
    (hproxy : ∃ ob, Value.obj ob ∈ outboundsOf config ∧ isProxyOutbound ob = true)
    {rule : Fields} (h : RuleResolves config rule) :
    RuleResolves (started config opts) rule ↔
      (outboundTag rule ≠ "" → Known config opts (outboundTag rule)) ∧
      (∀ tag ∈ inboundTags rule, tag ∈ addedTags config opts ∨
        ∃ inbound ∈ inboundsOf config, Kept opts inbound.asMap ∧ tagOf inbound.asMap = tag) := by
  constructor
  · intro hs
    refine ⟨fun hne => ?_,fun tag htag =>
      (mem_kept_or_added (inboundTag_ne htag)).mp (hs.inbound tag htag)⟩
    have hstr : rule.index "outboundTag" = .str (outboundTag rule) :=
      isStr_iff.mp ((isStr_iff_asString hne).mpr rfl)
    rcases hs.outbound _ hstr with hn | ⟨he,-⟩
    · exact namesOutbound_started.mp hn
    · exact absurd he hne
  · rintro ⟨hout,hin⟩
    refine ⟨fun tag ht => ?_,fun hb => ?_,fun tag htag =>
      (mem_kept_or_added (inboundTag_ne htag)).mpr (hin tag htag)⟩
    · have htag : outboundTag rule = tag := by
        rw [outboundTag,ht]
        rfl
      rcases h.outbound tag ht with hn | he
      · exact .inl (namesOutbound_started.mpr (htag ▸ hout (htag ▸ hn.1)))
      · exact .inr he
    · rw [balancersOf_started,balancersOf_prepared hproxy,tagsOf_append]
      exact List.mem_append_left _ (h.balancer hb)

theorem dialerProxy_fix_there {tags : List String} {first : String} {ob : Fields}
    (h : dialerProxy (fixDialerProxy tags first (.obj ob)).asMap ≠ "") :
    dialerProxy (fixDialerProxy tags first (.obj ob)).asMap ∈ tags ∨
      dialerProxy (fixDialerProxy tags first (.obj ob)).asMap = first := by
  unfold fixDialerProxy at h ⊢
  dsimp only at h ⊢
  split at h
  · rename_i hd
    rw [if_pos hd]
    exact .inl (hd.resolve_left h)
  · rename_i hd
    rw [if_neg hd]
    right
    rw [asMap_obj,dialerProxy,sockoptOf_putOrDelete] at h ⊢
    split_ifs at h ⊢ with hf
    · rw [index_delete_self] at h
      exact absurd rfl h
    · rw [index_put_self]
      rfl

/-- Chained outbounds lead to outbounds, whatever the provider wrote. -/
theorem dialers_started
    (hproxy : ∃ ob, Value.obj ob ∈ outboundsOf config ∧ isProxyOutbound ob = true)
    {raw : Value} (hraw : raw ∈ outboundsOf (started config opts))
    (hne : dialerProxy raw.asMap ≠ "") :
    dialerProxy raw.asMap ∈ tagsOf (outboundsOf (started config opts)) := by
  cases raw with
  | obj x =>
    rw [outboundsOf_started,preparedOutbounds_eq] at hraw
    obtain ⟨ob,-,rfl⟩ := (mem_map_repair _).mp hraw
    rw [asMap_obj,repaired,mark_obj] at hne ⊢
    rw [tags_started,mem_tagsOf]
    rcases dialerProxy_fix_there hne with hd | hd
    · obtain ⟨raw,hraw,htag⟩ := List.mem_filterMap.mp hd
      refine ⟨hne,raw,hraw,?_⟩
      unfold tagOf
      split at htag
      · rename_i hstr
        rw [hstr]
        exact Option.some.inj htag
      · cases htag
    · have hfirst := headD_ne hproxy
      obtain ⟨tag,htag⟩ : ∃ tag, (collectProxyTags (outboundsOf config)).headD "" = tag ∧
          tag ∈ collectProxyTags (outboundsOf config) := by
        cases hl : collectProxyTags (outboundsOf config) with
        | nil => rw [hl] at hfirst; exact absurd rfl hfirst
        | cons tag rest => exact ⟨tag,rfl,List.mem_cons_self⟩
      obtain ⟨ob',hob',-,rfl⟩ := mem_collectProxyTags.mp htag.2
      exact ⟨hne,_,subset_services config hob',htag.1.symm.trans hd.symm⟩
  | _ => exact absurd rfl hne

theorem rulesOf_started
    (hproxy : ∃ ob, Value.obj ob ∈ outboundsOf config ∧ isProxyOutbound ob = true) :
    rulesOf (started config opts) = structuralRules opts ++
      buildUserRules opts.userRules opts.globalGeoExt (targetOf config) ++ rulesOf config := by
  rw [rulesOf,routingOf_started]
  exact rulesOf_prepared hproxy

theorem resolves_started_iff
    (hproxy : ∃ ob, Value.obj ob ∈ outboundsOf config ∧ isProxyOutbound ob = true)
    (h : Resolves config) :
    Resolves (started config opts) ↔
      (∀ r ∈ opts.userRules, r.enabled = true →
        r.outboundTag = "proxy" ∨ Known config opts r.outboundTag) ∧
      (∀ raw ∈ rulesOf config, outboundTag raw.asMap ≠ "" →
        Known config opts (outboundTag raw.asMap)) ∧
      (∀ raw ∈ rulesOf config, ∀ tag ∈ inboundTags raw.asMap, tag ∈ addedTags config opts ∨
        ∃ inbound ∈ inboundsOf config, Kept opts inbound.asMap ∧ tagOf inbound.asMap = tag) := by
  have hrules := @rulesOf_started config opts hproxy
  constructor
  · intro hs
    refine ⟨fun r hr he => ?_,fun raw hraw => ?_,fun raw hraw => ?_⟩
    · have hmem : userRule opts.globalGeoExt (targetOf config) r ∈ rulesOf (started config opts) := by
        rw [hrules]
        exact List.mem_append_left _ (List.mem_append_right _
          (List.mem_map_of_mem (List.mem_filter.mpr ⟨hr,he⟩)))
      exact (resolves_manual_iff hproxy hr).mp (hs.rule _ hmem)
    all_goals
      have hmem : raw ∈ rulesOf (started config opts) := by
        rw [hrules]
        exact List.mem_append_right _ hraw
      have hres := (resolves_provider_iff hproxy (h.rule raw hraw)).mp (hs.rule raw hmem)
    · exact hres.1
    · exact hres.2
  · rintro ⟨hmanual,hout,hin⟩
    refine ⟨fun raw hraw => ?_,fun raw hraw hne => dialers_started hproxy hraw hne⟩
    rw [hrules] at hraw
    rcases List.mem_append.mp hraw with hraw | hraw
    · rcases List.mem_append.mp hraw with hraw | hraw
      · exact resolves_structural hraw
      · obtain ⟨r,hr,rfl⟩ := List.mem_map.mp hraw
        obtain ⟨hr,he⟩ := List.mem_filter.mp hr
        exact (resolves_manual_iff hproxy hr).mpr (hmanual r hr he)
    · exact (resolves_provider_iff hproxy (h.rule raw hraw)).mpr ⟨hout raw hraw,hin raw hraw⟩

theorem reachesApi_iff (hproxy : ∃ ob, Value.obj ob ∈ outboundsOf config ∧ isProxyOutbound ob = true)
    (hapi : opts.apiPort > 0) :
    ReachesApi (started config opts) opts.apiPort ↔ "api" ∉ tagsOf (outboundsOf config) := by
  have htags : "api" ∈ tagsOf (outboundsOf (started config opts)) ↔
      "api" ∈ tagsOf (outboundsOf config) := by
    rw [tags_started,mem_tags_services (by decide)]
    exact or_iff_left (by decide)
  constructor
  · exact fun h => mt htags.mpr h.outbound
  · intro h
    have hrules := @rulesOf_started config opts hproxy
    rw [structuralRules,if_pos hapi,List.append_assoc,List.append_assoc] at hrules
    refine ⟨⟨_,hrules⟩,?_,?_,mt htags.mp h⟩
    · rw [started,api_injectStats,if_pos hapi]
    · rw [inboundsOf_started]
      exact List.mem_append_right _ (List.mem_append_right _ (by simp [hapi]))

theorem wellFormed_started_iff
    (hproxy : ∃ ob, Value.obj ob ∈ outboundsOf config ∧ isProxyOutbound ob = true)
    (hdistinct : Distinct config) (hresolves : Resolves config) :
    WellFormed (started config opts) opts.apiPort ↔ Compatible config opts := by
  have hports : (portsOf (inboundsOf (started config opts))).Nodup ↔ _ :=
    @inboundsOf_started config opts ▸ ports_nodup_iff
  constructor
  · intro h
    obtain ⟨hs,hh,hp⟩ := hports.mp h.ports
    obtain ⟨hm,ho,hi⟩ := (resolves_started_iff hproxy hresolves).mp h.resolves
    exact ⟨(distinct_started_iff hdistinct).mp h.distinct,hs,hh,hp,hm,ho,hi,
      fun hapi => (reachesApi_iff hproxy hapi).mp (h.api hapi)⟩
  · intro h
    exact ⟨(distinct_started_iff hdistinct).mpr h.names,hports.mpr ⟨h.socks,h.http,h.ports⟩,
      (resolves_started_iff hproxy hresolves).mpr ⟨h.manual,h.outbound,h.inbound⟩,
      fun hapi => (reachesApi_iff hproxy hapi).mpr (h.api hapi)⟩

/-- The configuration made from a well-formed document of the provider is
well-formed again exactly when names, ports and references are compatible. -/
theorem wellFormed_iff (raw : Value) (opts : Options) (prepared : Prepared) (config : Fields)
    (hraw : unmarshalMap raw = some config) (h : prepare raw opts = .ok prepared)
    (hdistinct : Distinct config) (hresolves : Resolves config) :
    WellFormed (injectStatsConfig prepared.config opts.apiPort) opts.apiPort ↔
      Compatible config opts := by
  obtain ⟨_,hc,hproxy,rfl⟩ := prepare_ok.mp h
  cases hraw.symm.trans hc
  exact wellFormed_started_iff hproxy hdistinct hresolves

end References

section Samples

def inboundNamed (tag port : String) : Fields :=
  [("tag",.str tag),("protocol",.str "socks"),("port",.str port)]

def documentWith (inbounds : List Fields) : Fields :=
  [("inbounds",.arr (inbounds.map .obj)),("outbounds",.arr [.obj (outboundNamed "de" "vless")])]

def withStats (userRules : List RoutingRule) : Options :=
  { optionsFor userRules with
    tunName := "tun0"
    apiPort := 10085 }

theorem distinct_of_inbounds {inbounds : List Fields} (h : (inbounds.map tagOf).Nodup) :
    Distinct (documentWith inbounds) := by
  have hout : (tagsOf [Value.obj (outboundNamed "de" "vless")]).Nodup := by decide
  refine ⟨hout,?_⟩
  have htags : (inbounds.map Value.obj).map (fun raw => tagOf raw.asMap) = inbounds.map tagOf := by
    rw [List.map_map]
    rfl
  exact (htags ▸ h : List.Nodup _).filter _

theorem resolves_documentWith (inbounds : List Fields) : Resolves (documentWith inbounds) := by
  refine ⟨fun raw hraw => absurd hraw List.not_mem_nil,fun raw hraw hne => ?_⟩
  cases List.mem_singleton.mp hraw
  exact absurd rfl hne

theorem plain_document_wellFormed :
    WellFormed (injectStatsConfig (prepareFields (documentWith [inboundNamed "local" "2080"])
      (withStats [ruleFor "proxy",ruleFor "direct"])) 10085) 10085 := by
  have hraw : unmarshalMap (.obj (documentWith [inboundNamed "local" "2080"])) =
      some (documentWith [inboundNamed "local" "2080"]) := rfl
  refine (wellFormed_iff _ (withStats [ruleFor "proxy",ruleFor "direct"]) _ _ hraw
    (prepare_ok.mpr ⟨_,hraw,⟨_,List.mem_singleton.mpr rfl,by decide⟩,rfl⟩)
    (distinct_of_inbounds (by decide)) (resolves_documentWith _)).mpr ?_
  refine ⟨fun raw hraw _ => ?_,fun _ => by decide,fun _ => by decide,by decide,fun r hr _ => ?_,
    fun raw hraw => absurd hraw List.not_mem_nil,fun raw hraw => absurd hraw List.not_mem_nil,
    fun _ => by decide⟩
  · cases List.mem_singleton.mp hraw
    decide
  · rcases List.mem_cons.mp hr with rfl | hr
    · exact .inl rfl
    · cases List.mem_singleton.mp hr
      exact .inr ⟨by decide,.inr (.inl (by decide))⟩

/-- Two local inbounds of the provider end up on one port. -/
theorem two_inbounds_share_port :
    Distinct (documentWith [inboundNamed "a" "2080",inboundNamed "b" "2081"]) ∧
    Resolves (documentWith [inboundNamed "a" "2080",inboundNamed "b" "2081"]) ∧
    ∃ prepared, prepare (.obj (documentWith [inboundNamed "a" "2080",inboundNamed "b" "2081"]))
        (withStats []) = .ok prepared ∧
      ¬WellFormed (injectStatsConfig prepared.config 10085) 10085 := by
  have hraw : unmarshalMap (.obj (documentWith [inboundNamed "a" "2080",inboundNamed "b" "2081"])) =
      some (documentWith [inboundNamed "a" "2080",inboundNamed "b" "2081"]) := rfl
  have hproxy : ∃ ob, Value.obj ob ∈
      outboundsOf (documentWith [inboundNamed "a" "2080",inboundNamed "b" "2081"]) ∧
      isProxyOutbound ob = true := ⟨_,List.mem_singleton.mpr rfl,by decide⟩
  have hdistinct := @distinct_of_inbounds [inboundNamed "a" "2080",inboundNamed "b" "2081"] (by decide)
  refine ⟨hdistinct,resolves_documentWith _,_,prepare_ok.mpr ⟨_,hraw,hproxy,rfl⟩,fun h => ?_⟩
  have hcompatible := (@wellFormed_started_iff _ (withStats []) hproxy hdistinct
    (resolves_documentWith _)).mp h
  exact absurd (hcompatible.socks (by decide)) (by decide)

end Samples

end Whoisthat.ConfigShape
