import Whoisthat.ProviderConfig

/-!
# Enforcement of manual rules in provider configurations

Xray takes a rule's outbound by its tag and a balancer's candidates by the
beginning of their tags. Read that way, a prepared configuration carries out
the manual rules exactly when the reserved tags of the provider have the
protocols they stand for and the tags of the chosen proxy target lead to
proxies only.
-/

set_option autoImplicit false

namespace Whoisthat.RuleEnforcement
open Whoisthat.Records Whoisthat.RoutingStore Whoisthat.Json Whoisthat.ProviderConfig
open Whoisthat.XrayConfig (isStr member)

section Core

def outboundsOf (config : Fields) : List Value := (config.index "outbounds").asSlice

def routingOf (config : Fields) : Fields := (config.index "routing").asMap

def rulesOf (config : Fields) : List Value := (Fields.index (routingOf config) "rules").asSlice

def balancersOf (config : Fields) : List Value :=
  (Fields.index (routingOf config) "balancers").asSlice

def kind (outbound : Fields) : String := toLower (trimSpace (outbound.index "protocol").asString)

def CarriesProxy (outbound : Fields) : Prop := kind outbound ∉ serviceProtocols

def Chained (outbound : Fields) : Prop := dialerProxy outbound ≠ ""

/-- A balancer takes what one of its selectors begins, or its fallback. -/
def Picks (balancer outbound : Fields) : Prop :=
  (∃ s ∈ asStringSlice (balancer.index "selector"), hasPrefix (tagOf outbound) s = true) ∨
    (balancer.index "fallbackTag").asString = tagOf outbound

def outboundTag (rule : Fields) : String := (rule.index "outboundTag").asString

def balancerTag (rule : Fields) : String := (rule.index "balancerTag").asString

/-- The running core may send what the rule matches to the outbound. -/
def Serves (config rule outbound : Fields) : Prop :=
  .obj outbound ∈ outboundsOf config ∧ tagOf outbound ≠ "" ∧
    (tagOf outbound = outboundTag rule ∨
      (outboundTag rule = "" ∧ ∃ balancer, .obj balancer ∈ balancersOf config ∧
        tagOf balancer = balancerTag rule ∧ tagOf balancer ≠ "" ∧ Picks balancer outbound))

def ServedBy (config rule : Fields) (protocol : String) : Prop :=
  (∃ ob, Serves config rule ob) ∧ ∀ ob, Serves config rule ob → kind ob = protocol

/-- The rule names a balancer that is none of the provider's. -/
def Generated (provider : List Value) (rule : Fields) : Prop :=
  outboundTag rule = "" ∧ ∀ balancer, Value.obj balancer ∈ provider →
    tagOf balancer ≠ balancerTag rule

structure ServedByProxy (provider : List Value) (config rule : Fields) : Prop where
  some : ∃ ob, Serves config rule ob
  only : ∀ ob, Serves config rule ob → CarriesProxy ob
  unchained : Generated provider rule → ∀ ob, Serves config rule ob → Chained ob →
    ∀ other, Value.obj other ∈ outboundsOf config → isProxyOutbound other = true → Chained other

/-- The rule has the user's conditions and the user's policy. -/
structure Enforces (opts : Options) (provider : List Value) (config : Fields) (r : RoutingRule)
    (raw : Value) : Prop where
  conditions : ∃ target, raw = .obj (ruleConditions opts.globalGeoExt r ++ [target])
  proxy : r.outboundTag = "proxy" → ServedByProxy provider config raw.asMap
  direct : r.outboundTag = "direct" → ServedBy config raw.asMap "freedom"
  block : r.outboundTag = "block" → ServedBy config raw.asMap "blackhole"

/-- Behind the structural rules come the enabled manual rules in their order,
then the provider's. -/
def Enforced (config : Fields) (opts : Options) (prepared : Fields) : Prop :=
  ∃ manual, rulesOf prepared = structuralRules opts ++ manual ++ rulesOf config ∧
    List.Forall₂ (Enforces opts (balancersOf config) prepared)
      (opts.userRules.filter (·.enabled)) manual

end Core

section Condition

/-- A reference to an outbound that is not there is repaired: on the first
proxy it disappears, elsewhere it leads to the first proxy. -/
def StaysChained (outbounds : List Value) (proxyTags : List String) (outbound : Fields) : Prop :=
  dialerProxy outbound ≠ "" ∧ (dialerProxy outbound ∈ stringTags outbounds ∨
    tagOf outbound ≠ proxyTags.headD "")

instance (outbounds : List Value) (proxyTags : List String) (outbound : Fields) :
    Decidable (StaysChained outbounds proxyTags outbound) := by
  unfold StaysChained
  infer_instance

def tagStaysChained (outbounds : List Value) (proxyTags : List String) (tag : String) : Bool :=
  match outbounds.find? fun raw => isStr (Fields.index raw.asMap "tag") tag with
  | some raw => StaysChained outbounds proxyTags raw.asMap
  | none => false

/-- The selection of the proxy target, read off the provider's document. -/
def policyTarget (outbounds balancers rules : List Value) (proxyTags : List String) : UserTarget :=
  if "proxy" ∈ proxyTags then .outbound "proxy"
  else match proxyTags,defaultProxyTarget rules outbounds balancers proxyTags with
    | [tag],_ => .outbound tag
    | _,some target => if target.balancer then .balancer target.tag else .outbound target.tag
    | _,none =>
      let unchained := proxyTags.filter fun tag => !tagStaysChained outbounds proxyTags tag
      .generated (uniqueBalancerTag balancers outbounds)
        (if unchained = [] then proxyTags else unchained)

/-- The tags of a target lead to proxies, through the generated balancer to
chained ones only when there are no others. -/
def TargetSound (outbounds balancers : List Value) (proxyTags : List String) : UserTarget → Prop
  | .outbound tag => ∀ ob, Value.obj ob ∈ outbounds → tagOf ob = tag → CarriesProxy ob
  | .balancer tag => ∀ balancer, Value.obj balancer ∈ balancers → tagOf balancer = tag →
      ∀ ob, Value.obj ob ∈ outbounds → tagOf ob ≠ "" → Picks balancer ob → CarriesProxy ob
  | .generated _ selector => ∀ ob, Value.obj ob ∈ outbounds →
      (∃ s ∈ selector, hasPrefix (tagOf ob) s = true) → CarriesProxy ob ∧
        (StaysChained outbounds proxyTags ob → ∀ other, Value.obj other ∈ outbounds →
          isProxyOutbound other = true → StaysChained outbounds proxyTags other)

def tagHasKind (outbounds : List Value) (tag protocol : String) : Prop :=
  ∀ ob, Value.obj ob ∈ outbounds → tagOf ob = tag → kind ob = protocol

/-- The outbounds the document ends up with, before references are repaired. -/
def servicesOf (config : Fields) : List Value := ensureServiceOutbounds (outboundsOf config)

def targetOf (config : Fields) : UserTarget :=
  policyTarget (servicesOf config) (balancersOf config) (rulesOf config)
    (collectProxyTags (outboundsOf config))

/-- What the provider's document must satisfy for the policies the user has
enabled rules for. -/
structure Sound (config : Fields) (userRules : List RoutingRule) : Prop where
  direct : (∃ r ∈ userRules, r.enabled = true ∧ r.outboundTag = "direct") →
    tagHasKind (outboundsOf config) "direct" "freedom"
  block : (∃ r ∈ userRules, r.enabled = true ∧ r.outboundTag = "block") →
    tagHasKind (outboundsOf config) "block" "blackhole"
  proxy : (∃ r ∈ userRules, r.enabled = true ∧ r.outboundTag = "proxy") →
    TargetSound (servicesOf config) (balancersOf config)
      (collectProxyTags (outboundsOf config)) (targetOf config)

end Condition

section Repair

theorem isStr_iff {v : Value} {s : String} : isStr v s = true ↔ v = .str s := by
  cases v <;> simp [isStr]

theorem isStr_iff_asString {v : Value} {s : String} (hs : s ≠ "") :
    isStr v s = true ↔ v.asString = s := by
  cases v <;> simp [isStr,Value.asString,hs.symm]

variable (tags : List String) (first : String)

/-- An outbound of the prepared configuration. -/
def repaired (ob : Fields) : Fields := (fixDialerProxy tags first (markFreedomOutbound (.obj ob))).asMap

theorem mark_obj (ob : Fields) :
    markFreedomOutbound (.obj ob) = .obj (markFreedomOutbound (.obj ob)).asMap := by
  unfold markFreedomOutbound
  dsimp only
  split <;> rfl

theorem fix_obj (ob : Fields) :
    fixDialerProxy tags first (.obj ob) = .obj (fixDialerProxy tags first (.obj ob)).asMap := by
  unfold fixDialerProxy
  dsimp only
  split <;> rfl

theorem repair_obj (ob : Fields) :
    fixDialerProxy tags first (markFreedomOutbound (.obj ob)) = .obj (repaired tags first ob) := by
  rw [repaired,mark_obj ob,← fix_obj]

theorem index_mark {name : String} (h : name ≠ "streamSettings") (raw : Value) :
    Fields.index (markFreedomOutbound raw).asMap name = Fields.index raw.asMap name := by
  cases raw with
  | obj ob =>
    unfold markFreedomOutbound
    dsimp only
    split
    · exact index_put_of_ne h _ _
    · rfl
  | _ => rfl

theorem index_putOrDelete_of_ne {name other : String} (h : other ≠ name) (fields value : Fields) :
    Fields.index (putOrDelete fields name value) other = fields.index other := by
  unfold putOrDelete
  split
  · exact index_delete_of_ne h fields
  · exact index_put_of_ne h fields _

theorem asMap_putOrDelete (fields : Fields) (name : String) (value : Fields) :
    (Fields.index (putOrDelete fields name value) name).asMap = value := by
  unfold putOrDelete
  split
  · rename_i h
    rw [index_delete_self,List.isEmpty_iff.mp h]
    rfl
  · rw [index_put_self]
    rfl

theorem index_fix {name : String} (h : name ≠ "streamSettings") (raw : Value) :
    Fields.index (fixDialerProxy tags first raw).asMap name = Fields.index raw.asMap name := by
  cases raw with
  | obj ob =>
    unfold fixDialerProxy
    dsimp only
    split
    · rfl
    · exact index_putOrDelete_of_ne h _ _
  | _ => rfl

theorem index_repaired {name : String} (h : name ≠ "streamSettings") (ob : Fields) :
    Fields.index (repaired tags first ob) name = ob.index name :=
  (index_fix tags first h _).trans (index_mark h _)

theorem tagOf_repaired (ob : Fields) : tagOf (repaired tags first ob) = tagOf ob := by
  rw [tagOf,tagOf,index_repaired tags first (by decide)]

theorem kind_repaired (ob : Fields) : kind (repaired tags first ob) = kind ob := by
  rw [kind,kind,index_repaired tags first (by decide)]

theorem carriesProxy_repaired (ob : Fields) :
    CarriesProxy (repaired tags first ob) ↔ CarriesProxy ob := by
  rw [CarriesProxy,CarriesProxy,kind_repaired]

theorem isProxyOutbound_iff_carries (ob : Fields) :
    isProxyOutbound ob = true ↔ CarriesProxy ob ∧ tagOf ob ≠ "" := by
  simp [isProxyOutbound,isServiceProtocol,CarriesProxy,kind]

theorem isProxyOutbound_repaired (ob : Fields) :
    isProxyOutbound (repaired tags first ob) = true ↔ isProxyOutbound ob = true := by
  rw [isProxyOutbound_iff_carries,isProxyOutbound_iff_carries,carriesProxy_repaired,tagOf_repaired]

theorem picks_repaired (balancer ob : Fields) :
    Picks balancer (repaired tags first ob) ↔ Picks balancer ob := by
  rw [Picks,Picks,tagOf_repaired]

theorem sockoptOf_put (ob stream sockopt : Fields) :
    sockoptOf (ob.put "streamSettings" (.obj (stream.put "sockopt" (.obj sockopt)))) = sockopt := by
  simp [sockoptOf,Value.asMap]

theorem dialerProxy_mark (ob : Fields) :
    dialerProxy (markFreedomOutbound (.obj ob)).asMap = dialerProxy ob := by
  unfold markFreedomOutbound
  dsimp only
  split
  · rw [dialerProxy,Value.asMap,sockoptOf_put,index_put_of_ne (by decide)]
    rfl
  · rfl

theorem sockoptOf_putOrDelete (ob stream sockopt : Fields) :
    sockoptOf (putOrDelete ob "streamSettings" (putOrDelete stream "sockopt" sockopt)) =
      sockopt := by
  rw [sockoptOf,asMap_putOrDelete,asMap_putOrDelete]

theorem dialerProxy_fix {first : String} (hfirst : first ≠ "") (ob : Fields) :
    dialerProxy (fixDialerProxy tags first (.obj ob)).asMap ≠ "" ↔
      dialerProxy ob ≠ "" ∧ (dialerProxy ob ∈ tags ∨ tagOf ob ≠ first) := by
  unfold fixDialerProxy
  dsimp only
  split
  · rename_i h
    rcases h with h | h
    · simp [Value.asMap,h]
    · simp [Value.asMap,h]
  · rename_i h
    rw [not_or] at h
    have htag : isStr (Fields.index ob "tag") first = true ↔ tagOf ob = first :=
      isStr_iff_asString hfirst
    rw [Value.asMap,dialerProxy,sockoptOf_putOrDelete]
    by_cases ht : tagOf ob = first
    · simp [htag.mpr ht,ht,h.2,Value.asString]
    · simp [htag,hfirst,ht,h.1,Value.asString]

theorem chained_repaired {first : String} (hfirst : first ≠ "") (ob : Fields) :
    Chained (repaired tags first ob) ↔
      dialerProxy ob ≠ "" ∧ (dialerProxy ob ∈ tags ∨ tagOf ob ≠ first) := by
  rw [Chained,repaired,mark_obj,dialerProxy_fix tags hfirst,dialerProxy_mark,tagOf,
    index_mark (by decide)]
  rfl

end Repair

section Prepared

variable (outbounds : List Value)

def repair (outbounds : List Value) (proxyTags : List String) (raw : Value) : Value :=
  fixDialerProxy (stringTags outbounds) (proxyTags.headD "") (markFreedomOutbound raw)

theorem stringTags_map {f : Value → Value}
    (hf : ∀ raw, Fields.index (f raw).asMap "tag" = Fields.index raw.asMap "tag")
    (l : List Value) : stringTags (l.map f) = stringTags l := by
  simp [stringTags,List.filterMap_map,hf]

theorem index_repair {name : String} (h : name ≠ "streamSettings") (proxyTags : List String)
    (raw : Value) :
    Fields.index (repair outbounds proxyTags raw).asMap name = Fields.index raw.asMap name :=
  (index_fix _ _ h _).trans (index_mark h _)

theorem preparedOutbounds_eq :
    preparedOutbounds outbounds = (ensureServiceOutbounds outbounds).map
      (repair (ensureServiceOutbounds outbounds) (collectProxyTags outbounds)) := by
  rw [preparedOutbounds,fixDanglingDialerProxy,markFreedomOutbounds,List.map_map,
    stringTags_map (index_mark (by decide))]
  rfl

theorem mem_map_repair {l : List Value} {proxyTags : List String} {x : Fields} :
    Value.obj x ∈ l.map (repair outbounds proxyTags) ↔
      ∃ ob, Value.obj ob ∈ l ∧
        x = repaired (stringTags outbounds) (proxyTags.headD "") ob := by
  rw [List.mem_map]
  constructor
  · rintro ⟨raw,hraw,h⟩
    cases raw with
    | obj ob =>
      rw [repair,repair_obj] at h
      exact ⟨ob,hraw,(Value.obj.inj h).symm⟩
    | _ => exact nomatch h
  · rintro ⟨ob,hob,rfl⟩
    exact ⟨_,hob,repair_obj _ _ ob⟩

theorem taggedOutbounds_map {f : Value → Value}
    (hf : ∀ raw, Fields.index (f raw).asMap "tag" = Fields.index raw.asMap "tag")
    (l : List Value) : taggedOutbounds (l.map f) = taggedOutbounds l := by
  simp [taggedOutbounds,tagOf,Function.comp_def,hf]

theorem balancerSelectsOnlyProxy_congr {l m : List Value}
    (h : taggedOutbounds l = taggedOutbounds m) (balancers : List Value) (tag : String)
    (proxyTags : List String) :
    balancerSelectsOnlyProxy balancers l tag proxyTags =
      balancerSelectsOnlyProxy balancers m tag proxyTags := by
  unfold balancerSelectsOnlyProxy
  rw [h]

theorem defaultProxyTarget_congr {l m : List Value} (h : taggedOutbounds l = taggedOutbounds m)
    (rules balancers : List Value) (proxyTags : List String) :
    defaultProxyTarget rules l balancers proxyTags =
      defaultProxyTarget rules m balancers proxyTags := by
  unfold defaultProxyTarget targetOfCatchAll
  simp only [balancerSelectsOnlyProxy_congr h]

theorem hasDialerProxy_map_repair {l : List Value} {proxyTags : List String}
    (hfirst : proxyTags.headD "" ≠ "") (tag : String) :
    outboundHasDialerProxy (l.map (repair l proxyTags)) tag = tagStaysChained l proxyTags tag := by
  unfold outboundHasDialerProxy tagStaysChained
  have hp : ((fun raw : Value => isStr (Fields.index raw.asMap "tag") tag) ∘ repair l proxyTags) =
      fun raw => isStr (Fields.index raw.asMap "tag") tag := by
    funext raw
    rw [Function.comp_apply,index_repair l (by decide)]
  rw [List.find?_map,hp]
  cases hf : l.find? fun raw => isStr (Fields.index raw.asMap "tag") tag with
  | none => rfl
  | some raw =>
    have htag := List.find?_some hf
    cases raw with
    | obj ob =>
      have hc := chained_repaired (stringTags l) hfirst ob
      simp only [Option.map_some,repair,repair_obj,Value.asMap]
      exact decide_eq_decide.mpr hc
    | _ => exact nomatch htag

theorem userTarget_map_repair {l : List Value} {proxyTags : List String}
    (hfirst : proxyTags.headD "" ≠ "") (balancers rules : List Value) :
    userTarget (l.map (repair l proxyTags)) balancers proxyTags
      (defaultProxyTarget rules (l.map (repair l proxyTags)) balancers proxyTags) =
    policyTarget l balancers rules proxyTags := by
  have htags := taggedOutbounds_map (index_repair l (by decide) proxyTags) l
  have hstr := stringTags_map (index_repair l (by decide) proxyTags) l
  have hfilter : proxyTagsWithoutDialerProxy (l.map (repair l proxyTags)) proxyTags =
      proxyTags.filter fun tag => !tagStaysChained l proxyTags tag := by
    unfold proxyTagsWithoutDialerProxy
    simp only [hasDialerProxy_map_repair hfirst]
  rw [defaultProxyTarget_congr htags]
  unfold userTarget policyTarget
  rewrite [hfilter,uniqueBalancerTag,hstr,← uniqueBalancerTag]
  rfl

variable (config : Fields) (opts : Options)

theorem outboundsOf_prepared :
    outboundsOf (prepareFields config opts) = preparedOutbounds (outboundsOf config) := by
  unfold outboundsOf prepareFields
  rw [index_put_of_ne (by decide),index_put_of_ne (by decide),index_put_of_ne (by decide),
    index_put_self]
  rfl

theorem routingOf_prepared :
    routingOf (prepareFields config opts) =
      mergeRouting (routingOf config) (preparedOutbounds (outboundsOf config))
        (collectProxyTags (outboundsOf config)) opts := by
  unfold routingOf prepareFields
  rw [index_put_self,index_put_of_ne (by decide),index_put_of_ne (by decide),
    index_put_of_ne (by decide)]
  rfl

theorem rules_mergeRouting (routing : Fields) (prepared : List Value) (proxyTags : List String) :
    (Fields.index (mergeRouting routing prepared proxyTags opts) "rules").asSlice =
      structuralRules opts ++ buildUserRules opts.userRules opts.globalGeoExt
        (userTarget prepared (routing.index "balancers").asSlice proxyTags
          (defaultProxyTarget (routing.index "rules").asSlice prepared
            (routing.index "balancers").asSlice proxyTags)) ++
      (routing.index "rules").asSlice := by
  unfold mergeRouting
  dsimp only
  split <;> split <;> simp [index_put_of_ne,Value.asSlice]

theorem balancers_mergeRouting (routing : Fields) (prepared : List Value)
    (proxyTags : List String) :
    (Fields.index (mergeRouting routing prepared proxyTags opts) "balancers").asSlice =
      (routing.index "balancers").asSlice ++ extraBalancer opts.userRules
        (userTarget prepared (routing.index "balancers").asSlice proxyTags
          (defaultProxyTarget (routing.index "rules").asSlice prepared
            (routing.index "balancers").asSlice proxyTags)) := by
  unfold mergeRouting
  dsimp only
  split <;> split <;> simp_all [index_put_of_ne,Value.asSlice]

variable {config} {opts}

theorem headD_ne {config : Fields}
    (h : ∃ ob, Value.obj ob ∈ outboundsOf config ∧ isProxyOutbound ob = true) :
    (collectProxyTags (outboundsOf config)).headD "" ≠ "" := by
  obtain ⟨ob,hob,hp⟩ := h
  have hmem := mem_collectProxyTags.mpr ⟨ob,hob,hp,rfl⟩
  cases hl : collectProxyTags (outboundsOf config) with
  | nil =>
    rw [hl] at hmem
    exact absurd hmem List.not_mem_nil
  | cons tag rest =>
    have htag : tag ∈ collectProxyTags (outboundsOf config) := by rw [hl]; exact List.mem_cons_self
    obtain ⟨ob',_,hp',rfl⟩ := mem_collectProxyTags.mp htag
    exact (isProxyOutbound_iff.mp hp').2

theorem rulesOf_prepared
    (h : ∃ ob, Value.obj ob ∈ outboundsOf config ∧ isProxyOutbound ob = true) :
    rulesOf (prepareFields config opts) = structuralRules opts ++
      buildUserRules opts.userRules opts.globalGeoExt (targetOf config) ++ rulesOf config := by
  rw [rulesOf,routingOf_prepared,rules_mergeRouting,preparedOutbounds_eq,
    userTarget_map_repair (headD_ne h)]
  rfl

theorem balancersOf_prepared
    (h : ∃ ob, Value.obj ob ∈ outboundsOf config ∧ isProxyOutbound ob = true) :
    balancersOf (prepareFields config opts) =
      balancersOf config ++ extraBalancer opts.userRules (targetOf config) := by
  rw [balancersOf,routingOf_prepared,balancers_mergeRouting,preparedOutbounds_eq,
    userTarget_map_repair (headD_ne h)]
  rfl

def preparedOutbound (config ob : Fields) : Fields :=
  repaired (stringTags (servicesOf config)) ((collectProxyTags (outboundsOf config)).headD "") ob

theorem mem_outboundsOf_prepared {x : Fields} :
    Value.obj x ∈ outboundsOf (prepareFields config opts) ↔
      ∃ ob, Value.obj ob ∈ servicesOf config ∧ x = preparedOutbound config ob := by
  rw [outboundsOf_prepared,preparedOutbounds_eq]
  exact mem_map_repair _

end Prepared

section Services

theorem subset_ensureOutbound (outbounds : List Value) (tag protocol : String)
    (settings : Fields) : outbounds ⊆ ensureOutbound outbounds tag protocol settings := by
  unfold ensureOutbound
  split
  · exact List.Subset.refl _
  · exact List.subset_append_left _ _

theorem ensureOutbound_has (outbounds : List Value) (tag protocol : String) (settings : Fields) :
    ∃ ob : Fields, Value.obj ob ∈ ensureOutbound outbounds tag protocol settings ∧
      ob.index "tag" = .str tag := by
  unfold ensureOutbound
  split
  · rename_i h
    obtain ⟨raw,hraw,htag⟩ := List.any_eq_true.mp h
    cases raw with
    | obj ob => exact ⟨ob,hraw,isStr_iff.mp htag⟩
    | _ => exact nomatch htag
  · exact ⟨_,List.mem_append_right _ (List.mem_singleton.mpr rfl),rfl⟩

theorem mem_ensureOutbound {outbounds : List Value} {tag protocol : String} {settings ob : Fields}
    (h : Value.obj ob ∈ ensureOutbound outbounds tag protocol settings) :
    Value.obj ob ∈ outbounds ∨
      ob = [("tag",.str tag),("protocol",.str protocol),("settings",.obj settings)] := by
  unfold ensureOutbound at h
  split at h
  · exact .inl h
  · rcases List.mem_append.mp h with h | h
    · exact .inl h
    · exact .inr (Value.obj.inj (List.mem_singleton.mp h))

theorem subset_services (config : Fields) : outboundsOf config ⊆ servicesOf config := fun _ h =>
  subset_ensureOutbound _ _ _ _
    (subset_ensureOutbound _ _ _ _ (subset_ensureOutbound _ _ _ _ h))

theorem services_has {config : Fields} {tag : String} (h : tag ∈ ["direct","block","dns-out"]) :
    ∃ ob, Value.obj ob ∈ servicesOf config ∧ tagOf ob = tag := by
  have find {ob : Fields} (hob : Value.obj ob ∈ servicesOf config)
      (htag : ob.index "tag" = .str tag) : ∃ ob, Value.obj ob ∈ servicesOf config ∧ tagOf ob = tag :=
    ⟨ob,hob,by rw [tagOf,htag]; rfl⟩
  simp only [List.mem_cons,List.not_mem_nil,or_false] at h
  rcases h with rfl | rfl | rfl
  · obtain ⟨ob,hob,htag⟩ := ensureOutbound_has (outboundsOf config) "direct" "freedom"
      [("domainStrategy",.str "UseIP")]
    exact find (subset_ensureOutbound _ _ _ _ (subset_ensureOutbound _ _ _ _ hob)) htag
  · obtain ⟨ob,hob,htag⟩ := ensureOutbound_has (ensureOutbound (outboundsOf config) "direct"
      "freedom" [("domainStrategy",.str "UseIP")]) "block" "blackhole" []
    exact find (subset_ensureOutbound _ _ _ _ hob) htag
  · obtain ⟨ob,hob,htag⟩ := ensureOutbound_has (ensureOutbound (ensureOutbound
      (outboundsOf config) "direct" "freedom" [("domainStrategy",.str "UseIP")]) "block"
      "blackhole" []) "dns-out" "dns" []
    exact find hob htag

def serviceOutbounds : List Fields :=
  [[("tag",.str "direct"),("protocol",.str "freedom"),
      ("settings",.obj [("domainStrategy",.str "UseIP")])],
    [("tag",.str "block"),("protocol",.str "blackhole"),("settings",.obj [])],
    [("tag",.str "dns-out"),("protocol",.str "dns"),("settings",.obj [])]]

theorem mem_services {config ob : Fields} (h : Value.obj ob ∈ servicesOf config) :
    Value.obj ob ∈ outboundsOf config ∨ ob ∈ serviceOutbounds := by
  unfold servicesOf ensureServiceOutbounds at h
  rcases mem_ensureOutbound h with h | rfl
  · rcases mem_ensureOutbound h with h | rfl
    · rcases mem_ensureOutbound h with h | rfl
      · exact .inl h
      · exact .inr (by simp [serviceOutbounds])
    · exact .inr (by simp [serviceOutbounds])
  · exact .inr (by simp [serviceOutbounds])

/-- What is added under a reserved tag has the protocol of that tag. -/
theorem services_kind_iff {config : Fields} {tag protocol : String}
    (h : (tag,protocol) ∈ [("direct","freedom"),("block","blackhole")]) :
    tagHasKind (servicesOf config) tag protocol ↔ tagHasKind (outboundsOf config) tag protocol := by
  refine ⟨fun hs ob hob => hs ob (subset_services config hob),fun ho ob hob htag => ?_⟩
  rcases mem_services hob with hob | hob
  · exact ho ob hob htag
  · simp only [serviceOutbounds,List.mem_cons,List.not_mem_nil,or_false,Prod.mk.injEq] at h hob
    rcases h with ⟨rfl,rfl⟩ | ⟨rfl,rfl⟩ <;> rcases hob with rfl | rfl | rfl <;>
      first | decide | exact absurd htag (by decide)

end Services

section Targets

theorem targetOfCatchAll_some {rule : Fields} {outbounds balancers : List Value}
    {proxyTags : List String} {target : ProxyTarget}
    (h : targetOfCatchAll rule outbounds balancers proxyTags = some target) :
    (target.balancer = false ∧ target.tag ∈ proxyTags) ∨
    (target.balancer = true ∧ target.tag ≠ "" ∧
      balancerSelectsOnlyProxy balancers outbounds target.tag proxyTags = true) := by
  unfold targetOfCatchAll at h
  dsimp only at h
  split_ifs at h with ho hm hb hs <;> cases h
  · exact .inl ⟨rfl,hm⟩
  · exact .inr ⟨rfl,hb,hs⟩

theorem defaultProxyTarget_some {rules outbounds balancers : List Value}
    {proxyTags : List String} {target : ProxyTarget}
    (h : defaultProxyTarget rules outbounds balancers proxyTags = some target) :
    (target.balancer = false ∧ target.tag ∈ proxyTags) ∨
    (target.balancer = true ∧ target.tag ≠ "" ∧
      balancerSelectsOnlyProxy balancers outbounds target.tag proxyTags = true) := by
  unfold defaultProxyTarget at h
  split at h
  · exact targetOfCatchAll_some h
  · exact nomatch h

/-- What the code has checked of the target it chooses. -/
def TargetChecked (outbounds balancers : List Value) (proxyTags : List String) : UserTarget → Prop
  | .outbound tag => tag ∈ proxyTags
  | .balancer tag => tag ≠ "" ∧ balancerSelectsOnlyProxy balancers outbounds tag proxyTags = true
  | .generated tag selector => tag = uniqueBalancerTag balancers outbounds ∧ selector ≠ [] ∧
      ∀ s ∈ selector, s ∈ proxyTags

theorem policyTarget_checked {outbounds balancers rules : List Value} {proxyTags : List String}
    (hne : proxyTags ≠ []) :
    TargetChecked outbounds balancers proxyTags
      (policyTarget outbounds balancers rules proxyTags) := by
  unfold policyTarget
  split
  · assumption
  · split
    · exact List.mem_singleton.mpr rfl
    · rename_i target _ ht
      rcases defaultProxyTarget_some ht with ⟨hb,hm⟩ | ⟨hb,hm⟩
      · simpa [hb,TargetChecked] using hm
      · simpa [hb,TargetChecked] using hm
    · refine ⟨rfl,?_,fun s hs => ?_⟩
      · split <;> assumption
      · split at hs
        · exact hs
        · exact (List.mem_filter.mp hs).1

end Targets

section Rules

variable {config : Fields} {opts : Options} {target : UserTarget} {r : RoutingRule}

theorem lookup_member_of_ne {name other : String} (h : other ≠ name) (present : Bool)
    (value : Value) : (member present name value).lookup other = none := by
  unfold member
  split
  · simp [List.lookup_cons,beq_false_of_ne h]
  · rfl

theorem lookup_conditions {name : String} (h : name ∈ ["outboundTag","balancerTag"])
    (globalGeoExt : Bool) (r : RoutingRule) :
    (ruleConditions globalGeoExt r).lookup name = none := by
  simp only [List.mem_cons,List.not_mem_nil,or_false] at h
  unfold ruleConditions
  rcases h with rfl | rfl <;>
    simp [List.lookup_append,List.lookup_cons,lookup_member_of_ne]

def emitted (opts : Options) (target : UserTarget) (r : RoutingRule) : Fields :=
  ruleConditions opts.globalGeoExt r ++ [targetMember target r.outboundTag]

theorem index_emitted {name : String} (h : name ∈ ["outboundTag","balancerTag"]) :
    Fields.index (emitted opts target r) name =
      Fields.index [targetMember target r.outboundTag] name := by
  rw [Fields.index,emitted,List.lookup_append,lookup_conditions h]
  rfl

theorem outboundTag_plain (h : r.outboundTag ≠ "proxy") :
    outboundTag (emitted opts target r) = r.outboundTag := by
  rw [outboundTag,index_emitted (by simp)]
  unfold targetMember
  rw [if_neg h]
  rfl

theorem outboundTag_proxy (h : r.outboundTag = "proxy") {tag : String} (hne : tag ≠ "") :
    outboundTag (emitted opts (.outbound tag) r) = tag := by
  rw [outboundTag,index_emitted (by simp),targetMember,if_pos h]
  simp [Fields.index,Value.asString,hne]

theorem balancer_proxy (h : r.outboundTag = "proxy") (tag : String) :
    outboundTag (emitted opts (.balancer tag) r) = "" ∧
      balancerTag (emitted opts (.balancer tag) r) = tag := by
  rw [outboundTag,balancerTag,index_emitted (by simp),index_emitted (by simp),targetMember,if_pos h]
  exact ⟨rfl,rfl⟩

theorem generated_proxy (h : r.outboundTag = "proxy") (tag : String) (selector : List String) :
    outboundTag (emitted opts (.generated tag selector) r) = "" ∧
      balancerTag (emitted opts (.generated tag selector) r) = tag := by
  rw [outboundTag,balancerTag,index_emitted (by simp),index_emitted (by simp),targetMember,if_pos h]
  exact ⟨rfl,rfl⟩

theorem serves_tag {rule ob : Fields} {tag : String} (hne : tag ≠ "")
    (h : outboundTag rule = tag) :
    Serves config rule ob ↔ .obj ob ∈ outboundsOf config ∧ tagOf ob = tag := by
  unfold Serves
  rw [h]
  constructor
  · rintro ⟨hob,-,ht | ⟨he,-⟩⟩
    · exact ⟨hob,ht⟩
    · exact absurd he hne
  · rintro ⟨hob,rfl⟩
    exact ⟨hob,hne,.inl rfl⟩

theorem serves_balancer {rule ob : Fields} (h : outboundTag rule = "") :
    Serves config rule ob ↔ .obj ob ∈ outboundsOf config ∧ tagOf ob ≠ "" ∧
      ∃ balancer, .obj balancer ∈ balancersOf config ∧ tagOf balancer = balancerTag rule ∧
        tagOf balancer ≠ "" ∧ Picks balancer ob := by
  unfold Serves
  rw [h]
  constructor
  · rintro ⟨hob,hne,ht | ⟨-,hb⟩⟩
    · exact absurd ht hne
    · exact ⟨hob,hne,hb⟩
  · rintro ⟨hob,hne,hb⟩
    exact ⟨hob,hne,.inr ⟨rfl,hb⟩⟩

theorem tagOf_preparedOutbound (config ob : Fields) :
    tagOf (preparedOutbound config ob) = tagOf ob := tagOf_repaired _ _ ob

theorem servedBy_tag {rule : Fields} {tag protocol : String} (hne : tag ≠ "")
    (h : outboundTag rule = tag) (hsome : ∃ ob, Value.obj ob ∈ servicesOf config ∧ tagOf ob = tag) :
    ServedBy (prepareFields config opts) rule protocol ↔
      tagHasKind (servicesOf config) tag protocol := by
  unfold ServedBy
  simp only [serves_tag hne h,mem_outboundsOf_prepared]
  constructor
  · rintro ⟨-,hall⟩ ob hob htag
    rw [← hall _ ⟨⟨ob,hob,rfl⟩,(tagOf_preparedOutbound config ob).trans htag⟩]
    exact (kind_repaired _ _ ob).symm
  · intro hkind
    obtain ⟨ob,hob,htag⟩ := hsome
    refine ⟨⟨_,⟨ob,hob,rfl⟩,(tagOf_preparedOutbound config ob).trans htag⟩,?_⟩
    rintro _ ⟨⟨ob',hob',rfl⟩,htag'⟩
    rw [tagOf_preparedOutbound] at htag'
    exact (kind_repaired _ _ ob').trans (hkind ob' hob' htag')

theorem servedByProxy_tag {provider : List Value} {rule : Fields} {tag : String}
    (hne : tag ≠ "") (h : outboundTag rule = tag)
    (hsome : ∃ ob, Value.obj ob ∈ servicesOf config ∧ tagOf ob = tag) :
    ServedByProxy provider (prepareFields config opts) rule ↔
      ∀ ob, Value.obj ob ∈ servicesOf config → tagOf ob = tag → CarriesProxy ob := by
  constructor
  · intro hs ob hob htag
    have hserves : Serves (prepareFields config opts) rule (preparedOutbound config ob) :=
      (serves_tag hne h).mpr ⟨mem_outboundsOf_prepared.mpr ⟨ob,hob,rfl⟩,
        (tagOf_preparedOutbound config ob).trans htag⟩
    exact (carriesProxy_repaired _ _ ob).mp (hs.only _ hserves)
  · intro hall
    refine ⟨?_,?_,fun hgen => absurd (h.symm.trans hgen.1) hne⟩
    · obtain ⟨ob,hob,htag⟩ := hsome
      exact ⟨_,(serves_tag hne h).mpr ⟨mem_outboundsOf_prepared.mpr ⟨ob,hob,rfl⟩,
        (tagOf_preparedOutbound config ob).trans htag⟩⟩
    · intro x hx
      obtain ⟨hmem,htag⟩ := (serves_tag hne h).mp hx
      obtain ⟨ob,hob,rfl⟩ := mem_outboundsOf_prepared.mp hmem
      rw [tagOf_preparedOutbound] at htag
      exact (carriesProxy_repaired _ _ ob).mpr (hall ob hob htag)

theorem picks_preparedOutbound {balancer ob : Fields} :
    Picks balancer (preparedOutbound config ob) ↔ Picks balancer ob := picks_repaired _ _ _ _

/-- What a rule with a balancer reaches, in terms of the document. -/
theorem serves_prepared_balancer {rule x : Fields} (h : outboundTag rule = "") :
    Serves (prepareFields config opts) rule x ↔
      ∃ ob, Value.obj ob ∈ servicesOf config ∧ x = preparedOutbound config ob ∧ tagOf ob ≠ "" ∧
        ∃ balancer, Value.obj balancer ∈ balancersOf (prepareFields config opts) ∧
          tagOf balancer = balancerTag rule ∧ tagOf balancer ≠ "" ∧ Picks balancer ob := by
  rw [serves_balancer h,mem_outboundsOf_prepared]
  constructor
  · rintro ⟨⟨ob,hob,rfl⟩,hne,balancer,hb,ht,hbne,hp⟩
    rw [tagOf_preparedOutbound] at hne
    exact ⟨ob,hob,rfl,hne,balancer,hb,ht,hbne,picks_preparedOutbound.mp hp⟩
  · rintro ⟨ob,hob,rfl,hne,balancer,hb,ht,hbne,hp⟩
    rw [tagOf_preparedOutbound]
    exact ⟨⟨ob,hob,rfl⟩,hne,balancer,hb,ht,hbne,picks_preparedOutbound.mpr hp⟩

theorem exists_of_tagged {outbounds : List Value} {tag : String}
    (h : tag ∈ taggedOutbounds outbounds) :
    ∃ ob, Value.obj ob ∈ outbounds ∧ tagOf ob = tag ∧ tag ≠ "" := by
  obtain ⟨hmem,hne⟩ := List.mem_filter.mp h
  obtain ⟨raw,hraw,rfl⟩ := List.mem_map.mp hmem
  have hne : tagOf raw.asMap ≠ "" := by simpa using hne
  cases raw with
  | obj ob => exact ⟨ob,hraw,rfl,hne⟩
  | _ => exact absurd rfl hne

theorem findBalancer_some {balancers : List Value} {tag : String} {balancer : Fields}
    (h : findBalancer balancers tag = some balancer) :
    Value.obj balancer ∈ balancers ∧ tagOf balancer = tag := by
  obtain ⟨raw,hraw,rfl⟩ := Option.map_eq_some_iff.mp h
  have hstr := List.find?_some hraw
  have htag := isStr_iff.mp hstr
  have hmem := List.mem_of_find?_eq_some hraw
  cases raw with
  | obj ob =>
    refine ⟨hmem,?_⟩
    rw [tagOf,htag]
    rfl
  | _ => exact nomatch htag

/-- A balancer the code accepts exists and picks some outbound. -/
theorem selectsOnlyProxy_picks {balancers outbounds : List Value} {tag : String}
    {proxyTags : List String}
    (h : balancerSelectsOnlyProxy balancers outbounds tag proxyTags = true) :
    ∃ balancer, Value.obj balancer ∈ balancers ∧ tagOf balancer = tag ∧
      ∃ ob, Value.obj ob ∈ outbounds ∧ tagOf ob ≠ "" ∧ Picks balancer ob := by
  unfold balancerSelectsOnlyProxy at h
  split at h
  · exact nomatch h
  · rename_i balancer hb
    obtain ⟨hmem,htag⟩ := findBalancer_some hb
    dsimp only at h
    rw [Bool.and_eq_true] at h
    obtain ⟨hall,hany⟩ := h
    obtain ⟨t,ht,hsel⟩ := List.any_eq_true.mp hany
    obtain ⟨ob,hob,hobt,hne⟩ := exists_of_tagged ht
    obtain ⟨s,hs⟩ := Option.isSome_iff_exists.mp hsel
    have hproxy := List.all_eq_true.mp hall t ht
    have hmatch := List.find?_some hs
    rw [hs] at hproxy
    have hs' : s ≠ "" := by simp at hproxy; exact hproxy.1
    have hstarts : hasPrefix t s = true := by simpa [hs'] using hmatch
    exact ⟨balancer,hmem,htag,ob,hob,hobt ▸ hne,.inl ⟨s,List.mem_of_find?_eq_some hs,hobt ▸ hstarts⟩⟩

theorem servedByProxy_balancer {rule : Fields} {tag : String} {proxyTags : List String}
    (h : outboundTag rule = "") (hb : balancerTag rule = tag) (hne : tag ≠ "")
    (hsel : balancerSelectsOnlyProxy (balancersOf config) (servicesOf config) tag proxyTags = true)
    (hbal : balancersOf (prepareFields config opts) = balancersOf config) :
    ServedByProxy (balancersOf config) (prepareFields config opts) rule ↔
      TargetSound (servicesOf config) (balancersOf config) proxyTags (.balancer tag) := by
  obtain ⟨balancer,hmem,htag,ob,hob,hobne,hpick⟩ := selectsOnlyProxy_picks hsel
  constructor
  · intro hs bal hbmem hbtag ob hob hobne hp
    have hserves : Serves (prepareFields config opts) rule (preparedOutbound config ob) :=
      (serves_prepared_balancer h).mpr
      ⟨ob,hob,rfl,hobne,bal,hbal ▸ hbmem,hbtag.trans hb.symm,hbtag ▸ hne,hp⟩
    exact (carriesProxy_repaired _ _ ob).mp (hs.only _ hserves)
  · intro hall
    refine ⟨⟨_,(serves_prepared_balancer h).mpr
      ⟨ob,hob,rfl,hobne,balancer,hbal ▸ hmem,htag.trans hb.symm,htag ▸ hne,hpick⟩⟩,?_,
      fun hgen => absurd (htag.trans hb.symm) (hgen.2 balancer hmem)⟩
    intro x hx
    obtain ⟨ob',hob',rfl,hne',bal,hbmem,hbtag,_,hp⟩ := (serves_prepared_balancer h).mp hx
    rw [hbal] at hbmem
    exact (carriesProxy_repaired _ _ ob').mpr (hall bal hbmem (hbtag.trans hb) ob' hob' hne' hp)

theorem asStringSlice_strs (l : List String) : asStringSlice (.strs l) = l := by
  simp [Value.strs,asStringSlice,Value.isString,Value.asString,Function.comp_def]

theorem picks_random {tag : String} {selector : List String} {ob : Fields} (hne : tagOf ob ≠ "") :
    Picks (randomBalancer tag selector) ob ↔ ∃ s ∈ selector, hasPrefix (tagOf ob) s = true := by
  have hs : asStringSlice (Fields.index (randomBalancer tag selector) "selector") = selector :=
    asStringSlice_strs selector
  have hf : (Fields.index (randomBalancer tag selector) "fallbackTag").asString = "" := rfl
  rw [Picks,hs,hf]
  exact ⟨fun h => h.resolve_right hne.symm,.inl⟩

theorem tagOf_ne_of_prefix {ob : Fields} {s : String} (hs : s ≠ "")
    (h : hasPrefix (tagOf ob) s = true) : tagOf ob ≠ "" := by
  intro he
  rw [hasPrefix,he,List.isPrefixOf_iff_prefix] at h
  exact hs (String.toList_eq_nil_iff.mp (List.prefix_nil.mp h))

theorem stringTags_has {values : List Value} {ob : Fields} (h : Value.obj ob ∈ values)
    (hne : tagOf ob ≠ "") : tagOf ob ∈ stringTags values := by
  refine List.mem_filterMap.mpr ⟨_,h,?_⟩
  unfold tagOf at hne ⊢
  dsimp only [Value.asMap]
  cases ht : Fields.index ob "tag" with
  | str tag => rfl
  | _ => rw [ht] at hne; exact absurd rfl hne

theorem chained_preparedOutbound
    (h : ∃ ob, Value.obj ob ∈ outboundsOf config ∧ isProxyOutbound ob = true) (ob : Fields) :
    Chained (preparedOutbound config ob) ↔
      StaysChained (servicesOf config) (collectProxyTags (outboundsOf config)) ob :=
  chained_repaired _ (headD_ne h) ob

theorem servedByProxy_generated {rule : Fields} {tag : String} {selector : List String}
    (hproxy : ∃ ob, Value.obj ob ∈ outboundsOf config ∧ isProxyOutbound ob = true)
    (h : outboundTag rule = "") (hb : balancerTag rule = tag) (hne : tag ≠ "")
    (hbal : balancersOf (prepareFields config opts) =
      balancersOf config ++ [.obj (randomBalancer tag selector)])
    (hfresh : tag ∉ stringTags (balancersOf config)) (hsel : selector ≠ [])
    (hmem : ∀ s ∈ selector, s ∈ collectProxyTags (outboundsOf config)) :
    ServedByProxy (balancersOf config) (prepareFields config opts) rule ↔
      TargetSound (servicesOf config) (balancersOf config)
        (collectProxyTags (outboundsOf config)) (.generated tag selector) := by
  have hother (bal : Fields) (hbmem : Value.obj bal ∈ balancersOf config) : tagOf bal ≠ tag :=
    fun ht => hfresh (ht ▸ stringTags_has hbmem (ht ▸ hne))
  -- the rule reaches what the selector of the generated balancer begins
  have hserves (x : Fields) : Serves (prepareFields config opts) rule x ↔
      ∃ ob, Value.obj ob ∈ servicesOf config ∧ x = preparedOutbound config ob ∧
        ∃ s ∈ selector, hasPrefix (tagOf ob) s = true := by
    rw [serves_prepared_balancer h,hbal,hb]
    constructor
    · rintro ⟨ob,hob,rfl,hobne,bal,hbmem,hbtag,_,hp⟩
      rcases List.mem_append.mp hbmem with hbmem | hbmem
      · exact absurd hbtag (hother bal hbmem)
      · cases List.mem_singleton.mp hbmem
        exact ⟨ob,hob,rfl,(picks_random hobne).mp hp⟩
    · rintro ⟨ob,hob,rfl,s,hs,hp⟩
      obtain ⟨_,_,hs',hst⟩ := mem_collectProxyTags.mp (hmem s hs)
      have hobne := tagOf_ne_of_prefix (hst ▸ (isProxyOutbound_iff.mp hs').2) hp
      exact ⟨ob,hob,rfl,hobne,_,List.mem_append_right _ (List.mem_singleton.mpr rfl),rfl,hne,
        (picks_random hobne).mpr ⟨s,hs,hp⟩⟩
  have hgen : Generated (balancersOf config) rule := ⟨h,fun bal hbmem => hb ▸ hother bal hbmem⟩
  constructor
  · intro hs ob hob hpick
    have hx := (hserves _).mpr ⟨ob,hob,rfl,hpick⟩
    refine ⟨(carriesProxy_repaired _ _ ob).mp (hs.only _ hx),fun hc other ho hp => ?_⟩
    refine (chained_preparedOutbound hproxy other).mp (hs.unchained hgen _ hx
      ((chained_preparedOutbound hproxy ob).mpr hc) _ (mem_outboundsOf_prepared.mpr ⟨other,ho,rfl⟩)
      ((isProxyOutbound_repaired _ _ other).mpr hp))
  · intro hall
    refine ⟨?_,?_,?_⟩
    · obtain ⟨s,hs⟩ := List.exists_mem_of_ne_nil selector hsel
      obtain ⟨ob,hob,_,rfl⟩ := mem_collectProxyTags.mp (hmem s hs)
      exact ⟨_,(hserves _).mpr ⟨ob,subset_services config hob,rfl,_,hs,
        List.isPrefixOf_iff_prefix.mpr (List.prefix_refl _)⟩⟩
    · intro x hx
      obtain ⟨ob,hob,rfl,hp⟩ := (hserves x).mp hx
      exact (carriesProxy_repaired _ _ ob).mpr (hall ob hob hp).1
    · intro _ x hx hc y hy hyp
      obtain ⟨ob,hob,rfl,hp⟩ := (hserves x).mp hx
      obtain ⟨other,ho,rfl⟩ := mem_outboundsOf_prepared.mp hy
      exact (chained_preparedOutbound hproxy other).mpr ((hall ob hob hp).2
        ((chained_preparedOutbound hproxy ob).mp hc) other ho
        ((isProxyOutbound_repaired _ _ other).mp hyp))

end Rules

section Enforcement

variable {config : Fields} {opts : Options} {r : RoutingRule}

theorem targetOf_checked
    (h : ∃ ob, Value.obj ob ∈ outboundsOf config ∧ isProxyOutbound ob = true) :
    TargetChecked (servicesOf config) (balancersOf config)
      (collectProxyTags (outboundsOf config)) (targetOf config) := by
  apply policyTarget_checked
  obtain ⟨ob,hob,hp⟩ := h
  exact List.ne_nil_of_mem (mem_collectProxyTags.mpr ⟨ob,hob,hp,rfl⟩)

theorem proxy_rule_iff
    (hproxy : ∃ ob, Value.obj ob ∈ outboundsOf config ∧ isProxyOutbound ob = true)
    (hr : r ∈ opts.userRules) (htag : r.outboundTag = "proxy") :
    ServedByProxy (balancersOf config) (prepareFields config opts)
        (emitted opts (targetOf config) r) ↔
      TargetSound (servicesOf config) (balancersOf config)
        (collectProxyTags (outboundsOf config)) (targetOf config) := by
  have hchecked := targetOf_checked hproxy
  have hbal := @balancersOf_prepared config opts hproxy
  cases ht : targetOf config with
  | outbound tag =>
    rw [ht] at hchecked
    obtain ⟨ob,hob,hp,hobt⟩ := mem_collectProxyTags.mp hchecked
    have hne : tag ≠ "" := hobt ▸ (isProxyOutbound_iff.mp hp).2
    exact servedByProxy_tag hne (outboundTag_proxy htag hne)
      ⟨ob,subset_services config hob,hobt⟩
  | balancer tag =>
    rw [ht] at hchecked hbal
    have hnone : extraBalancer opts.userRules (.balancer tag) = [] := by
      unfold extraBalancer
      split <;> simp_all
    rw [hnone,List.append_nil] at hbal
    obtain ⟨hout,hb⟩ := @balancer_proxy opts r htag tag
    exact servedByProxy_balancer hout hb hchecked.1 hchecked.2 hbal
  | generated tag selector =>
    rw [ht] at hchecked hbal
    obtain ⟨hunique,hsel,hmem⟩ := hchecked
    have hextra : extraBalancer opts.userRules (.generated tag selector) =
        [.obj (randomBalancer tag selector)] := by
      unfold extraBalancer
      split <;> simp_all
    rw [hextra] at hbal
    have hfresh := uniqueBalancerTag_fresh (balancersOf config) (servicesOf config)
    rw [← hunique,List.mem_append,not_or] at hfresh
    obtain ⟨hout,hb⟩ := @generated_proxy opts r htag tag selector
    exact servedByProxy_generated hproxy hout hb (hunique ▸ uniqueBalancerTag_ne _ _) hbal
      hfresh.1 hsel hmem

theorem plain_rule_iff {tag protocol : String}
    (h : (tag,protocol) ∈ [("direct","freedom"),("block","blackhole")])
    (htag : r.outboundTag = tag) :
    ServedBy (prepareFields config opts) (emitted opts (targetOf config) r) protocol ↔
      tagHasKind (outboundsOf config) tag protocol := by
  have hreserved : tag ∈ ["direct","block","dns-out"] ∧ tag ≠ "" ∧ tag ≠ "proxy" := by
    simp only [List.mem_cons,List.not_mem_nil,or_false,Prod.mk.injEq] at h
    rcases h with ⟨rfl,-⟩ | ⟨rfl,-⟩ <;> decide
  obtain ⟨hmem,hne,hproxy⟩ := hreserved
  rw [servedBy_tag hne ((outboundTag_plain (htag ▸ hproxy)).trans htag) (services_has hmem),
    services_kind_iff h]

/-- One manual rule: its policy holds exactly under its part of the condition. -/
theorem enforces_iff
    (hproxy : ∃ ob, Value.obj ob ∈ outboundsOf config ∧ isProxyOutbound ob = true)
    (hr : r ∈ opts.userRules) :
    Enforces opts (balancersOf config) (prepareFields config opts) r
        (userRule opts.globalGeoExt (targetOf config) r) ↔
      (r.outboundTag = "proxy" → TargetSound (servicesOf config) (balancersOf config)
        (collectProxyTags (outboundsOf config)) (targetOf config)) ∧
      (r.outboundTag = "direct" → tagHasKind (outboundsOf config) "direct" "freedom") ∧
      (r.outboundTag = "block" → tagHasKind (outboundsOf config) "block" "blackhole") := by
  constructor
  · intro h
    exact ⟨fun ht => (proxy_rule_iff hproxy hr ht).mp (h.proxy ht),
      fun ht => (plain_rule_iff (by simp) ht).mp (h.direct ht),
      fun ht => (plain_rule_iff (by simp) ht).mp (h.block ht)⟩
  · rintro ⟨hp,hd,hb⟩
    exact ⟨⟨_,rfl⟩,fun ht => (proxy_rule_iff hproxy hr ht).mpr (hp ht),
      fun ht => (plain_rule_iff (by simp) ht).mpr (hd ht),
      fun ht => (plain_rule_iff (by simp) ht).mpr (hb ht)⟩

theorem enforced_iff_rules
    (hproxy : ∃ ob, Value.obj ob ∈ outboundsOf config ∧ isProxyOutbound ob = true) :
    Enforced config opts (prepareFields config opts) ↔
      ∀ r ∈ opts.userRules, r.enabled = true →
        Enforces opts (balancersOf config) (prepareFields config opts) r
          (userRule opts.globalGeoExt (targetOf config) r) := by
  have hall : List.Forall₂ (Enforces opts (balancersOf config) (prepareFields config opts))
      (opts.userRules.filter (·.enabled))
      (buildUserRules opts.userRules opts.globalGeoExt (targetOf config)) ↔
      ∀ r ∈ opts.userRules, r.enabled = true →
        Enforces opts (balancersOf config) (prepareFields config opts) r
          (userRule opts.globalGeoExt (targetOf config) r) := by
    unfold buildUserRules
    rw [List.forall₂_map_right_iff,List.forall₂_same]
    simp only [List.mem_filter,and_imp]
  rw [← hall,Enforced]
  constructor
  · rintro ⟨manual,hrules,h⟩
    rw [rulesOf_prepared hproxy,List.append_cancel_right_eq,List.append_cancel_left_eq] at hrules
    exact hrules ▸ h
  · exact fun h => ⟨_,rulesOf_prepared hproxy,h⟩

theorem enforced_iff_sound
    (hproxy : ∃ ob, Value.obj ob ∈ outboundsOf config ∧ isProxyOutbound ob = true) :
    Enforced config opts (prepareFields config opts) ↔ Sound config opts.userRules := by
  rw [enforced_iff_rules hproxy]
  constructor
  · intro hall
    refine ⟨?_,?_,?_⟩
    · rintro ⟨r,hr,he,ht⟩
      exact ((enforces_iff hproxy hr).mp (hall r hr he)).2.1 ht
    · rintro ⟨r,hr,he,ht⟩
      exact ((enforces_iff hproxy hr).mp (hall r hr he)).2.2 ht
    · rintro ⟨r,hr,he,ht⟩
      exact ((enforces_iff hproxy hr).mp (hall r hr he)).1 ht
  · intro hs r hr he
    exact (enforces_iff hproxy hr).mpr ⟨fun ht => hs.proxy ⟨r,hr,he,ht⟩,
      fun ht => hs.direct ⟨r,hr,he,ht⟩,fun ht => hs.block ⟨r,hr,he,ht⟩⟩

end Enforcement

section Samples

def outboundNamed (tag protocol : String) : Fields := [("tag",.str tag),("protocol",.str protocol)]

def providerOf (outbounds : List Fields) : Fields := [("outbounds",.arr (outbounds.map .obj))]

def ruleFor (outboundTag : String) : RoutingRule :=
  { type := "field"
    domain := "example.com"
    ip := ""
    protocol := ""
    port := ""
    network := ""
    outboundTag := outboundTag
    enabled := true }

def optionsFor (userRules : List RoutingRule) : Options :=
  { socksPort := 1080
    httpPort := 1081
    tunName := ""
    apiPort := 0
    dnsServers := []
    bootstrapHosts := []
    userRules := userRules
    userDomainStrategy := ""
    globalGeoExt := false }

end Samples

end Whoisthat.RuleEnforcement
