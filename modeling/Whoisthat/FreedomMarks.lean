import Whoisthat.RuleEnforcement

/-!
# Marks of direct connections

With the tunnel active an outbound of the kind `freedom` must mark its
packets, or its connections come back into the tunnel. Xray and the search for
proxies read the protocol name without regard to case and spaces; the marking
looks for one spelling of it.
-/

set_option autoImplicit false

namespace Whoisthat.FreedomMarks
open Whoisthat.Json Whoisthat.ProviderConfig Whoisthat.RuleEnforcement
open Whoisthat.XrayConfig (isStr)

section Specification

/-- What Xray takes for a direct outbound. -/
def IsFreedom (outbound : Fields) : Prop := kind outbound = "freedom"

instance (outbound : Fields) : Decidable (IsFreedom outbound) :=
  inferInstanceAs (Decidable (kind outbound = "freedom"))

/-- The double nearest to the literal is one. -/
def roundsToOne (n : Number) : Bool :=
  !n.negative && match n.exponent with
    | .ofNat e => n.digits * 10^e = 1
    | .negSucc e => (2^54-1) * 10^(e+1) ≤ n.digits * 2^54 && n.digits * 2^54 ≤ (2^54+2) * 10^(e+1)

/-- `sockopt.mark` is one. -/
def Marked (outbound : Fields) : Prop :=
  ∃ n, Fields.index (sockoptOf outbound) "mark" = .num n ∧ roundsToOne n = true

/-- Direct connections are marked, and taking the direct outbounds away takes
no tag out of those counted as proxies. -/
structure KeepsDirect (prepared : Prepared) : Prop where
  marked : ∀ ob, Value.obj ob ∈ outboundsOf prepared.config → IsFreedom ob → Marked ob
  uncounted : prepared.proxyTags = collectProxyTags
    ((outboundsOf prepared.config).filter fun raw => !decide (IsFreedom raw.asMap))

/-- The spelling the marking looks for, or a mark of the provider's own. -/
def Recognised (outbound : Fields) : Prop :=
  Fields.index outbound "protocol" = .str "freedom" ∨ Marked outbound

end Specification

section Marking

variable (tags : List String) (first : String)

theorem sockoptOf_fix {name : String} (h : name ≠ "dialerProxy") (ob : Fields) :
    Fields.index (sockoptOf (fixDialerProxy tags first (.obj ob)).asMap) name =
      Fields.index (sockoptOf ob) name := by
  unfold fixDialerProxy
  dsimp only
  split
  · rfl
  · rw [Value.asMap,sockoptOf_putOrDelete]
    split
    · exact index_delete_of_ne h _
    · exact index_put_of_ne h _ _

theorem marked_exact {ob : Fields} (h : Fields.index ob "protocol" = .str "freedom") :
    Marked (repaired tags first ob) := by
  refine ⟨⟨false,1,0,true⟩,?_,rfl⟩
  rw [repaired,mark_obj,sockoptOf_fix tags first (by decide)]
  have hmark : markFreedomOutbound (.obj ob) =
      .obj (Fields.put ob "streamSettings" (.obj _)) := if_pos (isStr_iff.mpr h)
  rw [hmark,Value.asMap,sockoptOf_put,index_put_self]
  rfl

theorem marked_other {ob : Fields} (h : Fields.index ob "protocol" ≠ .str "freedom") :
    Marked (repaired tags first ob) ↔ Marked ob := by
  have hkept : markFreedomOutbound (.obj ob) = .obj ob := if_neg fun hs => h (isStr_iff.mp hs)
  rw [Marked,Marked,repaired,hkept,sockoptOf_fix tags first (by decide)]

theorem marked_repaired (ob : Fields) :
    Marked (repaired tags first ob) ↔ Recognised ob := by
  by_cases h : Fields.index ob "protocol" = .str "freedom"
  · exact iff_of_true (marked_exact tags first h) (.inl h)
  · rw [marked_other tags first h]
    exact ⟨.inr,fun hr => hr.resolve_left h⟩

theorem isFreedom_repaired (ob : Fields) : IsFreedom (repaired tags first ob) ↔ IsFreedom ob := by
  rw [IsFreedom,IsFreedom,kind_repaired]

end Marking

section Counting

theorem notProxy_freedom {ob : Fields} (h : IsFreedom ob) : isProxyOutbound ob = false := by
  have hservice : kind ob ∈ serviceProtocols := by
    rw [h]
    decide
  have hs : isServiceProtocol (Fields.index ob "protocol").asString = true :=
    decide_eq_true hservice
  rw [isProxyOutbound,hs]
  rfl

theorem collectProxyTags_filter (l : List Value) :
    collectProxyTags (l.filter fun raw => !decide (IsFreedom raw.asMap)) = collectProxyTags l := by
  unfold collectProxyTags
  rw [List.filterMap_filter]
  refine List.filterMap_congr fun raw _ => ?_
  cases raw with
  | obj ob =>
    by_cases h : IsFreedom ob
    · simp [Value.asMap,h,notProxy_freedom h]
    · simp [Value.asMap,h]
  | _ => simp

theorem collectProxyTags_repair (services l : List Value) (proxyTags : List String) :
    collectProxyTags (l.map (repair services proxyTags)) = collectProxyTags l := by
  unfold collectProxyTags
  rw [List.filterMap_map]
  refine List.filterMap_congr fun raw _ => ?_
  cases raw with
  | obj ob =>
    have hrepair : repair services proxyTags (.obj ob) =
        .obj (repaired (stringTags services) (proxyTags.headD "") ob) := by
      rw [repair,mark_obj,fix_obj,← mark_obj]
      rfl
    have hproxy := isProxyOutbound_repaired (stringTags services) (proxyTags.headD "") ob
    rw [Function.comp_apply,hrepair]
    simp only [hproxy,tagOf_repaired]
  | _ => rfl

theorem collectProxyTags_ensure (l : List Value) (tag protocol : String) (settings : Fields)
    (h : isServiceProtocol protocol = true) :
    collectProxyTags (ensureOutbound l tag protocol settings) = collectProxyTags l := by
  unfold ensureOutbound
  split
  · rfl
  · have hnone : isProxyOutbound
        [("tag",.str tag),("protocol",.str protocol),("settings",.obj settings)] = false := by
      rw [isProxyOutbound,show (Fields.index
        [("tag",.str tag),("protocol",.str protocol),("settings",.obj settings)]
          "protocol").asString = protocol from rfl,h]
      rfl
    rw [collectProxyTags,collectProxyTags,List.filterMap_append]
    simp [hnone]

theorem collectProxyTags_services (l : List Value) :
    collectProxyTags (ensureServiceOutbounds l) = collectProxyTags l := by
  unfold ensureServiceOutbounds
  rw [collectProxyTags_ensure _ _ _ _ (by decide),collectProxyTags_ensure _ _ _ _ (by decide),
    collectProxyTags_ensure _ _ _ _ (by decide)]

theorem uncounted_prepared (config : Fields) (opts : Options) :
    collectProxyTags ((outboundsOf (prepareFields config opts)).filter
      fun raw => !decide (IsFreedom raw.asMap)) = collectProxyTags (outboundsOf config) := by
  rw [collectProxyTags_filter,outboundsOf_prepared,preparedOutbounds_eq,collectProxyTags_repair,
    collectProxyTags_services]

end Counting

section Prepared

theorem recognised_service {ob : Fields} (h : ob ∈ serviceOutbounds) (hf : IsFreedom ob) :
    Recognised ob := by
  simp only [serviceOutbounds,List.mem_cons,List.not_mem_nil,or_false] at h
  rcases h with rfl | rfl | rfl
  · exact .inl rfl
  · exact absurd hf (by decide)
  · exact absurd hf (by decide)

theorem marked_prepared (config : Fields) (opts : Options) :
    (∀ ob, Value.obj ob ∈ outboundsOf (prepareFields config opts) → IsFreedom ob → Marked ob) ↔
      ∀ ob, Value.obj ob ∈ outboundsOf config → IsFreedom ob → Recognised ob := by
  constructor
  · intro h ob hob hf
    have hin : Value.obj (preparedOutbound config ob) ∈ outboundsOf (prepareFields config opts) :=
      mem_outboundsOf_prepared.mpr ⟨ob,subset_services config hob,rfl⟩
    exact (marked_repaired _ _ ob).mp (h _ hin ((isFreedom_repaired _ _ ob).mpr hf))
  · intro h x hx hf
    obtain ⟨ob,hob,rfl⟩ := mem_outboundsOf_prepared.mp hx
    have hfree : IsFreedom ob := (isFreedom_repaired _ _ ob).mp hf
    refine (marked_repaired _ _ ob).mpr ?_
    rcases mem_services hob with hown | hservice
    · exact h ob hown hfree
    · exact recognised_service hservice hfree

/-- The direct connections of a prepared configuration stay out of the tunnel
exactly if the provider spells the kind of each direct outbound as the marking
does, or marks it itself. -/
theorem keepsDirect_iff (raw : Value) (opts : Options) (prepared : Prepared)
    (h : prepare raw opts = .ok prepared) :
    KeepsDirect prepared ↔ ∀ config, unmarshalMap raw = some config →
      ∀ ob, Value.obj ob ∈ outboundsOf config → IsFreedom ob → Recognised ob := by
  obtain ⟨config,hconfig,_,rfl⟩ := prepare_ok.mp h
  have huncounted := (uncounted_prepared config opts).symm
  constructor
  · rintro ⟨hmarked,_⟩ config' hconfig'
    cases hconfig.symm.trans hconfig'
    exact (marked_prepared config opts).mp hmarked
  · intro hall
    exact ⟨(marked_prepared config opts).mpr (hall config hconfig),huncounted⟩

def provider (protocol : String) : Value :=
  .obj [("outbounds",.arr [.obj [("tag",.str "proxy"),("protocol",.str "vless")],
    .obj [("tag",.str "direct"),("protocol",.str protocol)]])]

def options : Options :=
  { socksPort := 1080, httpPort := 0, tunName := "tun0", apiPort := 0, dnsServers := [],
    bootstrapHosts := [], userRules := [], userDomainStrategy := "", globalGeoExt := false }

/-- The provider's document, decoded. -/
def providerFields (protocol : String) : Fields :=
  [("outbounds",.arr [.obj [("tag",.str "proxy"),("protocol",.str "vless")],
    .obj [("tag",.str "direct"),("protocol",.str protocol)]])]

theorem unmarshal_provider (protocol : String) :
    unmarshalMap (provider protocol) = some (providerFields protocol) := rfl

theorem plain_provider_kept : ∃ prepared, prepare (provider "freedom") options = .ok prepared ∧
    KeepsDirect prepared := by
  obtain ⟨prepared,hprepared⟩ : ∃ prepared, prepare (provider "freedom") options = .ok prepared :=
    ⟨_,rfl⟩
  refine ⟨prepared,hprepared,
    (keepsDirect_iff _ _ _ hprepared).mpr fun config hconfig ob hob hf => ?_⟩
  cases (unmarshal_provider _).symm.trans hconfig
  have hobs : Value.obj ob ∈ [Value.obj [("tag",.str "proxy"),("protocol",.str "vless")],
    .obj [("tag",.str "direct"),("protocol",.str "freedom")]] := hob
  simp only [List.mem_cons,Value.obj.injEq,List.not_mem_nil,or_false] at hobs
  rcases hobs with rfl | rfl
  · exact absurd hf (by decide)
  · exact .inl rfl

/-- The provider writes `Freedom`. -/
theorem capital_provider_unmarked : ¬∀ (raw : Value) (opts : Options) (prepared : Prepared),
    prepare raw opts = .ok prepared → KeepsDirect prepared := by
  intro h
  have hmarked := (h (provider "Freedom") options _ rfl).marked
  have hrecognised := (marked_prepared (providerFields "Freedom") options).mp hmarked
    [("tag",.str "direct"),("protocol",.str "Freedom")]
    (List.mem_cons_of_mem _ List.mem_cons_self) (by decide)
  rcases hrecognised with hspelt | ⟨n,hmark,_⟩
  · exact absurd (Value.str.inj hspelt) (by decide)
  · cases hmark

end Prepared

end Whoisthat.FreedomMarks
