import Whoisthat.Redirection
import Whoisthat.RuleEnforcement

/-!
# Outbounds that dial through each other

The `dialerProxy` of an outbound names the outbound its connections go
through. Naming an outbound that is not there is repaired by naming the first
proxy instead. The first proxy may itself dial, over any number of outbounds,
through the one that is repaired; only its own reference is taken away.
-/

set_option autoImplicit false

namespace Whoisthat.DialerGraph
open Relation
open Whoisthat.Json Whoisthat.ProviderConfig Whoisthat.Redirection
open Whoisthat.RuleEnforcement
open Whoisthat.XrayConfig (isStr)

def HasTag (raw : Value) (tag : String) : Prop := Fields.index raw.asMap "tag" = .str tag

/-- The outbound at one place sends its connections through the one at another. -/
def Dials (outbounds : List Value) (i j : ℕ) : Prop :=
  ∃ a b : Value, outbounds[i]? = some a ∧ outbounds[j]? = some b ∧ dialerProxy a.asMap ≠ "" ∧
    HasTag b (dialerProxy a.asMap)

/-- A reference to no outbound. -/
def Dangling (outbounds : List Value) (raw : Value) : Prop :=
  dialerProxy raw.asMap ≠ "" ∧ dialerProxy raw.asMap ∉ stringTags outbounds

structure Repairs (outbounds : List Value) (proxyTags : List String) : Prop where
  named : ∀ raw ∈ fixDanglingDialerProxy outbounds proxyTags, dialerProxy raw.asMap ≠ "" →
    dialerProxy raw.asMap ∈ stringTags (fixDanglingDialerProxy outbounds proxyTags)
  kept : ∀ (i : ℕ) (a : Value), outbounds[i]? = some a → dialerProxy a.asMap ∈ stringTags outbounds →
    ∃ a' : Value, (fixDanglingDialerProxy outbounds proxyTags)[i]? = some a' ∧
      dialerProxy a'.asMap = dialerProxy a.asMap
  acyclic : Acyclic (Dials outbounds) → Acyclic (Dials (fixDanglingDialerProxy outbounds proxyTags))

/-- Where a reference to the first proxy leads. -/
def Fallback (outbounds : List Value) (first : String) (i : ℕ) : Prop :=
  ∃ a, outbounds[i]? = some a ∧ HasTag a first

/-- A reference to no outbound that is made one to the first proxy. -/
def Repointed (outbounds : List Value) (first : String) (i : ℕ) : Prop :=
  first ≠ "" ∧ ∃ a, outbounds[i]? = some a ∧ Dangling outbounds a ∧ ¬HasTag a first

/-- The first proxy dials, over any number of outbounds, through one whose own
reference leads nowhere. -/
def DialsRepaired (outbounds : List Value) (proxyTags : List String) : Prop :=
  Returns (Dials outbounds) (Repointed outbounds (proxyTags.headD ""))
    (Fallback outbounds (proxyTags.headD ""))

section Fixed

variable (outbounds : List Value) (proxyTags : List String)

theorem mem_stringTags {outbounds : List Value} {tag : String} :
    tag ∈ stringTags outbounds ↔ ∃ raw ∈ outbounds, HasTag raw tag := by
  rw [stringTags,List.mem_filterMap]
  refine exists_congr fun raw => and_congr_right fun _ => ?_
  unfold HasTag
  cases Fields.index raw.asMap "tag" <;> simp

theorem hasTag_fix {tags : List String} {first tag : String} (raw : Value) :
    HasTag (fixDialerProxy tags first raw) tag ↔ HasTag raw tag := by
  rw [HasTag,HasTag,index_fix tags first (by decide)]

theorem stringTags_fixed :
    stringTags (fixDanglingDialerProxy outbounds proxyTags) = stringTags outbounds :=
  stringTags_map (fun raw => index_fix _ _ (by decide) raw) outbounds

/-- What becomes of a reference. -/
theorem dialerProxy_fixed (tags : List String) (first : String) (raw : Value) :
    dialerProxy (fixDialerProxy tags first raw).asMap =
      if dialerProxy raw.asMap = "" ∨ dialerProxy raw.asMap ∈ tags then dialerProxy raw.asMap
      else if first = "" ∨ isStr (Fields.index raw.asMap "tag") first then "" else first := by
  cases raw with
  | obj ob =>
    by_cases hkeep : dialerProxy ob = "" ∨ dialerProxy ob ∈ tags
    · have hsame : fixDialerProxy tags first (.obj ob) = .obj ob := if_pos hkeep
      rw [hsame,Value.asMap,if_pos hkeep]
    · have hnew : fixDialerProxy tags first (.obj ob) = .obj (putOrDelete ob "streamSettings" _) :=
        if_neg hkeep
      rw [hnew,Value.asMap,Value.asMap,if_neg hkeep,dialerProxy,sockoptOf_putOrDelete]
      split
      · rw [index_delete_self]
        rfl
      · rw [index_put_self]
        rfl
  | _ => rfl

theorem getElem_fixed (i : ℕ) :
    (fixDanglingDialerProxy outbounds proxyTags)[i]? =
      outbounds[i]?.map (fixDialerProxy (stringTags outbounds) (proxyTags.headD "")) :=
  List.getElem?_map

theorem hasTag_named {raw : Value} {tag : String} {i : ℕ} (hraw : outbounds[i]? = some raw)
    (h : HasTag raw tag) : tag ∈ stringTags outbounds :=
  mem_stringTags.mpr ⟨raw,List.mem_of_getElem? hraw,h⟩

/-- The repaired graph is the old one with the references redirected. -/
theorem dials_fixed :
    Dials (fixDanglingDialerProxy outbounds proxyTags) =
      redirect (Dials outbounds) (Repointed outbounds (proxyTags.headD ""))
        (Fallback outbounds (proxyTags.headD "")) := by
  funext i j
  apply propext
  unfold Dials
  simp only [getElem_fixed,Option.map_eq_some_iff]
  constructor
  · rintro ⟨_,_,⟨a,ha,rfl⟩,⟨b,hb,rfl⟩,hne,htag⟩
    rw [hasTag_fix] at htag
    rw [dialerProxy_fixed] at hne htag
    split at hne
    · rename_i hkeep
      rw [if_pos hkeep] at htag
      exact .inl ⟨a,b,ha,hb,hne,htag⟩
    · rename_i hkeep
      rw [if_neg hkeep] at htag
      split at hne
      · exact absurd rfl hne
      · rename_i hself
        rw [if_neg hself] at htag
        rw [not_or] at hkeep hself
        exact .inr ⟨⟨hself.1,a,ha,hkeep,fun h => hself.2 (isStr_iff.mpr h)⟩,b,hb,htag⟩
  · rintro (⟨a,b,ha,hb,hne,htag⟩ | ⟨⟨hfirst,a,ha,hdangling,hself⟩,b,hb,htag⟩)
    · have hkeep : dialerProxy (fixDialerProxy (stringTags outbounds) (proxyTags.headD "") a).asMap =
          dialerProxy a.asMap := by
        rw [dialerProxy_fixed,if_pos (.inr (hasTag_named outbounds hb htag))]
      refine ⟨_,_,⟨a,ha,rfl⟩,⟨b,hb,rfl⟩,?_,?_⟩
      · rwa [hkeep]
      · rwa [hasTag_fix,hkeep]
    · have hnew : dialerProxy (fixDialerProxy (stringTags outbounds) (proxyTags.headD "") a).asMap =
          proxyTags.headD "" := by
        rw [dialerProxy_fixed,if_neg (not_or.mpr hdangling),
          if_neg (not_or.mpr ⟨hfirst,fun h => hself (isStr_iff.mp h)⟩)]
      refine ⟨_,_,⟨a,ha,rfl⟩,⟨b,hb,rfl⟩,?_,?_⟩
      · rwa [hnew]
      · rwa [hasTag_fix,hnew]

end Fixed

section Repair

variable {outbounds : List Value} {proxyTags : List String}

theorem headD_named (h : ∀ tag ∈ proxyTags, tag ∈ stringTags outbounds)
    (hne : proxyTags.headD "" ≠ "") : proxyTags.headD "" ∈ stringTags outbounds := by
  cases proxyTags with
  | nil => exact absurd rfl hne
  | cons tag rest => exact h tag List.mem_cons_self

theorem named_fixed (h : ∀ tag ∈ proxyTags, tag ∈ stringTags outbounds) {raw : Value}
    (hraw : raw ∈ fixDanglingDialerProxy outbounds proxyTags)
    (hne : dialerProxy raw.asMap ≠ "") :
    dialerProxy raw.asMap ∈ stringTags (fixDanglingDialerProxy outbounds proxyTags) := by
  obtain ⟨a,-,rfl⟩ := List.mem_map.mp hraw
  rw [stringTags_fixed]
  rw [dialerProxy_fixed] at hne ⊢
  split_ifs at hne ⊢ with hkeep hself
  · exact hkeep.resolve_left hne
  · exact absurd rfl hne
  · exact headD_named h hne

theorem kept_fixed {i : ℕ} {a : Value} (ha : outbounds[i]? = some a)
    (hnamed : dialerProxy a.asMap ∈ stringTags outbounds) :
    ∃ a' : Value, (fixDanglingDialerProxy outbounds proxyTags)[i]? = some a' ∧
      dialerProxy a'.asMap = dialerProxy a.asMap := by
  refine ⟨_,by rw [getElem_fixed,ha]; rfl,?_⟩
  rw [dialerProxy_fixed,if_pos (.inr hnamed)]

/-- `Prepare` hands over the tags of outbounds that are all there. -/
theorem proxyTags_named (outbounds : List Value) (tag : String)
    (h : tag ∈ collectProxyTags outbounds) :
    tag ∈ stringTags (markFreedomOutbounds (ensureServiceOutbounds outbounds)) := by
  obtain ⟨ob,hob,hproxy,rfl⟩ := mem_collectProxyTags.mp h
  have hsame : stringTags (markFreedomOutbounds (ensureServiceOutbounds outbounds)) =
      stringTags (ensureServiceOutbounds outbounds) :=
    stringTags_map (fun raw => index_mark (by decide) raw) _
  have hin : Value.obj ob ∈ ensureServiceOutbounds outbounds :=
    subset_ensureOutbound _ _ _ _
      (subset_ensureOutbound _ _ _ _ (subset_ensureOutbound _ _ _ _ hob))
  rw [hsame]
  exact stringTags_has hin (isProxyOutbound_iff.mp hproxy).2

end Repair

section Chain

def server (tag dialer : String) : Value :=
  .obj [("protocol",.str "vless"),("tag",.str tag),
    ("streamSettings",.obj [("sockopt",.obj [("dialerProxy",.str dialer)])])]

theorem hasTag_server {tag dialer other : String} :
    HasTag (server tag dialer) other ↔ tag = other := by
  rw [HasTag,show Fields.index (server tag dialer).asMap "tag" = .str tag from rfl,
    Value.str.injEq]

theorem dialerProxy_server (tag dialer : String) :
    dialerProxy (server tag dialer).asMap = dialer := rfl

/-- The first server goes through the second, whose own reference is dangling. -/
def chained : List Value := [server "de" "nl",server "nl" "gone"]

theorem dials_chained {i j : ℕ} (h : Dials chained i j) : i = 0 ∧ j = 1 := by
  obtain ⟨a,b,ha,hb,-,htag⟩ := h
  match i,j,ha,hb with
  | 0,1,_,_ => exact ⟨rfl,rfl⟩
  | 0,0,rfl,rfl => exact absurd (hasTag_server.mp htag) (by decide)
  | 1,0,rfl,rfl => exact absurd (hasTag_server.mp htag) (by decide)
  | 1,1,rfl,rfl => exact absurd (hasTag_server.mp htag) (by decide)

theorem acyclic_chained : Acyclic (Dials chained) := by
  intro a h
  obtain ⟨b,hab,hba⟩ := TransGen.head'_iff.mp h
  obtain ⟨rfl,rfl⟩ := dials_chained hab
  rcases ReflTransGen.cases_head hba with heq | ⟨c,hc,-⟩
  · cases heq
  · cases (dials_chained hc).1

theorem chained_dials : Dials chained 0 1 :=
  ⟨server "de" "nl",server "nl" "gone",rfl,rfl,by decide,rfl⟩

theorem named_chained : ∀ tag ∈ ["de","nl"], tag ∈ stringTags chained := fun _ h => h

theorem chained_dials_repaired : DialsRepaired chained ["de","nl"] := by
  refine ⟨0,1,⟨server "de" "nl",rfl,rfl⟩,⟨by decide,server "nl" "gone",rfl,⟨by decide,?_⟩,?_⟩,
    .single chained_dials⟩
  · decide
  · exact fun h => absurd (hasTag_server.mp h) (by decide)

end Chain

end Whoisthat.DialerGraph
