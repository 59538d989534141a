import Mathlib.Data.List.Dedup
import Whoisthat.GeoWorkers

/-!
# The effective routing a client shows

`effective_routing` of the command line client decides from the state text of
the active routing profile, the core from its rules and the geo files on disk.
The two agree exactly on the groups whose stored profile tells the truth, for
every database the daemon's operations and geo workers can reach.
-/

set_option autoImplicit false

namespace Whoisthat.CliRouting
open Whoisthat.FileStore Whoisthat.FallibleState Whoisthat.Records Whoisthat.Database
open Whoisthat.GroupFiles Whoisthat.GroupStore Whoisthat.RoutingStore Whoisthat.FiledRecords
open Whoisthat.RoutingResolution Whoisthat.HappImport Whoisthat.GeoWorkers

section Core

structure RoutingProfileInfo where
  id : String
  name : String
  state : String
  rulesCount : ℕ
  deriving DecidableEq

/-- `GroupWithProfiles` as the client receives it, without the servers. -/
structure SentGroup where
  group : Group
  routingProfiles : List RoutingProfileInfo

def infoOf (p : RoutingProfile) : RoutingProfileInfo := ⟨p.id,p.name,p.state,p.rules.length⟩

def sent (v : GroupWithProfiles) : SentGroup := ⟨v.group,v.routingProfiles.map infoOf⟩

/-- A directory is there as long as anything lies in it. -/
def getAllGroupsAndProfiles : DBM (List GroupWithProfiles) := do
  let entries ← readDir Path.group?
  let groupsMap ← gather getGroupDataAndProfiles entries.dedup
  let r ← attempt loadDBConfig
  let order := match r with
    | .ok c => c.groupOrder
    | .error _ => []
  pure ((orderProfiles order groupsMap).map Prod.snd)

inductive ManualSource where
  | global
  | custom
  deriving DecidableEq

inductive Source where
  | manual (source : ManualSource)
  | happ
  | lanOnly
  deriving DecidableEq

/-- Where the routing of a group comes from, and how many rules of a Happ
profile are in it. -/
structure Applied where
  source : Source
  rules : ℕ
  deriving DecidableEq

def labelOf (source : String) : ManualSource :=
  if source = routingSourceCustom then .custom else .global

/-- Servers of a JSON subscription get the manual rules, all others what
`ResolveRouting` selects. -/
def coreRouting (parseRawJSON : RawMessage → Option HappDNSConfig) (gid : ℤ) : DBM Applied := do
  let r ← attempt (loadGroupConfig gid)
  let found ← loadEffectiveManualRouting gid
  let selection ← resolveRouting parseRawJSON gid
  let manual : Applied := ⟨.manual (labelOf found.2),0⟩
  pure (if (r.toOption.map jsonSubscription).getD false then manual
    else if selection.source = "manual" then manual
    else if selection.profileId = "" then ⟨.lanOnly,0⟩
    else ⟨.happ,selection.config.rules.length⟩)

end Core

section Client

inductive EffectiveMode where
  | global
  | auto
  | manual
  | subscription
  deriving DecidableEq

inductive EffectiveSource where
  | happ
  | manual
  | lan
  deriving DecidableEq

structure EffectiveRouting where
  mode : EffectiveMode
  source : EffectiveSource
  manualSource : ManualSource
  profile : Option String
  rules : ℕ
  json : Bool
  deriving DecidableEq

def effectiveMode (text : String) : EffectiveMode :=
  if text = "manual" then .manual
  else if text = "subscription" then .subscription
  else .auto

def effectiveManualSource (text : String) : ManualSource :=
  if text = "custom" then .custom else .global

def activeInfo (g : SentGroup) : Option RoutingProfileInfo :=
  g.routingProfiles.find? fun p => p.id = g.group.activeRoutingProfileId

/-- What the client takes for a profile the core can apply. -/
def usableInfo (g : SentGroup) : Option RoutingProfileInfo :=
  (activeInfo g).filter fun p => p.state ≠ "error" && 0 < p.rulesCount

def groupRouting (g : SentGroup) : EffectiveRouting :=
  let mode := effectiveMode g.group.routingMode
  let usable := usableInfo g
  let json := jsonSubscription g.group
  { mode := mode
    source :=
      if json then .manual
      else match mode with
        | .manual => .manual
        | .subscription => if usable.isSome then .happ else .lan
        | _ => if usable.isSome then .happ else .manual
    manualSource := effectiveManualSource g.group.manualRoutingMode
    profile := if json then none else (activeInfo g).map RoutingProfileInfo.name
    rules := if json then 0 else (usable.map RoutingProfileInfo.rulesCount).getD 0
    json := json }

def effectiveRouting (groups : List SentGroup) (gid : ℤ) : EffectiveRouting :=
  if gid = 0 then ⟨.global,.manual,.global,none,0,false⟩
  else match groups.find? (fun g => g.group.id = gid) with
    | none => ⟨.auto,.manual,.global,none,0,false⟩
    | some g => groupRouting g

def EffectiveRouting.applied (eff : EffectiveRouting) : Applied :=
  { source := match eff.source with
      | .happ => .happ
      | .manual => .manual eff.manualSource
      | .lan => .lanOnly
    rules := eff.rules }

/-- What the client shows for the groups the core sends now. -/
def shown (gid : ℤ) : DBM Applied := do
  let groups ← getAllGroupsAndProfiles
  pure (effectiveRouting (groups.map sent) gid).applied

end Client

section Views

def listedRoutingAt (gid : ℤ) (t : Tree) (k : Key) : List RoutingProfile :=
  (((listing (routingProfileName gid) t).filterMap fun id =>
    (fileAt (.routingProfile gid id) Payload.asRoutingProfile t k).map (Prod.mk id)).map
      Prod.snd).insertionSort routingProfileBefore

def viewAt (gid : ℤ) (t : Tree) (k : Key) : Option GroupWithProfiles :=
  (groupAt gid t k).map fun g =>
    let ordered := orderProfiles g.profileOrder (profilesMapAt gid t k)
    { group := { g with profileOrder := ordered.map Prod.fst }
      profiles := ordered.map Prod.snd
      routingProfiles := listedRoutingAt gid t k }

theorem readsAs_getGroup (gid : ℤ) : ReadsAs (getGroupDataAndProfiles gid) (viewAt gid) := by
  have h := readsAs_bind (readsAs_loadGroupConfig gid) (fun g =>
    readsAs_bind (readsAs_readDir (profileName gid)) fun ids =>
      readsAs_bind (readsAs_gather (readsAs_getProfile gid) ids) fun m =>
        readsAs_bind (readsAs_listRoutingProfiles gid) fun rs =>
          readsAs_pure
            { group := { g with
                profileOrder := (orderProfiles g.profileOrder m).map Prod.fst }
              profiles := (orderProfiles g.profileOrder m).map Prod.snd
              routingProfiles := rs : GroupWithProfiles })
  intro w
  refine ⟨(h w).1,(h w).2.trans ?_⟩
  unfold viewAt
  beta_reduce
  cases groupAt gid w.disk w.key <;> rfl

def groupsAt (t : Tree) (k : Key) : List GroupWithProfiles :=
  (orderProfiles ((fileAt .dbConfig Payload.asDBConfig t k).map DBConfig.groupOrder |>.getD [])
    ((listing Path.group? t).dedup.filterMap fun gid => (viewAt gid t k).map (Prod.mk gid))).map
      Prod.snd

theorem readsAs_getAllGroups :
    ReadsAs getAllGroupsAndProfiles (fun t k => some (groupsAt t k)) := by
  have h := readsAs_bind (readsAs_readDir Path.group?) fun entries =>
    readsAs_bind (readsAs_gather readsAs_getGroup entries.dedup) fun groupsMap =>
      readsAs_attempt (u := fun o _ _ =>
          some ((orderProfiles ((o.map DBConfig.groupOrder).getD []) groupsMap).map Prod.snd))
        (readsAs_readEncryptedJSON .dbConfig Payload.asDBConfig) (f := fun r =>
          let order := match r with
            | .ok c => c.groupOrder
            | .error _ => []
          pure ((orderProfiles order groupsMap).map Prod.snd)) fun r => by
            cases r <;> exact readsAs_pure _
  exact h

/-- The only element a search can stop at. -/
theorem find?_only {α : Type} {q : α → Bool} {l : List α} {a : α} (ha : a ∈ l) (hq : q a = true)
    (h : ∀ b ∈ l, q b = true → b = a) : l.find? q = some a := by
  cases hf : l.find? q with
  | none => exact absurd hq (List.find?_eq_none.mp hf a ha)
  | some b =>
    have hb := List.find?_some hf
    rw [h b (List.mem_of_find?_eq_some hf) hb]

theorem mem_listedRoutingAt {gid : ℤ} {w : World} {p : RoutingProfile} (hw : Filed w) :
    p ∈ listedRoutingAt gid w.disk w.key ↔ profileOn w gid p.id = some p := by
  unfold listedRoutingAt
  rw [List.mem_insertionSort]
  simp only [List.mem_map,List.mem_filterMap]
  constructor
  · rintro ⟨⟨i,q⟩,⟨j,-,hq⟩,rfl⟩
    obtain ⟨r,hr,he⟩ := Option.map_eq_some_iff.mp hq
    obtain ⟨rfl,rfl⟩ := Prod.mk.inj he
    rw [(filed_routingProfile hw hr).2]
    exact hr
  · intro hp
    refine ⟨(p.id,p),⟨p.id,?_,?_⟩,rfl⟩
    · obtain ⟨b,hb,_⟩ := Option.bind_eq_some_iff.mp hp
      rw [mem_listing]
      exact ⟨.routingProfile gid p.id,by rw [lookup_of_readFile hb]; rfl,by simp [routingProfileName]⟩
    · exact Option.map_eq_some_iff.mpr ⟨p,hp,rfl⟩

/-- The active profile the client finds is the one stored under the active id. -/
theorem find_active {gid : ℤ} {w : World} {aid : String} (hw : Filed w) :
    ((listedRoutingAt gid w.disk w.key).map infoOf).find? (fun p => p.id = aid) =
      (profileOn w gid aid).map infoOf := by
  rw [List.find?_map]
  congr 1
  cases hp : profileOn w gid aid with
  | none =>
    rw [List.find?_eq_none]
    rintro p hm hq
    have hid : p.id = aid := of_decide_eq_true hq
    rw [mem_listedRoutingAt hw,hid,hp] at hm
    simp at hm
  | some p =>
    have hid : p.id = aid := (filed_routingProfile hw hp).2
    refine find?_only ?_ (by simp [infoOf,hid]) fun q hm hq => ?_
    · rw [mem_listedRoutingAt hw,hid,hp]
    · have hq' : q.id = aid := of_decide_eq_true hq
      rw [mem_listedRoutingAt hw,hq',hp] at hm
      exact (Option.some.inj hm).symm

theorem sublist_numbers {α : Type} (ids : List ℤ) (f : ℤ → Option α) :
    ((ids.filterMap fun id => (f id).map (Prod.mk id)).map Prod.fst).Sublist ids := by
  induction ids with
  | nil => simp
  | cons id ids ih =>
    cases h : f id with
    | none => simpa [h] using ih.cons id
    | some a => simpa [h] using ih.cons_cons id

theorem mem_groupsAt {w : World} {v : GroupWithProfiles} :
    v ∈ groupsAt w.disk w.key ↔ ∃ gid, viewAt gid w.disk w.key = some v := by
  have hnodup : (((listing Path.group? w.disk).dedup.filterMap fun gid =>
      (viewAt gid w.disk w.key).map (Prod.mk gid)).map Prod.fst).Nodup := by
    refine (List.nodup_dedup _).sublist (sublist_numbers _ fun gid => viewAt gid w.disk w.key)
  unfold groupsAt
  rw [List.mem_map]
  simp only [(orderProfiles_perm _ hnodup).mem_iff,List.mem_filterMap]
  constructor
  · rintro ⟨⟨g,u⟩,⟨gid,-,hu⟩,rfl⟩
    obtain ⟨r,hr,he⟩ := Option.map_eq_some_iff.mp hu
    obtain ⟨rfl,rfl⟩ := Prod.mk.inj he
    exact ⟨gid,hr⟩
  · rintro ⟨gid,hv⟩
    refine ⟨(gid,v),⟨gid,?_,by rw [hv]; rfl⟩,rfl⟩
    rw [List.mem_dedup,mem_listing]
    obtain ⟨g,hg,-⟩ := Option.map_eq_some_iff.mp hv
    obtain ⟨path,hpath,hs⟩ := lookup_of_groupAt hg
    exact ⟨path,hs,hpath⟩

theorem viewAt_id {gid : ℤ} {w : World} {v : GroupWithProfiles} (hw : Filed w)
    (hv : viewAt gid w.disk w.key = some v) : v.group.id = gid := by
  obtain ⟨g,hg,rfl⟩ := Option.map_eq_some_iff.mp hv
  have hid := filed_group hw hg
  exact hid

theorem find_group {gid : ℤ} {w : World} (hw : Filed w) :
    ((groupsAt w.disk w.key).map sent).find? (fun g => g.group.id = gid) =
      (viewAt gid w.disk w.key).map sent := by
  rw [List.find?_map]
  congr 1
  cases hv : viewAt gid w.disk w.key with
  | none =>
    rw [List.find?_eq_none]
    intro v hm hq
    obtain ⟨g,hg⟩ := mem_groupsAt.mp hm
    obtain rfl : g = gid := (viewAt_id hw hg).symm.trans (of_decide_eq_true hq)
    rw [hv] at hg
    simp at hg
  | some v =>
    refine find?_only (mem_groupsAt.mpr ⟨gid,hv⟩) (decide_eq_true (viewAt_id hw hv))
      fun u hm hq => ?_
    obtain ⟨g,hg⟩ := mem_groupsAt.mp hm
    obtain rfl : g = gid := (viewAt_id hw hg).symm.trans (of_decide_eq_true hq)
    exact Option.some.inj (hg.symm.trans hv)

end Views

section Comparison

variable {w : World} {gid : ℤ} {group : Group}

def activeProfile (w : World) (gid : ℤ) (group : Group) : Option RoutingProfile :=
  profileOn w gid group.activeRoutingProfileId

/-- What the client takes for usable, among the stored profiles. -/
def claimedProfile (w : World) (gid : ℤ) (group : Group) : Option RoutingProfile :=
  (activeProfile w gid group).filter fun p => p.state ≠ "error" && p.rules ≠ []

def happRules (p : Option RoutingProfile) : ℕ := (p.map fun p => p.rules.length).getD 0

def manualSourceOf (group : Group) : Source :=
  .manual (effectiveManualSource group.manualRoutingMode)

/-- What the client shows for a group it knows. -/
def shownAt (w : World) (gid : ℤ) (group : Group) : Applied :=
  let claimed := claimedProfile w gid group
  if jsonSubscription group then ⟨manualSourceOf group,0⟩
  else ⟨match effectiveMode group.routingMode with
    | .manual => manualSourceOf group
    | .subscription => if claimed.isSome then .happ else .lanOnly
    | _ => if claimed.isSome then .happ else manualSourceOf group,happRules claimed⟩

/-- What the core applies to a group that is there. -/
def appliedAt (w : World) (gid : ℤ) (group : Group) : Applied :=
  if jsonSubscription group then ⟨manualSourceOf group,0⟩
  else match effectiveSource (modeOf group.routingMode) (∃ p, Usable w gid group p) with
    | .manual => ⟨manualSourceOf group,0⟩
    | .happ => ⟨.happ,happRules (usableProfile w gid group)⟩
    | .lanOnly => ⟨.lanOnly,0⟩

theorem usableInfo_view (hw : Filed w) (order : List ℤ) :
    usableInfo ⟨{ group with profileOrder := order },(listedRoutingAt gid w.disk w.key).map infoOf⟩ =
      (claimedProfile w gid group).map infoOf := by
  unfold usableInfo activeInfo claimedProfile activeProfile
  rw [find_active hw]
  cases profileOn w gid group.activeRoutingProfileId with
  | none => rfl
  | some p =>
    have hrules : 0 < (infoOf p).rulesCount ↔ p.rules ≠ [] := List.length_pos_iff
    have hsame : ((infoOf p).state ≠ "error" && 0 < (infoOf p).rulesCount) =
        (p.state ≠ "error" && p.rules ≠ []) := by rw [decide_eq_decide.mpr hrules]; rfl
    simp only [Option.map_some,Option.filter,hsame]
    split <;> rfl

theorem shown_run (gid : ℤ) (w : World) : (shown gid w).1 =
    .ok (effectiveRouting ((groupsAt w.disk w.key).map sent) gid).applied := by
  obtain ⟨-,hv⟩ := readsAs_getAllGroups w
  rcases hr : getAllGroupsAndProfiles w with ⟨e | groups,u⟩ <;> rw [hr] at hv
  · simp [Except.toOption] at hv
  · obtain rfl := Option.some.inj hv
    rw [shown,bind_of_ok hr]
    rfl

theorem shown_group (hw : Filed w) (hgid : gid ≠ 0)
    (hg : groupAt gid w.disk w.key = some group) :
    (shown gid w).1 = .ok (shownAt w gid group) := by
  have hview : viewAt gid w.disk w.key = _ := congrArg (Option.map _) hg
  rw [shown_run,effectiveRouting,if_neg hgid,find_group hw,hview]
  congr 1
  simp only [Option.map_some,sent,groupRouting,usableInfo_view hw,Option.isSome_map,
    EffectiveRouting.applied,shownAt,manualSourceOf,jsonSubscription,decide_eq_true_eq]
  by_cases hj : group.subscriptionFormat = "json"
  · simp only [hj,if_true]
  · simp only [hj,if_false]
    cases effectiveMode group.routingMode <;> cases claimedProfile w gid group <;> rfl

theorem shown_other (hw : Filed w) (h : gid = 0 ∨ groupAt gid w.disk w.key = none) :
    (shown gid w).1 = .ok ⟨.manual .global,0⟩ := by
  rw [shown_run,effectiveRouting]
  by_cases hgid : gid = 0
  · rw [if_pos hgid]
    rfl
  · have hview : viewAt gid w.disk w.key = none :=
      congrArg (Option.map _) (h.resolve_left hgid)
    rw [if_neg hgid,find_group hw,hview]
    rfl

theorem returns_unreadable {α : Type} {f : Except DBError Group → DBM α} {a : α}
    (h : groupAt gid w.disk w.key = none) (hf : ∀ e, Returns w (f (.error e)) a) :
    Returns w (attempt (loadGroupConfig gid) >>= f) a := by
  intro u hu
  rw [bind_of_ok (attempt_run _ u)]
  have hs : SameFiles w (loadGroupConfig gid u).2 := by
    rw [loadGroupConfig,wrapping_snd]
    exact sameFiles_read hu
  have hv := (readsAs_loadGroupConfig gid u).2
  rw [hu.disk,hu.key,h] at hv
  cases hr : (loadGroupConfig gid u).1 with
  | ok g => simp [hr,Except.toOption] at hv
  | error e => exact hf e _ hs

theorem returns_loaded (h : groupAt gid w.disk w.key = some group) :
    Returns w (attempt (loadGroupConfig gid)) (.ok group) := by
  rw [← disk_loadGroupConfig]
  exact returns_attempt (returns_group h)

/-- A group that cannot be read is routed by the global rules. -/
theorem returns_inherited (h : gid = 0 ∨ groupAt gid w.disk w.key = none)
    (parseRawJSON : RawMessage → Option HappDNSConfig) :
    Returns w (disk.resolveRouting parseRawJSON gid)
      (manualSelection ((stored .routing Payload.asRouting w).getD defaultRouting)) ∧
    Returns w (disk.loadEffectiveManualRouting gid)
      ((stored .routing Payload.asRouting w).getD defaultRouting,routingSourceGlobal) := by
  have hglobal := returns_readRouting w .routing
  have hselection := returns_map manualSelection hglobal
  have hrules := returns_map (·,routingSourceGlobal) hglobal
  by_cases hgid : gid = 0
  · subst hgid
    exact ⟨hselection,hrules⟩
  · have hnone := h.resolve_left hgid
    unfold Files.resolveRouting Files.loadEffectiveManualRouting
    simp only [hgid,if_false,disk_loadGroupConfig]
    exact ⟨returns_unreadable hnone fun _ => hselection,returns_unreadable hnone fun _ => hrules⟩

theorem core_other (parseRawJSON : RawMessage → Option HappDNSConfig)
    (h : gid = 0 ∨ groupAt gid w.disk w.key = none) :
    (coreRouting parseRawJSON gid w).1 = .ok ⟨.manual .global,0⟩ := by
  obtain ⟨hresolve,hmanual⟩ := returns_inherited h parseRawJSON
  have hrest : ∀ r : Except DBError Group, Returns w (do
      let found ← loadEffectiveManualRouting gid
      let selection ← resolveRouting parseRawJSON gid
      let manual : Applied := ⟨.manual (labelOf found.2),0⟩
      pure (if (r.toOption.map jsonSubscription).getD false then manual
        else if selection.source = "manual" then manual
        else if selection.profileId = "" then ⟨.lanOnly,0⟩
        else ⟨.happ,selection.config.rules.length⟩)) ⟨.manual .global,0⟩ := by
    intro r
    refine returns_bind hmanual (returns_bind hresolve ?_)
    have hlabel : labelOf routingSourceGlobal = .global := by decide
    simp only [hlabel,manualSelection,if_true,ite_self]
    exact returns_pure w _
  have hrun : Returns w (coreRouting parseRawJSON gid) ⟨.manual .global,0⟩ := by
    cases hg : groupAt gid w.disk w.key with
    | none => exact returns_unreadable hg fun e => hrest (.error e)
    | some group => exact returns_bind (returns_loaded hg) (hrest (.ok group))
  exact (hrun w (sameFiles_refl w)).1

theorem core_group (parseRawJSON : RawMessage → Option HappDNSConfig) (hw : Filed w)
    (hgid : gid ≠ 0) (hg : groupAt gid w.disk w.key = some group) :
    (coreRouting parseRawJSON gid w).1 = .ok (appliedAt w gid group) := by
  obtain ⟨selection,hresolve,hcon⟩ := returns_row parseRawJSON hgid hg
  have hlabel : labelOf (if group.manualRoutingMode = manualRoutingCustom then routingSourceCustom
      else routingSourceGlobal) = effectiveManualSource group.manualRoutingMode := by
    unfold effectiveManualSource labelOf manualRoutingCustom
    split <;> rfl
  have hvalue : (if jsonSubscription group then
        (⟨.manual (effectiveManualSource group.manualRoutingMode),0⟩ : Applied)
      else if selection.source = "manual" then
        ⟨.manual (effectiveManualSource group.manualRoutingMode),0⟩
      else if selection.profileId = "" then ⟨.lanOnly,0⟩
      else ⟨.happ,selection.config.rules.length⟩) = appliedAt w gid group := by
    unfold appliedAt manualSourceOf
    generalize effectiveSource (modeOf group.routingMode) (∃ p, Usable w gid group p) = source at *
    cases hcon with
    | manual => rfl
    | happ p hp =>
      have hid : p.id ≠ "" := (filed_routingProfile hw hp.readable).2 ▸ hp.active
      simp [happSelection,hid,usableProfile_iff.mpr hp,happRules]
    | lanOnly => rfl
  have hrun : Returns w (coreRouting parseRawJSON gid) (appliedAt w gid group) := by
    refine returns_bind (returns_loaded hg) (returns_bind (returns_effective hgid hg)
      (returns_bind hresolve ?_))
    simp only [Except.toOption,Option.map_some,Option.getD_some,hlabel,hvalue]
    exact returns_pure w _
  exact (hrun w (sameFiles_refl w)).1

/-- The client shows what the core applies. -/
def Agrees (parseRawJSON : RawMessage → Option HappDNSConfig) (w : World) (gid : ℤ) : Prop :=
  (shown gid w).1 = (coreRouting parseRawJSON gid w).1

/-- The state text of the active profile says what its rules and files say, and
no profile looks usable in a group with manual routing. -/
structure Told (w : World) (gid : ℤ) (group : Group) : Prop where
  manual : group.routingMode = "manual" →
    ∀ p, activeProfile w gid group = some p → p.rules ≠ [] → p.state = "error"
  active : group.routingMode ≠ "manual" →
    ∀ p, activeProfile w gid group = some p → p.rules ≠ [] →
      (p.state ≠ "error" ↔ group.activeRoutingProfileId ≠ "" ∧ GeoPresent w p)
  /-- No command stores another mode. -/
  mode : group.routingMode ∈ ["","auto","manual","subscription"] ∨
    ∃ p, Usable w gid group p

def Truthful (w : World) (gid : ℤ) : Prop :=
  gid = 0 ∨ ∀ group, groupAt gid w.disk w.key = some group →
    group.subscriptionFormat = "json" ∨ Told w gid group

theorem usable_active (hw : Filed w) {p : RoutingProfile} :
    Usable w gid group p ↔ activeProfile w gid group = some p ∧ p.rules ≠ [] ∧
      group.activeRoutingProfileId ≠ "" ∧ GeoPresent w p :=
  ⟨fun h => ⟨h.readable,h.rules,h.active,h.geo⟩,
    fun ⟨hp,hr,ha,hg⟩ => ⟨ha,hp,(filed_routingProfile hw hp).1,hr,hg⟩⟩

theorem claimed_iff {p : RoutingProfile} :
    claimedProfile w gid group = some p ↔
      activeProfile w gid group = some p ∧ p.rules ≠ [] ∧ p.state ≠ "error" := by
  simp [claimedProfile,Option.filter_eq_some_iff,and_comm]

theorem rules_claimed : happRules (claimedProfile w gid group) = 0 ↔
    claimedProfile w gid group = none := by
  cases hc : claimedProfile w gid group with
  | none => simp [happRules]
  | some p =>
    have hlen : p.rules.length ≠ 0 := fun h =>
      (claimed_iff.mp hc).2.1 (List.length_eq_zero_iff.mp h)
    simp [happRules,hlen]

theorem manual_told : (∀ p, activeProfile w gid group = some p → p.rules ≠ [] →
    p.state = "error") ↔ claimedProfile w gid group = none := by
  rw [Option.eq_none_iff_forall_ne_some]
  constructor
  · intro h p hp
    obtain ⟨ha,hr,hs⟩ := claimed_iff.mp hp
    exact hs (h p ha hr)
  · intro h p ha hr
    by_contra hs
    exact h p (claimed_iff.mpr ⟨ha,hr,hs⟩)

/-- The state tells the truth when client and core find the same usable. -/
theorem active_told (hw : Filed w) :
    (∀ p, activeProfile w gid group = some p → p.rules ≠ [] →
      (p.state ≠ "error" ↔ group.activeRoutingProfileId ≠ "" ∧ GeoPresent w p)) ↔
    ((claimedProfile w gid group).isSome ↔ (usableProfile w gid group).isSome) := by
  simp only [Option.isSome_iff_exists,claimed_iff,usableProfile_iff,usable_active hw]
  constructor
  · intro h
    constructor
    · rintro ⟨p,ha,hr,hs⟩
      exact ⟨p,ha,hr,(h p ha hr).mp hs⟩
    · rintro ⟨p,ha,hr,hg⟩
      exact ⟨p,ha,hr,(h p ha hr).mpr hg⟩
  · intro h p ha hr
    have hone : ∀ q, activeProfile w gid group = some q → q = p := fun q hq =>
      Option.some.inj (hq.symm.trans ha)
    constructor
    · intro hs
      obtain ⟨q,hq,-,hg⟩ := h.mp ⟨p,ha,hr,hs⟩
      exact hone q hq ▸ hg
    · intro hg
      obtain ⟨q,hq,-,hs⟩ := h.mpr ⟨p,ha,hr,hg⟩
      exact hone q hq ▸ hs

theorem usable_claimed (hw : Filed w) {p q : RoutingProfile}
    (hp : claimedProfile w gid group = some p) (hq : usableProfile w gid group = some q) : p = q :=
  Option.some.inj ((claimed_iff.mp hp).1.symm.trans
    ((usable_active hw).mp (usableProfile_iff.mp hq)).1)

/-- With one fallback on both sides the answers differ where only one side
finds a usable profile. -/
theorem same_fallback (hw : Filed w) {fallback : Source} (hf : fallback ≠ .happ) :
    (⟨if (claimedProfile w gid group).isSome then .happ else fallback,
        happRules (claimedProfile w gid group)⟩ : Applied) =
      (if (usableProfile w gid group).isSome then
        ⟨.happ,happRules (usableProfile w gid group)⟩ else ⟨fallback,0⟩) ↔
    ((claimedProfile w gid group).isSome ↔ (usableProfile w gid group).isSome) := by
  cases hc : claimedProfile w gid group with
  | none =>
    cases hu : usableProfile w gid group with
    | none => simp [happRules]
    | some q => simp [hf]
  | some p =>
    cases hu : usableProfile w gid group with
    | none => simp [hf.symm]
    | some q => simp [usable_claimed hw hc hu]

theorem agrees_group (hw : Filed w) (hj : group.subscriptionFormat ≠ "json") :
    shownAt w gid group = appliedAt w gid group ↔ Told w gid group := by
  have hjson : ¬jsonSubscription group = true := by simpa [jsonSubscription] using hj
  have hsource : decide (∃ p, Usable w gid group p) = (usableProfile w gid group).isSome := by
    rw [Bool.eq_iff_iff,decide_eq_true_eq]
    exact usable_iff_isSome
  have hactive : group.routingMode ≠ "manual" →
      group.routingMode ∈ ["","auto","manual","subscription"] →
        (Told w gid group ↔
          ((claimedProfile w gid group).isSome ↔ (usableProfile w gid group).isSome)) :=
    fun hm hmode => ⟨fun h => (active_told hw).mp (h.active hm),fun h => ⟨fun he => absurd he hm,
      fun _ => (active_told hw).mpr h,Or.inl hmode⟩⟩
  unfold shownAt appliedAt
  simp only [hjson,hsource]
  by_cases hm : group.routingMode = "manual"
  · have htold : Told w gid group ↔ claimedProfile w gid group = none :=
      ⟨fun h => manual_told.mp (h.manual hm),fun h => ⟨fun _ => manual_told.mpr h,
        fun hne => absurd hm hne,Or.inl (by simp [hm])⟩⟩
    rw [htold]
    simp [hm,effectiveMode,modeOf,effectiveSource,rules_claimed]
  · by_cases hs : group.routingMode = "subscription"
    · rw [hactive hm (by simp [hs]),← same_fallback hw (show Source.lanOnly ≠ .happ by decide)]
      have hmode : effectiveMode group.routingMode = .subscription ∧
          modeOf group.routingMode = .subscription := by rw [hs]; decide
      simp only [hmode]
      cases (usableProfile w gid group).isSome <;> exact Iff.rfl
    · by_cases ha : group.routingMode = "" ∨ group.routingMode = "auto"
      · have hknown : group.routingMode ∈ ["","auto","manual","subscription"] := by
          rcases ha with ha | ha <;> simp [ha]
        rw [hactive hm hknown,← same_fallback hw (show manualSourceOf group ≠ .happ by
          simp [manualSourceOf])]
        have hmode : effectiveMode group.routingMode = .auto ∧
            modeOf group.routingMode = .auto := by rcases ha with ha | ha <;> rw [ha] <;> decide
        simp only [hmode]
        cases (usableProfile w gid group).isSome <;> exact Iff.rfl
      · -- the client takes any other text for the automatic mode, the core for the strict one
        have hmode : effectiveMode group.routingMode = .auto ∧
            modeOf group.routingMode = .subscription := by
          simp [effectiveMode,modeOf,hm,hs,ha]
        have hunknown : group.routingMode ∉ ["","auto","manual","subscription"] := by
          rw [not_or] at ha
          simp [hm,hs,ha]
        have htold : Told w gid group ↔ (claimedProfile w gid group).isSome ∧
            (usableProfile w gid group).isSome := by
          constructor
          · intro h
            have hu := usable_iff_isSome.mp (h.mode.resolve_left hunknown)
            exact ⟨((active_told hw).mp (h.active hm)).mpr hu,hu⟩
          · rintro ⟨hc,hu⟩
            exact ⟨fun he => absurd he hm,fun _ => (active_told hw).mpr ⟨fun _ => hu,fun _ => hc⟩,
              Or.inr (usable_iff_isSome.mpr hu)⟩
        rw [htold]
        simp only [hmode]
        cases hc : claimedProfile w gid group with
        | none => cases usableProfile w gid group <;> simp [effectiveSource,manualSourceOf]
        | some p =>
          cases hu : usableProfile w gid group with
          | none => simp [effectiveSource]
          | some q => simp [effectiveSource,usable_claimed hw hc hu]

/-- For every reachable database and every group. -/
theorem agrees_filed (parseRawJSON : RawMessage → Option HappDNSConfig) (hw : Filed w) (gid : ℤ) :
    Agrees parseRawJSON w gid ↔ Truthful w gid := by
  unfold Agrees Truthful
  by_cases h : gid = 0 ∨ groupAt gid w.disk w.key = none
  · rw [shown_other hw h,core_other parseRawJSON h]
    refine ⟨fun _ => h.imp_right fun hn g hg => ?_,fun _ => rfl⟩
    rw [hn] at hg
    simp at hg
  · rw [not_or] at h
    obtain ⟨group,hg⟩ := Option.ne_none_iff_exists'.mp h.2
    rw [shown_group hw h.1 hg,core_group parseRawJSON hw h.1 hg]
    by_cases hj : group.subscriptionFormat = "json"
    · refine ⟨fun _ => Or.inr fun g hg' => Or.inl ?_,fun _ => ?_⟩
      · rw [← Option.some.inj (hg.symm.trans hg')]
        exact hj
      · simp [shownAt,appliedAt,jsonSubscription,hj]
    · have hiff := @agrees_group _ gid _ hw hj
      constructor
      · intro he
        refine Or.inr fun g hg' => Or.inr ?_
        rw [← Option.some.inj (hg.symm.trans hg')]
        exact hiff.mp (Except.ok.inj he)
      · intro ht
        rw [hiff.mpr (((ht.resolve_left h.1) group hg).resolve_left hj)]

end Comparison

section Reachable

variable (geoURLs : RawMessage → Option (String × String)) (subscriptionHost : String → String)

/-- The daemon's states: its database operations between the steps of routing
commands and geo workers, from a directory without groups. -/
inductive Reached : Sys → Prop
  | start {w : World} (h : Fresh w) : Reached (start w)
  | event {s : Sys} (e : Event) (h : Reached s) : Reached (e.step geoURLs s)
  | op {s : Sys} (op : ReadOnly.Op) (h : Reached s) :
      Reached { s with world := op.run subscriptionHost s.world }

theorem filed_quiet {w w' : World} (hw : Filed w) (h : Quiet w w') : Filed w' := (h hw).filed

theorem filed_save (p : RoutingProfile) {w : World} (hw : Filed w) :
    Filed (saveRoutingProfile p w).2 := keeps_saveRoutingProfile primitive_filed p w hw

theorem filed_load (gid : ℤ) (id : String) {w : World} (hw : Filed w) :
    Filed (loadRoutingProfile gid id w).2 :=
  filed_quiet hw (quiet_readsAs (readsAs_readEncryptedJSON _ _) w)

theorem filed_worker (i : Input) (k : Worker) {w : World} (hw : Filed w) :
    Filed (k.step geoURLs i w).1 := by
  cases hphase : k.phase with
  | announce =>
    simp only [Worker.step,hphase]
    exact filed_save _ hw
  | ensure =>
    simp only [Worker.step,hphase]
    split
    · exact hw
    · split_ifs <;> exact hw
  | settle =>
    simp only [Worker.step,hphase]
    exact filed_save _ hw
  | prepare now =>
    simp only [Worker.step,hphase]
    split_ifs
    · exact hw
    · exact (calm_mkdirGeo k.copy.profile.groupId k.copy.profile.id (tmpVersion now) hw).2.1
  | fetch now asset =>
    simp only [Worker.step,hphase]
    have hf := filed_quiet hw (quiet_writeAsset k.copy.profile.groupId k.copy.profile.id
      (tmpVersion now) asset.file i.bytes w)
    split
    · exact hw
    · split <;> rename_i hr <;> rw [hr] at hf <;> exact hf
  | reload now =>
    simp only [Worker.step,hphase]
    have hf := filed_load k.copy.profile.groupId k.copy.profile.id hw
    split <;> rename_i hr <;> rw [hr] at hf <;> exact hf
  | commit now latest =>
    simp only [Worker.step,hphase]
    have hf := filed_quiet hw (quiet_renameGeo k.copy.profile.groupId k.copy.profile.id
      (tmpVersion now) (toString now) w)
    split
    · exact hw
    · split <;> rename_i hr <;> rw [hr] at hf <;> exact hf
  | save now =>
    simp only [Worker.step,hphase]
    have hf := filed_save k.copy.profile hw
    split <;> rename_i hr <;> rw [hr] at hf <;> exact hf
  | prune now =>
    simp only [Worker.step,hphase]
    exact filed_quiet hw (quiet_pruneOldGeoDirs _ _ _ w)
  | abandon now =>
    simp only [Worker.step,hphase]
    exact filed_quiet hw (quiet_removeGeoDir _ _ _ w)
  | cleanup now err =>
    simp only [Worker.step,hphase]
    exact filed_quiet hw (quiet_removeGeoDir _ _ _ w)
  | fail =>
    simp only [Worker.step,hphase]
    exact filed_save _ hw
  | report =>
    simp only [Worker.step,hphase]
    exact filed_quiet hw (quiet_reportGeo k w)

theorem filed_command (newID : String) {s : Sys} (hw : Filed s.world) :
    Filed (commandStep geoURLs newID s).world := by
  unfold commandStep
  cases s.command with
  | idle => exact hw
  | lookup job =>
    simp only [lookupStep]
    split
    · exact hw
    · exact hw
    · exact filed_quiet hw (quiet_setActiveRoutingProfile job.gid "" s.world)
    · rename_i action hp rest _
      have hf := filed_quiet hw (quiet_reads (reads_find job.gid hp.name s.world))
      split
      · rename_i hr
        rw [hr] at hf
        split <;> exact hf
      · rename_i hr
        rw [hr] at hf
        split
        · exact hf
        · exact hw
  | save job p action isNew =>
    simp only
    have hf := filed_save p hw
    split <;> rename_i hr <;> rw [hr] at hf <;> exact hf
  | select job p action isNew => exact filed_quiet hw (quiet_selectImported _ action isNew p s.world)
  | activate gid id =>
    simp only [activateStep]
    have hf := filed_load gid id hw
    split
    · rename_i hr
      rw [hr] at hf
      exact hf
    · rename_i hr
      rw [hr] at hf
      split <;> exact hf
  | delete gid id => exact (dropping_deleteRoutingProfile gid id s.world hw).filed

theorem filed_step (e : Event) {s : Sys} (hw : Filed s.world) :
    Filed (e.step geoURLs s).world := by
  cases e with
  | upsert gid links now =>
    simp only [Event.step]
    split <;> exact hw
  | setActive gid id =>
    simp only [Event.step]
    split
    · exact filed_quiet hw (quiet_activated gid id s.world)
    · exact hw
  | delete gid id =>
    simp only [Event.step]
    split
    · exact filed_quiet hw (quiet_mayDelete gid id s.world)
    · exact hw
  | command newID => exact filed_command geoURLs newID hw
  | deleteGroup gid => exact (dropping_deleteGroup gid s.world hw).filed
  | worker n i =>
    simp only [Event.step,workerStep]
    split
    · exact hw
    · rename_i k _
      have hf := filed_worker geoURLs i k hw
      split
      · exact hw
      · split <;> rename_i hr <;> rw [hr] at hf <;> exact hf

theorem filed_reached {s : Sys} (h : Reached geoURLs subscriptionHost s) : Filed s.world := by
  induction h with
  | start h => exact filed_fresh h
  | event e _ ih => exact filed_step geoURLs e ih
  | op op _ ih => exact keeps_op primitive_filed subscriptionHost op _ ih

/-- In every state of the daemon, the client is right about a group exactly when
the stored state text of its active profile is. -/
theorem client_agrees_iff (parseRawJSON : RawMessage → Option HappDNSConfig) {s : Sys}
    (h : Reached geoURLs subscriptionHost s) (gid : ℤ) :
    Agrees parseRawJSON s.world gid ↔ Truthful s.world gid :=
  agrees_filed parseRawJSON (filed_reached geoURLs subscriptionHost h) gid

end Reachable

section Samples

/-- A profile of group 1 is imported, and its download fails. -/
def failedImport : List Event :=
  [.upsert 1 [some (.profile .add ⟨"ru",none,"https://a/geoip.dat","",0,customJSON,
      ⟨"IPIfNonMatch",lanSelection.config.rules,none⟩⟩)] 1,
    .command "k3",.command "",.command "",.command "",
    .worker 0 passing,.worker 0 passing,.worker 0 failing,.worker 0 passing,.worker 0 passing,
    .worker 0 passing]

def importedState : Sys :=
  runEvents customURLs failedImport (start (ReadOnly.Op.run id (.addGroup "work" "")
    configuredDirectory))

theorem reached_run {geoURLs : RawMessage → Option (String × String)}
    {subscriptionHost : String → String} (es : List Event) {s : Sys}
    (h : Reached geoURLs subscriptionHost s) :
    Reached geoURLs subscriptionHost (runEvents geoURLs es s) := by
  induction es generalizing s with
  | nil => exact h
  | cons e es ih => exact ih (.event e h)

theorem reached_importedState : Reached customURLs id importedState :=
  reached_run failedImport (.op (.addGroup "work" "") (.start (w := configuredDirectory) (by decide)))

/-- Before the failed profile is activated the client is right. -/
theorem client_agrees_before : Agrees (fun _ => none) importedState.world 1 := by
  refine (client_agrees_iff customURLs id (fun _ => none) reached_importedState 1).mpr
    (Or.inr fun group hg => Or.inr ?_)
  have hgroup : groupAt 1 importedState.world.disk importedState.world.key =
      some (newGroupConfig id 1 "work" "") := by decide
  obtain rfl := Option.some.inj (hg.symm.trans hgroup)
  have hnone : activeProfile importedState.world 1 (newGroupConfig id 1 "work" "") = none := by
    decide
  exact ⟨fun h => absurd h (by decide),fun _ p hp => (nomatch hnone.symm.trans hp),
    Or.inl (by decide)⟩

/-- Activated, the profile routes the group, and the client says it does not. -/
theorem failed_download_misreported :
    Reached customURLs id (runEvents customURLs [.setActive 1 "k3"] importedState) ∧
      ¬Agrees (fun _ => none) (runEvents customURLs [.setActive 1 "k3"] importedState).world 1 := by
  refine ⟨reached_run _ reached_importedState,?_⟩
  unfold Agrees
  decide

end Samples

end Whoisthat.CliRouting
