import Whoisthat.GroupNames
import Whoisthat.HappRules
import Whoisthat.LastUpdatedGate

/-!
# What an imported link activates

The format has one table: `off` clears the selection, `add` fills an empty one,
`onadd` replaces it, and nothing is selected whose geo files must be downloaded
first. The import writes a new profile and one that is already stored in
separate branches. Here the table is compared with both, on a database that can
be read and written.
-/

set_option autoImplicit false

namespace Whoisthat.Activation
open Whoisthat.FileStore Whoisthat.FallibleState Whoisthat.Records Whoisthat.Database
open Whoisthat.GroupFiles Whoisthat.RoutingStore Whoisthat.FiledRecords Whoisthat.HappImport
open Whoisthat.GeoWorkers Whoisthat.GroupNames
open Whoisthat.HappRules (Lib toRoutingConfig)
open Whoisthat.LastUpdatedGate (upsertFromLink upsert_missing upsert_found put)

section Source

/-- What `ParseLink` makes of a link. -/
inductive Link where
  | off
  | profile (action : Action) (p : HappRules.HappProfile) (rawJSON : RawMessage)

inductive Outcome where
  /-- The link does not parse, or its profile has no configuration. -/
  | malformed
  | failed (e : DBError)
  | off
  | imported (p : RoutingProfile)

def compiled (p : HappRules.HappProfile) (rawJSON : RawMessage) (cfg : RoutingConfig) :
    HappProfile :=
  { name := p.name
    globalProxy := p.globalProxy
    geoipurl := p.geoipurl
    geositeurl := p.geositeurl
    lastUpdated := p.lastUpdated.val
    rawJSON := rawJSON
    config := cfg }

def outcome : Except DBError (Option RoutingProfile) → Outcome
  | .error e => .failed e
  | .ok none => .off
  | .ok (some p) => .imported p

/-- `UpsertFromLink`; the link is `none` where `ParseLink` fails. -/
def importLink (lib : Lib) (gid : ℤ) (newID : String) (now : ℤ) (link : Option Link) (w : World) :
    Outcome × World :=
  match link with
  | none => (.malformed,w)
  | some .off =>
    let r := upsertFromLink gid newID now .off w
    (outcome r.1,r.2)
  | some (.profile action p rawJSON) =>
    match toRoutingConfig lib p with
    | .error _ => (.malformed,w)
    | .ok (cfg,_) =>
      let r := upsertFromLink gid newID now (.profile action (compiled p rawJSON cfg)) w
      (outcome r.1,r.2)

end Source

section Table

def activeOf (gid : ℤ) (w : World) : Option String :=
  (groupAt gid w.disk w.key).map (·.activeRoutingProfileId)

def needsGeo (p : HappRules.HappProfile) : Bool := p.geoipurl ≠ "" || p.geositeurl ≠ ""

/-- The active profile after an import, by the action table of the format. -/
def tabulated (action : Action) (needsGeo : Bool) (id active : String) : String :=
  match action with
  | .add => if active = "" ∧ needsGeo = false then id else active
  | .onAdd => if needsGeo = false then id else active

def FollowsTable (gid : ℤ) (link : Option Link) (w : World) (r : Outcome × World) : Prop :=
  match r.1 with
  | .malformed => r.2 = w
  | .failed _ => activeOf gid r.2 = activeOf gid w
  | .off => link = some .off ∧ activeOf gid r.2 = some ""
  | .imported q => ∃ action p rawJSON, link = some (.profile action p rawJSON) ∧
      activeOf gid r.2 = (activeOf gid w).map (tabulated action (needsGeo p) q.id)

/-- A group whose record and routing profiles open, on a disk that takes writes. -/
structure Healthy (gid : ℤ) (g : Group) (w : World) : Prop where
  filed : Filed w
  group : groupAt gid w.disk w.key = some g
  degraded : w.degraded = false
  faults : w.faults = []
  unlocked : ∀ id, locked (.routingProfile gid id) w.disk w.key = false

/-- A stored profile that is not active is named by an `add` link although
nothing is active, or by an `onadd` link older than it. -/
def Neglected (gid : ℤ) (active : String) (w : World) : Option Link → Prop
  | some (.profile action p _) => trimSpace p.name ≠ "" ∧ needsGeo p = false ∧
      match (findRoutingProfileByName gid p.name w).1 with
      | .error _ => False
      | .ok existing => existing.id ≠ active ∧
        ((action = .add ∧ active = "") ∨ (action = .onAdd ∧
          0 < p.lastUpdated.val ∧ 0 < existing.lastUpdated ∧
            p.lastUpdated.val < existing.lastUpdated))
  | _ => False

end Table

section Steps

variable {gid : ℤ} {g : Group} {w w' : World}

theorem activeOf_of_group (h : groupAt gid w.disk w.key = some g) :
    activeOf gid w = some g.activeRoutingProfileId := by
  rw [activeOf,h,Option.map_some]

theorem loadRoutingProfile_run {id : String} {p : RoutingProfile}
    (h : profileOn w gid id = some p) : loadRoutingProfile gid id w = (.ok p,w) := by
  obtain ⟨b,hb,ho⟩ := Option.bind_eq_some_iff.mp h
  obtain ⟨q,hq,ht⟩ := Option.bind_eq_some_iff.mp ho
  simp only [loadRoutingProfile,readEncryptedJSON,hb,hq,ht]

/-- A profile without geo files only has to be the group's and have rules. -/
theorem check_run {id : String} {p : RoutingProfile} (h : profileOn w gid id = some p)
    (hgid : p.groupId = gid) (hrules : p.rules ≠ []) (hgeo : p.geoDir = "") :
    checkRoutingProfile gid id w = (.ok (),w) := by
  have hload : wrapping (.loadRoutingProfile id) (loadRoutingProfile gid id) w = (.ok p,w) :=
    wrapping_ok.mpr (loadRoutingProfile_run h)
  rw [checkRoutingProfile,bind_of_ok hload,if_neg (not_not.mpr hgid),if_neg hrules]
  unfold geoReady
  rw [bind_of_ok (get_run w),if_pos hgeo]
  rfl

theorem setActive_group (hg : groupAt gid w.disk w.key = some g) (hid : g.id = gid)
    (hd : w.degraded = false) (hf : w.faults = []) {id : String}
    (hcheck : id ≠ "" → checkRoutingProfile gid id w = (.ok (),w)) :
    (setActiveRoutingProfile gid id w).1 = .ok () ∧
    groupAt gid (setActiveRoutingProfile gid id w).2.disk (setActiveRoutingProfile gid id w).2.key =
      some { g with activeRoutingProfileId := id, pendingActiveRoutingProfileId := "" } := by
  have hload : wrapping (.routingGroup gid) (loadGroupConfig gid) w = (.ok g,w) :=
    wrapping_ok.mpr (load_run gid hg)
  have hwhen : when (decide (id ≠ "")) (checkRoutingProfile gid id) w = (.ok (),w) := by
    by_cases h : id = ""
    · simp [h,when]
    · simpa [h,when] using hcheck h
  have hwritable : writable w = true := by simp [writable,hd,hf]
  rw [setActiveRoutingProfile,bind_of_ok hload,bind_of_ok hwhen]
  rcases @updateGroup_run gid
    { g with activeRoutingProfileId := id, pendingActiveRoutingProfileId := "" } hid w with
    ⟨-,hok,hnew⟩ | ⟨hno,-⟩
  · exact ⟨hok,hnew⟩
  · rw [hwritable] at hno
    cases hno

/-- The selection after the save; `selects` is the test of the branch. -/
def selects (action : Action) (isNew : Bool) (ready : Bool) (active : String) : Bool :=
  ready && (action = .onAdd || (isNew && active = ""))

theorem selectImported_active (hg : groupAt gid w.disk w.key = some g) (hid : g.id = gid)
    (hd : w.degraded = false) (hf : w.faults = []) {p : RoutingProfile}
    (hp : profileOn w gid p.id = some p) (hgid : p.groupId = gid) (hrules : p.rules ≠ [])
    (hgeo : p.state = "ready" → p.geoDir = "") (action : Action) (isNew : Bool) :
    activeOf gid (selectImported gid action isNew p w).2 =
      some (if selects action isNew (p.state = "ready") g.activeRoutingProfileId then p.id
        else g.activeRoutingProfileId) := by
  have hset : p.state = "ready" →
      activeOf gid (setActiveRoutingProfile gid p.id w).2 = some p.id := fun hready => by
    rw [activeOf,(setActive_group hg hid hd hf fun _ =>
      check_run hp hgid hrules (hgeo hready)).2,Option.map_some]
  have hkeep := activeOf_of_group hg
  cases isNew with
  | false =>
    by_cases h : action = .onAdd ∧ p.state = "ready"
    · have hrun : (selectImported gid action false p w).2 =
          (setActiveRoutingProfile gid p.id w).2 := by
        simp [selectImported,h,bind_of_ok (attempt_run _ w)]
      rw [hrun,hset h.2]
      simp [selects,h]
    · have hrun : (selectImported gid action false p w).2 = w := by
        simp only [selectImported,Bool.false_eq_true,if_false,if_neg h,pure_run]
      rw [hrun,hkeep]
      have hno : selects action false (p.state = "ready") g.activeRoutingProfileId = false := by
        simp only [selects,Bool.false_and,Bool.or_false]
        simpa [and_comm] using h
      rw [hno]
      rfl
  | true =>
    have hload : attempt (loadGroupConfig gid) w = (.ok (.ok g),w) := by
      rw [attempt_run,load_run gid hg]
    by_cases h : p.state = "ready" ∧ (action = .onAdd ∨ g.activeRoutingProfileId = "")
    · have hrun : (selectImported gid action true p w).2 =
          (setActiveRoutingProfile gid p.id w).2 := by
        simp [selectImported,bind_of_ok hload,h,bind_of_ok (attempt_run _ w)]
      rw [hrun,hset h.1]
      simp [selects,h]
    · have hrun : (selectImported gid action true p w).2 = w := by
        simp only [selectImported,if_true,bind_of_ok hload,if_neg h,pure_run]
      rw [hrun,hkeep]
      have hno : selects action true (p.state = "ready") g.activeRoutingProfileId = false := by
        simpa [selects] using h
      rw [hno]
      rfl

theorem save_run (hd : w.degraded = false) (hf : w.faults = []) (p : RoutingProfile) :
    ∃ w', saveRoutingProfile p w = (.ok (),w') ∧ w'.degraded = false ∧ w'.faults = [] ∧
      profileOn w' p.groupId p.id = some p ∧
      ∀ gid, groupAt gid w'.disk w'.key = groupAt gid w.disk w.key := by
  refine ⟨store (.routingProfile p.groupId p.id) (.routingProfile p)
    (osMkdirAll (.routingProfile p.groupId p.id) w).2,?_,hd,?_,?_,fun gid => ?_⟩
  · have hrun : saveRoutingProfile p w = writeEncryptedJSON (.routingProfile p.groupId p.id)
        (.routingProfile p) (osMkdirAll (.routingProfile p.groupId p.id) w).2 := rfl
    rw [hrun]
    simp [writeEncryptedJSON,osMkdirAll,hd,hf]
  · simp [store,osMkdirAll,hf]
  · rw [profileOn,RoutingResolution.stored,fileAt,readFile_store,if_pos rfl]
    simp [openBlob,store,Payload.asRoutingProfile]
  · simp [groupAt,fileAt,store,osMkdirAll,readFile_insert,readFile_mkdirFor]

theorem healthy_reads (h : Healthy gid g w) (hr : Reads w w') (hd : w'.degraded = false) :
    Healthy gid g w' where
  filed := primitive_filed.reads _ _ hr h.filed
  group := by
    rw [hr.disk,hr.key]
    exact h.group
  degraded := hd
  faults := hr.faults.trans h.faults
  unlocked id := by
    rw [hr.disk,hr.key]
    exact h.unlocked id

theorem healthy_find (h : Healthy gid g w) (name : String) :
    Healthy gid g (findRoutingProfileByName gid name w).2 := by
  refine healthy_reads h (reads_find gid name w) ?_
  obtain ⟨-,hmark⟩ := marks_listRoutingProfiles gid w
  have hclear : (listRoutingProfiles gid w).2.degraded = false := by
    rw [hmark,h.degraded,Bool.false_or,List.any_eq_false]
    intro id _
    rw [h.unlocked id]
    exact Bool.false_ne_true
  unfold findRoutingProfileByName
  rcases hl : listRoutingProfiles gid w with ⟨e | profiles,w₁⟩ <;> rw [hl] at hclear
  · rw [bind_of_error hl]
    exact hclear
  · rw [bind_of_ok hl]
    cases profiles.find? (fun p => p.name = name) with
    | some p => exact hclear
    | none =>
      cases profiles.find? (fun p => toLower p.name = toLower name) with
      | some p => exact hclear
      | none => exact hclear

theorem put_active (h : Healthy gid g w) {p : RoutingProfile} (hgid : p.groupId = gid)
    (hrules : p.rules ≠ []) (hgeo : p.state = "ready" → p.geoDir = "") (action : Action)
    (isNew : Bool) :
    outcome (put gid action isNew p w).1 = .imported p ∧
    activeOf gid (put gid action isNew p w).2 =
      some (if selects action isNew (p.state = "ready") g.activeRoutingProfileId then p.id
        else g.activeRoutingProfileId) := by
  obtain ⟨w₁,hsave,hd,hf,hown,hgroup⟩ := save_run h.degraded h.faults p
  have hactive := selectImported_active ((hgroup gid).trans h.group) (filed_group h.filed h.group)
    hd hf (hgid ▸ hown) hgid hrules hgeo action isNew
  have hok := LastUpdatedGate.selectImported_ok gid action isNew p w₁
  unfold put
  rw [bind_of_ok hsave]
  rcases hq : selectImported gid action isNew p w₁ with ⟨e | u,w₂⟩ <;> rw [hq] at hok hactive
  · exact nomatch hok
  · rw [bind_of_ok hq]
    exact ⟨rfl,hactive⟩

end Steps

section Contract

variable {lib : Lib} {gid : ℤ} {g : Group} {w : World}

/-- A new profile is selected as the table says. -/
theorem selects_new (action : Action) (geo : Bool) (id active : String) :
    (if selects action true (!geo) active then id else active) = tabulated action geo id active := by
  cases action <;> cases geo <;> simp [selects,tabulated]

/-- A stored profile is never selected by `add`. -/
theorem selects_stored (action : Action) (geo : Bool) (id active : String) :
    (if selects action false (!geo) active then id else active) = tabulated action geo id active ↔
      ¬(geo = false ∧ id ≠ active ∧ action = .add ∧ active = "") := by
  cases action <;> cases geo <;> simp [selects,tabulated]
  by_cases ha : active = "" <;> simp [ha,eq_comm]

/-- A skipped link selects nothing. -/
theorem tabulated_skipped (action : Action) (geo : Bool) (id active : String) :
    active = tabulated action geo id active ↔
      ¬(geo = false ∧ id ≠ active ∧ ((action = .add ∧ active = "") ∨ action = .onAdd)) := by
  cases action <;> cases geo <;> simp [tabulated,eq_comm]
  by_cases ha : active = "" <;> simp [ha]

theorem local_compiled (p : HappRules.HappProfile) (rawJSON : RawMessage) (cfg : RoutingConfig) :
    (compiled p rawJSON cfg).local? = !needsGeo p := by
  by_cases hip : p.geoipurl = "" <;> by_cases hsite : p.geositeurl = "" <;>
    simp [HappImport.HappProfile.local?,compiled,needsGeo,hip,hsite]

theorem older_compiled {p : HappRules.HappProfile} {rawJSON : RawMessage} {cfg : RoutingConfig}
    {existing : RoutingProfile} :
    (compiled p rawJSON cfg).older existing = true ↔ 0 < p.lastUpdated.val ∧
      0 < existing.lastUpdated ∧ p.lastUpdated.val < existing.lastUpdated := by
  unfold HappImport.HappProfile.older
  rw [Bool.and_eq_true,Bool.and_eq_true,decide_eq_true_iff,decide_eq_true_iff,decide_eq_true_iff,
    and_assoc]
  rfl

theorem importLink_off (h : Healthy gid g w) (newID : String) (now : ℤ) :
    FollowsTable gid (some .off) w (importLink lib gid newID now (some .off) w) := by
  obtain ⟨hok,hnew⟩ := setActive_group h.group (filed_group h.filed h.group) h.degraded h.faults
    fun hne => absurd rfl hne
  have hrun : upsertFromLink gid newID now .off w = (.ok none,(setActiveRoutingProfile gid "" w).2) :=
    rfl
  rw [importLink,hrun]
  exact ⟨rfl,by rw [activeOf,hnew]; rfl⟩

theorem importLink_profile (h : Healthy gid g w) (newID : String) (now : ℤ) {action : Action}
    {p : HappRules.HappProfile} {rawJSON : RawMessage} {cfg : RoutingConfig}
    {warnings : List String} (hc : toRoutingConfig lib p = .ok (cfg,warnings))
    (hname : trimSpace p.name ≠ "") :
    FollowsTable gid (some (.profile action p rawJSON)) w
        (importLink lib gid newID now (some (.profile action p rawJSON)) w) ↔
      ¬Neglected gid g.activeRoutingProfileId w (some (.profile action p rawJSON)) := by
  have hrules : cfg.rules ≠ [] := by
    rw [HappRules.rules_compiled hc]
    simp [HappRules.compiledRules]
  have hlocal := local_compiled p rawJSON cfg
  have hfound := healthy_find h p.name
  have htable : ∀ {q : RoutingProfile} {active : String} {w' : World}
      {r : Except DBError (Option RoutingProfile)}, outcome r = .imported q →
      activeOf gid w' = some active →
      (FollowsTable gid (some (.profile action p rawJSON)) w (outcome r,w') ↔
        active = tabulated action (needsGeo p) q.id g.activeRoutingProfileId) := by
    intro q active w' r hr hactive
    simp only [FollowsTable,hr,hactive,activeOf_of_group h.group,Option.map_some,Option.some.injEq,
      Link.profile.injEq]
    constructor
    · rintro ⟨_,_,_,⟨rfl,rfl,rfl⟩,ht⟩
      exact ht
    · exact fun ht => ⟨_,_,_,⟨rfl,rfl,rfl⟩,ht⟩
  simp only [importLink,hc,Neglected,hname,ne_eq,not_false_eq_true,true_and]
  rcases hf : findRoutingProfileByName gid p.name w with ⟨e | existing,w₁⟩ <;> rw [hf] at hfound
  · rw [upsert_missing hf]
    obtain ⟨hout,hactive⟩ := @put_active gid g w₁ hfound
      (newProfile gid newID (compiled p rawJSON cfg) now) rfl hrules (fun _ => rfl) action true
    rw [htable hout hactive]
    simp only [and_false,not_false_eq_true,iff_true]
    rw [← selects_new]
    cases hgeo : needsGeo p <;> simp [newProfile,hlocal,hgeo]
  · obtain ⟨id,hstored⟩ := find_stored hf
    obtain ⟨hgid,-⟩ := filed_routingProfile h.filed hstored
    rw [upsert_found hf]
    by_cases hold : (compiled p rawJSON cfg).older existing = true
    · rw [if_pos hold,htable rfl (activeOf_of_group hfound.group),tabulated_skipped]
      have holder := older_compiled.mp hold
      simp only [holder,and_self,and_true]
    · have hnew := mt older_compiled.mpr hold
      obtain ⟨hout,hactive⟩ := @put_active gid g w₁ hfound
        (updatedProfile existing (compiled p rawJSON cfg) now) hgid hrules (by
          simp only [updatedProfile]
          split <;> simp) action false
      rw [if_neg hold,htable hout hactive]
      have hready : decide ((updatedProfile existing (compiled p rawJSON cfg) now).state =
          "ready") = !needsGeo p := by
        cases hgeo : needsGeo p <;> simp [updatedProfile,hlocal,hgeo]
      rw [hready]
      refine (selects_stored action (needsGeo p) existing.id g.activeRoutingProfileId).trans ?_
      simp only [hnew,and_false,or_false]

end Contract

section Samples

theorem unlocked_of_keys {w : World}
    (h : ∀ path ∈ w.disk.keys, locked path w.disk w.key = false) (path : Path) :
    locked path w.disk w.key = false := by
  by_cases hp : path ∈ w.disk.keys
  · exact h path hp
  · simp only [locked,readFile,AList.lookup_eq_none.mpr hp]

def sampleProfile (lastUpdated : ℤ) (geoipurl : String) : HappRules.HappProfile :=
  ⟨"ru",none,["domain:example.org"],[],[],[],[],[],"",geoipurl,"",⟨lastUpdated,false,""⟩,
    ⟨"","","","","","","",""⟩⟩

/-- A group without a selection, and its one routing profile. -/
def unselected : World :=
  ReadOnly.Op.run id (.saveRoutingProfile (newProfile 1 "k1" (compiled (sampleProfile 200 "") "\x7b\x7d"
    ⟨"IPIfNonMatch",HappRules.compiledRules (sampleProfile 200 ""),none⟩) 100))
    (ReadOnly.Op.run id (.addGroup "work" "") configuredDirectory)

def unselectedGroup : Records.Group :=
  GroupStore.newGroupConfig id 1 "work" ""

theorem healthy_unselected : Healthy 1 unselectedGroup unselected where
  filed := filed_built (.op _ (.op _ (.fresh (by decide))) : Built id unselected)
  group := by decide +kernel
  degraded := by decide +kernel
  faults := by decide +kernel
  unlocked id := unlocked_of_keys (by decide +kernel) _

theorem neglected_of_found {gid : ℤ} {active : String} {w : World} {action : Action}
    {p : HappRules.HappProfile} {rawJSON : RawMessage} {existing : RoutingProfile}
    (hf : (findRoutingProfileByName gid p.name w).1 = .ok existing) (hname : trimSpace p.name ≠ "")
    (hgeo : needsGeo p = false) (hne : existing.id ≠ active)
    (h : (action = .add ∧ active = "") ∨ (action = .onAdd ∧ 0 < p.lastUpdated.val ∧
      0 < existing.lastUpdated ∧ p.lastUpdated.val < existing.lastUpdated)) :
    Neglected gid active w (some (.profile action p rawJSON)) := by
  refine ⟨hname,hgeo,?_⟩
  rw [hf]
  exact ⟨hne,h⟩

theorem found_unselected : ∃ p, (findRoutingProfileByName 1 "ru" unselected).1 = .ok p ∧
    p.id = "k1" ∧ p.lastUpdated = 200 := by
  have h : (findRoutingProfileByName 1 "ru" unselected).1.toOption.map
      (fun p => (p.id,p.lastUpdated)) = some ("k1",200) := by decide +kernel
  obtain ⟨p,hp,hfields⟩ := Option.map_eq_some_iff.mp h
  obtain ⟨hid,hstamp⟩ := Prod.mk.inj hfields
  refine ⟨p,?_,hid,hstamp⟩
  rcases hr : (findRoutingProfileByName 1 "ru" unselected).1 with e | q <;> rw [hr] at hp
  · exact nomatch hp
  · exact congrArg _ (Option.some.inj hp)

end Samples

end Whoisthat.Activation
