import Whoisthat.FiledRecords
import Whoisthat.GroupIds
import Whoisthat.RoutingResolution

/-!
# Routing profiles from links and their geo files

What `UpsertFromLink` makes of a parsed link, and the directory operations of a
geo download. A download fills a temporary directory and renames it to the
version of its start time. Outside the saves of routing profiles nothing here
touches a routing profile or makes a group appear.
-/

set_option autoImplicit false

namespace Whoisthat.HappImport
open Whoisthat.FileStore Whoisthat.FallibleState Whoisthat.Records Whoisthat.Database
open Whoisthat.GroupFiles Whoisthat.GroupStore Whoisthat.RoutingStore Whoisthat.GroupIds
open Whoisthat.FiledRecords Whoisthat.RoutingResolution

inductive Action where
  | add
  | onAdd
  deriving DecidableEq

/-- A decoded profile with the configuration `ToRoutingConfig` makes of it. -/
structure HappProfile where
  name : String
  globalProxy : Option Bool
  geoipurl : String
  geositeurl : String
  lastUpdated : ℤ
  rawJSON : RawMessage
  config : RoutingConfig
  deriving DecidableEq

inductive ParsedLink where
  | off
  | profile (action : Action) (p : HappProfile)
  deriving DecidableEq

def findRoutingProfileByName (gid : ℤ) (name : String) : DBM RoutingProfile := do
  let profiles ← listRoutingProfiles gid
  match profiles.find? (fun p => p.name = name) with
  | some p => pure p
  | none =>
    match profiles.find? (fun p => toLower p.name = toLower name) with
    | some p => pure p
    | none => fail .notExist

def HappProfile.local? (hp : HappProfile) : Bool := hp.geoipurl = "" && hp.geositeurl = ""

/-- An update older than the stored profile is skipped. -/
def HappProfile.older (hp : HappProfile) (existing : RoutingProfile) : Bool :=
  0 < hp.lastUpdated && 0 < existing.lastUpdated && hp.lastUpdated < existing.lastUpdated

def updatedProfile (existing : RoutingProfile) (hp : HappProfile) (now : ℤ) : RoutingProfile :=
  { existing with
    rawJSON := hp.rawJSON
    rules := hp.config.rules
    domainStrategy := hp.config.domainStrategy
    globalProxy := hp.globalProxy.getD true
    dns := hp.config.dns
    lastUpdated := hp.lastUpdated
    updatedAt := now
    state := if hp.local? then "ready" else "updating"
    geoDir := if hp.local? then "" else existing.geoDir }

def newProfile (gid : ℤ) (newID : String) (hp : HappProfile) (now : ℤ) : RoutingProfile :=
  { id := newID
    groupId := gid
    name := hp.name
    source := "happ"
    state := if hp.local? then "ready" else "updating"
    lastError := ""
    rawJSON := hp.rawJSON
    rules := hp.config.rules
    domainStrategy := hp.config.domainStrategy
    globalProxy := hp.globalProxy.getD true
    dns := hp.config.dns
    geoDir := ""
    lastUpdated := hp.lastUpdated
    geoUpdatedAt := 0
    createdAt := now
    updatedAt := now }

/-- What follows the save; an import never fails for it. -/
def selectImported (gid : ℤ) (action : Action) (isNew : Bool) (p : RoutingProfile) : DBM Unit :=
  if isNew then do
    match ← attempt (loadGroupConfig gid) with
    | .error _ => pure ()
    | .ok group =>
      if p.state = "ready" ∧ (action = .onAdd ∨ group.activeRoutingProfileId = "") then do
        let _ ← attempt (setActiveRoutingProfile gid p.id)
        pure ()
      else pure ()
  else if action = .onAdd ∧ p.state = "ready" then do
    let _ ← attempt (setActiveRoutingProfile gid p.id)
    pure ()
  else pure ()

section GeoFiles

def tmpVersion (now : ℤ) : String := toString now ++ ".tmp"

/-- `destDirRel` of a download that started at `now` -/
def geoDirOf (gid : ℤ) (id : String) (now : ℤ) : String :=
  "groups/" ++ toString gid ++ "/routing/geo/" ++ id ++ "/" ++ toString now

def geoFileName (gid : ℤ) (id version : String) : Path → Option String
  | .routingGeo g i v file => if g = gid ∧ i = id ∧ v = version then some file else none
  | _ => none

def geoVersionName (gid : ℤ) (id : String) : Path → Option String
  | .routingGeoDir g i v => if g = gid ∧ i = id then some v else none
  | _ => none

def inGeoDir (gid : ℤ) (id version : String) : Path → Bool
  | .routingGeoDir g i v => g = gid && i = id && v = version
  | .routingGeo g i v _ => g = gid && i = id && v = version
  | _ => false

def mkdirGeo (gid : ℤ) (id version : String) : DBM Unit :=
  modify fun w => { w with
    disk := (mkdirFor (.routingGeoDir gid id version) w.disk).insert
      (.routingGeoDir gid id version) .dir }

/-- A file can only be made in a directory that is there. -/
def writeAsset (gid : ℤ) (id version file : String) (bytes : List UInt8) : DBM Unit := fun w =>
  if (w.disk.lookup (.routingGeoDir gid id version)).isSome then
    (.ok (),{ w with disk := w.disk.insert (.routingGeo gid id version file) (.file (.junk bytes)) })
  else (.error .notExist,w)

def moveAsset (gid : ℤ) (id source target : String) (t : Tree) (file : String) : Tree :=
  match t.lookup (.routingGeo gid id source file) with
  | none => t
  | some n => (t.erase (.routingGeo gid id source file)).insert (.routingGeo gid id target file) n

def movedAssets (gid : ℤ) (id source target : String) (t : Tree) : Tree :=
  ((listing (geoFileName gid id source) t).foldl (moveAsset gid id source target) t).erase
    (.routingGeoDir gid id source)

/-- `os.Rename` of a directory: the source must be there, the target must not
hold files. -/
def renameGeo (gid : ℤ) (id source target : String) : DBM Unit := fun w =>
  if (w.disk.lookup (.routingGeoDir gid id source)).isNone then (.error .notExist,w)
  else if listing (geoFileName gid id target) w.disk ≠ [] then
    (.error (.write (.routingGeoDir gid id target)),w)
  else (.ok (),{ w with
    disk := (movedAssets gid id source target w.disk).insert (.routingGeoDir gid id target) .dir })

def removeGeoDir (gid : ℤ) (id version : String) : DBM Unit := osRemoveAll (inGeoDir gid id version)

/-- All versions but the current one and the newest of the others. -/
def pruneOldGeoDirs (gid : ℤ) (id currentVersion : String) : DBM Unit := do
  let entries ← readDir (geoVersionName gid id)
  let versions := (entries.filter fun v =>
    v ≠ currentVersion && !".tmp".toList.isSuffixOf v.toList).insertionSort (· ≤ ·)
  forEach (removeGeoDir gid id) versions.dropLast

end GeoFiles

section Quiet

/-- Routing profiles are as before, and no group appears. -/
structure Calm (w w' : World) : Prop where
  key : w'.key = w.key
  filed : Filed w'
  profiles : ∀ g i, w'.disk.lookup (.routingProfile g i) = w.disk.lookup (.routingProfile g i)
  groups : ∀ g, GroupExists g w'.disk → GroupExists g w.disk

def Quiet (w w' : World) : Prop := Filed w → Calm w w'

theorem quiet_refl (w : World) : Quiet w w := fun h => ⟨rfl,h,fun _ _ => rfl,fun _ => id⟩

theorem quiet_trans (u v w : World) (h : Quiet u v) (h' : Quiet v w) : Quiet u w := fun hu =>
  have hv := h hu
  have hw := h' hv.filed
  ⟨hw.key.trans hv.key,hw.filed,fun g i => (hw.profiles g i).trans (hv.profiles g i),
    fun g hg => hv.groups g (hw.groups g hg)⟩

theorem quiet_reads {w w' : World} (h : Reads w w') : Quiet w w' := fun hw =>
  ⟨h.key,primitive_filed.reads _ _ h hw,fun _ _ => by rw [h.disk],fun _ hg => by rwa [h.disk] at hg⟩

theorem quiet_bind {α β : Type} {m : DBM α} {f : α → DBM β} (hm : Keeps Quiet m)
    (hf : ∀ a, Keeps Quiet (f a)) : Keeps Quiet (m >>= f) := keeps_bind quiet_trans hm hf

theorem quiet_readsAs {α : Type} {m : DBM α} {v : Tree → Key → Option α} (h : ReadsAs m v) :
    Keeps Quiet m := fun w => quiet_reads (h w).1

theorem lookup_of_groupAt {gid : ℤ} {g : Group} {w : World}
    (h : groupAt gid w.disk w.key = some g) : GroupExists gid w.disk := by
  obtain ⟨b,hb,_⟩ := Option.bind_eq_some_iff.mp h
  exact ⟨.groupConfig gid,rfl,by rw [lookup_of_readFile hb]; rfl⟩

theorem lookup_store (path q : Path) (p : Payload) (w : World) :
    (store path p w).disk.lookup q =
      if q = path then some (.file (.sealed w.key w.nonce p))
      else (mkdirFor path w.disk).lookup q := lookup_insert _ _ _ _

theorem groupExists_store {path : Path} {p : Payload} {w : World} {g : ℤ}
    (h : GroupExists g (store path p w).disk) : GroupExists g w.disk ∨ path.group? = some g := by
  obtain ⟨q,hq,hs⟩ := h
  rw [lookup_store] at hs
  split at hs
  · rename_i heq
    exact Or.inr (heq ▸ hq)
  · exact groupExists_mkdirFor ⟨q,hq,hs⟩

theorem lookup_mkdirFor_profile (q : Path) (t : Tree) (g : ℤ) (i : String) :
    (mkdirFor q t).lookup (.routingProfile g i) = t.lookup (.routingProfile g i) := by
  rw [lookup_mkdirFor]
  split
  · rfl
  · rw [if_neg (by simp)]

/-- A write that is no routing profile, into a group that is there or none. -/
theorem quiet_write {path : Path} {p : Payload} {w : World} (hp : Fits path p)
    (hpath : ∀ g i, path ≠ .routingProfile g i)
    (hg : ∀ g, path.group? = some g → GroupExists g w.disk) :
    Quiet w (writeEncryptedJSON path p w).2 := by
  rcases write_cases path p w with ⟨_,h⟩ | ⟨_,_,h⟩ | ⟨_,_,h⟩ <;> rw [h]
  · exact quiet_refl w
  · exact fun hw => ⟨rfl,hw,fun _ _ => rfl,fun _ => id⟩
  · refine fun hw => ⟨rfl,filed_store hp hw,fun g i => ?_,fun g he => ?_⟩
    · rw [lookup_store,if_neg (Ne.symm (hpath g i)),lookup_mkdirFor_profile]
    · exact (groupExists_store he).elim id (hg g)

theorem quiet_updateGroup {gid : ℤ} {g g' : Group} {w : World}
    (hg : groupAt gid w.disk w.key = some g) (hid : g'.id = g.id) :
    Quiet w (updateGroup g' w).2 := by
  intro hw
  have hgid : g'.id = gid := hid.trans (filed_group hw hg)
  rw [updateGroup,wrapping_snd]
  refine quiet_write rfl (by simp) (fun n hn => ?_) hw
  obtain rfl : gid = n := by simpa [Path.group?,hgid] using hn
  exact lookup_of_groupAt hg

theorem reads_bind {α β : Type} {m : DBM α} {f : α → DBM β} (hm : Keeps Reads m)
    (hf : ∀ a, Keeps Reads (f a)) : Keeps Reads (m >>= f) := keeps_bind reads_trans hm hf

theorem reads_checkRoutingProfile (gid : ℤ) (id : String) :
    Keeps Reads (checkRoutingProfile gid id) := by
  refine reads_bind (keeps_wrapping _ fun w => (readsAs_readEncryptedJSON _ _ w).1) fun p => ?_
  split_ifs
  · exact keeps_fail reads_refl _
  · exact keeps_fail reads_refl _
  · refine reads_bind (keeps_get reads_refl) fun w => ?_
    simp only
    split_ifs
    · exact keeps_pure reads_refl ()
    · exact keeps_fail reads_refl _
    · exact keeps_fail reads_refl _
    · exact keeps_pure reads_refl ()

theorem quiet_setActiveRoutingProfile (gid : ℤ) (id : String) :
    Keeps Quiet (setActiveRoutingProfile gid id) := by
  intro w
  obtain ⟨hr,hv⟩ := readsAs_wrapping (.routingGroup gid) (readsAs_loadGroupConfig gid) w
  unfold setActiveRoutingProfile
  rcases hl : wrapping (.routingGroup gid) (loadGroupConfig gid) w with ⟨e | g,w₁⟩ <;>
    rw [hl] at hr hv
  · rw [bind_of_error hl]
    exact quiet_reads hr
  · rw [bind_of_ok hl]
    refine quiet_trans _ _ _ (quiet_reads hr) ?_
    have hcheck : Keeps Reads (when (decide (id ≠ "")) (checkRoutingProfile gid id)) :=
      keeps_when reads_refl fun _ => reads_checkRoutingProfile gid id
    have hr' := hcheck w₁
    rcases hc : when (decide (id ≠ "")) (checkRoutingProfile gid id) w₁ with ⟨e | u,w₂⟩ <;>
      rw [hc] at hr'
    · rw [bind_of_error hc]
      exact quiet_reads hr'
    · rw [bind_of_ok hc]
      refine quiet_trans _ _ _ (quiet_reads hr') (@quiet_updateGroup gid g _ _ ?_ rfl)
      rw [hr'.disk,hr'.key,hr.disk,hr.key]
      simpa [Except.toOption] using hv.symm

theorem quiet_selectImported (gid : ℤ) (action : Action) (isNew : Bool) (p : RoutingProfile) :
    Keeps Quiet (selectImported gid action isNew p) := by
  have hset : Keeps Quiet (attempt (setActiveRoutingProfile gid p.id) >>= fun _ => pure () :
      DBM Unit) :=
    quiet_bind (keeps_attempt (quiet_setActiveRoutingProfile gid p.id)) fun _ =>
      keeps_pure quiet_refl ()
  unfold selectImported
  split
  · refine quiet_bind (keeps_attempt (quiet_readsAs (readsAs_loadGroupConfig gid))) fun r => ?_
    cases r with
    | error e => exact keeps_pure quiet_refl ()
    | ok group =>
      simp only
      split
      · exact hset
      · exact keeps_pure quiet_refl ()
  · split
    · exact hset
    · exact keeps_pure quiet_refl ()

/-- The names of geo directories and of the files in them. -/
def GeoName : Path → Prop
  | .routingGeoDir _ _ _ => True
  | .routingGeo _ _ _ _ => True
  | _ => False

theorem filed_geo {w : World} {t : Tree} (hw : Filed w)
    (hsame : ∀ path, ¬GeoName path → readFile path t = readFile path w.disk) :
    Filed { w with disk := t } := by
  intro path b k p hb hp
  by_cases hg : GeoName path
  · cases path <;> first | exact absurd hg id | trivial
  · exact hw path b k p ((hsame path hg).symm.trans hb) hp

theorem quiet_geo {w : World} {t : Tree}
    (hsame : ∀ path, ¬GeoName path → t.lookup path = w.disk.lookup path)
    (hgroups : ∀ g, GroupExists g t → GroupExists g w.disk) : Quiet w { w with disk := t } :=
  fun hw => ⟨rfl,filed_geo hw fun path hp => by rw [readFile,readFile,hsame path hp],
    fun g i => hsame (.routingProfile g i) id,hgroups⟩

theorem quiet_removeGeoDir (gid : ℤ) (id version : String) :
    Keeps Quiet (removeGeoDir gid id version) := by
  intro w
  refine quiet_geo (fun path hp => ?_) fun g ⟨path,hg,hs⟩ => ?_
  · rw [lookup_removeAll,if_neg]
    cases path <;> first | exact absurd trivial hp | simp [inGeoDir]
  · rw [lookup_removeAll] at hs
    split at hs
    · simp at hs
    · exact ⟨path,hg,hs⟩

theorem quiet_pruneOldGeoDirs (gid : ℤ) (id currentVersion : String) :
    Keeps Quiet (pruneOldGeoDirs gid id currentVersion) :=
  quiet_bind (quiet_readsAs (readsAs_readDir _)) fun _ =>
    keeps_forEach quiet_refl quiet_trans _ fun version _ => quiet_removeGeoDir gid id version

/-- A new name in a group that is there brings no group. -/
theorem groupExists_insert {t : Tree} {path : Path} {n : Node} {gid g : ℤ}
    (hpath : path.group? = some gid) (hgid : GroupExists gid t)
    (h : GroupExists g (t.insert path n)) : GroupExists g t := by
  obtain ⟨q,hq,hs⟩ := h
  rw [lookup_insert] at hs
  split at hs
  · rename_i heq
    rw [heq,hpath] at hq
    exact Option.some.inj hq ▸ hgid
  · exact ⟨q,hq,hs⟩

theorem quiet_writeAsset (gid : ℤ) (id version file : String) (bytes : List UInt8) :
    Keeps Quiet (writeAsset gid id version file bytes) := by
  intro w
  unfold writeAsset
  split
  · rename_i hdir
    refine quiet_geo (fun path hp => ?_) fun g => groupExists_insert rfl
      ⟨.routingGeoDir gid id version,rfl,hdir⟩
    rw [lookup_insert,if_neg]
    rintro rfl
    exact hp trivial
  · exact quiet_refl w

theorem lookup_moveAsset (gid : ℤ) (id source target file : String) (t : Tree) {path : Path}
    (hp : ¬GeoName path) : (moveAsset gid id source target t file).lookup path = t.lookup path := by
  unfold moveAsset
  split
  · rfl
  · rw [lookup_insert,if_neg,lookup_erase,if_neg] <;> rintro rfl <;> exact hp trivial

theorem groupExists_moveAsset {gid g : ℤ} {id source target file : String} {t : Tree}
    (h : GroupExists g (moveAsset gid id source target t file)) : GroupExists g t := by
  unfold moveAsset at h
  split at h
  · exact h
  · rename_i n hn
    obtain ⟨q,hq,hs⟩ := h
    rw [lookup_insert] at hs
    split at hs
    · rename_i heq
      rw [heq] at hq
      exact ⟨.routingGeo gid id source file,hq,by rw [hn]; rfl⟩
    · rw [lookup_erase] at hs
      split at hs
      · simp at hs
      · exact ⟨q,hq,hs⟩

theorem lookup_movedAssets (gid : ℤ) (id source target : String) (t : Tree) {path : Path}
    (hp : ¬GeoName path) : (movedAssets gid id source target t).lookup path = t.lookup path := by
  have hfold : ∀ (files : List String) (t : Tree),
      (files.foldl (moveAsset gid id source target) t).lookup path = t.lookup path := by
    intro files
    induction files with
    | nil => exact fun _ => rfl
    | cons file files ih =>
      exact fun t => (ih _).trans (lookup_moveAsset gid id source target file t hp)
  rw [movedAssets,lookup_erase,if_neg,hfold]
  rintro rfl
  exact hp trivial

theorem groupExists_movedAssets {gid g : ℤ} {id source target : String} {t : Tree}
    (h : GroupExists g (movedAssets gid id source target t)) : GroupExists g t := by
  have hfold : ∀ (files : List String) (t : Tree),
      GroupExists g (files.foldl (moveAsset gid id source target) t) → GroupExists g t := by
    intro files
    induction files with
    | nil => exact fun _ h => h
    | cons file files ih => exact fun t h => groupExists_moveAsset (ih _ h)
  obtain ⟨q,hq,hs⟩ := h
  rw [movedAssets,lookup_erase] at hs
  split at hs
  · simp at hs
  · exact hfold _ t ⟨q,hq,hs⟩

theorem quiet_renameGeo (gid : ℤ) (id source target : String) :
    Keeps Quiet (renameGeo gid id source target) := by
  intro w
  unfold renameGeo
  split_ifs with hdir hfiles
  · exact quiet_refl w
  · exact quiet_refl w
  · have hgid : GroupExists gid w.disk :=
      ⟨.routingGeoDir gid id source,rfl,by simpa [Option.isSome_iff_ne_none] using hdir⟩
    refine quiet_geo (fun path hp => ?_) fun g ⟨q,hq,hs⟩ => ?_
    · rw [lookup_insert,if_neg,lookup_movedAssets _ _ _ _ _ hp]
      rintro rfl
      exact hp trivial
    · rw [lookup_insert] at hs
      split at hs
      · rename_i heq
        rw [heq] at hq
        exact Option.some.inj hq ▸ hgid
      · exact groupExists_movedAssets ⟨q,hq,hs⟩

/-- Making a directory can make its group, and nothing else. -/
theorem calm_mkdirGeo (gid : ℤ) (id version : String) {w : World} (hw : Filed w) :
    let w' := (mkdirGeo gid id version w).2
    w'.key = w.key ∧ Filed w' ∧
      (∀ g i, w'.disk.lookup (.routingProfile g i) = w.disk.lookup (.routingProfile g i)) ∧
        ∀ g, GroupExists g w'.disk → GroupExists g w.disk ∨ g = gid := by
  refine ⟨rfl,filed_geo hw fun path hp => ?_,fun g i => ?_,fun g ⟨q,hq,hs⟩ => ?_⟩
  · have hne : path ≠ .routingGeoDir gid id version := by
      rintro rfl
      exact hp trivial
    rw [readFile,lookup_insert,if_neg hne]
    exact readFile_mkdirFor path _ _
  · simp only [mkdirGeo,modify_run]
    rw [lookup_insert,if_neg (by simp),lookup_mkdirFor_profile]
  · simp only [mkdirGeo,modify_run] at hs
    rw [lookup_insert] at hs
    split at hs
    · rename_i heq
      rw [heq] at hq
      exact Or.inr (Option.some.inj hq).symm
    · exact (groupExists_mkdirFor ⟨q,hq,hs⟩).imp_right fun h => (Option.some.inj h).symm

end Quiet

end Whoisthat.HappImport
