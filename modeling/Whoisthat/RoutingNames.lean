import Mathlib.Data.List.Induction
import Whoisthat.LastUpdatedGate

/-!
# Routing profile names as paths

A client's profile id is joined into the names of a file and a directory, and
joining cleans the path. The commands to delete and to activate a routing
profile are run here over a disk of arbitrary names, where whatever a file holds
may decode as a routing profile. What the files hold, how it is read and how a
group is written are parameters.
-/

set_option autoImplicit false

namespace Whoisthat.RoutingNames
open Whoisthat.FileStore Whoisthat.Records
open Whoisthat.Database (joinPath)
open Whoisthat.RoutingStore (getRoutingDir deselected)
open Whoisthat.LastUpdatedGate (joinPath_single)

section Source

inductive Node (δ : Type) where
  | dir
  | file (content : δ)
  deriving DecidableEq

/-- Absolute names, by their components. -/
structure Disk (δ : Type) where
  /-- The components of `db.Path`. -/
  root : List String
  files : Store (List String) (Node δ)

/-- How files are read and written. -/
structure Codec (δ : Type) where
  group : δ → Option Group
  routingProfile : δ → Option RoutingProfile
  sealed : Group → δ

variable {δ : Type} (c : Codec δ)

def Disk.read {α : Type} (d : Disk δ) (decode : δ → Option α) (path : List String) : Option α :=
  match d.files.lookup path with
  | some (.file content) => decode content
  | _ => none

def groupConfigPath (root : List String) (gid : ℤ) : List String :=
  root ++ ["groups",toString gid,"group_config.json"]

def routingProfilePath (root : List String) (gid : ℤ) (id : String) : List String :=
  joinPath (getRoutingDir root gid ++ ["profiles"]) (id ++ ".json")

def routingGeoDir (root : List String) (gid : ℤ) (id : String) : List String :=
  joinPath (getRoutingDir root gid ++ ["geo"]) id

def loadGroupConfig (d : Disk δ) (gid : ℤ) : Option Group :=
  d.read c.group (groupConfigPath d.root gid)

def loadRoutingProfile (d : Disk δ) (gid : ℤ) (id : String) : Option RoutingProfile :=
  d.read c.routingProfile (routingProfilePath d.root gid id)

def updateGroup (d : Disk δ) (group : Group) : Disk δ :=
  { d with files := d.files.insert (groupConfigPath d.root group.id) (.file (c.sealed group)) }

/-- The files a deletion takes away. -/
def removed (d : Disk δ) (gid : ℤ) (id : String) : Disk δ :=
  { d with
    files := removeAll (fun path => (routingGeoDir d.root gid id).isPrefixOf path)
      (d.files.erase (routingProfilePath d.root gid id)) }

def dbDeleteRoutingProfile (writable : Bool) (gid : ℤ) (id : String) (d : Disk δ) : Disk δ :=
  let d := removed d gid id
  match loadGroupConfig c d gid with
  | none => d
  | some group =>
    if (group.activeRoutingProfileId = id ∨ group.pendingActiveRoutingProfileId = id) ∧
        writable = true then
      updateGroup c d (deselected group id)
    else d

/-- Whether the command goes through, and what it leaves. -/
def deleteRoutingProfile (writable : Bool) (gid : ℤ) (id : String) (d : Disk δ) : Bool × Disk δ :=
  match loadGroupConfig c d gid with
  | none => (false,d)
  | some group =>
    if group.subscriptionFormat = "json" then (false,d)
    else match loadRoutingProfile c d gid id with
      | none => (false,d)
      | some _ => (true,dbDeleteRoutingProfile c writable gid id d)

def geoReady (d : Disk δ) (p : RoutingProfile) : Bool :=
  p.geoDir = "" ||
    ((d.files.lookup (joinPath d.root p.geoDir ++ ["geoip.dat"])).isSome &&
      (d.files.lookup (joinPath d.root p.geoDir ++ ["geosite.dat"])).isSome)

/-- The checks of `setActiveRoutingProfile` on a profile that is named. -/
def activatable (gid : ℤ) (id : String) (d : Disk δ) : Bool :=
  match loadRoutingProfile c d gid id with
  | none => false
  | some p => p.groupId = gid && p.rules ≠ [] && geoReady d p

def targetId (id : String) : String := if id = "off" then "" else id

def setActiveRoutingProfile (writable : Bool) (gid : ℤ) (id : String) (d : Disk δ) :
    Bool × Disk δ :=
  match loadGroupConfig c d gid with
  | none => (false,d)
  | some group =>
    if group.subscriptionFormat = "json" then (false,d)
    else if targetId id ≠ "" ∧ activatable c gid (targetId id) d = false then (false,d)
    else if writable = false then (false,d)
    else (true,updateGroup c d { group with
      activeRoutingProfileId := targetId id, pendingActiveRoutingProfileId := "" })

end Source

section Specification

variable {δ : Type} (c : Codec δ)

/-- A name that is one element of a path. -/
def Element (name : String) : Prop :=
  '/' ∉ name.toList ∧ name.toList ≠ [] ∧ name.toList ≠ ['.'] ∧ name.toList ≠ ['.','.']

def profileFile (root : List String) (gid : ℤ) (name : String) : List String :=
  getRoutingDir root gid ++ ["profiles",name ++ ".json"]

def geoDirectory (root : List String) (gid : ℤ) (name : String) : List String :=
  getRoutingDir root gid ++ ["geo",name]

/-- The id leads to the file of the routing profile `name` of the group. -/
structure Names (d : Disk δ) (gid : ℤ) (id name : String) : Prop where
  element : Element name
  path : routingProfilePath d.root gid id = profileFile d.root gid name
  stored : (loadRoutingProfile c d gid id).isSome = true

/-- Outside the two names of the profile only the record of the group changes,
and that by being written. -/
def Framed (d d' : Disk δ) (gid : ℤ) (name : String) : Prop :=
  ∀ path, d'.files.lookup path = d.files.lookup path ∨ path = profileFile d.root gid name ∨
    geoDirectory d.root gid name <+: path ∨
    ∃ g g', loadGroupConfig c d gid = some g ∧ path = groupConfigPath d.root g.id ∧
      d'.files.lookup path = some (.file (c.sealed g'))

/-- Only the group's record may change. -/
def Recorded (d d' : Disk δ) (gid : ℤ) : Prop :=
  ∀ path, d'.files.lookup path = d.files.lookup path ∨
    ∃ g g', loadGroupConfig c d gid = some g ∧ path = groupConfigPath d.root g.id ∧
      d'.files.lookup path = some (.file (c.sealed g'))

/-- A deletion is rejected, or it deletes a routing profile of the group and
nothing else. -/
def DeleteConfined (writable : Bool) (gid : ℤ) (id : String) (d : Disk δ) : Prop :=
  match deleteRoutingProfile c writable gid id d with
  | (false,d') => d' = d
  | (true,d') => ∃ name, Names c d gid id name ∧ Framed c d d' gid name

/-- An activation is rejected, or it names a routing profile of the group or
none, and changes nothing but the group's record. -/
def ActivateConfined (writable : Bool) (gid : ℤ) (id : String) (d : Disk δ) : Prop :=
  match setActiveRoutingProfile c writable gid id d with
  | (false,d') => d' = d
  | (true,d') => Recorded c d d' gid ∧
      (targetId id = "" ∨ ∃ name, Names c d gid (targetId id) name)

/-- The guards both commands begin with. -/
def Open (gid : ℤ) (d : Disk δ) : Prop :=
  ∃ g, loadGroupConfig c d gid = some g ∧ g.subscriptionFormat ≠ "json"

/-- The id leads to one profile, and the joined geo directory is that profile's
or there is nothing in it. -/
def LeadsTo (d : Disk δ) (gid : ℤ) (id name : String) : Prop :=
  Element name ∧ routingProfilePath d.root gid id = profileFile d.root gid name ∧
    (routingGeoDir d.root gid id = geoDirectory d.root gid name ∨
      ∀ path, routingGeoDir d.root gid id <+: path → d.files.lookup path = none)

def Harmless (writable : Bool) (gid : ℤ) (id : String) (d : Disk δ) : Prop :=
  (Open c gid d → (loadRoutingProfile c d gid id).isSome = true → ∃ name, LeadsTo d gid id name) ∧
  (Open c gid d → writable = true → targetId id ≠ "" → activatable c gid (targetId id) d = true →
    ∃ name, Element name ∧
      routingProfilePath d.root gid (targetId id) = profileFile d.root gid name)

end Specification

section Joining

def enter (acc : List String) (part : List Char) : List String :=
  if part = [] ∨ part = ['.'] then acc
  else if part = ['.','.'] then acc.dropLast
  else acc ++ [String.ofList part]

theorem joinPath_eq (dir : List String) (name : String) :
    joinPath dir name = (name.toList.splitOn '/').foldl enter dir := rfl

/-- Two directories entered alike: the same place, or the same way below each. -/
def Beside (first second x y : List String) : Prop :=
  x = y ∨ ∃ below, x = first ++ below ∧ y = second ++ below

variable {base : List String} {a b : String}

theorem beside_enter {x y : List String} (h : Beside (base ++ [a]) (base ++ [b]) x y)
    (part : List Char) :
    Beside (base ++ [a]) (base ++ [b]) (enter x part) (enter y part) := by
  rcases h with rfl | ⟨below,rfl,rfl⟩
  · exact .inl rfl
  · by_cases hstay : part = [] ∨ part = ['.']
    · simp only [enter,hstay,if_true]
      exact .inr ⟨below,rfl,rfl⟩
    · by_cases hup : part = ['.','.']
      · have henter : ∀ z : List String, enter z part = z.dropLast := fun z => by
          rw [enter,if_neg hstay,if_pos hup]
        rw [henter,henter]
        induction below using List.reverseRec with
        | nil => exact .inl (by simp)
        | append_singleton below last =>
          refine .inr ⟨below,?_,?_⟩ <;> rw [← List.append_assoc,List.dropLast_concat]
      · simp only [enter,hstay,hup,if_false]
        exact .inr ⟨below ++ [String.ofList part],by simp,by simp⟩

theorem beside_run (base : List String) (a b : String) (parts : List (List Char)) :
    Beside (base ++ [a]) (base ++ [b]) (parts.foldl enter (base ++ [a]))
      (parts.foldl enter (base ++ [b])) := by
  induction parts using List.reverseRec with
  | nil => exact .inr ⟨[],by simp,by simp⟩
  | append_singleton parts part ih =>
    rw [List.foldl_append,List.foldl_append]
    exact beside_enter ih part

/-- Text without the separator lengthens the last part of a split. -/
theorem splitOn_suffix (sep : Char) (text suffix : List Char) (h : sep ∉ suffix) :
    ∃ parts last, text.splitOn sep = parts ++ [last] ∧
      (text ++ suffix).splitOn sep = parts ++ [last ++ suffix] := by
  induction text with
  | nil => exact ⟨[],[],List.splitOn_nil sep,by simpa using List.splitOn_eq_singleton h⟩
  | cons ch text ih =>
    obtain ⟨parts,last,hsplit,hlong⟩ := ih
    rw [List.cons_append,List.splitOn_cons_eq_if_modifyHead,List.splitOn_cons_eq_if_modifyHead,
      hsplit,hlong]
    by_cases hsep : (ch == sep) = true
    · exact ⟨[]::parts,last,by simp [hsep],by simp [hsep]⟩
    · cases parts with
      | nil => exact ⟨[],ch::last,by simp [hsep],by simp [hsep]⟩
      | cons first parts => exact ⟨(ch::first)::parts,last,by simp [hsep],by simp [hsep]⟩

theorem enter_element (acc : List String) {part : List Char} (h : part ≠ [] ∧ part ≠ ['.'] ∧
    part ≠ ['.','.']) : enter acc part = acc ++ [String.ofList part] := by
  rw [enter,if_neg (fun hp => hp.elim h.1 h.2.1),if_neg h.2.2]

theorem json_element (part : List Char) : part ++ ".json".toList ≠ [] ∧
    part ++ ".json".toList ≠ ['.'] ∧ part ++ ".json".toList ≠ ['.','.'] := by
  refine ⟨?_,?_,?_⟩ <;> intro h <;> simpa using congrArg List.length h

end Joining

section Landing

variable {root : List String} {gid : ℤ} {id name : String}

/-- An id that leads to one of the profile files has its geo directory under
that name, beside the profiles or among them. -/
theorem geoDir_of_path (hname : Element name)
    (hpath : routingProfilePath root gid id = profileFile root gid name) :
    routingGeoDir root gid id = geoDirectory root gid name ∨
      routingGeoDir root gid id = getRoutingDir root gid ++ ["profiles",name] := by
  obtain ⟨parts,last,hsplit,hlong⟩ := splitOn_suffix '/' id.toList ".json".toList
    (by decide)
  have hfile : parts.foldl enter (getRoutingDir root gid ++ ["profiles"]) =
        getRoutingDir root gid ++ ["profiles"] ∧
      String.ofList (last ++ ".json".toList) = name ++ ".json" := by
    rw [routingProfilePath,joinPath_eq,String.toList_append,hlong,List.foldl_append,
      List.foldl_cons,List.foldl_nil,enter_element _ (json_element last),profileFile] at hpath
    simpa using
      List.append_inj' (hpath.trans (List.append_assoc _ ["profiles"] [name ++ ".json"]).symm) rfl
  have hlast : last = name.toList := by
    have := congrArg String.toList hfile.2
    rw [String.toList_ofList,String.toList_append] at this
    exact List.append_cancel_right this
  have hgeo : routingGeoDir root gid id =
      parts.foldl enter (getRoutingDir root gid ++ ["geo"]) ++ [name] := by
    rw [routingGeoDir,joinPath_eq,hsplit,List.foldl_append,List.foldl_cons,List.foldl_nil,
      enter_element _ (hlast ▸ hname.2),hlast,String.ofList_toList]
  rw [hgeo]
  rcases beside_run (getRoutingDir root gid) "geo" "profiles" parts with hsame |
    ⟨below,hbelow,hprofiles⟩
  · right
    rw [hsame,hfile.1,List.append_assoc]
    rfl
  · left
    have hnone : below = [] := by
      rw [hfile.1] at hprofiles
      exact List.self_eq_append_right.mp hprofiles
    rw [hbelow,hnone,List.append_nil,List.append_assoc]
    rfl

theorem profilePath_element (hid : Element id) :
    routingProfilePath root gid id = profileFile root gid id := by
  have h := json_element id.toList
  rw [← String.toList_append] at h
  rw [routingProfilePath,joinPath_single _ _ h.1 h.2.1 h.2.2,List.append_assoc]
  · rfl
  · rw [String.toList_append,List.mem_append]
    exact fun hmem => hmem.elim hid.1 (by decide)

theorem geoDir_element (hid : Element id) :
    routingGeoDir root gid id = geoDirectory root gid id := by
  rw [routingGeoDir,joinPath_single _ hid.1 hid.2.1 hid.2.2.1 hid.2.2.2,List.append_assoc]
  rfl

/-- Only ids with a separator or a dot name can lead elsewhere. -/
theorem leadsTo_element {δ : Type} (d : Disk δ) (hid : Element id) : LeadsTo d gid id id :=
  ⟨hid,profilePath_element hid,.inl (geoDir_element hid)⟩

end Landing

section Commands

variable {δ : Type} {c : Codec δ} {writable : Bool} {gid : ℤ} {id name : String} {d : Disk δ}

theorem lookup_removed (path : List String) :
    (removed d gid id).files.lookup path =
      if (routingGeoDir d.root gid id).isPrefixOf path then none
      else if path = routingProfilePath d.root gid id then none else d.files.lookup path := by
  rw [removed,lookup_removeAll,lookup_erase]

theorem lookup_removed_kept {path : List String} {node : Node δ}
    (h : (removed d gid id).files.lookup path = some node) : d.files.lookup path = some node := by
  rw [lookup_removed] at h
  split at h
  · cases h
  · split at h
    · cases h
    · exact h

theorem read_some {α : Type} {decode : δ → Option α} {path : List String} {x : α}
    (h : d.read decode path = some x) :
    ∃ content, d.files.lookup path = some (.file content) ∧ decode content = some x := by
  unfold Disk.read at h
  split at h
  · exact ⟨_,by assumption,h⟩
  · cases h

theorem group_removed {g : Group} (h : loadGroupConfig c (removed d gid id) gid = some g) :
    loadGroupConfig c d gid = some g := by
  obtain ⟨content,hfile,hdecode⟩ := read_some h
  have hbefore := lookup_removed_kept hfile
  rw [loadGroupConfig,Disk.read,show groupConfigPath d.root gid =
    groupConfigPath (removed d gid id).root gid from rfl,hbefore]
  exact hdecode

/-- What stands in a deletion's wake: what the removal left, and maybe the record. -/
theorem lookup_deleted (path : List String) :
    (dbDeleteRoutingProfile c writable gid id d).files.lookup path =
        (removed d gid id).files.lookup path ∨
      ∃ g g', loadGroupConfig c d gid = some g ∧ path = groupConfigPath d.root g.id ∧
        (dbDeleteRoutingProfile c writable gid id d).files.lookup path =
          some (.file (c.sealed g')) := by
  cases hg : loadGroupConfig c (removed d gid id) gid with
  | none =>
    left
    simp only [dbDeleteRoutingProfile,hg]
  | some g =>
    by_cases hwrite : (g.activeRoutingProfileId = id ∨ g.pendingActiveRoutingProfileId = id) ∧
        writable = true
    · have hdeleted : dbDeleteRoutingProfile c writable gid id d =
          updateGroup c (removed d gid id) (deselected g id) := by
        simp only [dbDeleteRoutingProfile,hg]
        exact if_pos hwrite
      by_cases hpath : path = groupConfigPath d.root g.id
      · refine .inr ⟨g,deselected g id,group_removed hg,hpath,?_⟩
        rw [hdeleted,updateGroup,lookup_insert]
        exact if_pos hpath
      · left
        rw [hdeleted,updateGroup,lookup_insert]
        exact if_neg hpath
    · left
      simp only [dbDeleteRoutingProfile,hg,hwrite,if_false]

theorem deletion_rejected
    (h : ¬(Open c gid d ∧ (loadRoutingProfile c d gid id).isSome = true)) :
    deleteRoutingProfile c writable gid id d = (false,d) := by
  unfold deleteRoutingProfile
  cases hg : loadGroupConfig c d gid with
  | none => rfl
  | some g =>
    by_cases hjson : g.subscriptionFormat = "json"
    · simp only [hjson,if_true]
    · cases hp : loadRoutingProfile c d gid id with
      | none => simp only [hjson,if_false]
      | some p => exact absurd ⟨⟨g,hg,hjson⟩,by rw [hp]; rfl⟩ h

theorem deletion_accepted (hopen : Open c gid d)
    (hp : (loadRoutingProfile c d gid id).isSome = true) :
    deleteRoutingProfile c writable gid id d =
      (true,dbDeleteRoutingProfile c writable gid id d) := by
  obtain ⟨g,hg,hjson⟩ := hopen
  obtain ⟨p,hp⟩ := Option.isSome_iff_exists.mp hp
  simp only [deleteRoutingProfile,hg,hjson,hp,if_false]

theorem activation_rejected (h : ¬(Open c gid d ∧ writable = true ∧
      (targetId id = "" ∨ activatable c gid (targetId id) d = true))) :
    setActiveRoutingProfile c writable gid id d = (false,d) := by
  unfold setActiveRoutingProfile
  cases hg : loadGroupConfig c d gid with
  | none => rfl
  | some g =>
    by_cases hjson : g.subscriptionFormat = "json"
    · simp only [hjson,if_true]
    · by_cases hready : targetId id ≠ "" ∧ activatable c gid (targetId id) d = false
      · simp only [hjson,if_false]
        exact if_pos hready
      · cases hw : writable with
        | false => simp only [hjson,hready,if_false,if_true]
        | true =>
          refine absurd ⟨⟨g,hg,hjson⟩,hw,?_⟩ h
          by_cases hid : targetId id = ""
          · exact .inl hid
          · exact .inr (Bool.of_not_eq_false fun hf => hready ⟨hid,hf⟩)

theorem activation_accepted {g : Group} (hg : loadGroupConfig c d gid = some g)
    (hjson : g.subscriptionFormat ≠ "json")
    (hid : targetId id = "" ∨ activatable c gid (targetId id) d = true) :
    setActiveRoutingProfile c true gid id d = (true,updateGroup c d { g with
      activeRoutingProfileId := targetId id, pendingActiveRoutingProfileId := "" }) := by
  have hready : ¬(targetId id ≠ "" ∧ activatable c gid (targetId id) d = false) :=
    fun h => hid.elim h.1 fun ha => by simp [ha] at h
  simp only [setActiveRoutingProfile,hg,hjson,if_false]
  rw [if_neg hready,if_neg (by decide)]

theorem activatable_stored (h : activatable c gid id d = true) :
    (loadRoutingProfile c d gid id).isSome = true := by
  unfold activatable at h
  split at h
  · cases h
  · rename_i p hp
    rw [hp]
    rfl

theorem recorded_update {g g' : Group} (hg : loadGroupConfig c d gid = some g)
    (hid : g'.id = g.id) : Recorded c d (updateGroup c d g') gid := by
  intro path
  by_cases hpath : path = groupConfigPath d.root g.id
  · refine .inr ⟨g,g',hg,hpath,?_⟩
    rw [updateGroup,lookup_insert,hid]
    exact if_pos hpath
  · left
    rw [updateGroup,lookup_insert,hid]
    exact if_neg hpath

end Commands

section Confinement

variable {δ : Type} (c : Codec δ) (writable : Bool) (gid : ℤ) (id : String) (d : Disk δ)

theorem activateConfined_iff : ActivateConfined c writable gid id d ↔
    (Open c gid d → writable = true → targetId id ≠ "" →
      activatable c gid (targetId id) d = true →
      ∃ name, Element name ∧
        routingProfilePath d.root gid (targetId id) = profileFile d.root gid name) := by
  by_cases hgo : Open c gid d ∧ writable = true ∧
      (targetId id = "" ∨ activatable c gid (targetId id) d = true)
  · obtain ⟨⟨g,hg,hjson⟩,rfl,hid⟩ := hgo
    rw [ActivateConfined,activation_accepted hg hjson hid]
    constructor
    · rintro ⟨-,hnone | ⟨name,hnames⟩⟩ - - hsome -
      · exact absurd hnone hsome
      · exact ⟨name,hnames.element,hnames.path⟩
    · intro h
      refine ⟨recorded_update hg rfl,?_⟩
      by_cases hsome : targetId id = ""
      · exact .inl hsome
      · have hact := hid.resolve_left hsome
        obtain ⟨name,helement,hpath⟩ := h ⟨g,hg,hjson⟩ rfl hsome hact
        exact .inr ⟨name,helement,hpath,activatable_stored hact⟩
  · rw [ActivateConfined,activation_rejected hgo]
    exact ⟨fun _ hopen hw _ hact => absurd ⟨hopen,hw,.inr hact⟩ hgo,fun _ => rfl⟩

theorem groupConfigPath_short {root : List String} {g : ℤ} {path : List String} {kind name : String}
    (h : getRoutingDir root gid ++ [kind,name] <+: path) : path ≠ groupConfigPath root g := by
  intro heq
  have := h.length_le
  simp [heq,getRoutingDir,groupConfigPath] at this

/-- What a confined deletion leaves shows that nothing lay under another directory. -/
theorem empty_of_framed {name : String}
    (hgeo : routingGeoDir d.root gid id = getRoutingDir d.root gid ++ ["profiles",name])
    (h : Framed c d (dbDeleteRoutingProfile c writable gid id d) gid name) {path : List String}
    (hpath : routingGeoDir d.root gid id <+: path) : d.files.lookup path = none := by
  have hconfig : ∀ g, path ≠ groupConfigPath d.root g := fun g =>
    groupConfigPath_short gid (hgeo ▸ hpath)
  have hgone : (dbDeleteRoutingProfile c writable gid id d).files.lookup path = none := by
    have hwake : (dbDeleteRoutingProfile c writable gid id d).files.lookup path = _ ∨ _ :=
      lookup_deleted path
    rcases hwake with hl | ⟨g,-,-,hp,-⟩
    · rw [hl,lookup_removed,if_pos (List.isPrefixOf_iff_prefix.mpr hpath)]
    · exact absurd hp (hconfig g.id)
  rcases h path with hsame | hfile | hunder | ⟨g,-,-,hp,-⟩
  · rw [← hsame,hgone]
  · rw [hgeo,hfile,profileFile] at hpath
    have heq := List.IsPrefix.eq_of_length hpath (by simp)
    have hlen := congrArg String.length (List.cons.inj (List.cons.inj
      (List.append_cancel_left heq)).2).1
    simp at hlen
  · rw [hgeo] at hpath
    have heq := List.prefix_of_prefix_length_le hpath hunder (by simp [geoDirectory])
    have := List.IsPrefix.eq_of_length heq (by simp [geoDirectory])
    simp [geoDirectory] at this
  · exact absurd hp (hconfig g.id)

theorem deleteConfined_iff : DeleteConfined c writable gid id d ↔
    (Open c gid d → (loadRoutingProfile c d gid id).isSome = true →
      ∃ name, LeadsTo d gid id name) := by
  by_cases hgo : Open c gid d ∧ (loadRoutingProfile c d gid id).isSome = true
  · rw [DeleteConfined,deletion_accepted hgo.1 hgo.2]
    constructor
    · rintro ⟨name,hnames,hframed⟩ - -
      refine ⟨name,hnames.element,hnames.path,?_⟩
      rcases geoDir_of_path hnames.element hnames.path with hgeo | hgeo
      · exact .inl hgeo
      · exact .inr fun path => empty_of_framed c writable gid id d hgeo hframed
    · intro h
      obtain ⟨name,helement,hpath,hgeo⟩ := h hgo.1 hgo.2
      refine ⟨name,⟨helement,hpath,hgo.2⟩,fun path => ?_⟩
      have hwake : (dbDeleteRoutingProfile c writable gid id d).files.lookup path = _ ∨ _ :=
        lookup_deleted path
      rcases hwake with hl | ⟨g,g',hg,hp,hwritten⟩
      · rw [lookup_removed] at hl
        by_cases hunder : routingGeoDir d.root gid id <+: path
        · rcases hgeo with hgeo | hnone
          · exact .inr (.inr (.inl (hgeo ▸ hunder)))
          · rw [if_pos (List.isPrefixOf_iff_prefix.mpr hunder)] at hl
            exact .inl (by rw [hl,hnone path hunder])
        · rw [if_neg (fun hp => hunder (List.isPrefixOf_iff_prefix.mp hp))] at hl
          by_cases hfile : path = routingProfilePath d.root gid id
          · exact .inr (.inl (hfile.trans hpath))
          · exact .inl (hl.trans (if_neg hfile))
      · exact .inr (.inr (.inr ⟨g,g',hg,hp,hwritten⟩))
  · rw [DeleteConfined,deletion_rejected hgo]
    exact ⟨fun _ hopen hp => absurd ⟨hopen,hp⟩ hgo,fun _ => rfl⟩

/-- Both commands keep to the routing profiles of the group exactly when the id,
wherever the guards let it through, leads to one of them. -/
theorem commands_confined :
    DeleteConfined c writable gid id d ∧ ActivateConfined c writable gid id d ↔
      Harmless c writable gid id d :=
  and_congr (deleteConfined_iff c writable gid id d) (activateConfined_iff c writable gid id d)

end Confinement

section Climbing

inductive Content where
  | group (g : Group)
  | rules (list : List RoutingRule)

/-- Manual rules are an object with a rule list, which a routing profile may be. -/
def jsonObjects : Codec Content where
  group
    | .group g => some g
    | .rules _ => none
  routingProfile
    | .group _ => none
    | .rules list => some ⟨"",0,"","","","","",list,"",false,none,"",0,0,0,0⟩
  sealed := .group

def listed : Group := ⟨1,"","served",0,0,0,0,0,0,0,0,false,[],"","","","","",""⟩

def manualRules : Disk Content where
  root := ["db"]
  files := (AList.insert ["db","groups","1","group_config.json"] (.file (.group listed)) ∅).insert
    ["db","groups","1","routing","manual.json"] (.file (.rules []))

/-- One step up the profile id names the manual rules of the group. -/
theorem climbing_id_deletes_rules :
    ¬(DeleteConfined jsonObjects true 1 "../manual" manualRules ∧
      ActivateConfined jsonObjects true 1 "../manual" manualRules) := by
  rintro ⟨hdelete,-⟩
  have haccepted : (deleteRoutingProfile jsonObjects true 1 "../manual" manualRules).1 = true := by
    decide +kernel
  have hpath : routingProfilePath ["db"] 1 "../manual" =
      ["db","groups","1","routing","manual.json"] := by
    decide +kernel
  unfold DeleteConfined at hdelete
  split at hdelete
  · rename_i heq
    simp [heq] at haccepted
  · obtain ⟨name,hnames,-⟩ := hdelete
    have hlen := congrArg List.length (hpath.symm.trans hnames.path)
    simp [profileFile,getRoutingDir,manualRules] at hlen

end Climbing

end Whoisthat.RoutingNames
