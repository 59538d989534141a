import Whoisthat.FiledRecords
import Whoisthat.SyncWrites
import Whoisthat.ProfileIds

/-!
# Moving a profile under failing reads and writes

`MoveProfile` where any of its reads may fail on a file that is there and any of
its writes may fail. A move ought to be all or nothing. Two of its failures are
not undone: the copy of the provider configuration that is not written, and the
stored configuration that is not read. The exact condition on the state and the
failures under which a move is all or nothing is proved.
-/

set_option autoImplicit false

namespace Whoisthat.ProfileMoves
open Whoisthat.FileStore Whoisthat.FallibleState Whoisthat.Records Whoisthat.Database
open Whoisthat.GroupFiles Whoisthat.GroupSync Whoisthat.FiledRecords
open Whoisthat.SyncWrites (mem_listedAt nodup_listedAt profileAt_congr groupAt_congr newGroup)

section Source

/-- The errors the reads of a move meet on files that are there. -/
structure ReadFaults where
  profile : Option DBError
  target : Option DBError
  config : Option DBError
  source : Option DBError

def reading {α : Type} (fault : Option DBError) (m : DBM α) : DBM α :=
  match fault with
  | some e => fail e
  | none => m

def moveXrayConfig (f : ReadFaults) (fromGroup toGroup id newId : ℤ) : DBM Unit := do
  match ← attempt (reading f.config (loadProfileXrayConfig fromGroup id)) with
  | .error _ => pure ()
  | .ok raw => wrapping .moveXrayConfig (saveProfileXrayConfig toGroup newId raw)

def dropFromOrder (f : ReadFaults) (gid id : ℤ) : DBM Unit := do
  match ← attempt (reading f.source (loadGroupConfig gid)) with
  | .error _ => pure ()
  | .ok group =>
    let _ ← attempt (saveGroupConfig
      { group with profileOrder := group.profileOrder.filter (fun pid => pid ≠ id) })
    pure ()

def moveProfile (f : ReadFaults) (fromGroup toGroup id : ℤ) : DBM Profile := do
  if fromGroup = toGroup then fail .sameGroups
  else
    let old ← wrapping (.getMoved id fromGroup) (reading f.profile (getProfile fromGroup id))
    let group ← wrapping (.loadTarget toGroup) (reading f.target (loadGroupConfig toGroup))
    let newId := group.lastId+1
    let moved := { old with groupId := toGroup, id := newId }
    wrapping (.writeMoved (.profile toGroup newId))
      (writeEncryptedJSON (.profile toGroup newId) (.profile moved))
    when old.managed (moveXrayConfig f fromGroup toGroup id newId)
    match ← attempt (saveGroupConfig
      { group with lastId := newId, profileOrder := group.profileOrder ++ [newId] }) with
    | .error e =>
      remove (.profile toGroup newId)
      fail (.saveTarget toGroup e)
    | .ok _ =>
      remove (.profile fromGroup id)
      deleteProfileXrayConfig fromGroup id
      dropFromOrder f fromGroup id
      pure moved

/-- Without failing reads this is the move of the other modules. -/
theorem moveProfile_readable (fromGroup toGroup id : ℤ) :
    moveProfile ⟨none,none,none,none⟩ fromGroup toGroup id =
      ProfileStore.moveProfile fromGroup toGroup id := rfl

end Source

section Specification

def configAt (gid id : ℤ) (w : World) : Option RawMessage :=
  fileAt (.profileXrayConfig gid id) Payload.asRaw w.disk w.key

/-- What a client lists of both groups, and the configuration of the profile. -/
structure Unmoved (fromGroup toGroup id : ℤ) (w w' : World) : Prop where
  source : listedAt fromGroup w'.disk w'.key = listedAt fromGroup w.disk w.key
  target : listedAt toGroup w'.disk w'.key = listedAt toGroup w.disk w.key
  config : configAt fromGroup id w' = configAt fromGroup id w

structure Delivered (fromGroup toGroup id : ℤ) (moved : Profile) (w w' : World) : Prop where
  profile : ∃ old, profileAt fromGroup id w.disk w.key = some old ∧
    moved = { old with groupId := toGroup, id := moved.id }
  fresh : moved.id ∉ (listedAt toGroup w.disk w.key).map Prod.fst
  once : (listedAt toGroup w'.disk w'.key).filter (fun e => e.1 = moved.id) = [(moved.id,moved)]
  gone : id ∉ (listedAt fromGroup w'.disk w'.key).map Prod.fst
  config : moved.managed = true → ∀ raw, configAt fromGroup id w = some raw →
    configAt toGroup moved.id w' = some raw

def AllOrNothing (f : ReadFaults) (fromGroup toGroup id : ℤ) (w : World) : Prop :=
  match moveProfile f fromGroup toGroup id w with
  | (.ok moved,w') => Delivered fromGroup toGroup id moved w w'
  | (.error _,w') => Unmoved fromGroup toGroup id w w'

/-- The move gets past its first write. -/
structure Started (f : ReadFaults) (fromGroup toGroup id : ℤ) (old : Profile) (g : Group)
    (w : World) : Prop where
  profileRead : f.profile = none
  targetRead : f.target = none
  old : profileAt fromGroup id w.disk w.key = some old
  group : groupAt toGroup w.disk w.key = some g
  writable : w.degraded = false
  written : w.faults.head? ≠ some true

/-- There is a stored configuration, and it is read. -/
def Copies (f : ReadFaults) (fromGroup id : ℤ) (old : Profile) (w : World) : Prop :=
  old.managed = true ∧ f.config = none ∧ (configAt fromGroup id w).isSome = true

instance (f : ReadFaults) (fromGroup id : ℤ) (old : Profile) (w : World) :
    Decidable (Copies f fromGroup id old w) := by
  unfold Copies
  infer_instance

def movedTo (toGroup : ℤ) (old : Profile) (g : Group) : Profile :=
  { old with groupId := toGroup, id := g.lastId+1 }

/-- The new number is free, the copied configuration can be written, and a
stored configuration is read or lies at the new number already. -/
def Clean (f : ReadFaults) (fromGroup toGroup id : ℤ) (w : World) : Prop :=
  ∀ old g, Started f fromGroup toGroup id old g w →
    if Copies f fromGroup id old w ∧ w.faults[1]? = some true then
      profileAt toGroup (g.lastId+1) w.disk w.key = some (movedTo toGroup old g)
    else
      profileAt toGroup (g.lastId+1) w.disk w.key = none ∧
        (old.managed = true → f.config.isSome = true → w.faults[1]? ≠ some true →
          ∀ raw, configAt fromGroup id w = some raw → configAt toGroup (g.lastId+1) w = some raw)

end Specification

section Listings

variable {gid n : ℤ} {t t' : Tree} {k : Key}

/-- A listing depends on the group's record and its readable profiles. -/
theorem listedAt_congr (hg : groupAt gid t' k = groupAt gid t k)
    (hp : ∀ n, profileAt gid n t' k = profileAt gid n t k) :
    listedAt gid t' k = listedAt gid t k := by
  have hperm : (profilesMapAt gid t' k).Perm (profilesMapAt gid t k) := by
    rw [List.perm_ext_iff_of_nodup (nodup_profilesMapAt gid t' k).of_map
      (nodup_profilesMapAt gid t k).of_map]
    intro e
    rw [mem_profilesMapAt,mem_profilesMapAt,hp]
  unfold listedAt
  rw [hg]
  split
  · rfl
  · exact orderProfiles_eq_of_perm _ hperm (nodup_profilesMapAt gid t' k)

theorem listedAt_files {w w' : World} (hk : w'.key = w.key)
    (hg : readFile (.groupConfig gid) w'.disk = readFile (.groupConfig gid) w.disk)
    (hp : ∀ n, readFile (.profile gid n) w'.disk = readFile (.profile gid n) w.disk) :
    listedAt gid w'.disk w'.key = listedAt gid w.disk w.key := by
  rw [hk]
  exact listedAt_congr (groupAt_congr w.key hg) fun n => profileAt_congr w.key (hp n)

theorem listed_number {g : Group} (hg : groupAt gid t k = some g) :
    n ∈ (listedAt gid t k).map Prod.fst ↔ (profileAt gid n t k).isSome = true := by
  rw [List.mem_map,Option.isSome_iff_exists]
  constructor
  · rintro ⟨e,he,rfl⟩
    exact ⟨e.2,(mem_listedAt hg e.1 e.2).mp he⟩
  · rintro ⟨p,hp⟩
    exact ⟨(n,p),(mem_listedAt hg n p).mpr hp,rfl⟩

theorem listed_number_stored (h : n ∈ (listedAt gid t k).map Prod.fst) :
    (profileAt gid n t k).isSome = true := by
  cases hg : groupAt gid t k with
  | none => simp [listedAt,hg] at h
  | some g => exact (listed_number hg).mp h

/-- A stored profile is listed once. -/
theorem listed_once {g : Group} {p : Profile} (hg : groupAt gid t k = some g)
    (hp : profileAt gid n t k = some p) :
    (listedAt gid t k).filter (fun e => e.1 = n) = [(n,p)] := by
  have hmem := (mem_listedAt hg n p).mpr hp
  have hnd := nodup_listedAt gid t k
  obtain ⟨l₁,l₂,hl⟩ := List.append_of_mem hmem
  rw [hl,List.map_append,List.map_cons,List.nodup_append] at hnd
  have hfirst : ∀ e ∈ l₁, e.1 ≠ n := fun e he hen =>
    hnd.2.2 e.1 (List.mem_map_of_mem he) n (by simp) hen
  have hlast : ∀ e ∈ l₂, e.1 ≠ n := by
    rintro e he rfl
    exact (List.nodup_cons.mp hnd.2.1).1 (List.mem_map.mpr ⟨e,he,rfl⟩)
  rw [hl,List.filter_append,List.filter_cons_of_pos (by simp),
    List.filter_eq_nil_iff.mpr (by simpa using hfirst),
    List.filter_eq_nil_iff.mpr (by simpa using hlast)]
  rfl

end Listings

section Runs

variable {f : ReadFaults} {fromGroup toGroup id : ℤ} {old : Profile} {g : Group} {w : World}

/-- A failing read leaves the files alone, a good one the whole state. -/
theorem reading_cases {α : Type} (fault : Option DBError) {m : DBM α}
    {v : Tree → Key → Option α} (hm : ReadsAs m v)
    (hstay : ∀ w w' a, m w = (.ok a,w') → w' = w) (w : World) :
    (∃ e w', reading fault m w = (.error e,w') ∧ Reads w w' ∧
      (fault = none → v w.disk w.key = none)) ∨
    (∃ a, reading fault m w = (.ok a,w) ∧ fault = none ∧ v w.disk w.key = some a) := by
  cases fault with
  | some e => exact Or.inl ⟨e,w,rfl,reads_refl w,nofun⟩
  | none =>
    obtain ⟨hr,hv⟩ := hm w
    rcases hrun : m w with ⟨e | a,w'⟩ <;> rw [hrun] at hr hv
    · exact Or.inl ⟨e,w',hrun,hr,fun _ => hv.symm⟩
    · right
      have hw := hstay w w' a hrun
      subst hw
      exact ⟨a,hrun,rfl,hv.symm⟩

theorem getProfile_stays (gid n : ℤ) (w w' : World) (p : Profile)
    (h : getProfile gid n w = (.ok p,w')) : w' = w :=
  (read_ok (wrapping_ok.mp h)).1

theorem loadGroupConfig_stays (gid : ℤ) (w w' : World) (g : Group)
    (h : loadGroupConfig gid w = (.ok g,w')) : w' = w :=
  (read_ok (wrapping_ok.mp h)).1

theorem wrapping_of_error {α : Type} {m : DBM α} {w w' : World} {e : DBError}
    (wrap : DBError → DBError) (h : m w = (.error e,w')) :
    wrapping wrap m w = (.error (wrap e),w') := by
  rw [wrapping,h]

/-- Everything from the first write on. -/
def afterReads (f : ReadFaults) (fromGroup toGroup id : ℤ) (old : Profile) (group : Group) :
    DBM Profile := do
  let newId := group.lastId+1
  let moved := { old with groupId := toGroup, id := newId }
  wrapping (.writeMoved (.profile toGroup newId))
    (writeEncryptedJSON (.profile toGroup newId) (.profile moved))
  when old.managed (moveXrayConfig f fromGroup toGroup id newId)
  match ← attempt (saveGroupConfig
    { group with lastId := newId, profileOrder := group.profileOrder ++ [newId] }) with
  | .error e =>
    remove (.profile toGroup newId)
    fail (.saveTarget toGroup e)
  | .ok _ =>
    remove (.profile fromGroup id)
    deleteProfileXrayConfig fromGroup id
    dropFromOrder f fromGroup id
    pure moved

/-- A move whose reads fail stops before it writes. -/
theorem reads_cases (f : ReadFaults) (fromGroup toGroup id : ℤ) (hne : fromGroup ≠ toGroup)
    (w : World) :
    (∃ e w', moveProfile f fromGroup toGroup id w = (.error e,w') ∧ Reads w w' ∧
      ∀ old g, ¬Started f fromGroup toGroup id old g w) ∨
    (∃ old g, moveProfile f fromGroup toGroup id w =
        afterReads f fromGroup toGroup id old g w ∧ f.profile = none ∧ f.target = none ∧
        profileAt fromGroup id w.disk w.key = some old ∧
        groupAt toGroup w.disk w.key = some g) := by
  unfold moveProfile
  rw [if_neg hne]
  rcases reading_cases f.profile (readsAs_getProfile fromGroup id)
    (getProfile_stays fromGroup id) w with ⟨e,w',hrun,hr,hv⟩ | ⟨old,hrun,hf,hv⟩
  · left
    rw [bind_of_error (wrapping_of_error _ hrun)]
    refine ⟨_,w',rfl,hr,fun old g hs => ?_⟩
    have hold := hs.old
    rw [hv hs.profileRead] at hold
    cases hold
  · rw [bind_of_ok (wrapping_ok.mpr hrun)]
    rcases reading_cases f.target (readsAs_loadGroupConfig toGroup)
      (loadGroupConfig_stays toGroup) w with ⟨e,w',hrun',hr',hv'⟩ | ⟨g,hrun',hf',hv'⟩
    · left
      rw [bind_of_error (wrapping_of_error _ hrun')]
      refine ⟨_,w',rfl,hr',fun old g hs => ?_⟩
      have hgroup := hs.group
      rw [hv' hs.targetRead] at hgroup
      cases hgroup
    · right
      rw [bind_of_ok (wrapping_ok.mpr hrun')]
      exact ⟨old,g,rfl,hf,hf',hv,hv'⟩

/-- The group configs of the disk. -/
def Config (path : Path) : Prop := ∃ i, path = .groupConfig i

/-- The names a finished move takes away or rewrites. -/
def Cleared (fromGroup id : ℤ) (path : Path) : Prop :=
  path = .profile fromGroup id ∨ path = .profileXrayConfig fromGroup id ∨ Config path

theorem loaded_save {gid : ℤ} {v : World} (h : (groupAt gid v.disk v.key).isSome = true)
    (g' : Group) :
    (groupAt gid (saveGroupConfig g' v).2.disk (saveGroupConfig g' v).2.key).isSome = true := by
  rcases ProfileIds.save_cases g' v with ⟨e,-,hl⟩ | ⟨-,hs⟩
  · rw [hl.key,groupAt_congr v.key (hl.files _ id)]
    exact h
  · rw [hs]
    change (groupAt gid _ v.key).isSome = true
    rw [ProfileIds.groupAt_store]
    split
    · rfl
    · exact h

theorem leaves_config (g' : Group) : Keeps (Leaves Config) (saveGroupConfig g') :=
  fun v => leaves_of_frame (keeps_wrapping _ (frame_write _ _) v) fun _ h => ⟨g'.id,h⟩

/-- The last step of a move never fails and touches group configs only. -/
theorem dropFromOrder_spec (f : ReadFaults) (gid' gid id : ℤ) (v : World) :
    ∃ v', dropFromOrder f gid id v = (.ok (),v') ∧ Leaves Config v v' ∧
      ((groupAt gid' v.disk v.key).isSome = true →
        (groupAt gid' v'.disk v'.key).isSome = true) := by
  unfold dropFromOrder
  rw [bind_of_ok (attempt_run _ v)]
  rcases reading_cases f.source (readsAs_loadGroupConfig gid) (loadGroupConfig_stays gid) v
    with ⟨e,v',hrun,hr,-⟩ | ⟨g',hrun,-,-⟩ <;> rw [hrun]
  · refine ⟨v',rfl,leaves_of_reads hr,?_⟩
    rw [hr.disk,hr.key]
    exact fun h => h
  · exact ⟨_,rfl,leaves_config _ v,fun h => loaded_save h _⟩

/-- The provider configuration is copied, left behind, or stops the move. -/
theorem config_cases (f : ReadFaults) (fromGroup toGroup id n : ℤ) (old : Profile) (u : World)
    (hu : u.degraded = false) :
    (∃ e v, when old.managed (moveXrayConfig f fromGroup toGroup id n) u = (.error e,v) ∧
      Copies f fromGroup id old u ∧ u.faults.head? = some true ∧ Leaves (fun _ => False) u v) ∨
    (∃ raw v, when old.managed (moveXrayConfig f fromGroup toGroup id n) u = (.ok (),v) ∧
      Copies f fromGroup id old u ∧ u.faults.head? ≠ some true ∧
      configAt fromGroup id u = some raw ∧ configAt toGroup n v = some raw ∧
      Leaves (fun path => path = .profileXrayConfig toGroup n) u v) ∨
    (∃ v, when old.managed (moveXrayConfig f fromGroup toGroup id n) u = (.ok (),v) ∧
      ¬Copies f fromGroup id old u ∧ Reads u v ∧ (f.config.isSome = true → v = u)) := by
  cases hm : old.managed with
  | false =>
    right; right
    exact ⟨u,rfl,fun h => absurd h.1 (by simp [hm]),reads_refl u,fun _ => rfl⟩
  | true =>
    have hrun : when true (moveXrayConfig f fromGroup toGroup id n) u =
        moveXrayConfig f fromGroup toGroup id n u := rfl
    rw [hrun,moveXrayConfig,bind_of_ok (attempt_run _ u)]
    rcases reading_cases f.config (readsAs_readEncryptedJSON (.profileXrayConfig fromGroup id)
      Payload.asRaw) (fun w w' a h => (read_ok h).1) u
      with ⟨e,v,hread,hr,hv⟩ | ⟨raw,hread,hf,hv⟩ <;>
      rw [loadProfileXrayConfig,hread]
    · right; right
      refine ⟨v,rfl,?_,hr,?_⟩
      · rintro ⟨-,hc,hs⟩
        simp [configAt,hv hc] at hs
      · intro hc
        cases hf : f.config with
        | none => simp [hf] at hc
        | some e' =>
          rw [hf] at hread
          exact (Prod.mk.inj hread).2.symm
    · have hcopy : Copies f fromGroup id old u := ⟨hm,hf,by simp [configAt,hv]⟩
      have hmk : ∀ path, readFile path (osMkdirAll (.profileXrayConfig toGroup n) u).2.disk =
          readFile path u.disk := fun path => readFile_mkdirFor path _ u.disk
      have hsave : saveProfileXrayConfig toGroup n raw u = writeEncryptedJSON
          (.profileXrayConfig toGroup n) (.raw raw)
          (osMkdirAll (.profileXrayConfig toGroup n) u).2 := rfl
      dsimp only
      rcases write_cases (.profileXrayConfig toGroup n) (.raw raw)
        (osMkdirAll (.profileXrayConfig toGroup n) u).2 with ⟨hd,h⟩ | ⟨-,hw,h⟩ | ⟨-,hw,h⟩ <;>
        rw [wrapping,hsave,h]
      · rw [show (osMkdirAll (.profileXrayConfig toGroup n) u).2.degraded = u.degraded from rfl,
          hu] at hd
        cases hd
      · left
        exact ⟨_,_,rfl,hcopy,hw,⟨rfl,fun path _ => hmk path⟩⟩
      · right; left
        refine ⟨raw,_,rfl,hcopy,hw,hv,?_,⟨rfl,fun path hp => ?_⟩⟩
        · rw [configAt,fileAt,readFile_store,if_pos rfl]
          simp [store,openBlob,Payload.asRaw]
        · rw [readFile_store,if_neg hp]
          exact hmk path

/-- Saving the target group, and what follows. -/
def settle (f : ReadFaults) (fromGroup toGroup id : ℤ) (moved : Profile) (group : Group) :
    DBM Profile := do
  match ← attempt (saveGroupConfig group) with
  | .error e =>
    remove (.profile toGroup moved.id)
    fail (.saveTarget toGroup e)
  | .ok _ =>
    remove (.profile fromGroup id)
    deleteProfileXrayConfig fromGroup id
    dropFromOrder f fromGroup id
    pure moved

theorem settle_cases (f : ReadFaults) (fromGroup toGroup id : ℤ) (moved : Profile) (group : Group)
    (v : World) :
    (∃ e v', settle f fromGroup toGroup id moved group v = (.error e,v') ∧
      (v.degraded = false → v.faults.head? = some true) ∧
      Leaves (fun path => path = .profile toGroup moved.id) v v' ∧
      profileAt toGroup moved.id v'.disk v'.key = none) ∨
    (∃ v', settle f fromGroup toGroup id moved group v = (.ok moved,v') ∧
      v.faults.head? ≠ some true ∧ Leaves (Cleared fromGroup id) v v' ∧
      profileAt fromGroup id v'.disk v'.key = none ∧
      ((groupAt toGroup v.disk v.key).isSome = true →
        (groupAt toGroup v'.disk v'.key).isSome = true)) := by
  have hgone : ∀ (path : Path) (u : World), readFile path (u.disk.erase path) = none :=
    fun path u => by rw [readFile_erase,if_pos rfl]
  unfold settle
  rw [bind_of_ok (attempt_run _ v)]
  have hfailed : ∀ u : World, Leaves (fun _ => False) v u →
      Leaves (fun path => path = .profile toGroup moved.id) v
        { u with disk := u.disk.erase (.profile toGroup moved.id) } := fun u hl =>
    ⟨hl.key,fun path hp => by rw [readFile_erase,if_neg hp,hl.files path fun h => h]⟩
  rcases wrapped_write_cases (.writeGroupConfig group.id) (.groupConfig group.id) (.group group) v
    with ⟨hd,h⟩ | ⟨-,hw,h⟩ | ⟨-,hw,h⟩
  · left
    rw [saveGroupConfig,h]
    refine ⟨_,_,rfl,fun hf => absurd hd (by simp [hf]),hfailed v (leaves_refl _ v),?_⟩
    rw [profileAt,fileAt,hgone]
    rfl
  · left
    rw [saveGroupConfig,h]
    refine ⟨_,_,rfl,fun _ => hw,hfailed { v with faults := v.faults.tail }
      ⟨rfl,fun _ _ => rfl⟩,?_⟩
    rw [profileAt,fileAt,hgone]
    rfl
  · right
    have hloaded := fun h' => @loaded_save toGroup v h' group
    rw [saveGroupConfig,h] at hloaded ⊢
    obtain ⟨v',hdrop,hl,hg⟩ := dropFromOrder_spec f toGroup fromGroup id
      { store (.groupConfig group.id) (.group group) v with
        disk := ((store (.groupConfig group.id) (.group group) v).disk.erase
          (.profile fromGroup id)).erase (.profileXrayConfig fromGroup id) }
    refine ⟨v',?_,hw,⟨hl.key,fun path hp => ?_⟩,?_,fun h' => hg ?_⟩
    · exact bind_of_ok hdrop
    · have hfiles := hl.files path fun hc => hp (.inr (.inr hc))
      rw [hfiles,readFile_erase,if_neg fun h' => hp (.inr (.inl h')),readFile_erase,
        if_neg fun h' => hp (.inl h'),readFile_store,
        if_neg fun h' => hp (.inr (.inr ⟨_,h'⟩))]
    · rw [hl.key,profileAt_congr _ (hl.files _ (by simp [Config])),profileAt,fileAt,
        readFile_erase,if_neg (by simp),hgone]
      rfl
    · have hfiles : readFile (.groupConfig toGroup)
          (((store (.groupConfig group.id) (.group group) v).disk.erase
            (.profile fromGroup id)).erase (.profileXrayConfig fromGroup id)) =
          readFile (.groupConfig toGroup)
            (store (.groupConfig group.id) (.group group) v).disk := by
        rw [readFile_erase,if_neg (by simp),readFile_erase,if_neg (by simp)]
      have hafter := hloaded h'
      rw [← groupAt_congr _ hfiles] at hafter
      exact hafter

/-- How a move ends that gets past its first write. -/
inductive Ending (f : ReadFaults) (fromGroup toGroup id : ℤ) (old : Profile) (g : Group)
    (w : World) : Except DBError Profile × World → Prop
  | halfway (e : DBError) (v : World) (hc : Copies f fromGroup id old w)
      (hw : w.faults[1]? = some true)
      (hl : Leaves (fun path => path = .profile toGroup (g.lastId+1)) w v)
      (hp : profileAt toGroup (g.lastId+1) v.disk v.key = some (movedTo toGroup old g)) :
      Ending f fromGroup toGroup id old g w (.error e,v)
  | undone (e : DBError) (v : World)
      (hc : ¬(Copies f fromGroup id old w ∧ w.faults[1]? = some true))
      (hw : f.config.isSome = true → w.faults[1]? = some true)
      (hl : Leaves (fun path => path = .profile toGroup (g.lastId+1) ∨
        path = .profileXrayConfig toGroup (g.lastId+1)) w v)
      (hp : profileAt toGroup (g.lastId+1) v.disk v.key = none) :
      Ending f fromGroup toGroup id old g w (.error e,v)
  | done (v : World)
      (hc : ¬(Copies f fromGroup id old w ∧ w.faults[1]? = some true))
      (hw : f.config.isSome = true → w.faults[1]? ≠ some true)
      (hl : Leaves (fun path => (path = .profile toGroup (g.lastId+1) ∨
        path = .profileXrayConfig toGroup (g.lastId+1)) ∨ Cleared fromGroup id path) w v)
      (hgone : profileAt fromGroup id v.disk v.key = none)
      (hp : profileAt toGroup (g.lastId+1) v.disk v.key = some (movedTo toGroup old g))
      (hg : (groupAt toGroup v.disk v.key).isSome = true)
      (hx : configAt toGroup (g.lastId+1) v = if Copies f fromGroup id old w then
        configAt fromGroup id w else configAt toGroup (g.lastId+1) w) :
      Ending f fromGroup toGroup id old g w (.ok (movedTo toGroup old g),v)

theorem configAt_files {gid n : ℤ} {u v : World} (hk : v.key = u.key)
    (h : readFile (.profileXrayConfig gid n) v.disk = readFile (.profileXrayConfig gid n) u.disk) :
    configAt gid n v = configAt gid n u := by
  rw [configAt,configAt,fileAt,fileAt,hk,h]

theorem leaves_widen {P Q : Path → Prop} {u v : World} (h : Leaves P u v)
    (hpq : ∀ path, P path → Q path) : Leaves Q u v :=
  ⟨h.key,fun path hq => h.files path fun hp => hq (hpq path hp)⟩

/-- From the copying of the configuration to the end. -/
theorem settled_ends {v : World} (hne : fromGroup ≠ toGroup)
    (hs : Started f fromGroup toGroup id old g w)
    (hsafe : ¬(Copies f fromGroup id old w ∧ w.faults[1]? = some true))
    (hstop : f.config.isSome = true → (v.degraded = false → v.faults.head? = some true) →
      w.faults[1]? = some true)
    (hpass : f.config.isSome = true → v.faults.head? ≠ some true → w.faults[1]? ≠ some true)
    (hl : Leaves (fun path => path = .profile toGroup (g.lastId+1) ∨
      path = .profileXrayConfig toGroup (g.lastId+1)) w v)
    (hput : profileAt toGroup (g.lastId+1) v.disk v.key = some (movedTo toGroup old g))
    (hx : configAt toGroup (g.lastId+1) v = if Copies f fromGroup id old w then
      configAt fromGroup id w else configAt toGroup (g.lastId+1) w) :
    Ending f fromGroup toGroup id old g w (settle f fromGroup toGroup id (movedTo toGroup old g)
      { g with lastId := g.lastId+1, profileOrder := g.profileOrder ++ [g.lastId+1] } v) := by
  have hgroup : (groupAt toGroup v.disk v.key).isSome = true := by
    rw [hl.key,groupAt_congr _ (hl.files _ (by simp)),hs.group]
    rfl
  rcases settle_cases f fromGroup toGroup id (movedTo toGroup old g)
      { g with lastId := g.lastId+1, profileOrder := g.profileOrder ++ [g.lastId+1] } v
    with ⟨e,v',h,hf,hl',hgone⟩ | ⟨v',h,hf,hl',hgone,hg⟩ <;> rw [h]
  · exact .undone e v' hsafe (fun hc => hstop hc hf)
      (leaves_trans _ _ _ hl (leaves_widen hl' fun _ => .inl)) hgone
  · have hcleared : ∀ path, path = Path.profile toGroup (g.lastId+1) ∨
        path = Path.profileXrayConfig toGroup (g.lastId+1) → ¬Cleared fromGroup id path := by
      rintro path (rfl | rfl) <;> simp [Cleared,Config,hne.symm]
    refine .done v' hsafe (fun hc => hpass hc hf)
      (leaves_trans _ _ _ (leaves_widen hl fun _ => .inl) (leaves_widen hl' fun _ => .inr))
      hgone ?_ (hg hgroup) ?_
    · rw [hl'.key,profileAt_congr _ (hl'.files _ (hcleared _ (.inl rfl)))]
      exact hput
    · rw [configAt_files hl'.key (hl'.files _ (hcleared _ (.inr rfl)))]
      exact hx

theorem afterReads_ends (hs : Started f fromGroup toGroup id old g w) (hne : fromGroup ≠ toGroup) :
    Ending f fromGroup toGroup id old g w (afterReads f fromGroup toGroup id old g w) := by
  let n := g.lastId+1
  let u := store (.profile toGroup n) (.profile (movedTo toGroup old g)) w
  have hfirst : wrapping (.writeMoved (.profile toGroup n)) (writeEncryptedJSON
      (.profile toGroup n) (.profile (movedTo toGroup old g))) w = (.ok (),u) := by
    rcases wrapped_write_cases (.writeMoved (.profile toGroup n)) (.profile toGroup n)
      (.profile (movedTo toGroup old g)) w with ⟨hd,h⟩ | ⟨-,hf,h⟩ | ⟨-,-,h⟩
    · exact absurd hd (by simp [hs.writable])
    · exact absurd hf hs.written
    · exact h
  have hrun : afterReads f fromGroup toGroup id old g w =
      (when old.managed (moveXrayConfig f fromGroup toGroup id n) >>= fun _ =>
        settle f fromGroup toGroup id (movedTo toGroup old g)
          { g with lastId := n, profileOrder := g.profileOrder ++ [n] }) u := bind_of_ok hfirst
  have hu : Leaves (fun path => path = .profile toGroup n) w u :=
    leaves_of_frame (frame_store _ _ w) fun _ h => h
  have hput : profileAt toGroup n u.disk u.key = some (movedTo toGroup old g) := by
    rw [profileAt,fileAt,readFile_store,if_pos rfl]
    simp [u,store,openBlob,Payload.asProfile]
  have hfaults : u.faults.head? = w.faults[1]? := by
    simp only [u,store]
    cases w.faults with
    | nil => rfl
    | cons b rest => simp [List.head?_eq_getElem?]
  have hcopies : Copies f fromGroup id old u ↔ Copies f fromGroup id old w := by
    rw [Copies,Copies,configAt_files hu.key (hu.files _ (by simp))]
  rw [hrun]
  rcases config_cases f fromGroup toGroup id n old u hs.writable with
    ⟨e,v,h,hc,hf,hl⟩ | ⟨raw,v,h,hc,hf,hread,hwrite,hl⟩ | ⟨v,h,hc,hr,hstay⟩
  · rw [bind_of_error h]
    refine .halfway _ v (hcopies.mp hc) (hfaults ▸ hf)
      (leaves_trans _ _ _ hu (leaves_widen hl fun _ => False.elim)) ?_
    rw [hl.key,profileAt_congr _ (hl.files _ fun h => h)]
    exact hput
  · rw [bind_of_ok h]
    have hsafe : ¬(Copies f fromGroup id old w ∧ w.faults[1]? = some true) :=
      fun h => hf (hfaults.trans h.2)
    have hread' : f.config.isSome = true → False := by simp [hc.2.1]
    exact settled_ends hne hs hsafe (fun h => (hread' h).elim) (fun h => (hread' h).elim)
      (leaves_trans _ _ _ (leaves_widen hu fun _ => .inl) (leaves_widen hl fun _ => .inr))
      (by rw [hl.key,profileAt_congr _ (hl.files _ (by simp))]; exact hput)
      (by rw [hwrite,if_pos (hcopies.mp hc),← hread,configAt_files hu.key (hu.files _ (by simp))])
  · rw [bind_of_ok h]
    have hsafe : ¬(Copies f fromGroup id old w ∧ w.faults[1]? = some true) :=
      fun h => hc (hcopies.mpr h.1)
    refine settled_ends hne hs hsafe (fun hs' hd => ?_) (fun hs' => ?_)
      (leaves_trans _ _ _ (leaves_widen hu fun _ => .inl) (leaves_of_reads hr))
      (by rw [hr.key,hr.disk]; exact hput) ?_
    · rw [← hfaults,← hstay hs']
      exact hd (by rw [hstay hs']; exact hs.writable)
    · rw [← hfaults,← hstay hs']
      exact fun h => h
    · rw [if_neg fun h => hc (hcopies.mpr h),
        configAt_files hr.key (by rw [hr.disk]),configAt_files hu.key (hu.files _ (by simp))]

end Runs

section Results

variable {f : ReadFaults} {fromGroup toGroup id : ℤ} {old : Profile} {g : Group} {w : World}

theorem not_started {v : World} {e : DBError} (hr : Leaves (fun _ => False) w v)
    (h : moveProfile f fromGroup toGroup id w = (.error e,v)) :
    AllOrNothing f fromGroup toGroup id w := by
  rw [AllOrNothing,h]
  exact ⟨listedAt_files hr.key (hr.files _ fun h => h) fun n => hr.files _ fun h => h,
    listedAt_files hr.key (hr.files _ fun h => h) fun n => hr.files _ fun h => h,
    configAt_files hr.key (hr.files _ fun h => h)⟩

/-- Nothing has moved exactly when the target's new number reads as before. -/
theorem unmoved_iff {v : World} (hne : fromGroup ≠ toGroup)
    (hg : groupAt toGroup w.disk w.key = some g)
    (hl : Leaves (fun path => path = .profile toGroup (g.lastId+1) ∨
      path = .profileXrayConfig toGroup (g.lastId+1)) w v) :
    Unmoved fromGroup toGroup id w v ↔ profileAt toGroup (g.lastId+1) v.disk v.key =
      profileAt toGroup (g.lastId+1) w.disk w.key := by
  have hgroup : groupAt toGroup v.disk v.key = some g := by
    rw [hl.key,groupAt_congr _ (hl.files _ (by simp)),hg]
  constructor
  · intro h
    ext p
    rw [← mem_listedAt hgroup,h.target,mem_listedAt hg]
  · intro h
    refine ⟨listedAt_files hl.key (hl.files _ (by simp)) fun n => hl.files _ (by simp [hne]),?_,
      configAt_files hl.key (hl.files _ (by simp [hne]))⟩
    rw [hl.key] at hgroup h ⊢
    refine listedAt_congr (by rw [hgroup,hg]) fun n => ?_
    by_cases hn : n = g.lastId+1
    · rw [hn,h]
    · exact profileAt_congr _ (hl.files _ (by simp [hn]))

theorem ending_iff (hne : fromGroup ≠ toGroup) (hs : Started f fromGroup toGroup id old g w)
    {r : Except DBError Profile × World} (h : Ending f fromGroup toGroup id old g w r)
    (hrun : moveProfile f fromGroup toGroup id w = r) :
    AllOrNothing f fromGroup toGroup id w ↔
      if Copies f fromGroup id old w ∧ w.faults[1]? = some true then
        profileAt toGroup (g.lastId+1) w.disk w.key = some (movedTo toGroup old g)
      else
        profileAt toGroup (g.lastId+1) w.disk w.key = none ∧
          (old.managed = true → f.config.isSome = true → w.faults[1]? ≠ some true →
            ∀ raw, configAt fromGroup id w = some raw →
              configAt toGroup (g.lastId+1) w = some raw) := by
  rw [AllOrNothing,hrun]
  cases h with
  | halfway e v hc hw hl hp =>
    rw [if_pos ⟨hc,hw⟩]
    dsimp only
    rw [unmoved_iff hne hs.group (leaves_widen hl fun _ => .inl),hp]
    exact eq_comm
  | undone e v hc hw hl hp =>
    rw [if_neg hc]
    dsimp only
    rw [unmoved_iff hne hs.group hl,hp]
    constructor
    · exact fun h => ⟨h.symm,fun _ hs' hn => absurd (hw hs') hn⟩
    · exact fun h => h.1.symm
  | done v hc hw hl hgone hp hg hx =>
    rw [if_neg hc]
    dsimp only
    constructor
    · intro hd
      have hfree := hd.fresh
      rw [listed_number hs.group] at hfree
      refine ⟨Option.not_isSome_iff_eq_none.mp hfree,fun hm hs' _ raw hraw => ?_⟩
      have hnot : ¬Copies f fromGroup id old w := fun h => by simp [h.2.1] at hs'
      rw [← hd.config hm raw hraw,movedTo,hx,if_neg hnot]
    · rintro ⟨hfree,hleft⟩
      obtain ⟨g',hg'⟩ := Option.isSome_iff_exists.mp hg
      refine ⟨⟨old,hs.old,rfl⟩,?_,listed_once hg' hp,fun hmem => ?_,fun hm raw hraw => ?_⟩
      · rw [listed_number hs.group,movedTo,hfree]
        simp
      · have hstored := listed_number_stored hmem
        rw [hgone] at hstored
        cases hstored
      · rw [movedTo,hx]
        split
        · exact hraw
        · rename_i hnot
          have hs' : f.config.isSome = true := by
            cases hf : f.config with
            | some e => rfl
            | none => exact absurd ⟨hm,hf,by rw [hraw]; rfl⟩ hnot
          exact hleft hm hs' (hw hs') raw hraw

theorem afterReads_refused (f : ReadFaults) (fromGroup toGroup id : ℤ) (old : Profile) (g : Group)
    (w : World) (h : w.degraded = false → w.faults.head? ≠ some true → False) :
    ∃ e v, afterReads f fromGroup toGroup id old g w = (.error e,v) ∧
      Leaves (fun _ => False) w v := by
  rcases wrapped_write_cases (.writeMoved (.profile toGroup (g.lastId+1)))
    (.profile toGroup (g.lastId+1)) (.profile (movedTo toGroup old g)) w
    with ⟨-,hrun⟩ | ⟨-,-,hrun⟩ | ⟨hd,hw,-⟩
  · exact ⟨_,w,bind_of_error hrun,leaves_refl _ w⟩
  · exact ⟨_,_,bind_of_error hrun,⟨rfl,fun _ _ => rfl⟩⟩
  · exact (h hd hw).elim

/-- A move stops before it has written anything, or ends in one of the ways
listed. -/
theorem move_cases (f : ReadFaults) (fromGroup toGroup id : ℤ) (hne : fromGroup ≠ toGroup)
    (w : World) :
    (∃ e v, moveProfile f fromGroup toGroup id w = (.error e,v) ∧ Leaves (fun _ => False) w v ∧
      ∀ old g, ¬Started f fromGroup toGroup id old g w) ∨
    (∃ old g, Started f fromGroup toGroup id old g w ∧
      Ending f fromGroup toGroup id old g w (moveProfile f fromGroup toGroup id w)) := by
  rcases reads_cases f fromGroup toGroup id hne w with ⟨e,v,hrun,hr,hns⟩ | ⟨old,g,hrun,hf,hf',ho,hg⟩
  · exact Or.inl ⟨e,v,hrun,leaves_of_reads hr,hns⟩
  · by_cases hs : Started f fromGroup toGroup id old g w
    · right
      rw [hrun]
      exact ⟨old,g,hs,afterReads_ends hs hne⟩
    · left
      obtain ⟨e,v,hstop,hl⟩ := afterReads_refused f fromGroup toGroup id old g w
        fun hd hw => hs ⟨hf,hf',ho,hg,hd,hw⟩
      refine ⟨e,v,hrun.trans hstop,hl,fun old' g' hs' => ?_⟩
      obtain rfl := Option.some.inj (hs'.old.symm.trans ho)
      obtain rfl := Option.some.inj (hs'.group.symm.trans hg)
      exact hs hs'

/-- Moves are all or nothing exactly under `Clean`. -/
theorem moveProfile_allOrNothing (f : ReadFaults) (fromGroup toGroup id : ℤ)
    (hne : fromGroup ≠ toGroup) (w : World) :
    AllOrNothing f fromGroup toGroup id w ↔ Clean f fromGroup toGroup id w := by
  rcases move_cases f fromGroup toGroup id hne w with ⟨e,v,hrun,hl,hns⟩ | ⟨old,g,hs,hend⟩
  · have hall := not_started hl hrun
    exact ⟨fun _ old g hs => absurd hs (hns old g),fun _ => hall⟩
  · rw [ending_iff hne hs hend rfl]
    constructor
    · intro h old' g' hs'
      obtain rfl := Option.some.inj (hs.old.symm.trans hs'.old)
      obtain rfl := Option.some.inj (hs.group.symm.trans hs'.group)
      exact h
    · exact fun h => h old g hs

/-- A managed profile with its configuration. -/
def served : Profile :=
  { id := 1
    groupId := 1
    nanoID := "n"
    name := "served"
    protocol := "vless"
    uri := ""
    address := ""
    host := ""
    testResult := 0
    testedAt := 0
    lossPct := 0
    jitterMs := 0
    port := 443
    managed := true
    providerKey := "k"
    keyed := by simp }

/-- A group with that profile beside an empty one. -/
def twoGroups (faults : List Bool) : World :=
  { root := ["db"]
    disk := ((((∅ : Tree).insert (.groupConfig 1)
      (.file (.sealed [] 0 (.group { newGroup 1 "from" 1 with profileOrder := [1] })))).insert
      (.profile 1 1) (.file (.sealed [] 0 (.profile served)))).insert
      (.profileXrayConfig 1 1) (.file (.sealed [] 0 (.raw "xray")))).insert
      (.groupConfig 2) (.file (.sealed [] 0 (.group (newGroup 2 "to" 0))))
    key := []
    degraded := false
    nonce := 1
    faults := faults }

theorem served_moves :
    AllOrNothing ⟨none,none,none,none⟩ 1 2 1 (twoGroups [false,false,true]) := by
  refine (moveProfile_allOrNothing _ 1 2 1 (by decide) _).mpr fun old g hs => ?_
  have hg : groupAt 2 (twoGroups [false,false,true]).disk [] = some (newGroup 2 "to" 0) := by
    decide +kernel
  obtain rfl := Option.some.inj (hs.group.symm.trans hg)
  rw [if_neg fun h => absurd h.2 (by decide)]
  exact ⟨by decide +kernel,fun _ hc => absurd hc (by decide)⟩

/-- A configuration that cannot be written at its new place leaves the copied
profile listed in the target. -/
theorem half_moved : ¬∀ (f : ReadFaults) (fromGroup toGroup id : ℤ) (w : World),
    fromGroup ≠ toGroup → AllOrNothing f fromGroup toGroup id w := by
  intro h
  have hmove := h ⟨none,none,none,none⟩ 1 2 1 (twoGroups [false,true]) (by decide)
  rw [AllOrNothing] at hmove
  have hrun : (moveProfile ⟨none,none,none,none⟩ 1 2 1 (twoGroups [false,true])).1 =
      .error (.moveXrayConfig (.write (.profileXrayConfig 2 1))) := by decide +kernel
  rw [run_of_fst hrun] at hmove
  have hlisted := hmove.target
  revert hlisted
  decide +kernel

end Results

end Whoisthat.ProfileMoves
