import Whoisthat.ReadOnly

/-!
# Records lie under their own names

Group configs and routing profiles carry the numbers their names are made of.
Every writer derives the name from the record, so no operation files a record
under a foreign name. The operations are composed once, for any relation that
their reads, writes and removals keep.
-/

set_option autoImplicit false

namespace Whoisthat.FiledRecords
open Whoisthat.FileStore Whoisthat.FallibleState Whoisthat.Records Whoisthat.Database
open Whoisthat.GroupFiles Whoisthat.GroupSync Whoisthat.ProfileStore Whoisthat.GroupStore
open Whoisthat.RoutingStore

/-- The record belongs under this name. -/
def Fits : Path → Payload → Prop
  | .groupConfig gid, .group g => g.id = gid
  | .routingProfile gid id, .routingProfile p => p.groupId = gid ∧ p.id = id
  | _, _ => True

/-- Whatever somebody can read under a name belongs there. -/
def Filed (w : World) : Prop :=
  ∀ path b k p, readFile path w.disk = some b → openBlob k b = some p → Fits path p

def KeepsFiled (w w' : World) : Prop := Filed w → Filed w'

/-- What the operations do to the database, one effect at a time. -/
structure Primitive (R : World → World → Prop) : Prop where
  refl : ∀ w, R w w
  trans : ∀ u v w, R u v → R v w → R u w
  reads : ∀ w w', Reads w w' → R w w'
  write : ∀ path p, Fits path p → Keeps R (writeEncryptedJSON path p)
  migrate : ∀ path, Keeps R (migrateFileToEncrypted path)
  mkdir : ∀ path, Keeps R (osMkdirAll path)
  remove : ∀ under, Keeps R (osRemoveAll under)
  erase : ∀ path, Keeps R (Database.remove path)

section Operations

variable {R : World → World → Prop} {α β : Type} (h : Primitive R)

include h

theorem keeps_then {m : DBM α} {f : α → DBM β} (hm : Keeps R m) (hf : ∀ a, Keeps R (f a)) :
    Keeps R (m >>= f) := keeps_bind h.trans hm hf

theorem keeps_done (a : α) : Keeps R (pure a : DBM α) := keeps_pure h.refl a

theorem keeps_readsAs {m : DBM α} {v : Tree → Key → Option α} (hm : ReadsAs m v) : Keeps R m :=
  fun w => h.reads _ _ (hm w).1

theorem keeps_loadGroupConfig (gid : ℤ) : Keeps R (loadGroupConfig gid) :=
  keeps_readsAs h (readsAs_loadGroupConfig gid)

theorem keeps_saveGroupConfig (g : Group) : Keeps R (saveGroupConfig g) :=
  keeps_wrapping _ (h.write (.groupConfig g.id) (.group g) rfl)

theorem keeps_updateGroup (g : Group) : Keeps R (updateGroup g) :=
  keeps_wrapping _ (h.write (.groupConfig g.id) (.group g) rfl)

theorem keeps_loadDBConfig : Keeps R loadDBConfig :=
  keeps_readsAs h (readsAs_readEncryptedJSON _ _)

theorem keeps_saveDBConfig (c : DBConfig) : Keeps R (saveDBConfig c) :=
  h.write .dbConfig (.dbConfig c) trivial

theorem keeps_saveProfile (wrap : DBError → DBError) (gid id : ℤ) (p : Profile) :
    Keeps R (wrapping wrap (writeEncryptedJSON (.profile gid id) (.profile p))) :=
  keeps_wrapping _ (h.write _ _ trivial)

theorem keeps_saveXray (wrap : DBError → DBError) (gid id : ℤ) (raw : RawMessage) :
    Keeps R (wrapping wrap (saveProfileXrayConfig gid id raw)) :=
  keeps_wrapping _ (keeps_then h (h.mkdir _) fun _ => h.write _ _ trivial)

theorem keeps_getGroup (gid : ℤ) : Keeps R (getGroupDataAndProfiles gid) :=
  fun w => h.reads _ _ (getGroup_reads gid w).1

theorem keeps_addProfile (data : DBAddProfileData) : Keeps R (addProfile data) :=
  keeps_then h (keeps_loadGroupConfig h _) fun _ =>
    keeps_then h (keeps_saveGroupConfig h _) fun _ => keeps_then h (h.erase _) fun _ =>
      keeps_then h (keeps_saveProfile h _ _ _ _) fun _ =>
        keeps_then h (keeps_when h.refl fun _ => keeps_saveXray h _ _ _ _) fun _ => keeps_done h _

theorem keeps_dropFromOrder (gid id : ℤ) : Keeps R (dropFromOrder gid id) := by
  refine keeps_then h (keeps_attempt (keeps_loadGroupConfig h gid)) fun r => ?_
  cases r with
  | error e => exact keeps_done h ()
  | ok g =>
    exact keeps_then h (keeps_attempt (keeps_saveGroupConfig h _)) fun _ => keeps_done h ()

theorem keeps_deleteProfile (gid id : ℤ) : Keeps R (deleteProfile gid id) :=
  keeps_then h (h.erase _) fun _ => keeps_then h (h.erase _) fun _ => keeps_dropFromOrder h gid id

theorem keeps_updateProfile (p : Profile) : Keeps R (updateProfile p) := by
  refine keeps_then h (keeps_wrapping _ (keeps_readsAs h (readsAs_getProfile _ _))) fun old => ?_
  split
  · exact keeps_fail h.refl _
  · exact keeps_saveProfile h _ _ _ p

theorem keeps_renameProfile (gid id : ℤ) (name : String) : Keeps R (renameProfile gid id name) :=
  keeps_then h (keeps_readsAs h (readsAs_getProfile gid id)) fun _ =>
    keeps_then h (keeps_updateProfile h _) fun _ => keeps_done h _

theorem keeps_reorderProfiles (gid : ℤ) (ids : List ℤ) : Keeps R (reorderProfiles gid ids) :=
  keeps_then h (keeps_wrapping _ (keeps_loadGroupConfig h gid)) fun _ => keeps_saveGroupConfig h _

theorem keeps_moveXrayConfig (fromGroup toGroup id newId : ℤ) :
    Keeps R (moveXrayConfig fromGroup toGroup id newId) := by
  refine keeps_then h (keeps_attempt (keeps_readsAs h (readsAs_readEncryptedJSON _ _)))
    fun r => ?_
  cases r with
  | error e => exact keeps_done h ()
  | ok raw => exact keeps_saveXray h _ _ _ raw

theorem keeps_moveProfile (fromGroup toGroup id : ℤ) :
    Keeps R (moveProfile fromGroup toGroup id) := by
  unfold moveProfile
  split
  · exact keeps_fail h.refl _
  · refine keeps_then h (keeps_wrapping _ (keeps_readsAs h (readsAs_getProfile _ _))) fun old =>
      keeps_then h (keeps_wrapping _ (keeps_loadGroupConfig h _)) fun group =>
        keeps_then h (keeps_saveProfile h _ _ _ _) fun _ =>
          keeps_then h (keeps_when h.refl fun _ => keeps_moveXrayConfig h _ _ _ _) fun _ =>
            keeps_then h (keeps_attempt (keeps_saveGroupConfig h _)) fun r => ?_
    cases r with
    | error e => exact keeps_then h (h.erase _) fun _ => keeps_fail h.refl _
    | ok _ =>
      exact keeps_then h (h.erase _) fun _ => keeps_then h (h.erase _) fun _ =>
        keeps_then h (keeps_dropFromOrder h _ _) fun _ => keeps_done h _

theorem keeps_writeEntry (gid id : ℤ) (p : Profile) (config : RawMessage) :
    Keeps R (writeEntry gid id p config) := by
  refine keeps_then h (keeps_saveProfile h _ _ _ p) fun _ => ?_
  split
  · exact keeps_saveXray h _ _ _ config
  · exact h.erase _

theorem keeps_syncProfiles (gid : ℤ) (profiles : List Profile) (keep : Keep)
    (entries : List DBAddProfileData) (st : Sync) :
    Keeps R (syncProfiles gid profiles keep st entries) := by
  induction entries generalizing st with
  | nil => exact keeps_done h st
  | cons d ds ih =>
    unfold syncProfiles
    split
    · exact ih st
    · exact keeps_then h (keeps_writeEntry h _ _ _ _) fun _ => ih _

theorem keeps_removeStale (gid : ℤ) (usedIDs : List ℤ) (profiles : List Profile) :
    Keeps R (removeStale gid usedIDs profiles) := by
  refine keeps_forEach h.refl h.trans profiles fun p _ => ?_
  split
  · exact keeps_done h ()
  · exact keeps_then h (h.erase _) fun _ => h.erase _

theorem keeps_updateGroupAndProfiles (gid keepProfileID : ℤ) (entries : List DBAddProfileData) :
    Keeps R (updateGroupAndProfiles gid entries keepProfileID) :=
  keeps_then h (keeps_wrapping _ (keeps_getGroup h gid)) fun _ =>
    keeps_then h (keeps_syncProfiles h gid _ _ entries _) fun _ =>
      keeps_then h (keeps_saveGroupConfig h _) fun _ =>
        keeps_then h (keeps_removeStale h _ _ _) fun _ => keeps_done h _

theorem keeps_addGroup (subscriptionHost : String → String) (name url : String) :
    Keeps R (addGroup subscriptionHost name url) :=
  keeps_then h (keeps_loadDBConfig h) fun _ => keeps_then h (keeps_saveDBConfig h _) fun _ =>
    keeps_then h (h.remove _) fun _ => keeps_then h (h.mkdir _) fun _ =>
      keeps_then h (keeps_wrapping _ (h.write _ _ rfl)) fun _ => keeps_done h _

theorem keeps_dropFromGroupOrder (gid : ℤ) : Keeps R (dropFromGroupOrder gid) := by
  refine keeps_then h (keeps_attempt (keeps_loadDBConfig h)) fun r => ?_
  cases r with
  | error e => exact keeps_done h ()
  | ok c => exact keeps_then h (keeps_attempt (keeps_saveDBConfig h _)) fun _ => keeps_done h ()

theorem keeps_deleteGroup (gid : ℤ) : Keeps R (deleteGroup gid) :=
  keeps_then h (h.remove _) fun _ => keeps_dropFromGroupOrder h gid

theorem keeps_reorderGroups (ids : List ℤ) : Keeps R (reorderGroups ids) :=
  keeps_then h (keeps_wrapping _ (keeps_loadDBConfig h)) fun _ => keeps_saveDBConfig h _

theorem keeps_updateGroupConfig (subscriptionHost : String → String) (gid : ℤ) (name url : String)
    (autoUpdate : Option Bool) (updateInterval : Option ℤ) :
    Keeps R (updateGroupConfig subscriptionHost gid name url autoUpdate updateInterval) := by
  refine keeps_then h (keeps_wrapping _ (keeps_loadGroupConfig h gid)) fun g => ?_
  split
  · exact keeps_fail h.refl _
  · exact keeps_then h (keeps_updateGroup h _) fun _ => keeps_done h _

theorem keeps_mergeSubscriptionFields (gid : ℤ) (f : SubscriptionFields) :
    Keeps R (mergeSubscriptionFields gid f) :=
  keeps_then h (keeps_loadGroupConfig h gid) fun _ =>
    keeps_then h (keeps_updateGroup h _) fun _ => keeps_done h _

theorem keeps_saveGroupRouting (gid : ℤ) (cfg : RoutingConfig) :
    Keeps R (saveGroupRouting gid cfg) :=
  keeps_then h (h.mkdir _) fun _ => h.write _ _ trivial

theorem keeps_saveRoutingProfile (p : RoutingProfile) : Keeps R (saveRoutingProfile p) :=
  keeps_then h (h.mkdir _) fun _ => h.write _ _ ⟨rfl,rfl⟩

theorem keeps_loadRouting : Keeps R loadRouting := by
  refine keeps_then h (keeps_attempt (keeps_readsAs h (readsAs_readEncryptedJSON _ _)))
    fun r => ?_
  cases r <;> exact keeps_done h _

theorem keeps_ensureGroupRouting (gid : ℤ) : Keeps R (ensureGroupRouting gid) := by
  refine keeps_then h (keeps_get h.refl) fun w => ?_
  split
  · exact keeps_done h ()
  · exact keeps_then h (keeps_loadRouting h) fun cfg => keeps_saveGroupRouting h gid cfg

theorem keeps_setManualRoutingSource (gid : ℤ) (source : String) :
    Keeps R (setManualRoutingSource gid source) := by
  unfold setManualRoutingSource
  split
  · exact keeps_fail h.refl _
  · simp only
    split
    · exact keeps_fail h.refl _
    · exact keeps_then h (keeps_wrapping _ (keeps_loadGroupConfig h gid)) fun _ =>
        keeps_then h (keeps_when h.refl fun _ => keeps_ensureGroupRouting h gid) fun _ =>
          keeps_updateGroup h _

theorem keeps_checkRoutingProfile (gid : ℤ) (id : String) :
    Keeps R (checkRoutingProfile gid id) := by
  refine keeps_then h (keeps_wrapping _ (keeps_readsAs h (readsAs_readEncryptedJSON _ _)))
    fun p => ?_
  split_ifs
  · exact keeps_fail h.refl _
  · exact keeps_fail h.refl _
  · refine keeps_then h (keeps_get h.refl) fun w => ?_
    simp only
    split_ifs
    · exact keeps_done h ()
    · exact keeps_fail h.refl _
    · exact keeps_fail h.refl _
    · exact keeps_done h ()

theorem keeps_setActiveRoutingProfile (gid : ℤ) (id : String) :
    Keeps R (setActiveRoutingProfile gid id) :=
  keeps_then h (keeps_wrapping _ (keeps_loadGroupConfig h gid)) fun _ =>
    keeps_then h (keeps_when h.refl fun _ => keeps_checkRoutingProfile h gid id) fun _ =>
      keeps_updateGroup h _

theorem keeps_setGroupRoutingMode (gid : ℤ) (mode : String) :
    Keeps R (setGroupRoutingMode gid mode) := by
  unfold setGroupRoutingMode
  simp only
  split
  · exact keeps_fail h.refl _
  · exact keeps_then h (keeps_wrapping _ (keeps_loadGroupConfig h gid)) fun _ =>
      keeps_updateGroup h _

theorem keeps_deleteRoutingProfile (gid : ℤ) (id : String) :
    Keeps R (deleteRoutingProfile gid id) := by
  refine keeps_then h (keeps_get h.refl) fun w =>
    keeps_then h (keeps_then h (keeps_get h.refl) fun _ => h.remove _) fun _ =>
      keeps_then h (keeps_then h (keeps_get h.refl) fun _ => h.remove _) fun _ =>
        keeps_then h (keeps_attempt (keeps_loadGroupConfig h gid)) fun r => ?_
  cases r with
  | error e => exact keeps_done h ()
  | ok group =>
    simp only
    split
    · exact keeps_then h (keeps_attempt (keeps_updateGroup h _)) fun _ => keeps_done h ()
    · exact keeps_done h ()

theorem keeps_migrateToEncrypted : Keeps R migrateToEncrypted := by
  refine keeps_then h (h.migrate _) fun _ => keeps_then h (h.migrate _) fun _ =>
    keeps_then h (keeps_readsAs h (readsAs_readDir _)) fun gids =>
      keeps_forEach h.refl h.trans gids fun gid _ => ?_
  exact keeps_then h (h.migrate _) fun _ => keeps_then h (keeps_readsAs h (readsAs_readDir _))
    fun entries => keeps_forEach h.refl h.trans entries fun path _ => h.migrate path

/-- What every effect keeps, every operation keeps. -/
theorem keeps_op (subscriptionHost : String → String) (op : ReadOnly.Op) (w : World) :
    R w (op.run subscriptionHost w) := by
  cases op with
  | addProfile data => exact keeps_addProfile h data w
  | updateProfile p => exact keeps_updateProfile h p w
  | renameProfile gid id name => exact keeps_renameProfile h gid id name w
  | moveProfile fromGroup toGroup id => exact keeps_moveProfile h fromGroup toGroup id w
  | deleteProfile gid id => exact keeps_deleteProfile h gid id w
  | reorderProfiles gid ids => exact keeps_reorderProfiles h gid ids w
  | updateGroupAndProfiles gid entries keepProfileID =>
    exact keeps_updateGroupAndProfiles h gid keepProfileID entries w
  | saveGroup g => exact keeps_updateGroup h g w
  | addGroup name url => exact keeps_addGroup h subscriptionHost name url w
  | updateGroupConfig gid name url autoUpdate updateInterval =>
    exact keeps_updateGroupConfig h subscriptionHost gid name url autoUpdate updateInterval w
  | mergeSubscriptionFields gid f => exact keeps_mergeSubscriptionFields h gid f w
  | deleteGroup gid => exact keeps_deleteGroup h gid w
  | reorderGroups ids => exact keeps_reorderGroups h ids w
  | saveRouting cfg => exact h.write .routing (.routing cfg) trivial w
  | saveGroupRouting gid cfg => exact keeps_saveGroupRouting h gid cfg w
  | deleteGroupRouting gid => exact h.erase (.groupRouting gid) w
  | setManualRoutingSource gid source => exact keeps_setManualRoutingSource h gid source w
  | saveRoutingProfile p => exact keeps_saveRoutingProfile h p w
  | deleteRoutingProfile gid id => exact keeps_deleteRoutingProfile h gid id w
  | setActiveRoutingProfile gid id => exact keeps_setActiveRoutingProfile h gid id w
  | setGroupRoutingMode gid mode => exact keeps_setGroupRoutingMode h gid mode w
  | migrateToEncrypted => exact keeps_migrateToEncrypted h w

end Operations

section Filing

variable {path : Path} {p : Payload} {w w' : World}

/-- Fewer files, or the same ones, stay where they belong. -/
theorem filed_of_files (h : ∀ path b, readFile path w'.disk = some b →
    readFile path w.disk = some b) (hw : Filed w) : Filed w' :=
  fun path b k p hb => hw path b k p (h path b hb)

theorem filed_store (hp : Fits path p) (hw : Filed w) : Filed (store path p w) := by
  intro q b k r hb hr
  rw [readFile_store] at hb
  split at hb
  · rename_i hq
    obtain rfl := Option.some.inj hb
    obtain rfl : p = r := by
      simp only [openBlob] at hr
      split at hr
      · exact Option.some.inj hr
      · simp at hr
    exact hq ▸ hp
  · exact hw q b k r hb hr

theorem fits_rawPayload {b : Blob} (hw : Filed w) (hb : readFile path w.disk = some b)
    (hp : rawPayload b = some p) : Fits path p := by
  cases b with
  | sealed k n q => simp [rawPayload] at hp
  | tampered bytes => simp [rawPayload] at hp
  | plain q =>
    obtain rfl : q = p := by simpa [rawPayload] using hp
    exact hw path (.plain q) [] q hb rfl
  | junk bytes =>
    obtain rfl : .bytes bytes = p := by simpa [rawPayload] using hp
    cases path <;> trivial

theorem filed_migrate (path : Path) : Keeps KeepsFiled (migrateFileToEncrypted path) := by
  intro w hw
  unfold migrateFileToEncrypted
  split
  · exact hw
  · rename_i p hp
    obtain ⟨b,hb,hraw⟩ := Option.bind_eq_some_iff.mp hp
    split
    · exact hw
    · exact filed_store (fits_rawPayload hw hb hraw) hw

theorem primitive_filed : Primitive KeepsFiled where
  refl _ := id
  trans _ _ _ h h' := h' ∘ h
  reads w w' h := filed_of_files fun path b hb => by rwa [h.disk] at hb
  write path p hp w hw := by
    rcases write_cases path p w with ⟨_,h⟩ | ⟨_,_,h⟩ | ⟨_,_,h⟩ <;> rw [h]
    · exact hw
    · exact hw
    · exact filed_store hp hw
  migrate := filed_migrate
  mkdir path w := filed_of_files fun q b hb => by
    simpa [osMkdirAll,readFile_mkdirFor] using hb
  remove under w := filed_of_files fun q b hb => by
    simp only [osRemoveAll,modify_run,readFile_removeAll] at hb
    split at hb
    · simp at hb
    · exact hb
  erase path w := filed_of_files fun q b hb => by
    simp only [Database.remove,modify_run,readFile_erase] at hb
    split at hb
    · simp at hb
    · exact hb

/-- A directory without groups. -/
def Fresh (w : World) : Prop := ∀ path ∈ w.disk.keys, path.group? = none

instance (w : World) : Decidable (Fresh w) := by
  unfold Fresh
  infer_instance

/-- A database directory the operations have built. -/
inductive Built (subscriptionHost : String → String) : World → Prop
  | fresh {w : World} (h : Fresh w) : Built subscriptionHost w
  | op {w : World} (op : ReadOnly.Op) (h : Built subscriptionHost w) :
      Built subscriptionHost (op.run subscriptionHost w)

theorem filed_fresh (h : Fresh w) : Filed w := by
  intro path b k p hb _
  have hmem : path ∈ w.disk.keys := by
    rw [← AList.mem_keys,← AList.lookup_isSome,lookup_of_readFile hb]
    rfl
  have hnone := h path hmem
  cases path <;> trivial

theorem filed_built {subscriptionHost : String → String} (h : Built subscriptionHost w) :
    Filed w := by
  induction h with
  | fresh h => exact filed_fresh h
  | op op _ ih => exact keeps_op primitive_filed subscriptionHost op _ ih

theorem filed_group {gid : ℤ} {g : Group} (hw : Filed w)
    (hg : groupAt gid w.disk w.key = some g) : g.id = gid := by
  obtain ⟨b,hb,hp⟩ := Option.bind_eq_some_iff.mp hg
  obtain ⟨p,hp,ht⟩ := Option.bind_eq_some_iff.mp hp
  have hf := hw _ b w.key p hb hp
  cases p <;> simp [Payload.asGroup] at ht
  exact ht ▸ hf

theorem filed_routingProfile {gid : ℤ} {id : String} {p : RoutingProfile} (hw : Filed w)
    (hp : fileAt (.routingProfile gid id) Payload.asRoutingProfile w.disk w.key = some p) :
    p.groupId = gid ∧ p.id = id := by
  obtain ⟨b,hb,hp⟩ := Option.bind_eq_some_iff.mp hp
  obtain ⟨q,hq,ht⟩ := Option.bind_eq_some_iff.mp hp
  have hf := hw _ b w.key q hb hq
  cases q <;> simp [Payload.asRoutingProfile] at ht
  exact ht ▸ hf

end Filing

end Whoisthat.FiledRecords
