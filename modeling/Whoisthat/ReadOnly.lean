import Whoisthat.SyncWrites
import Whoisthat.ProfileStore
import Whoisthat.GroupStore
import Whoisthat.RoutingStore

/-!
# Operations on a read-only database

The read-only flag guards the encrypted writer alone. Operations that write
before they remove anything stop at the refused write; deletions remove files
directly, and the migration to encrypted files has a writer of its own.
-/

set_option autoImplicit false

namespace Whoisthat.ReadOnly
open Whoisthat.FileStore Whoisthat.FallibleState Whoisthat.Records Whoisthat.Database
open Whoisthat.GroupFiles Whoisthat.GroupSync Whoisthat.SyncWrites Whoisthat.ProfileStore
open Whoisthat.GroupStore Whoisthat.RoutingStore

/-- Every file that existed is still there, byte for byte. -/
def KeepsFiles (w w' : World) : Prop :=
  ∀ path b, readFile path w.disk = some b → readFile path w'.disk = some b

/-- On a read-only database nothing changes. -/
def Held (w w' : World) : Prop :=
  w.degraded = true → w'.degraded = true ∧ w'.root = w.root ∧
    ∀ path, readFile path w'.disk = readFile path w.disk

section Holding

variable {α β : Type}

theorem held_refl (w : World) : Held w w := fun h => ⟨h,rfl,fun _ => rfl⟩

theorem held_trans (u v w : World) (h : Held u v) (h' : Held v w) : Held u w := fun hd =>
  have hv := h hd
  have hw := h' hv.1
  ⟨hw.1,hw.2.1.trans hv.2.1,fun path => (hw.2.2 path).trans (hv.2.2 path)⟩

theorem held_read {path : Path} {target : Payload → Option α} :
    Keeps Held (readEncryptedJSON path target) := by
  intro w hd
  unfold readEncryptedJSON
  split
  · exact ⟨hd,rfl,fun _ => rfl⟩
  · split
    · split <;> exact ⟨hd,rfl,fun _ => rfl⟩
    · split
      · exact ⟨rfl,rfl,fun _ => rfl⟩
      · exact ⟨hd,rfl,fun _ => rfl⟩

theorem held_readDir {ι : Type} (name : Path → Option ι) : Keeps Held (readDir name) :=
  fun w => held_refl w

theorem held_osMkdirAll (path : Path) : Keeps Held (osMkdirAll path) :=
  fun _ hd => ⟨hd,rfl,fun q => readFile_mkdirFor q path _⟩

/-- A program that does nothing but fail on a read-only database. -/
def Refused (m : DBM α) : Prop := ∀ w, w.degraded = true → ∃ e, m w = (.error e,w)

theorem refused_write (path : Path) (data : Payload) :
    Refused (writeEncryptedJSON path data) :=
  fun w hd => ⟨.readOnly path,by rw [writeEncryptedJSON,if_pos hd]⟩

theorem refused_wrapping {m : DBM α} (wrap : DBError → DBError) (h : Refused m) :
    Refused (wrapping wrap m) := by
  intro w hd
  obtain ⟨e,he⟩ := h w hd
  exact ⟨wrap e,by simp only [wrapping,he]⟩

theorem held_refused {m : DBM α} (h : Refused m) : Keeps Held m := by
  intro w hd
  obtain ⟨e,he⟩ := h w hd
  rw [he]
  exact ⟨hd,rfl,fun _ => rfl⟩

/-- Nothing after a refused write happens. -/
theorem held_after_refused {m : DBM α} {f : α → DBM β} (h : Refused m) :
    Keeps Held (m >>= f) := by
  intro w hd
  obtain ⟨e,he⟩ := h w hd
  rw [bind_of_error he]
  exact ⟨hd,rfl,fun _ => rfl⟩

theorem held_bind {m : DBM α} {f : α → DBM β} (hm : Keeps Held m) (hf : ∀ a, Keeps Held (f a)) :
    Keeps Held (m >>= f) := keeps_bind held_trans hm hf

theorem held_gather {ι : Type} {read : ι → DBM α} (h : ∀ i, Keeps Held (read i)) (is : List ι) :
    Keeps Held (gather read is) := by
  induction is with
  | nil => exact keeps_pure held_refl []
  | cons i is ih =>
    exact held_bind (keeps_attempt (h i)) fun _ => held_bind ih fun _ => keeps_pure held_refl _

end Holding

section Programs

theorem held_loadGroupConfig (gid : ℤ) : Keeps Held (loadGroupConfig gid) :=
  keeps_wrapping _ held_read

theorem held_getProfile (gid id : ℤ) : Keeps Held (getProfile gid id) :=
  keeps_wrapping _ held_read

theorem refused_saveGroupConfig (g : Group) : Refused (saveGroupConfig g) :=
  refused_wrapping _ (refused_write _ _)

theorem refused_updateGroup (g : Group) : Refused (updateGroup g) :=
  refused_wrapping _ (refused_write _ _)

theorem held_getGroup (gid : ℤ) : Keeps Held (getGroupDataAndProfiles gid) :=
  held_bind (held_loadGroupConfig gid) fun _ => held_bind (held_readDir _) fun ids =>
    held_bind (held_gather (held_getProfile gid) ids) fun _ =>
      held_bind (held_bind (held_readDir _) fun ids =>
        held_bind (held_gather (fun _ => held_read) ids) fun _ => keeps_pure held_refl _)
        fun _ => keeps_pure held_refl _

theorem held_syncProfiles (gid : ℤ) (profiles : List Profile) (keep : Keep)
    (entries : List DBAddProfileData) (st : Sync) :
    Keeps Held (syncProfiles gid profiles keep st entries) := by
  induction entries generalizing st with
  | nil => exact keeps_pure held_refl st
  | cons d ds ih =>
    unfold syncProfiles
    split
    · exact ih st
    · exact held_bind (held_after_refused (refused_wrapping _ (refused_write _ _)))
        fun _ => ih _

theorem held_updateGroupAndProfiles (gid keepProfileID : ℤ) (entries : List DBAddProfileData) :
    Keeps Held (updateGroupAndProfiles gid entries keepProfileID) :=
  held_bind (keeps_wrapping _ (held_getGroup gid)) fun _ =>
    held_bind (held_syncProfiles gid _ _ entries _) fun _ =>
      held_after_refused (refused_saveGroupConfig _)

theorem held_addProfile (data : DBAddProfileData) : Keeps Held (addProfile data) :=
  held_bind (held_loadGroupConfig _) fun _ => held_after_refused (refused_saveGroupConfig _)

theorem held_updateProfile (p : Profile) : Keeps Held (updateProfile p) := by
  refine held_bind (keeps_wrapping _ (held_getProfile _ _)) fun old => ?_
  split
  · exact keeps_fail held_refl _
  · exact held_refused (refused_wrapping _ (refused_write _ _))

theorem held_renameProfile (gid id : ℤ) (name : String) : Keeps Held (renameProfile gid id name) :=
  held_bind (held_getProfile gid id) fun _ =>
    held_bind (held_updateProfile _) fun _ => keeps_pure held_refl _

theorem held_reorderProfiles (gid : ℤ) (ids : List ℤ) : Keeps Held (reorderProfiles gid ids) :=
  held_bind (keeps_wrapping _ (held_loadGroupConfig gid)) fun _ =>
    held_refused (refused_saveGroupConfig _)

theorem held_moveProfile (fromGroup toGroup id : ℤ) :
    Keeps Held (moveProfile fromGroup toGroup id) := by
  unfold moveProfile
  split
  · exact keeps_fail held_refl _
  · exact held_bind (keeps_wrapping _ (held_getProfile _ _)) fun _ =>
      held_bind (keeps_wrapping _ (held_loadGroupConfig _)) fun _ =>
        held_after_refused (refused_wrapping _ (refused_write _ _))

theorem held_dropFromOrder (gid id : ℤ) : Keeps Held (dropFromOrder gid id) := by
  refine held_bind (keeps_attempt (held_loadGroupConfig gid)) fun r => ?_
  cases r with
  | error e => exact keeps_pure held_refl ()
  | ok g =>
    exact held_bind (keeps_attempt (held_refused (refused_saveGroupConfig _))) fun _ =>
      keeps_pure held_refl ()

theorem held_dropFromGroupOrder (gid : ℤ) : Keeps Held (dropFromGroupOrder gid) := by
  refine held_bind (keeps_attempt held_read) fun r => ?_
  cases r with
  | error e => exact keeps_pure held_refl ()
  | ok c =>
    exact held_bind (keeps_attempt (held_refused (refused_write _ _))) fun _ =>
      keeps_pure held_refl ()

theorem held_addGroup (subscriptionHost : String → String) (name url : String) :
    Keeps Held (addGroup subscriptionHost name url) :=
  held_bind held_read fun _ => held_after_refused (refused_write _ _)

theorem held_reorderGroups (ids : List ℤ) : Keeps Held (reorderGroups ids) :=
  held_bind (keeps_wrapping _ held_read) fun _ => held_refused (refused_write _ _)

theorem held_updateGroupConfig (subscriptionHost : String → String) (gid : ℤ) (name url : String)
    (autoUpdate : Option Bool) (updateInterval : Option ℤ) :
    Keeps Held (updateGroupConfig subscriptionHost gid name url autoUpdate updateInterval) := by
  refine held_bind (keeps_wrapping _ (held_loadGroupConfig gid)) fun g => ?_
  split
  · exact keeps_fail held_refl _
  · exact held_after_refused (refused_updateGroup _)

theorem held_mergeSubscriptionFields (gid : ℤ) (f : SubscriptionFields) :
    Keeps Held (mergeSubscriptionFields gid f) :=
  held_bind (held_loadGroupConfig gid) fun _ => held_after_refused (refused_updateGroup _)

theorem held_saveGroupRouting (gid : ℤ) (cfg : RoutingConfig) :
    Keeps Held (saveGroupRouting gid cfg) :=
  held_bind (held_osMkdirAll _) fun _ => held_refused (refused_write _ _)

theorem held_saveRoutingProfile (p : RoutingProfile) : Keeps Held (saveRoutingProfile p) :=
  held_bind (held_osMkdirAll _) fun _ => held_refused (refused_write _ _)

theorem held_loadRouting : Keeps Held loadRouting := by
  refine held_bind (keeps_attempt held_read) fun r => ?_
  cases r <;> exact keeps_pure held_refl _

theorem held_ensureGroupRouting (gid : ℤ) : Keeps Held (ensureGroupRouting gid) := by
  refine held_bind (keeps_get held_refl) fun w => ?_
  split
  · exact keeps_pure held_refl ()
  · exact held_bind held_loadRouting fun cfg => held_saveGroupRouting gid cfg

theorem held_setManualRoutingSource (gid : ℤ) (source : String) :
    Keeps Held (setManualRoutingSource gid source) := by
  unfold setManualRoutingSource
  split
  · exact keeps_fail held_refl _
  · simp only
    split
    · exact keeps_fail held_refl _
    · exact held_bind (keeps_wrapping _ (held_loadGroupConfig gid)) fun _ =>
        held_bind (keeps_when held_refl fun _ => held_ensureGroupRouting gid) fun _ =>
          held_refused (refused_updateGroup _)

theorem held_geoReady (p : RoutingProfile) : Keeps Held (geoReady p) := by
  refine held_bind (keeps_get held_refl) fun w => ?_
  simp only
  split
  · exact keeps_pure held_refl ()
  · split
    · exact keeps_fail held_refl _
    · split
      · exact keeps_fail held_refl _
      · exact keeps_pure held_refl ()

theorem held_setActiveRoutingProfile (gid : ℤ) (id : String) :
    Keeps Held (setActiveRoutingProfile gid id) := by
  refine held_bind (keeps_wrapping _ (held_loadGroupConfig gid)) fun _ =>
    held_bind (keeps_when held_refl fun _ => held_bind (keeps_wrapping _ held_read) fun p => ?_)
      fun _ => held_refused (refused_updateGroup _)
  split
  · exact keeps_fail held_refl _
  · split
    · exact keeps_fail held_refl _
    · exact held_geoReady p

theorem held_setGroupRoutingMode (gid : ℤ) (mode : String) :
    Keeps Held (setGroupRoutingMode gid mode) := by
  unfold setGroupRoutingMode
  simp only
  split
  · exact keeps_fail held_refl _
  · exact held_bind (keeps_wrapping _ (held_loadGroupConfig gid)) fun _ =>
      held_refused (refused_updateGroup _)

end Programs

section Migration

/-- The file is there and not encrypted. -/
def pending (t : Tree) (path : Path) : Bool := ((readFile path t).bind rawPayload).isSome

def pendingIn (t : Tree) (paths : List Path) : ℕ := paths.countP (pending t)

/-- How many writes fail before one goes through. -/
def failing (faults : List Bool) : ℕ := (faults.takeWhile id).length

/-- Files stay, or an unencrypted one has been encrypted. -/
def Encrypts (w w' : World) : Prop := ∀ path b, readFile path w.disk = some b →
  readFile path w'.disk = some b ∨
    (b.encrypted = false ∧ ∃ b', readFile path w'.disk = some b' ∧ b'.encrypted = true)

theorem encrypts_refl (w : World) : Encrypts w w := fun _ _ h => Or.inl h

theorem encrypts_trans (u v w : World) (h : Encrypts u v) (h' : Encrypts v w) : Encrypts u w := by
  intro path b hb
  rcases h path b hb with hv | ⟨he,b',hv,he'⟩
  · exact h' path b hv
  · rcases h' path b' hv with hw | ⟨hn,-⟩
    · exact Or.inr ⟨he,b',hw,he'⟩
    · simp [he'] at hn

/-- What has been encrypted in place stays changed. -/
theorem changed_stays {u v w : World} (h : Encrypts u v) (h' : Encrypts v w)
    (hc : ¬KeepsFiles u v) : ¬KeepsFiles u w := by
  intro hk
  apply hc
  intro path b hb
  rcases h path b hb with hv | ⟨he,b',hv,he'⟩
  · exact hv
  · rcases h' path b' hv with hw | ⟨hn,-⟩
    · have hbb : b' = b := Option.some.inj (hw.symm.trans (hk path b hb))
      rw [hbb,he] at he'
      simp at he'
    · simp [he'] at hn

def skipFaults (n : ℕ) (w : World) : World := { w with faults := w.faults.drop n }

/-- `m` meets `n` unencrypted files: it leaves all as they are when that many
writes fail, and changes one otherwise. -/
structure Stalls (m : DBM Unit) (w : World) (n : ℕ) : Prop where
  stalled : n ≤ failing w.faults → m w = (.ok (),skipFaults n w)
  changed : failing w.faults < n → ¬KeepsFiles w (m w).2
  ok : ∃ w', m w = (.ok (),w')

theorem rawPayload_none {b : Blob} : rawPayload b = none ↔ b.encrypted = true := by
  cases b <;> simp [rawPayload,Blob.encrypted]

theorem migrateFile_encrypts (path : Path) : Keeps Encrypts (migrateFileToEncrypted path) := by
  intro w
  unfold migrateFileToEncrypted
  cases hp : (readFile path w.disk).bind rawPayload with
  | none => exact encrypts_refl w
  | some p =>
    simp only
    split
    · exact fun _ _ h => Or.inl h
    · intro q b hb
      by_cases hq : q = path
      · subst hq
        rw [hb,Option.bind_some] at hp
        refine Or.inr ⟨?_,_,by rw [readFile_store,if_pos rfl],rfl⟩
        cases he : b.encrypted with
        | false => rfl
        | true => simp [rawPayload_none.mpr he] at hp
      · exact Or.inl (by rw [readFile_store,if_neg hq,hb])

theorem failing_pos {faults : List Bool} : 1 ≤ failing faults ↔ faults.head? = some true := by
  cases faults with
  | nil => simp [failing]
  | cons b rest => cases b <;> simp [failing]

theorem failing_drop {faults : List Bool} {n : ℕ} (h : n ≤ failing faults) :
    failing (faults.drop n) = failing faults - n := by
  induction n generalizing faults with
  | zero => simp
  | succ n ih =>
    cases faults with
    | nil => simp [failing] at h ⊢
    | cons b rest =>
      cases b with
      | false => simp [failing] at h
      | true =>
        have h' : n ≤ failing rest := by simpa [failing] using h
        rw [List.drop_succ_cons,ih h']
        simp [failing]

theorem migrateFile_run {path : Path} {w : World} {p : Payload}
    (hp : (readFile path w.disk).bind rawPayload = some p) :
    migrateFileToEncrypted path w =
      (.ok (),if w.faults.head? = some true then skipFaults 1 w else store path p w) := by
  simp only [migrateFileToEncrypted,hp]
  cases hf : w.faults with
  | nil => simp
  | cons b rest => cases b <;> simp [skipFaults,hf]

theorem migrateFile_stalls (path : Path) (w : World) :
    Stalls (migrateFileToEncrypted path) w (pendingIn w.disk [path]) := by
  cases hp : (readFile path w.disk).bind rawPayload with
  | none =>
    have hn : pendingIn w.disk [path] = 0 := by simp [pendingIn,pending,hp]
    have hrun : migrateFileToEncrypted path w = (.ok (),w) := by
      simp only [migrateFileToEncrypted,hp]
    rw [hn]
    exact ⟨fun _ => by rw [hrun]; rfl,fun h => absurd h (Nat.not_lt_zero _),_,hrun⟩
  | some p =>
    have hn : pendingIn w.disk [path] = 1 := by simp [pendingIn,pending,hp]
    have hrun := migrateFile_run hp
    rw [hn]
    refine ⟨fun h => ?_,fun h hk => ?_,_,hrun⟩
    · rw [hrun,if_pos (failing_pos.mp h)]
    · obtain ⟨b,hb,hraw⟩ := Option.bind_eq_some_iff.mp hp
      have hf : ¬w.faults.head? = some true := fun hf => absurd (failing_pos.mpr hf) (by omega)
      rw [hrun,if_neg hf] at hk
      have hkept := hk path b hb
      rw [readFile_store,if_pos rfl,Option.some.injEq] at hkept
      rw [← hkept] at hraw
      simp [rawPayload] at hraw

theorem stalls_done (w : World) : Stalls (pure ()) w 0 :=
  ⟨fun _ => rfl,fun h => absurd h (Nat.not_lt_zero _),w,rfl⟩

theorem stalls_readDir {ι : Type} {name : Path → Option ι} {f : List ι → DBM Unit} {w : World}
    {n : ℕ} (h : Stalls (f (listing name w.disk)) w n) : Stalls (readDir name >>= f) w n :=
  ⟨h.stalled,h.changed,h.ok⟩

theorem stalls_bind {m f : DBM Unit} {w : World} {n k : ℕ} (hm : Stalls m w n)
    (hmenc : Encrypts w (m w).2) (hfenc : Keeps Encrypts f)
    (hok : ∀ w', ∃ w'', f w' = (.ok (),w'')) (hf : n ≤ failing w.faults → Stalls f (skipFaults n w) k) :
    Stalls (m >>= fun _ => f) w (n+k) := by
  obtain ⟨w₁,hw₁⟩ := hm.ok
  have hrun : (m >>= fun _ => f) w = f w₁ := bind_of_ok hw₁
  refine ⟨fun h => ?_,fun h => ?_,?_⟩
  · have hn : n ≤ failing w.faults := by omega
    have hskip : w₁ = skipFaults n w := (Prod.mk.inj (hw₁.symm.trans (hm.stalled hn))).2
    have hk : k ≤ failing (skipFaults n w).faults := by
      rw [skipFaults,failing_drop hn]
      omega
    rw [hrun,hskip,(hf hn).stalled hk]
    simp [skipFaults,List.drop_drop]
  · rw [hrun]
    rw [hw₁] at hmenc
    by_cases hn : n ≤ failing w.faults
    · have hskip : w₁ = skipFaults n w := (Prod.mk.inj (hw₁.symm.trans (hm.stalled hn))).2
      have hk : failing (skipFaults n w).faults < k := by
        rw [skipFaults,failing_drop hn]
        omega
      rw [hskip]
      exact (hf hn).changed hk
    · have hchanged := hm.changed (by omega)
      rw [hw₁] at hchanged
      exact changed_stays hmenc (hfenc w₁) hchanged
  · rw [hrun]
    exact hok w₁

theorem migrateFile_ok (path : Path) (w : World) :
    ∃ w', migrateFileToEncrypted path w = (.ok (),w') := (migrateFile_stalls path w).ok

theorem forEach_ok {ι : Type} {f : ι → DBM Unit} (h : ∀ i w, ∃ w', f i w = (.ok (),w'))
    (is : List ι) (w : World) : ∃ w', forEach f is w = (.ok (),w') := by
  induction is generalizing w with
  | nil => exact ⟨w,rfl⟩
  | cons i is ih =>
    obtain ⟨w₁,hw₁⟩ := h i w
    obtain ⟨w₂,hw₂⟩ := ih w₁
    exact ⟨w₂,(bind_of_ok hw₁).trans hw₂⟩

theorem forEach_stalls {ι : Type} {f : ι → DBM Unit} {paths : ι → Tree → List Path}
    (hf : ∀ i w, Stalls (f i) w (pendingIn w.disk (paths i w.disk)))
    (henc : ∀ i, Keeps Encrypts (f i)) (is : List ι) (w : World) :
    Stalls (forEach f is) w (pendingIn w.disk (is.flatMap fun i => paths i w.disk)) := by
  induction is generalizing w with
  | nil => exact stalls_done w
  | cons i is ih =>
    rw [List.flatMap_cons,pendingIn,List.countP_append]
    exact stalls_bind (hf i w) (henc i w)
      (keeps_forEach encrypts_refl encrypts_trans is fun j _ => henc j)
      (forEach_ok (fun j w => (hf j w).ok) is) fun _ => ih _

/-- The files of one group the migration looks at. -/
def groupTargets (gid : ℤ) (t : Tree) : List Path :=
  .groupConfig gid :: listing (groupEntryName gid) t

def migrationTargets (t : Tree) : List Path :=
  .dbConfig :: .routing :: (listing groupDirName t).flatMap fun gid => groupTargets gid t

theorem migrateAll_stalls (paths : List Path) (w : World) :
    Stalls (forEach migrateFileToEncrypted paths) w (pendingIn w.disk paths) := by
  have h := @forEach_stalls _ migrateFileToEncrypted (fun path _ => [path])
    (fun path w => migrateFile_stalls path w) migrateFile_encrypts paths w
  simpa using h

theorem encrypts_forEach (paths : List Path) :
    Keeps Encrypts (forEach migrateFileToEncrypted paths) :=
  keeps_forEach encrypts_refl encrypts_trans paths fun path _ => migrateFile_encrypts path

theorem migrateGroup_encrypts (gid : ℤ) : Keeps Encrypts (migrateGroup gid) :=
  keeps_bind encrypts_trans (migrateFile_encrypts _) fun _ =>
    keeps_bind encrypts_trans (fun w => encrypts_refl w) fun paths => encrypts_forEach paths

theorem migrateGroup_stalls (gid : ℤ) (w : World) :
    Stalls (migrateGroup gid) w (pendingIn w.disk (groupTargets gid w.disk)) := by
  have hsplit : pendingIn w.disk (groupTargets gid w.disk) =
      pendingIn w.disk [.groupConfig gid] + pendingIn w.disk (listing (groupEntryName gid) w.disk) := by
    rw [groupTargets,pendingIn,pendingIn,pendingIn,← List.countP_append]
    rfl
  rw [hsplit]
  exact stalls_bind (migrateFile_stalls _ w) (migrateFile_encrypts _ w)
    (keeps_bind encrypts_trans (fun w => encrypts_refl w) fun paths => encrypts_forEach paths)
    (fun w' => forEach_ok migrateFile_ok (listing (groupEntryName gid) w'.disk) w')
    fun _ => stalls_readDir (migrateAll_stalls _ (skipFaults _ w))

/-- The migration leaves the files as they are exactly when a write fails for
each unencrypted one. -/
theorem migrate_stalls (w : World) :
    Stalls migrateToEncrypted w (pendingIn w.disk (migrationTargets w.disk)) := by
  have hsplit : pendingIn w.disk (migrationTargets w.disk) =
      pendingIn w.disk [.dbConfig] + (pendingIn w.disk [.routing] + pendingIn w.disk
        ((listing groupDirName w.disk).flatMap fun gid => groupTargets gid w.disk)) := by
    simp only [migrationTargets,pendingIn,← List.countP_append]
    rfl
  have hgroups : Keeps Encrypts (readDir groupDirName >>= fun gids => forEach migrateGroup gids) :=
    keeps_bind encrypts_trans (fun w => encrypts_refl w) fun gids =>
      keeps_forEach encrypts_refl encrypts_trans gids fun gid _ => migrateGroup_encrypts gid
  rw [hsplit]
  refine stalls_bind (migrateFile_stalls _ w) (migrateFile_encrypts _ w)
    (keeps_bind encrypts_trans (migrateFile_encrypts _) fun _ => hgroups) (fun w' => ?_)
    fun _ => stalls_bind (migrateFile_stalls _ (skipFaults _ w)) (migrateFile_encrypts _ _) hgroups
      (fun w' => forEach_ok (fun gid w => (migrateGroup_stalls gid w).ok) _ w')
      fun _ => stalls_readDir (forEach_stalls migrateGroup_stalls migrateGroup_encrypts _ _)
  obtain ⟨w₁,hw₁⟩ := migrateFile_ok .routing w'
  obtain ⟨w₂,hw₂⟩ := forEach_ok (fun gid w => (migrateGroup_stalls gid w).ok)
    (listing groupDirName w₁.disk) w₁
  exact ⟨w₂,(bind_of_ok hw₁).trans hw₂⟩

end Migration

section Operations

inductive Op where
  | addProfile (data : DBAddProfileData)
  | updateProfile (profile : Profile)
  | renameProfile (gid id : ℤ) (name : String)
  | moveProfile (fromGroup toGroup id : ℤ)
  | deleteProfile (gid id : ℤ)
  | reorderProfiles (gid : ℤ) (ids : List ℤ)
  | updateGroupAndProfiles (gid : ℤ) (entries : List DBAddProfileData) (keepProfileID : ℤ)
  | saveGroup (group : Group)
  | addGroup (name url : String)
  | updateGroupConfig (gid : ℤ) (name url : String) (autoUpdate : Option Bool)
      (updateInterval : Option ℤ)
  | mergeSubscriptionFields (gid : ℤ) (fields : SubscriptionFields)
  | deleteGroup (gid : ℤ)
  | reorderGroups (ids : List ℤ)
  | saveRouting (cfg : RoutingConfig)
  | saveGroupRouting (gid : ℤ) (cfg : RoutingConfig)
  | deleteGroupRouting (gid : ℤ)
  | setManualRoutingSource (gid : ℤ) (source : String)
  | saveRoutingProfile (p : RoutingProfile)
  | deleteRoutingProfile (gid : ℤ) (id : String)
  | setActiveRoutingProfile (gid : ℤ) (id : String)
  | setGroupRoutingMode (gid : ℤ) (mode : String)
  | migrateToEncrypted

variable (subscriptionHost : String → String)

def Op.run : Op → World → World
  | .addProfile data, w => (ProfileStore.addProfile data w).2
  | .updateProfile p, w => (ProfileStore.updateProfile p w).2
  | .renameProfile gid id name, w => (ProfileStore.renameProfile gid id name w).2
  | .moveProfile fromGroup toGroup id, w => (ProfileStore.moveProfile fromGroup toGroup id w).2
  | .deleteProfile gid id, w => (ProfileStore.deleteProfile gid id w).2
  | .reorderProfiles gid ids, w => (ProfileStore.reorderProfiles gid ids w).2
  | .updateGroupAndProfiles gid entries keepProfileID, w =>
    (GroupSync.updateGroupAndProfiles gid entries keepProfileID w).2
  | .saveGroup group, w => (GroupStore.saveGroup group w).2
  | .addGroup name url, w => (GroupStore.addGroup subscriptionHost name url w).2
  | .updateGroupConfig gid name url autoUpdate updateInterval, w =>
    (GroupStore.updateGroupConfig subscriptionHost gid name url autoUpdate updateInterval w).2
  | .mergeSubscriptionFields gid fields, w => (GroupStore.mergeSubscriptionFields gid fields w).2
  | .deleteGroup gid, w => (GroupStore.deleteGroup gid w).2
  | .reorderGroups ids, w => (GroupStore.reorderGroups ids w).2
  | .saveRouting cfg, w => (RoutingStore.saveRouting cfg w).2
  | .saveGroupRouting gid cfg, w => (RoutingStore.saveGroupRouting gid cfg w).2
  | .deleteGroupRouting gid, w => (RoutingStore.deleteGroupRouting gid w).2
  | .setManualRoutingSource gid source, w => (RoutingStore.setManualRoutingSource gid source w).2
  | .saveRoutingProfile p, w => (GroupFiles.saveRoutingProfile p w).2
  | .deleteRoutingProfile gid id, w => (RoutingStore.deleteRoutingProfile gid id w).2
  | .setActiveRoutingProfile gid id, w => (RoutingStore.setActiveRoutingProfile gid id w).2
  | .setGroupRoutingMode gid mode, w => (RoutingStore.setGroupRoutingMode gid mode w).2
  | .migrateToEncrypted, w => (Database.migrateToEncrypted w).2

/-- The names an operation removes without asking the read-only flag. -/
def Op.removes (root : List String) : Op → Path → Prop
  | .deleteProfile gid id, path => path = .profile gid id ∨ path = .profileXrayConfig gid id
  | .deleteGroup gid, path => path.group? = some gid
  | .deleteGroupRouting gid, path => path = .groupRouting gid
  | .deleteRoutingProfile gid id, path =>
    root ++ path.components = joinPath (getRoutingDir root gid ++ ["profiles"]) (id ++ ".json") ∨
      joinPath (getRoutingDir root gid ++ ["geo"]) id <+: root ++ path.components
  | _, _ => False

/-- Nothing is there to remove, or to encrypt. -/
def Op.Harmless (w : World) : Op → Prop
  | .migrateToEncrypted => pendingIn w.disk (migrationTargets w.disk) ≤ failing w.faults
  | op => ∀ path, op.removes w.root path → readFile path w.disk = none

/-- Exactly the names in `P` are removed. -/
def Removes (P : Path → Prop) (w w' : World) : Prop :=
  ∀ path, (P path → readFile path w'.disk = none) ∧
    (¬P path → readFile path w'.disk = readFile path w.disk)

theorem keepsFiles_removes {P : Path → Prop} {w w' : World} (h : Removes P w w') :
    KeepsFiles w w' ↔ ∀ path, P path → readFile path w.disk = none := by
  constructor
  · intro hk path hp
    cases hb : readFile path w.disk with
    | none => rfl
    | some b =>
      have hkept := hk path b hb
      rw [(h path).1 hp] at hkept
      simp at hkept
  · intro hnone path b hb
    by_cases hp : P path
    · rw [hnone path hp] at hb
      simp at hb
    · rw [(h path).2 hp,hb]

theorem removes_held {P : Path → Prop} {u v w : World} (h : Removes P u v) (hd : v.degraded = true)
    (hh : Held v w) : Removes P u w := by
  obtain ⟨-,-,hfiles⟩ := hh hd
  exact fun path => ⟨fun hp => (hfiles path).trans ((h path).1 hp),
    fun hp => (hfiles path).trans ((h path).2 hp)⟩

theorem removes_trans {P Q : Path → Prop} {u v w : World} (h : Removes P u v)
    (h' : Removes Q v w) : Removes (fun path => P path ∨ Q path) u w := by
  intro path
  refine ⟨fun hp => ?_,fun hp => ?_⟩
  · by_cases hq : Q path
    · exact (h' path).1 hq
    · exact ((h' path).2 hq).trans ((h path).1 (hp.resolve_right hq))
  · rw [not_or] at hp
    exact ((h' path).2 hp.2).trans ((h path).2 hp.1)

theorem removes_nothing {w w' : World} (hd : w.degraded = true) (h : Held w w') :
    Removes (fun _ => False) w w' :=
  fun path => ⟨False.elim,fun _ => (h hd).2.2 path⟩

theorem removes_remove (path : Path) (w : World) :
    Removes (fun q => q = path) w (remove path w).2 :=
  fun q => ⟨fun h => by simp [remove,readFile_erase,h],
    fun h => by simp [remove,readFile_erase,h]⟩

theorem removes_osRemoveAll (under : Path → Bool) (w : World) :
    Removes (fun q => under q = true) w (osRemoveAll under w).2 :=
  fun q => ⟨fun h => by simp [osRemoveAll,readFile_removeAll,h],
    fun h => by simp [osRemoveAll,readFile_removeAll,h]⟩

theorem removes_removeAt (target : List String) (w : World) :
    Removes (fun q => w.root ++ q.components = target) w (removeAt target w).2 := by
  have h := removes_osRemoveAll (fun path => w.root ++ path.components = target) w
  simp only [decide_eq_true_eq] at h
  exact h

theorem removes_removeUnder (target : List String) (w : World) :
    Removes (fun q => target <+: w.root ++ q.components) w (removeUnder target w).2 := by
  have h := removes_osRemoveAll (fun path => target.isPrefixOf (w.root ++ path.components)) w
  simp only [List.isPrefixOf_iff_prefix] at h
  exact h

/-- What follows the removals of a deletion. -/
def deselect (gid : ℤ) (id : String) : DBM Unit := do
  match ← attempt (loadGroupConfig gid) with
  | .error _ => pure ()
  | .ok group =>
    if group.activeRoutingProfileId = id ∨ group.pendingActiveRoutingProfileId = id then
      let _ ← attempt (updateGroup (deselected group id))
      pure ()
    else pure ()

theorem removes_deleteRoutingProfile (gid : ℤ) (id : String) {w : World} (hd : w.degraded = true) :
    Removes (Op.removes w.root (.deleteRoutingProfile gid id)) w
      (RoutingStore.deleteRoutingProfile gid id w).2 := by
  have htail : Keeps Held (deselect gid id) := by
    refine held_bind (keeps_attempt (held_loadGroupConfig gid)) fun r => ?_
    cases r with
    | error e => exact keeps_pure held_refl ()
    | ok g =>
      simp only
      split
      · exact held_bind (keeps_attempt (held_refused (refused_updateGroup _))) fun _ =>
          keeps_pure held_refl ()
      · exact keeps_pure held_refl ()
  have hgone := removes_trans
    (removes_removeAt (joinPath (getRoutingDir w.root gid ++ ["profiles"]) (id ++ ".json")) w)
    (removes_removeUnder (joinPath (getRoutingDir w.root gid ++ ["geo"]) id)
      (removeAt (joinPath (getRoutingDir w.root gid ++ ["profiles"]) (id ++ ".json")) w).2)
  exact removes_held hgone hd (htail _)

/-- On a read-only database an operation leaves every file in place exactly
when it is harmless there. -/
theorem readOnly_keeps_files_iff (op : Op) (w : World) (hd : w.degraded = true) :
    KeepsFiles w (op.run subscriptionHost w) ↔ op.Harmless w := by
  cases op with
  | migrateToEncrypted =>
    have h := migrate_stalls w
    refine ⟨fun hk => ?_,fun hle => ?_⟩
    · by_contra hlt
      exact h.changed (by simpa [Op.Harmless] using hlt) hk
    · have hrun := h.stalled hle
      change KeepsFiles w (Database.migrateToEncrypted w).2
      rw [hrun]
      exact fun _ _ hb => hb
  | deleteProfile gid id =>
    exact keepsFiles_removes (removes_held (removes_trans (removes_remove _ w)
      (removes_remove _ _)) hd (held_dropFromOrder gid id _))
  | deleteGroup gid =>
    have h := removes_held (removes_osRemoveAll (inGroupDir gid) w) hd
      (held_dropFromGroupOrder gid _)
    simp only [inGroupDir,decide_eq_true_eq] at h
    exact keepsFiles_removes h
  | deleteGroupRouting gid => exact keepsFiles_removes (removes_remove (.groupRouting gid) w)
  | deleteRoutingProfile gid id =>
    exact keepsFiles_removes (removes_deleteRoutingProfile gid id hd)
  | addProfile data => exact keepsFiles_removes (removes_nothing hd (held_addProfile data w))
  | updateProfile p => exact keepsFiles_removes (removes_nothing hd (held_updateProfile p w))
  | renameProfile gid id name =>
    exact keepsFiles_removes (removes_nothing hd (held_renameProfile gid id name w))
  | moveProfile fromGroup toGroup id =>
    exact keepsFiles_removes (removes_nothing hd (held_moveProfile fromGroup toGroup id w))
  | reorderProfiles gid ids =>
    exact keepsFiles_removes (removes_nothing hd (held_reorderProfiles gid ids w))
  | updateGroupAndProfiles gid entries keepProfileID =>
    exact keepsFiles_removes
      (removes_nothing hd (held_updateGroupAndProfiles gid keepProfileID entries w))
  | saveGroup g =>
    exact keepsFiles_removes (removes_nothing hd (held_refused (refused_updateGroup g) w))
  | addGroup name url =>
    exact keepsFiles_removes (removes_nothing hd (held_addGroup subscriptionHost name url w))
  | updateGroupConfig gid name url autoUpdate updateInterval =>
    exact keepsFiles_removes (removes_nothing hd
      (held_updateGroupConfig subscriptionHost gid name url autoUpdate updateInterval w))
  | mergeSubscriptionFields gid f =>
    exact keepsFiles_removes (removes_nothing hd (held_mergeSubscriptionFields gid f w))
  | reorderGroups ids => exact keepsFiles_removes (removes_nothing hd (held_reorderGroups ids w))
  | saveRouting cfg =>
    exact keepsFiles_removes (removes_nothing hd (held_refused (refused_write _ _) w))
  | saveGroupRouting gid cfg =>
    exact keepsFiles_removes (removes_nothing hd (held_saveGroupRouting gid cfg w))
  | setManualRoutingSource gid source =>
    exact keepsFiles_removes (removes_nothing hd (held_setManualRoutingSource gid source w))
  | saveRoutingProfile p =>
    exact keepsFiles_removes (removes_nothing hd (held_saveRoutingProfile p w))
  | setActiveRoutingProfile gid id =>
    exact keepsFiles_removes (removes_nothing hd (held_setActiveRoutingProfile gid id w))
  | setGroupRoutingMode gid mode =>
    exact keepsFiles_removes (removes_nothing hd (held_setGroupRoutingMode gid mode w))

/-- One stored profile in a database that has been marked read-only. -/
def readOnlyGroup : World :=
  markDegraded (worldOf (newGroup 1 "g" 1) [profileOf 1 (uriEntry 1 "a" "a")] [])

/-- A deletion on a read-only database destroys the profile file. -/
theorem readOnly_delete_destroys :
    readOnlyGroup.degraded = true ∧
      ¬KeepsFiles readOnlyGroup (Op.run id (.deleteProfile 1 1) readOnlyGroup) := by
  refine ⟨rfl,fun hk => ?_⟩
  have hkept := hk (.profile 1 1) (.sealed [] 0 (.profile (profileOf 1 (uriEntry 1 "a" "a"))))
    (by decide)
  revert hkept
  decide

/-- A refresh of the same group is refused and changes nothing. -/
theorem readOnly_refresh_kept :
    KeepsFiles readOnlyGroup
      (Op.run id (.updateGroupAndProfiles 1 [uriEntry 1 "b" "b"] 0) readOnlyGroup) :=
  (readOnly_keeps_files_iff id _ readOnlyGroup rfl).mpr fun _ => False.elim

end Operations

end Whoisthat.ReadOnly
