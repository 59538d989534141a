import Whoisthat.GroupStore
import Whoisthat.ProfileMoves
import Whoisthat.Refresh

/-!
# The connected profile under refreshes and moves

Connecting and disconnecting exclude each other, refreshes exclude each other,
every database operation and every access to the proxy status has a lock of
its own, and nothing else orders them. A step of the machine is what happens
under one lock. A refresh reads which profile is connected long before it
merges, a connection looks its profile up long before it is reported, and a
move reaches the status after the files.
-/

set_option autoImplicit false

namespace Whoisthat.ConnectedProfile
open Whoisthat.FileStore Whoisthat.FallibleState Whoisthat.Records Whoisthat.Database
open Whoisthat.GroupFiles Whoisthat.GroupStore Whoisthat.GroupSync Whoisthat.SyncWrites
open Whoisthat.Refresh Whoisthat.ProfileStore
open Whoisthat.ProfileMoves (Started Copies movedTo)

section Machine

structure ProfileID where
  groupId : ℤ
  id : ℤ
deriving DecidableEq

def nameOf (p : Profile) : ProfileID := ⟨p.groupId,p.id⟩

/-- Between the lookup of a `Connect` and its end: the profile found, the old
session stopped, and the core being started with what it was given. -/
inductive Connecting where
  | found (p : Profile)
  | stopped (p : Profile)
  | opened (p : Profile) (source : Identity)

def Connecting.profile : Connecting → Profile
  | .found p => p
  | .stopped p => p
  | .opened p _ => p

/-- Between the metadata of a refresh and its timestamp: the parsed entries,
then also `keep_profile_id`, then nothing but the group. -/
inductive Refreshing where
  | parsed (gid : ℤ) (entries : List DBAddProfileData)
  | keeping (gid : ℤ) (entries : List DBAddProfileData) (keepProfileID : ℤ)
  | merged (gid : ℤ)
deriving DecidableEq

/-- `status` is the profile of a connected status, `session` what the core
runs, and `moves` the moves that have not reached the status yet. -/
structure Machine where
  w : World
  status : Option Profile
  session : Option Identity
  connecting : Option Connecting
  refresh : Option Refreshing
  moves : List (ProfileID × Profile)

inductive Event where
  | lookup (gid id : ℤ)
  | stop
  | openCore
  | start (ok : Bool)
  | disconnect
  | exited
  | fetched (gid : ℤ) (fields : SubscriptionFields) (content : List DBAddProfileData)
  | readStatus
  | merge
  | stamp (now : ℤ)
  | move (fromGroup toGroup id : ℤ)
  | updateMoved (k : ℕ)

/-- The status lock is held while the core is started. -/
def Machine.starting (m : Machine) : Bool :=
  match m.connecting with
  | some (.opened _ _) => true
  | _ => false

/-- A share link is part of the profile; a provider configuration is read from
the profile's place when the core is started. -/
def sourceOf (w : World) (p : Profile) : Identity :=
  if p.managed then
    ((profileAt p.groupId p.id w.disk w.key).map Profile.identity).getD p.identity
  else p.identity

def keepProfileID (status : Option Profile) (gid : ℤ) : ℤ :=
  match status with
  | some p => if p.groupId = gid then p.id else 0
  | none => 0

def updateMovedProfile (oldId : ProfileID) (newProfile : Profile) (status : Option Profile) :
    Option Profile :=
  match status with
  | some p => if p.id = oldId.id ∧ p.groupId = oldId.groupId then some newProfile else some p
  | none => none

def mergedNow (now : ℤ) : SubscriptionFields :=
  ⟨none,some now,none,none,none,none,none,none⟩

/-- A step whose lock is taken, or that is not due, leaves everything alone. -/
def step : Event → Machine → Machine
  | .lookup gid id, m =>
    match m.connecting with
    | some _ => m
    | none =>
      match getProfile gid id m.w with
      | (.ok p, w) => { m with w := w, connecting := some (.found p) }
      | (.error _, w) => { m with w := w }
  | .stop, m =>
    match m.connecting with
    | some (.found p) =>
      { m with status := none, session := none, connecting := some (.stopped p) }
    | _ => m
  | .openCore, m =>
    match m.connecting with
    | some (.stopped p) => { m with connecting := some (.opened p (sourceOf m.w p)) }
    | _ => m
  | .start ok, m =>
    match m.connecting with
    | some (.opened p source) =>
      if ok then { m with status := some p, session := some source, connecting := none }
      else { m with status := none, session := none, connecting := none }
    | _ => m
  | .disconnect, m =>
    match m.connecting with
    | some _ => m
    | none => { m with status := none, session := none }
  | .exited, m => if m.starting then m else { m with status := none, session := none }
  | .fetched gid fields content, m =>
    match m.refresh with
    | some _ => m
    | none =>
      match mergeSubscriptionFields gid fields m.w with
      | (.error _, w) => { m with w := w }
      | (.ok _, w) =>
        if content = [] then { m with w := w }
        else { m with
          w := w
          refresh := some (.parsed gid (content.map fun d => { d with groupId := gid })) }
  | .readStatus, m =>
    match m.refresh with
    | some (.parsed gid entries) =>
      if m.starting then m
      else { m with refresh := some (.keeping gid entries (keepProfileID m.status gid)) }
    | _ => m
  | .merge, m =>
    match m.refresh with
    | some (.keeping gid entries keep) =>
      match updateGroupAndProfiles gid entries keep m.w with
      | (.error _, w) => { m with w := w, refresh := none }
      | (.ok _, w) => { m with w := w, refresh := some (.merged gid) }
    | _ => m
  | .stamp now, m =>
    match m.refresh with
    | some (.merged gid) =>
      { m with w := (mergeSubscriptionFields gid (mergedNow now) m.w).2, refresh := none }
    | _ => m
  | .move fromGroup toGroup id, m =>
    match moveProfile fromGroup toGroup id m.w with
    | (.error _, w) => { m with w := w }
    | (.ok moved, w) => { m with w := w, moves := m.moves ++ [(⟨fromGroup,id⟩,moved)] }
  | .updateMoved k, m =>
    match m.moves[k]? with
    | none => m
    | some (oldId, newProfile) =>
      if m.starting then m
      else { m with
        status := updateMovedProfile oldId newProfile m.status
        moves := m.moves.eraseIdx k }

def run : List Event → Machine → Machine
  | [], m => m
  | e::es, m => run es (step e m)

end Machine

section Specification

/-- A stored profile lies under this name and is what `source` connects to. -/
def Names (w : World) (name : ProfileID) (source : Identity) : Prop :=
  ∃ p, profileAt name.groupId name.id w.disk w.key = some p ∧ p.identity = source

/-- A connected profile is stored, and the core runs it. -/
def Known (m : Machine) : Prop :=
  ∀ p, m.status = some p → ∃ source, m.session = some source ∧ Names m.w (nameOf p) source

def KnownThroughout : List Event → Machine → Prop
  | [], m => Known m
  | e::es, m => Known m ∧ KnownThroughout es (step e m)

/-- A database as this code leaves it: groups and profiles carry the numbers of
their places. -/
structure Sound (w : World) : Prop where
  groups : ∀ gid g, groupAt gid w.disk w.key = some g → g.id = gid ∧ 0 ≤ g.lastId
  profiles : ∀ gid n p, profileAt gid n w.disk w.key = some p →
    p.id = n ∧ 1 ≤ n ∧ p.groupId = gid

/-- The daemon before its first command. -/
structure Fresh (m : Machine) : Prop where
  sound : Sound m.w
  status : m.status = none
  connecting : m.connecting = none
  refresh : m.refresh = none

/-- The names the status or a coming status may show. -/
def Machine.inUse (m : Machine) : List ProfileID :=
  (m.status.map nameOf).toList ++ (m.connecting.map fun c => nameOf c.profile).toList

/-- The merge is not stopped by a write. -/
def Commits (gid : ℤ) (entries : List DBAddProfileData) (keepProfileID : ℤ) (w : World) : Prop :=
  (w.degraded || lockedIn gid w.disk w.key) = false ∧
    true ∉ w.faults.take (writesOf
      (incoming (keepOf (storedAt gid w.disk w.key) keepProfileID) entries) + 1)

/-- A merge keeps a number: for its profile, or for the entries of the
profile's identity, which take the numbers of that identity in order. -/
def Keeps (gid : ℤ) (entries : List DBAddProfileData) (keepProfileID : ℤ) (w : World) (n : ℤ) :
    Prop :=
  keepProfileID = n ∨ ∃ p ∈ storedAt gid w.disk w.key, p.id = n ∧
    (keepOf (storedAt gid w.disk w.key) keepProfileID).profile.map Profile.identity ≠
      some p.identity ∧
    n ∈ (idsOf (storedAt gid w.disk w.key) p.identity).take
      ((identities entries).count p.identity)

/-- The writes of a move after its first one go through. -/
def Finishes (fromGroup id : ℤ) (old : Profile) (w : World) : Prop :=
  if Copies ⟨none,none,none,none⟩ fromGroup id old w then
    w.faults[1]? ≠ some true ∧ w.faults[2]? ≠ some true
  else w.faults[1]? ≠ some true

/-- A merge keeps the numbers in use, a move takes no profile in use away and
no number in use, and the status does not show a name that was moved. -/
def Event.Careful : Event → Machine → Prop
  | .merge, m => ∀ gid entries keep, m.refresh = some (.keeping gid entries keep) →
      Commits gid entries keep m.w → ∀ name ∈ m.inUse, name.groupId = gid →
        Keeps gid entries keep m.w name.id
  | .move fromGroup toGroup id, m => fromGroup ≠ toGroup → ∀ old g,
      Started ⟨none,none,none,none⟩ fromGroup toGroup id old g m.w → ∀ name ∈ m.inUse,
        (Finishes fromGroup id old m.w → name ≠ ⟨fromGroup,id⟩) ∧ name ≠ ⟨toGroup,g.lastId+1⟩
  | .updateMoved k, m => ∀ oldId newProfile, m.moves[k]? = some (oldId,newProfile) →
      ∀ p, m.status = some p → nameOf p ≠ oldId
  | _, _ => True

def CarefulRun : List Event → Machine → Prop
  | [], _ => True
  | e::es, m => e.Careful m ∧ CarefulRun es (step e m)

end Specification

section Databases

variable {w w' : World} {gid : ℤ}

theorem sound_leaves {P : Path → Prop} (h : Leaves P w w') (hc : ∀ i, ¬P (.groupConfig i))
    (hp : ∀ i n, ¬P (.profile i n)) (hw : Sound w) : Sound w' := by
  constructor
  · intro gid g hg
    rw [h.key,groupAt_congr _ (h.files _ (hc gid))] at hg
    exact hw.groups gid g hg
  · intro gid n p hn
    rw [h.key,profileAt_congr _ (h.files _ (hp gid n))] at hn
    exact hw.profiles gid n p hn

theorem sound_reads (h : Reads w w') (hw : Sound w) : Sound w' :=
  sound_leaves (leaves_of_reads (P := fun _ => False) h) (fun _ => not_false)
    (fun _ _ => not_false) hw

theorem sound_stored (hw : Sound w) {g : Group} (hg : groupAt gid w.disk w.key = some g) :
    StoredGroup gid g w.disk w.key :=
  ⟨hg,(hw.groups gid g hg).1,(hw.groups gid g hg).2,fun n p hp =>
    ⟨(hw.profiles gid n p hp).1,(hw.profiles gid n p hp).2.1⟩⟩

theorem names_leaves {P : Path → Prop} (h : Leaves P w w') {name : ProfileID}
    (hp : ¬P (.profile name.groupId name.id)) {source : Identity} (hn : Names w name source) :
    Names w' name source := by
  obtain ⟨p,hat,hsource⟩ := hn
  refine ⟨p,?_,hsource⟩
  rw [h.key,profileAt_congr _ (h.files _ hp)]
  exact hat

/-- Saving a group keeps a database sound. -/
theorem sound_save (g : Group) (hl : 0 ≤ g.lastId) (hw : Sound w) :
    Sound (saveGroupConfig g w).2 := by
  rcases ProfileIds.save_cases g w with ⟨e,-,hleaves⟩ | ⟨-,hs⟩
  · exact sound_leaves hleaves (fun _ => not_false) (fun _ _ => not_false) hw
  · rw [hs]
    constructor
    · intro gid g' hg'
      change groupAt gid _ w.key = some g' at hg'
      rw [ProfileIds.groupAt_store] at hg'
      split at hg'
      · rename_i hgid
        obtain rfl := Option.some.inj hg'
        exact ⟨hgid.symm,hl⟩
      · exact hw.groups gid g' hg'
    · intro gid n p hp
      rw [profileAt,fileAt,readFile_store,if_neg (by simp)] at hp
      exact hw.profiles gid n p hp

theorem sound_write {n : ℤ} {p : Profile} (hp : p.id = n) (hn : 1 ≤ n) (hg : p.groupId = gid)
    (hw : Sound w) : Sound (writeEncryptedJSON (.profile gid n) (.profile p) w).2 := by
  rcases write_cases (.profile gid n) (.profile p) w with ⟨_,h⟩ | ⟨_,_,h⟩ | ⟨_,_,h⟩ <;> rw [h]
  · exact hw
  · exact ⟨hw.groups,hw.profiles⟩
  · constructor
    · intro i g hi
      rw [groupAt,fileAt,readFile_store,if_neg (by simp)] at hi
      exact hw.groups i g hi
    · intro i m q hq
      rw [profileAt,fileAt,readFile_store] at hq
      split at hq
      · rename_i hpath
        obtain ⟨rfl,rfl⟩ := Path.profile.inj hpath
        obtain rfl : p = q := by simpa [store,openBlob,Payload.asProfile] using hq
        exact ⟨hp,hn,hg⟩
      · exact hw.profiles i m q hq

theorem sound_remove {path : Path} (hc : ∀ i, path ≠ .groupConfig i) (hw : Sound w) :
    Sound (remove path w).2 := by
  have hf := leaves_of_frame (P := fun q => q = path) (frame_remove path w) fun _ h => h
  constructor
  · intro gid g hg
    rw [groupAt_congr _ (hf.files _ (hc gid).symm)] at hg
    exact hw.groups gid g hg
  · intro gid n p hp
    rw [profileAt,fileAt,show (remove path w).2.disk = w.disk.erase path from rfl,
      readFile_erase] at hp
    split at hp
    · simp at hp
    · exact hw.profiles gid n p hp

end Databases

section Merges

variable {w w' : World} {gid keep : ℤ} {g : Group} {entries : List DBAddProfileData}

theorem mergedProfile_groupId (profiles : List Profile) (id : ℤ) (d : DBAddProfileData) :
    (mergedProfile profiles id d).groupId = d.groupId := by
  unfold mergedProfile
  split
  · rfl
  · split <;> rfl

theorem planned_entry (h : StoredGroup gid g w.disk w.key) {e : DBAddProfileData × ℤ}
    (he : e ∈ (planOf gid g keep entries w.disk w.key).ids) : e.1 ∈ entries := by
  obtain ⟨-,hfst,-⟩ := plan_spec h keep entries
  have hmem : e.1 ∈ (planOf gid g keep entries w.disk w.key).ids.map Prod.fst :=
    List.mem_map_of_mem he
  rw [hfst] at hmem
  exact List.mem_of_mem_filter hmem

/-- What lies in the group after a merge, stopped or not, was there before or
was written for an entry. -/
theorem update_files (h : StoredGroup gid g w.disk w.key) :
    let w' := (updateGroupAndProfiles gid entries keep w).2
    (∃ g', StoredGroup gid g' w'.disk w'.key) ∧
      ∀ n p, profileAt gid n w'.disk w'.key = some p → profileAt gid n w.disk w.key = some p ∨
        ∃ e ∈ (planOf gid g keep entries w.disk w.key).ids, e.2 = n ∧
          p = mergedProfile (storedAt gid w.disk w.key) e.2 e.1 := by
  rcases hrun : updateGroupAndProfiles gid entries keep w with ⟨e | r,w'⟩
  · obtain ⟨w₁,hreads,hwrote⟩ := update_error h hrun
    refine ⟨⟨g,stored_of_wrote h hreads hwrote⟩,fun n p hp => ?_⟩
    by_cases hn : ∃ e ∈ (planOf gid g keep entries w.disk w.key).ids.take
        (written gid keep entries w), e.2 = n
    · obtain ⟨e,he,rfl⟩ := hn
      have hfile := hwrote.files e he
      rw [← hwrote.frame.key,hp] at hfile
      exact Or.inr ⟨e,List.mem_of_mem_take he,rfl,Option.some.inj hfile⟩
    · left
      rw [hwrote.frame.key,hreads.key,profileAt_congr _ (hwrote.frame.files _ ?_),
        hreads.disk] at hp
      · exact hp
      · rintro ⟨e,he,hpath | hpath⟩ <;> simp only [Path.profile.injEq,reduceCtorEq] at hpath
        exact hn ⟨e,he,hpath.2.symm⟩
  · obtain ⟨hkey,hnew,hlisting,-⟩ := update_ok h hrun
    refine ⟨⟨_,hnew⟩,fun n p hp => ?_⟩
    have hmem := (mem_listedAt hnew.config n p).mpr hp
    rw [hlisting] at hmem
    rcases List.mem_append.mp hmem with hkept | hids
    · obtain ⟨kept,hk,heq⟩ := List.mem_map.mp hkept
      obtain ⟨rfl,rfl⟩ := Prod.mk.inj heq
      have hstored := (keep_ids (storedAt gid w.disk w.key) keep g.lastId).2.2.2 kept
        (Option.mem_toList.mp hk)
      exact Or.inl ((mem_storedAt h kept).mp hstored)
    · obtain ⟨e,he,heq⟩ := List.mem_map.mp hids
      obtain ⟨rfl,rfl⟩ := Prod.mk.inj heq
      exact Or.inr ⟨e,he,rfl,rfl⟩

theorem sound_update (hw : Sound w) (hfeed : ∀ d ∈ entries, d.groupId = gid) (keep : ℤ) :
    Sound (updateGroupAndProfiles gid entries keep w).2 := by
  cases hg : groupAt gid w.disk w.key with
  | none => exact sound_reads (ProfileIds.update_missing gid keep entries w hg) hw
  | some g =>
    have h := sound_stored hw hg
    have hleaves := update_leaves hg h.id keep entries
    obtain ⟨⟨g',hnew⟩,hfiles⟩ := @update_files w gid keep g entries h
    constructor
    · intro i k hk
      by_cases hi : i = gid
      · subst hi
        obtain rfl := Option.some.inj (hnew.config.symm.trans hk)
        exact ⟨hnew.id,hnew.lastId⟩
      · rw [hleaves.key,groupAt_congr _ (hleaves.files _ ?_)] at hk
        · exact hw.groups i k hk
        · simp [ProfileFile,hi]
    · intro i n p hp
      by_cases hi : i = gid
      · subst hi
        obtain ⟨hid,hpos⟩ := hnew.files n p hp
        refine ⟨hid,hpos,?_⟩
        rcases hfiles n p hp with hold | ⟨e,he,-,rfl⟩
        · exact (hw.profiles i n p hold).2.2
        · rw [mergedProfile_groupId]
          exact hfeed e.1 (planned_entry h he)
      · rw [hleaves.key,profileAt_congr _ (hleaves.files _ ?_)] at hp
        · exact hw.profiles i n p hp
        · simp [ProfileFile,hi]

/-- The profile a merge keeps is the stored one of that number. -/
theorem keepOf_stored (h : StoredGroup gid g w.disk w.key) {p : Profile}
    (hp : p ∈ storedAt gid w.disk w.key) :
    (keepOf (storedAt gid w.disk w.key) p.id).profile = some p := by
  have hnum := numbered_storedAt h
  have hpos := hnum.positive p hp
  rcases keepOf_cases (storedAt gid w.disk w.key) p.id with ⟨-,hnone⟩ | ⟨kept,hmem,hid,-,heq⟩
  · rw [keepOf,if_neg (by omega),byID_eq hnum hp] at hnone
    cases hm : p.managed <;> simp [hm] at hnone
  · rw [heq,eq_of_id hnum hmem hp hid]

/-- A committed merge leaves a number it keeps to the same identity. -/
theorem update_keeps (h : StoredGroup gid g w.disk w.key) {r : List Profile}
    (hrun : updateGroupAndProfiles gid entries keep w = (.ok r,w')) {n : ℤ} {source : Identity}
    (hn : Names w ⟨gid,n⟩ source) (hk : Keeps gid entries keep w n) :
    Names w' ⟨gid,n⟩ source := by
  obtain ⟨p,hat,rfl⟩ := hn
  obtain ⟨-,hnew,hlisting,-⟩ := update_ok h hrun
  have hid : p.id = n := (h.files n p hat).1
  have hp : p ∈ storedAt gid w.disk w.key := (mem_storedAt h p).mpr (by rwa [hid])
  have hafter : storedAt gid w'.disk w'.key =
      (planOf gid g keep entries w.disk w.key).listing.map Prod.snd := by rw [storedAt,hlisting]
  -- it is enough that the new listing has the identity under the number
  have hsuffices : ∀ q ∈ storedAt gid w'.disk w'.key, q.id = n → q.identity = p.identity →
      Names w' ⟨gid,n⟩ p.identity := by
    intro q hq hqn hqi
    have hfile := (mem_storedAt hnew q).mp hq
    rw [hqn] at hfile
    exact ⟨q,hfile,hqi⟩
  rcases hk with rfl | ⟨q,hq,hqn,hother,htake⟩
  · apply hsuffices p _ hid rfl
    rw [hafter,← hid,Plan.listing]
    have hkept : (planOf gid g p.id entries w.disk w.key).keep.profile = some p :=
      keepOf_stored h hp
    simp [hkept]
  · obtain rfl := eq_of_id (numbered_storedAt h) hq hp (hqn.trans hid.symm)
    obtain ⟨fresh,hids,-⟩ := idsOf_refreshed h keep entries hother
    have hmem : n ∈ idsOf (storedAt gid w'.disk w'.key) q.identity := by
      rw [hafter,hids]
      exact List.mem_append_left _ htake
    obtain ⟨q',hq',hqi,hqn'⟩ := mem_idsOf.mp hmem
    exact hsuffices q' hq' hqn' hqi

/-- A merge that stops has given a stored number to its own identity only. -/
theorem update_stopped (h : StoredGroup gid g w.disk w.key) {e : DBError}
    (hrun : updateGroupAndProfiles gid entries keep w = (.error e,w')) {n : ℤ}
    {source : Identity} (hn : Names w ⟨gid,n⟩ source) : Names w' ⟨gid,n⟩ source := by
  obtain ⟨p,hat,rfl⟩ := hn
  have hid : p.id = n := (h.files n p hat).1
  have hp : p ∈ storedAt gid w.disk w.key := (mem_storedAt h p).mpr (by rwa [hid])
  obtain ⟨w₁,hreads,hwrote⟩ := update_error h hrun
  by_cases hmem : ∃ e ∈ (planOf gid g keep entries w.disk w.key).ids.take
      (written gid keep entries w), e.2 = n
  · obtain ⟨e,he,rfl⟩ := hmem
    refine ⟨_,by rw [hwrote.frame.key]; exact hwrote.files e he,?_⟩
    rw [mergedProfile_identity]
    have hle : e.2 ≤ lastIDOf g.lastId (storedAt gid w.disk w.key) :=
      hid ▸ (lastIDOf_ge g.lastId _).2 p hp
    obtain ⟨q,hq,hqi⟩ := old_stored h keep entries (List.mem_of_mem_take he) hle
    rw [← hqi,Option.some.inj (hq.symm.trans hat)]
  · refine ⟨p,?_,rfl⟩
    rw [hwrote.frame.key,hreads.key,profileAt_congr _ (hwrote.frame.files _ ?_),hreads.disk]
    · exact hat
    · rintro ⟨e,he,hpath | hpath⟩ <;> simp only [Path.profile.injEq,reduceCtorEq] at hpath
      exact hmem ⟨e,he,hpath.2.symm⟩

theorem not_mem_take_add {l : List Bool} {m n : ℕ} (hm : true ∉ l.take m)
    (hn : true ∉ (l.drop m).take n) : true ∉ l.take (m+n) := by
  rw [List.take_add,List.mem_append,not_or]
  exact ⟨hm,hn⟩

theorem not_mem_take_one {l : List Bool} (h : l.head? ≠ some true) : true ∉ l.take 1 := by
  cases l with
  | nil => simp
  | cons b rest => simpa [eq_comm] using h

/-- A loop that ends well met no failing write. -/
theorem writeAll_clean (gid : ℤ) (profiles : List Profile) (l : List (DBAddProfileData × ℤ))
    (w : World) (hw : w.degraded = false) (hrun : (writeAll gid profiles l w).1 = .ok ()) :
    true ∉ w.faults.take (writesOf (l.map Prod.fst)) := by
  induction l generalizing w with
  | nil => simp [writesOf]
  | cons e l ih =>
    have hcons : writeAll gid profiles (e::l) w =
        (writeEntry gid e.2 (mergedProfile profiles e.2 e.1) e.1.config >>= fun _ =>
          writeAll gid profiles l) w := rfl
    have hcount : writesOf ((e::l).map Prod.fst) =
        (if e.1.managed then 2 else 1) + writesOf (l.map Prod.fst) := by simp [writesOf]
    rw [hcons] at hrun
    obtain ⟨_,v,hentry,hrest⟩ := bind_ok (run_of_fst hrun)
    rcases writeEntry_cases gid profiles e w hw with
      ⟨-,hr,-⟩ | ⟨-,-,-,hr,-⟩ | ⟨hf,hm,-,hfaults,hwrote⟩
    · exact absurd (by rw [hentry]) hr
    · exact absurd (by rw [hentry]) hr
    · rw [hentry] at hfaults hwrote
      have hv := ih v (hwrote.frame.degraded.trans hw) (by rw [hrest])
      rw [hcount]
      apply not_mem_take_add
      · cases hmd : e.1.managed with
        | false => exact not_mem_take_one hf
        | true =>
          apply @not_mem_take_add _ 1 1 (not_mem_take_one hf)
          rw [List.drop_one]
          exact not_mem_take_one (hm hmd)
      · have hdrop : v.faults = w.faults.drop (if e.1.managed then 2 else 1) := by
          rw [show v.faults = _ from hfaults]
          cases e.1.managed <;> simp [← List.drop_one,List.drop_drop]
        rwa [← hdrop]

theorem update_commits (h : StoredGroup gid g w.disk w.key) {r : List Profile}
    (hrun : updateGroupAndProfiles gid entries keep w = (.ok r,w')) :
    Commits gid entries keep w := by
  obtain ⟨w₁,hreads,hw₁,hprog⟩ := update_run gid keep entries w h.config
  have hmarks := (marks_getGroup h.config).2
  rw [← hw₁] at hmarks
  rw [hprog] at hrun
  obtain ⟨_,w₂,hwrites,hrun⟩ := bind_ok hrun
  obtain ⟨_,w₃,hsave,-⟩ := bind_ok hrun
  have hd₁ := writeAll_degraded gid (planOf gid g keep entries w.disk w.key).profiles
    (planOf gid g keep entries w.disk w.key).ids w₁
  have hfaults := writeAll_faults gid (planOf gid g keep entries w.disk w.key).profiles
    (planOf gid g keep entries w.disk w.key).ids w₁
  have hclean := writeAll_clean gid (planOf gid g keep entries w.disk w.key).profiles
    (planOf gid g keep entries w.disk w.key).ids w₁
  rw [(plan_spec h keep entries).2.1,hwrites,hreads.faults] at hclean
  rw [(plan_spec h keep entries).2.1,hwrites,hreads.faults] at hfaults
  rw [hwrites] at hd₁
  rcases wrapped_write_cases (.writeGroupConfig g.id) (.groupConfig g.id) (.group { g with
      lastId := (planOf gid g keep entries w.disk w.key).final.lastID
      profileOrder := (planOf gid g keep entries w.disk w.key).final.newOrder }) w₂ with
    ⟨_,hs⟩ | ⟨_,_,hs⟩ | ⟨hd,hf,_⟩
  · simp [saveGroupConfig,hs] at hsave
  · simp [saveGroupConfig,hs] at hsave
  · have hd' : w₁.degraded = false := hd₁.symm.trans hd
    have hrest : w₂.faults = w.faults.drop (writesOf
        (incoming (keepOf (storedAt gid w.disk w.key) keep) entries)) := hfaults hd'
    refine ⟨hmarks.symm.trans hd',not_mem_take_add (hclean hd' rfl) (not_mem_take_one ?_)⟩
    rwa [← hrest]

end Merges

section Moves

variable {fromGroup toGroup id : ℤ} {old : Profile} {g : Group} {w w' : World}

theorem sound_load (gid : ℤ) : Triple Sound (loadGroupConfig gid)
    (fun g w => Sound w ∧ g.id = gid ∧ 0 ≤ g.lastId) (fun _ => Sound) := by
  intro w hw
  obtain ⟨hr,hv⟩ := readsAs_loadGroupConfig gid w
  rcases hm : loadGroupConfig gid w with ⟨e | g,w'⟩ <;> rw [hm] at hr hv
  · exact sound_reads hr hw
  · exact ⟨sound_reads hr hw,hw.groups gid g hv.symm⟩

theorem sound_dropFromOrder (gid id : ℤ) :
    Triple Sound (dropFromOrder gid id) (fun _ => Sound) (fun _ => Sound) := by
  refine triple_attempt_bind (sound_load gid) (fun g => ?_) fun _ => triple_pure () fun _ h => h
  refine triple_bind (triple_attempt (R := fun _ => Sound) ?_) fun _ => triple_pure () fun _ h => h
  exact triple_of_state fun w h => sound_save _ h.2.2 h.1

theorem sound_moveXrayConfig (fromGroup toGroup id newId : ℤ) : Triple Sound
    (moveXrayConfig fromGroup toGroup id newId) (fun _ => Sound) (fun _ => Sound) := by
  refine triple_attempt_bind (Q := fun _ => Sound) (E := fun _ => Sound)
    (triple_of_state fun w h => ?_) (fun raw => triple_of_state fun w h => ?_)
    fun _ => triple_pure () fun _ h => h
  · exact sound_reads (readsAs_readEncryptedJSON (.profileXrayConfig fromGroup id)
      Payload.asRaw w).1 h
  · exact sound_leaves (leaves_of_frame (keeps_wrapping _
      (frame_saveProfileXrayConfig toGroup newId raw) w) fun _ hp => hp) (by simp) (by simp) h

theorem sound_moveProfile (fromGroup toGroup id : ℤ) : Triple Sound
    (moveProfile fromGroup toGroup id) (fun _ => Sound) (fun _ => Sound) := by
  unfold moveProfile
  split
  · exact triple_fail _ fun _ h => h
  · refine triple_bind (Q := fun _ => Sound) (triple_of_state fun w h => ?_) fun old =>
      triple_bind (ProfileIds.triple_wrapping _ (sound_load toGroup)) fun g =>
        triple_of_pre (fun _ h => h.2.2) fun hl => ?_
    · exact sound_reads (readsAs_wrapping _ (readsAs_getProfile fromGroup id) w).1 h
    refine triple_bind (Q := fun _ => Sound) (triple_of_state fun w h => ?_) fun _ =>
      triple_bind (triple_when (fun _ => sound_moveXrayConfig _ _ _ _) fun _ h => h) fun _ =>
        triple_attempt_bind (Q := fun _ => Sound) (triple_of_state fun w h => ?_) (fun _ => ?_)
          fun _ => ?_
    · rw [wrapping_snd]
      exact sound_write rfl (by omega) rfl h.1
    · exact sound_save _ (by simp only; omega) h
    · exact triple_bind (triple_of_state fun w h => sound_remove (by simp) h) fun _ =>
        triple_bind (triple_of_state fun w h => sound_remove (by simp) h) fun _ =>
          triple_bind (sound_dropFromOrder fromGroup id) fun _ => triple_pure _ fun _ h => h
    · exact triple_bind (triple_of_state fun w h => sound_remove (by simp) h) fun _ =>
        triple_fail _ fun _ h => h

theorem sound_mergeFields (gid : ℤ) (f : SubscriptionFields) (hw : Sound w) :
    Sound (mergeSubscriptionFields gid f w).2 := by
  refine triple_state (triple_bind (sound_load gid) fun g => ?_) hw
  refine triple_of_pre (fun _ h => h.2.2) fun hl => triple_bind (Q := fun _ => Sound)
    (triple_of_state fun w h => ?_) fun _ => triple_pure _ fun _ h => h
  have hsave := sound_save (mergedFields g f) (by rwa [mergedFields_lastId]) h.1
  rw [saveGroupConfig,wrapping_snd] at hsave
  rwa [updateGroup,wrapping_snd]

/-- The copy of a provider configuration takes one write, if there is one. -/
theorem copy_faults {n : ℤ} {u v : World} {x : Unit} (hu : u.degraded = false)
    (hrun : when old.managed (moveXrayConfig fromGroup toGroup id n) u = (.ok x,v)) :
    if Copies ⟨none,none,none,none⟩ fromGroup id old u then
      u.faults.head? ≠ some true ∧ v.faults = u.faults.tail
    else v.faults = u.faults := by
  cases hm : old.managed with
  | false =>
    rw [hm] at hrun
    obtain ⟨-,rfl⟩ := Prod.mk.inj hrun
    rw [if_neg fun hc => absurd hc.1 (by simp [hm])]
  | true =>
    rw [hm] at hrun
    change moveXrayConfig fromGroup toGroup id n u = _ at hrun
    rw [moveXrayConfig,bind_of_ok (attempt_run _ u)] at hrun
    obtain ⟨hr,hv⟩ := readsAs_readEncryptedJSON (.profileXrayConfig fromGroup id) Payload.asRaw u
    rcases hl : loadProfileXrayConfig fromGroup id u with ⟨e | raw,u'⟩ <;>
      rw [loadProfileXrayConfig] at hl <;> rw [hl] at hr hv <;>
      rw [loadProfileXrayConfig,hl] at hrun
    · obtain ⟨-,rfl⟩ := Prod.mk.inj hrun
      rw [if_neg fun hc => ?_]
      · exact hr.faults
      · have hsome := hc.2.2
        rw [ProfileMoves.configAt,← hv] at hsome
        simp [Except.toOption] at hsome
    · obtain rfl := (read_ok hl).1
      have hc : Copies ⟨none,none,none,none⟩ fromGroup id old u' :=
        ⟨hm,rfl,by rw [ProfileMoves.configAt,← hv]; rfl⟩
      rw [if_pos hc]
      change wrapping .moveXrayConfig (saveProfileXrayConfig toGroup n raw) u' = _ at hrun
      rcases saveProfileXrayConfig_cases toGroup n raw u' hu with ⟨-,hs⟩ | ⟨hf,-,hrest⟩
      · rw [wrapping,run_of_fst hs] at hrun
        cases hrun
      · have hv' : v = (saveProfileXrayConfig toGroup n raw u').2 := by
          rw [← wrapping_snd .moveXrayConfig,hrun]
        exact ⟨hf,hv' ▸ hrest⟩

/-- A move that ends well met no failing write. -/
theorem move_finishes {moved : Profile} (hne : fromGroup ≠ toGroup)
    (hs : Started ⟨none,none,none,none⟩ fromGroup toGroup id old g w)
    (hrun : moveProfile fromGroup toGroup id w = (.ok moved,w')) :
    Finishes fromGroup id old w := by
  rcases ProfileMoves.reads_cases ⟨none,none,none,none⟩ fromGroup toGroup id hne w with
    ⟨e,v,hstop,-⟩ | ⟨old',g',hgo,-,-,hold,hgroup⟩
  · rw [ProfileMoves.moveProfile_readable,hrun] at hstop
    cases hstop
  rw [ProfileMoves.moveProfile_readable,hrun] at hgo
  obtain rfl := Option.some.inj (hs.old.symm.trans hold)
  obtain rfl := Option.some.inj (hs.group.symm.trans hgroup)
  obtain ⟨_,u,hput,hrest⟩ := bind_ok hgo.symm
  have hu : u = store (.profile toGroup (g.lastId+1)) (.profile (movedTo toGroup old g)) w :=
    (write_ok (wrapping_ok.mp hput)).2
  have hstore := frame_store (.profile toGroup (g.lastId+1)) (.profile (movedTo toGroup old g)) w
  have hcopies : Copies ⟨none,none,none,none⟩ fromGroup id old u ↔
      Copies ⟨none,none,none,none⟩ fromGroup id old w := by
    rw [Copies,Copies,hu]
    exact Iff.of_eq (by rw [ProfileMoves.configAt_files hstore.key (hstore.files _ (by simp))])
  have hfaults : u.faults = w.faults.tail := by rw [hu]; rfl
  obtain ⟨_,v,hcopy,hsettle⟩ := bind_ok hrest
  have hcopied := copy_faults (hu ▸ hs.writable) hcopy
  change ProfileMoves.settle ⟨none,none,none,none⟩ fromGroup toGroup id (movedTo toGroup old g)
    { g with lastId := g.lastId+1, profileOrder := g.profileOrder ++ [g.lastId+1] } v = _ at hsettle
  have hsaved : v.faults.head? ≠ some true := by
    rcases ProfileMoves.settle_cases ⟨none,none,none,none⟩ fromGroup toGroup id
      (movedTo toGroup old g)
      { g with lastId := g.lastId+1, profileOrder := g.profileOrder ++ [g.lastId+1] } v
      with ⟨e,v',h,-⟩ | ⟨v',-,h,-⟩
    · rw [h] at hsettle
      cases hsettle
    · exact h
  unfold Finishes
  by_cases hc : Copies ⟨none,none,none,none⟩ fromGroup id old w
  · rw [if_pos hc]
    rw [if_pos (hcopies.mpr hc)] at hcopied
    rw [hcopied.2,hfaults,List.head?_eq_getElem?,List.getElem?_tail,List.getElem?_tail] at hsaved
    rw [hfaults,List.head?_eq_getElem?,List.getElem?_tail] at hcopied
    exact ⟨hcopied.1,hsaved⟩
  · rw [if_neg hc]
    rw [if_neg (mt hcopies.mp hc)] at hcopied
    rwa [hcopied,hfaults,List.head?_eq_getElem?,List.getElem?_tail] at hsaved

theorem names_move {name : ProfileID} {source : Identity} (hn : Names w name source)
    (hcareful : fromGroup ≠ toGroup → ∀ old g,
      Started ⟨none,none,none,none⟩ fromGroup toGroup id old g w →
        (Finishes fromGroup id old w → name ≠ ⟨fromGroup,id⟩) ∧ name ≠ ⟨toGroup,g.lastId+1⟩) :
    Names (moveProfile fromGroup toGroup id w).2 name source := by
  by_cases hne : fromGroup = toGroup
  · rw [moveProfile,if_pos hne]
    exact hn
  rcases ProfileMoves.move_cases ⟨none,none,none,none⟩ fromGroup toGroup id hne w with
    ⟨e,v,hrun,hl,-⟩ | ⟨old,g,hs,hend⟩
  · rw [← ProfileMoves.moveProfile_readable,hrun]
    exact names_leaves hl not_false hn
  · obtain ⟨hfrom,hto⟩ := hcareful hne old g hs
    have hto' : Path.profile name.groupId name.id ≠ .profile toGroup (g.lastId+1) := by
      intro h
      obtain ⟨hg,hid⟩ := Path.profile.inj h
      exact hto (by rw [← hg,← hid])
    rw [ProfileMoves.moveProfile_readable] at hend
    rcases hrun : moveProfile fromGroup toGroup id w with ⟨r,v⟩
    rw [hrun] at hend
    cases hend with
    | halfway e v hc hw hl hp => exact names_leaves hl hto' hn
    | undone e v hc hw hl hp => exact names_leaves hl (by simp [hto']) hn
    | done v hc hw hl hgone hp hg hx =>
      have hname := hfrom (move_finishes hne hs hrun)
      refine names_leaves hl ?_ hn
      rintro ((h | h) | h | h | ⟨i,h⟩)
      · exact hto' h
      · cases h
      · obtain ⟨hg,hid⟩ := Path.profile.inj h
        exact hname (by rw [← hg,← hid])
      · cases h
      · cases h

end Moves

section Runs

variable {m : Machine} {w : World}

theorem leaves_mergeFields (gid : ℤ) (f : SubscriptionFields) (w : World) :
    Leaves ProfileMoves.Config w (mergeSubscriptionFields gid f w).2 := by
  refine keeps_bind leaves_trans (fun v => leaves_of_reads (readsAs_loadGroupConfig gid v).1)
    (fun g => keeps_bind leaves_trans (fun v => ?_) fun _ v => leaves_refl _ v) w
  rw [updateGroup,wrapping_snd]
  exact leaves_of_frame (frame_write _ _ v) fun _ h => ⟨_,h⟩

theorem names_mergeFields (gid : ℤ) (f : SubscriptionFields) {name : ProfileID}
    {source : Identity} (hn : Names w name source) :
    Names (mergeSubscriptionFields gid f w).2 name source :=
  names_leaves (leaves_mergeFields gid f w) (by simp [ProfileMoves.Config]) hn

theorem names_update {gid keep : ℤ} {entries : List DBAddProfileData} (hw : Sound w)
    {name : ProfileID} {source : Identity} (hn : Names w name source)
    (hcareful : Commits gid entries keep w → name.groupId = gid →
      Keeps gid entries keep w name.id) :
    Names (updateGroupAndProfiles gid entries keep w).2 name source := by
  cases hg : groupAt gid w.disk w.key with
  | none =>
    exact names_leaves (leaves_of_reads (P := fun _ => False)
      (ProfileIds.update_missing gid keep entries w hg)) not_false hn
  | some g =>
    have h := sound_stored hw hg
    by_cases hgid : name.groupId = gid
    · obtain ⟨i,n⟩ := name
      change i = gid at hgid
      subst hgid
      rcases hrun : updateGroupAndProfiles i entries keep w with ⟨e | r,w'⟩
      · exact update_stopped h hrun hn
      · exact update_keeps h hrun hn (hcareful (update_commits h hrun) rfl)
    · exact names_leaves (update_leaves hg h.id keep entries) (by simp [ProfileFile,hgid]) hn

/-- The entries of a refresh carry its group. -/
def Refreshing.Fed : Refreshing → Prop
  | .parsed gid entries => ∀ d ∈ entries, d.groupId = gid
  | .keeping gid entries _ => ∀ d ∈ entries, d.groupId = gid
  | .merged _ => True

/-- What holds between the steps of a careful run. -/
structure Following (m : Machine) : Prop where
  sound : Sound m.w
  known : Known m
  pending : ∀ c, m.connecting = some c → Names m.w (nameOf c.profile) c.profile.identity
  opened : ∀ p source, m.connecting = some (.opened p source) → source = p.identity
  fed : ∀ r, m.refresh = some r → r.Fed

theorem status_inUse {p : Profile} (h : m.status = some p) : nameOf p ∈ m.inUse := by
  simp [Machine.inUse,h]

theorem pending_inUse {c : Connecting} (h : m.connecting = some c) :
    nameOf c.profile ∈ m.inUse := by
  simp [Machine.inUse,h]

/-- The database may change as long as the names in use keep their meaning. -/
theorem following_world (h : Following m) (hw : Sound w) (hn : ∀ name ∈ m.inUse, ∀ source,
      Names m.w name source → Names w name source) {r : Option Refreshing}
    (hr : ∀ x, r = some x → x.Fed) (moves : List (ProfileID × Profile)) :
    Following { m with w := w, refresh := r, moves := moves } where
  sound := hw
  known p hp := by
    obtain ⟨source,hs,hname⟩ := h.known p hp
    exact ⟨source,hs,hn _ (status_inUse hp) _ hname⟩
  pending c hc := hn _ (pending_inUse hc) _ (h.pending c hc)
  opened := h.opened
  fed := hr

/-- Dropping the status leaves the rest to the connection that is under way. -/
theorem following_down (h : Following m) {c : Option Connecting}
    (hp : ∀ x, c = some x → Names m.w (nameOf x.profile) x.profile.identity)
    (ho : ∀ p source, c = some (.opened p source) → source = p.identity) :
    Following { m with status := none, session := none, connecting := c } where
  sound := h.sound
  known p hs := by cases hs
  pending := hp
  opened := ho
  fed := h.fed

theorem following_reads (h : Following m) (hr : Reads m.w w) : Following { m with w := w } :=
  following_world h (sound_reads hr h.sound) (fun _ _ _ hn =>
    names_leaves (leaves_of_reads (P := fun _ => False) hr) not_false hn) h.fed m.moves

theorem following_fields (h : Following m) (gid : ℤ) (f : SubscriptionFields)
    {r : Option Refreshing} (hr : ∀ x, r = some x → x.Fed) :
    Following { m with w := (mergeSubscriptionFields gid f m.w).2, refresh := r } :=
  following_world h (sound_mergeFields gid f h.sound) (fun _ _ _ hn =>
    names_mergeFields gid f hn) hr m.moves

theorem following_lookup (h : Following m) (gid id : ℤ) : Following (step (.lookup gid id) m) := by
  rw [step]
  split
  · exact h
  obtain ⟨hr,hv⟩ := readsAs_getProfile gid id m.w
  split <;> rename_i hrun <;> rw [hrun] at hr hv
  · have hfound := following_reads h hr
    have hat := hv.symm
    rw [← hr.key] at hat
    rw [← hr.disk] at hat
    obtain ⟨hid,-,hgid⟩ := hfound.sound.profiles gid id _ hat
    refine ⟨hfound.sound,hfound.known,?_,?_,hfound.fed⟩
    · intro c hc
      obtain rfl := Option.some.inj hc
      exact ⟨_,by rw [nameOf,Connecting.profile,hid,hgid]; exact hat,rfl⟩
    · intro p source hc
      cases Option.some.inj hc
  · exact following_reads h hr

theorem sourceOf_names {p : Profile} (h : Names w (nameOf p) p.identity) :
    sourceOf w p = p.identity := by
  obtain ⟨q,hq,hsame⟩ := h
  have hat : profileAt p.groupId p.id w.disk w.key = some q := hq
  rw [sourceOf,hat]
  split
  · exact hsame
  · rfl

theorem updateMoved_other {oldId : ProfileID} {newProfile : Profile} {status : Option Profile}
    (h : ∀ p, status = some p → nameOf p ≠ oldId) :
    updateMovedProfile oldId newProfile status = status := by
  cases hs : status with
  | none => rfl
  | some p =>
    rw [updateMovedProfile,if_neg]
    rintro ⟨hid,hgid⟩
    exact h p hs (by rw [nameOf,hid,hgid])

/-- One step of a careful run. -/
theorem following_step (e : Event) (h : Following m) (hc : e.Careful m) :
    Following (step e m) := by
  cases e with
  | lookup gid id => exact following_lookup h gid id
  | stop =>
    rw [step]
    split
    · rename_i p hfound
      refine following_down h (fun x hx => ?_) fun q source hx => ?_
      · obtain rfl := Option.some.inj hx
        have hname := h.pending _ hfound
        exact hname
      · cases Option.some.inj hx
    · exact h
  | openCore =>
    rw [step]
    split
    · rename_i p hstopped
      have hname := h.pending _ hstopped
      refine ⟨h.sound,h.known,fun x hx => ?_,fun q source hx => ?_,h.fed⟩
      · obtain rfl := Option.some.inj hx
        exact hname
      · obtain ⟨rfl,rfl⟩ := Connecting.opened.inj (Option.some.inj hx)
        exact sourceOf_names hname
    · exact h
  | start ok =>
    rw [step]
    split
    · rename_i p source hopened
      obtain rfl := h.opened p source hopened
      have hname := h.pending _ hopened
      split
      · refine ⟨h.sound,fun q hq => ?_,by simp,by simp,h.fed⟩
        obtain rfl := Option.some.inj hq
        exact ⟨_,rfl,hname⟩
      · exact following_down h (by simp) (by simp)
    · exact h
  | disconnect =>
    rw [step]
    split
    · exact h
    · exact following_down h h.pending h.opened
  | exited =>
    rw [step]
    split
    · exact h
    · exact following_down h h.pending h.opened
  | fetched gid fields content =>
    rw [step]
    split
    · exact h
    rename_i hidle
    split <;> rename_i hrun
    · have hfields := following_fields h gid fields (r := m.refresh) h.fed
      rwa [hrun] at hfields
    · split
      · have hfields := following_fields h gid fields (r := m.refresh) h.fed
        rwa [hrun] at hfields
      · have hfields := following_fields h gid fields (r := some (.parsed gid
          (content.map fun d => { d with groupId := gid }))) ?_
        · rwa [hrun] at hfields
        · intro x hx
          obtain rfl := Option.some.inj hx
          intro d hd
          obtain ⟨d',-,rfl⟩ := List.mem_map.mp hd
          rfl
  | readStatus =>
    rw [step]
    split
    · rename_i gid entries hparsed
      split
      · exact h
      · refine following_world h h.sound (fun _ _ _ hn => hn) (fun x hx => ?_) m.moves
        obtain rfl := Option.some.inj hx
        have hfed := h.fed _ hparsed
        exact hfed
    · exact h
  | merge =>
    rw [step]
    split
    · rename_i gid entries keep hkeeping
      have hw := sound_update h.sound (h.fed _ hkeeping) keep
      have hn : ∀ name ∈ m.inUse, ∀ source, Names m.w name source →
          Names (updateGroupAndProfiles gid entries keep m.w).2 name source :=
        fun name hname source hs => names_update h.sound hs fun hcommits =>
          hc gid entries keep hkeeping hcommits name hname
      split <;> rename_i hrun <;> rw [hrun] at hw hn
      · exact following_world h hw hn (by simp) m.moves
      · refine following_world h hw hn (fun x hx => ?_) m.moves
        obtain rfl := Option.some.inj hx
        trivial
    · exact h
  | stamp now =>
    rw [step]
    split
    · exact following_fields h _ _ (by simp)
    · exact h
  | move fromGroup toGroup id =>
    rw [step]
    have hw := triple_state (sound_moveProfile fromGroup toGroup id) h.sound
    have hn : ∀ name ∈ m.inUse, ∀ source, Names m.w name source →
        Names (moveProfile fromGroup toGroup id m.w).2 name source :=
      fun name hname source hs => names_move hs fun hne old g hstarted =>
        hc hne old g hstarted name hname
    split <;> rename_i hrun <;> rw [hrun] at hw hn
    · exact following_world h hw hn h.fed m.moves
    · exact following_world h hw hn h.fed _
  | updateMoved k =>
    rw [step]
    split
    · exact h
    rename_i oldId newProfile hpending
    split
    · exact h
    · rw [updateMoved_other (hc oldId newProfile hpending)]
      exact following_world h h.sound (fun _ _ _ hn => hn) h.fed _

theorem known_last (es : List Event) (h : KnownThroughout es m) : Known (run es m) := by
  induction es generalizing m with
  | nil => exact h
  | cons e es ih => exact ih h.2

theorem following_fresh (h : Fresh m) : Following m where
  sound := h.sound
  known p hp := by simp [h.status] at hp
  pending c hc := by simp [h.connecting] at hc
  opened p source hc := by simp [h.connecting] at hc
  fed r hr := by simp [h.refresh] at hr

theorem known_throughout (h : Following m) (es : List Event) (hc : CarefulRun es m) :
    KnownThroughout es m := by
  induction es generalizing m with
  | nil => exact h.known
  | cons e es ih => exact ⟨h.known,ih (following_step e h hc.1) hc.2⟩

end Runs

section Sample

theorem sound_groupFiles (g : Group) (ps : List Profile) (faults : List Bool) (hl : 0 ≤ g.lastId)
    (hp : ∀ p ∈ ps, 1 ≤ p.id ∧ p.groupId = g.id) : Sound (worldOf g ps faults) := by
  induction ps with
  | nil =>
    constructor
    · intro gid k hk
      change groupAt gid (groupFiles g []) [] = some k at hk
      rw [groupAt,fileAt,readFile_base] at hk
      split at hk
      · rename_i hpath
        obtain rfl := Path.groupConfig.inj hpath
        obtain rfl : g = k := by simpa [openBlob,Payload.asGroup] using hk
        exact ⟨rfl,hl⟩
      · simp at hk
    · intro gid n p hn
      change profileAt gid n (groupFiles g []) [] = some p at hn
      simp [profileAt,fileAt,readFile_base] at hn
  | cons q ps ih =>
    have h := ih fun p hmem => hp p (by simp [hmem])
    constructor
    · intro gid k hk
      change groupAt gid (groupFiles g (q::ps)) [] = some k at hk
      rw [groupAt,fileAt,groupFiles,readFile_insert,if_neg (by simp)] at hk
      exact h.groups gid k hk
    · intro gid n p hn
      change profileAt gid n (groupFiles g (q::ps)) [] = some p at hn
      rw [profileAt,fileAt,groupFiles,readFile_insert] at hn
      split at hn
      · rename_i hpath
        obtain ⟨rfl,rfl⟩ := Path.profile.inj hpath
        obtain rfl : q = p := by simpa [openBlob,Payload.asProfile] using hn
        exact ⟨rfl,hp q (by simp)⟩
      · exact h.profiles gid n p hn

/-- A daemon with one stored server. -/
def started : Machine := ⟨connected [],none,none,none,none,[]⟩

theorem fresh_started : Fresh started where
  sound := sound_groupFiles _ _ _ (by decide) (by decide)
  status := rfl
  connecting := rfl
  refresh := rfl

def connect (gid id : ℤ) : List Event := [.lookup gid id,.stop,.openCore,.start true]

/-- The refreshed feed has another server than the stored one. -/
def fetch : Event := .fetched 1 ⟨none,none,none,none,none,none,none,none⟩
  [uriEntry 1 "vless://new" "new"]

def beforeMerge : Machine := run (connect 1 1 ++ [fetch,.readStatus]) started

theorem kept_beforeMerge : Event.Careful .merge beforeMerge := by
  intro gid entries keep hr hcommits name hname hgid
  have hkeep : beforeMerge.refresh =
      some (.keeping 1 [uriEntry 1 "vless://new" "new"] 1) := by decide +kernel
  have hused : beforeMerge.inUse = [⟨1,1⟩] := by decide +kernel
  obtain ⟨-,-,rfl⟩ := Refreshing.keeping.inj (Option.some.inj (hkeep.symm.trans hr))
  rw [hused,List.mem_singleton] at hname
  exact Or.inl (by rw [hname])

end Sample

section Results

/-- In a careful run the connected profile is stored and running, always. -/
theorem connected_known (m : Machine) (h : Fresh m) (es : List Event) (hc : CarefulRun es m) :
    KnownThroughout es m :=
  known_throughout (following_fresh h) es hc

theorem connected_known_started :
    KnownThroughout (connect 1 1 ++ [fetch,.readStatus] ++ [.merge]) started :=
  connected_known started fresh_started _
    ⟨trivial,trivial,trivial,trivial,trivial,trivial,kept_beforeMerge,trivial⟩

/-- The refresh reads the status, the profile is connected, and the merge then
takes its number away. -/
theorem connected_unknown :
    ¬∀ (m : Machine) (es : List Event), Fresh m → KnownThroughout es m := by
  intro h
  have hlast := known_last _
    (h started ([fetch,.readStatus] ++ connect 1 1 ++ [.merge]) fresh_started)
  have hstatus : (run ([fetch,.readStatus] ++ connect 1 1 ++ [.merge]) started).status.map nameOf =
      some ⟨1,1⟩ := by decide +kernel
  have hgone : profileAt 1 1
      (run ([fetch,.readStatus] ++ connect 1 1 ++ [.merge]) started).w.disk
      (run ([fetch,.readStatus] ++ connect 1 1 ++ [.merge]) started).w.key = none := by
    decide +kernel
  obtain ⟨p,hp,hname⟩ := Option.map_eq_some_iff.mp hstatus
  obtain ⟨source,-,q,hq,-⟩ := hlast p hp
  rw [hname,hgone] at hq
  cases hq

end Results

end Whoisthat.ConnectedProfile
