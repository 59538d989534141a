import Whoisthat.FiledRecords

/-!
# Storing test results

A test carries the profile as it was read, and writes it back with the
measurements when it ends; a subscription update tests what its merge has
written. Renames, moves, deletions and merges go on meanwhile. The stored NanoID
tells the tested profile from one that took its number over, and only a rename
is undone.
-/

set_option autoImplicit false

namespace Whoisthat.TestResults
open Whoisthat.FileStore Whoisthat.FallibleState Whoisthat.Records Whoisthat.Database
open Whoisthat.GroupFiles Whoisthat.GroupSync Whoisthat.SyncWrites Whoisthat.ProfileStore
open Whoisthat.GroupStore

section Model

structure PingResult where
  latencyMs : ℤ
  jitterMs : ℤ
  lossPct : ℤ
  success : Bool

/-- The profile of `sendTestResult`. -/
def measured (ping : PingResult) (now : ℤ) (p : Profile) : Profile :=
  { p with
    testResult := ping.latencyMs
    lossPct := ping.lossPct
    jitterMs := ping.jitterMs
    testedAt := if ping.success then now else p.testedAt }

/-- Everything of a profile but its measurements. -/
def unmeasured (p : Profile) : Profile :=
  { p with testResult := 0, testedAt := 0, lossPct := 0, jitterMs := 0 }

/-- The database, and the copies of the tests that have not ended: queued,
running, or waiting in the result channel. -/
structure State where
  world : World
  tests : List Profile

inductive Event where
  | test (gid id : ℤ)
  | result (n : ℕ) (ping : PingResult) (now : ℤ)
  /-- A test is cancelled, or its result does not fit into the channel. -/
  | drop (n : ℕ)
  | add (data : DBAddProfileData)
  | rename (gid id : ℤ) (name : String)
  | move (fromGroup toGroup id : ℤ)
  | delete (gid id : ℤ)
  | merge (gid : ℤ) (entries : List DBAddProfileData) (keepProfileID : ℤ) (tested : Bool)
  | deleteGroup (gid : ℤ)

/-- `handleTestResults` on the result of a test. -/
def storeResult (ping : PingResult) (now : ℤ) (c : Profile) (w : World) : World :=
  (updateProfile (measured ping now c) w).2

def State.step (s : State) : Event → State
  | .test gid id =>
    match getProfile gid id s.world with
    | (.ok p,w) => { world := w, tests := s.tests ++ [p] }
    | (.error _,w) => { s with world := w }
  | .result n ping now =>
    match s.tests[n]? with
    | none => s
    | some c => { world := storeResult ping now c s.world, tests := s.tests.eraseIdx n }
  | .drop n => { s with tests := s.tests.eraseIdx n }
  | .add data => { s with world := (addProfile data s.world).2 }
  | .rename gid id name => { s with world := (renameProfile gid id name s.world).2 }
  | .move fromGroup toGroup id => { s with world := (moveProfile fromGroup toGroup id s.world).2 }
  | .delete gid id => { s with world := (deleteProfile gid id s.world).2 }
  | .merge gid entries keepProfileID tested =>
    match updateGroupAndProfiles gid entries keepProfileID s.world with
    | (.ok profiles,w) => { world := w, tests := if tested then s.tests ++ profiles else s.tests }
    | (.error _,w) => { s with world := w }
  | .deleteGroup gid => { s with world := (GroupStore.deleteGroup gid s.world).2 }

def State.run (s : State) : List Event → State
  | [] => s
  | e::es => (s.step e).run es

end Model

section Property

def profileIn (w : World) (gid id : ℤ) : Option Profile := profileAt gid id w.disk w.key

/-- Only the measurements of the profile that was tested change, if anything
does. -/
structure OnlyMeasured (c : Profile) (w w' : World) : Prop where
  others : ∀ path, path ≠ .profile c.groupId c.id → readFile path w'.disk = readFile path w.disk
  tested : readFile (.profile c.groupId c.id) w'.disk = readFile (.profile c.groupId c.id) w.disk ∨
    ∃ p q, profileIn w c.groupId c.id = some p ∧ profileIn w' c.groupId c.id = some q ∧
      p.nanoID = c.nanoID ∧ unmeasured q = unmeasured p

/-- Whatever test ends next, its result is stored that way. -/
def Faithful (s : State) : Prop :=
  ∀ c ∈ s.tests, ∀ ping now, OnlyMeasured c s.world (storeResult ping now c s.world)

/-- Profiles lie under their own numbers. -/
def Placed (w : World) : Prop :=
  ∀ g i p, profileIn w g i = some p → p.groupId = g ∧ p.id = i

/-- No profile of the database and no copy of one carries the NanoID. -/
def Unused (s : State) (nanoID : String) : Prop :=
  (∀ c ∈ s.tests, c.nanoID ≠ nanoID) ∧
    ∀ g i p, profileIn s.world g i = some p → p.nanoID ≠ nanoID

/-- NanoIDs of new profiles are new, and the entries of a merge are made for its
group. -/
def Event.Legal (s : State) : Event → Prop
  | .add data => Unused s data.nanoID
  | .merge gid entries _ _ =>
    (∀ d ∈ entries, d.groupId = gid ∧ Unused s d.nanoID) ∧ (entries.map (·.nanoID)).Nodup
  | _ => True

/-- The number a move gives out in the group. -/
def nextIn (w : World) (gid : ℤ) : ℤ :=
  ((groupAt gid w.disk w.key).map Group.lastId).getD 0+1

/-- No profile is renamed while it is tested, and a move that reuses the number of
a test does not bring the tested profile back under another name. -/
def Event.Careful (s : State) : Event → Prop
  | .rename gid id name => ∀ p, profileIn s.world gid id = some p →
      ∀ c ∈ s.tests, c.groupId = gid → c.id = id → c.nanoID = p.nanoID → name = p.name
  | .move fromGroup toGroup id => ∀ p, profileIn s.world fromGroup id = some p →
      ∀ c ∈ s.tests, c.groupId = toGroup → c.id = nextIn s.world toGroup → c.nanoID = p.nanoID →
        unmeasured { p with groupId := c.groupId, id := c.id } = unmeasured c
  | _ => True

def LegalRun (s : State) : List Event → Prop
  | [] => True
  | e::es => e.Legal s ∧ LegalRun (s.step e) es

def CarefulRun (s : State) : List Event → Prop
  | [] => True
  | e::es => e.Careful s ∧ CarefulRun (s.step e) es

end Property

section Writes

variable {A : Profile → Prop} {α β : Type}

/-- Profiles appear only under their own numbers, and only with `A`. -/
structure Appear (A : Profile → Prop) (w w' : World) : Prop where
  key : w'.key = w.key
  profiles : ∀ g i p, profileIn w' g i = some p →
    profileIn w g i = some p ∨ (p.groupId = g ∧ p.id = i ∧ A p)

theorem appear_refl (w : World) : Appear A w w := ⟨rfl,fun _ _ _ => .inl⟩

theorem appear_trans (u v w : World) (h : Appear A u v) (h' : Appear A v w) : Appear A u w :=
  ⟨h'.key.trans h.key,fun g i p hp => (h'.profiles g i p hp).elim (h.profiles g i p) .inr⟩

theorem profileIn_congr {w w' : World} {g i : ℤ} (hk : w'.key = w.key)
    (h : readFile (.profile g i) w'.disk = readFile (.profile g i) w.disk) :
    profileIn w' g i = profileIn w g i := by
  simp only [profileIn,profileAt,fileAt,hk,h]

theorem appear_files {w w' : World} (hk : w'.key = w.key)
    (h : ∀ g i, readFile (.profile g i) w'.disk = readFile (.profile g i) w.disk ∨
      readFile (.profile g i) w'.disk = none) : Appear A w w' := by
  refine ⟨hk,fun g i p hp => ?_⟩
  rcases h g i with h | h
  · exact .inl (profileIn_congr hk h ▸ hp)
  · rw [profileIn,profileAt,fileAt,h] at hp
    cases hp

theorem appear_reads {m : DBM α} {v : Tree → Key → Option α} (hm : ReadsAs m v) :
    Keeps (Appear A) m := fun w =>
  appear_files (hm w).1.key fun _ _ => .inl (by rw [(hm w).1.disk])

theorem profileIn_store (g i : ℤ) (p : Profile) (w : World) :
    profileIn (store (.profile g i) (.profile p) w) g i = some p := by
  rw [profileIn,profileAt,fileAt,readFile_store,if_pos rfl]
  simp [store,openBlob,Payload.asProfile]

theorem appear_store {g i : ℤ} {p : Profile} (hg : p.groupId = g) (hi : p.id = i) (ha : A p)
    (w : World) : Appear A w (store (.profile g i) (.profile p) w) := by
  refine ⟨rfl,fun g' i' q hq => ?_⟩
  by_cases hpath : Path.profile g' i' = .profile g i
  · obtain ⟨rfl,rfl⟩ := Path.profile.inj hpath
    have hp : p = q := Option.some.inj ((profileIn_store g' i' p w).symm.trans hq)
    exact .inr (hp ▸ ⟨hg,hi,ha⟩)
  · have hsame : profileIn (store (.profile g i) (.profile p) w) g' i' = profileIn w g' i' :=
      profileIn_congr rfl (by rw [readFile_store,if_neg hpath])
    exact .inl (hsame ▸ hq)

/-- A profile is written under its own numbers. -/
theorem appear_profile (wrap : DBError → DBError) {g i : ℤ} {p : Profile} (hg : p.groupId = g)
    (hi : p.id = i) (ha : A p) :
    Keeps (Appear A) (wrapping wrap (writeEncryptedJSON (.profile g i) (.profile p))) := by
  refine keeps_wrapping wrap fun w => ?_
  rcases write_cases (.profile g i) (.profile p) w with ⟨_,h⟩ | ⟨_,_,h⟩ | ⟨_,_,h⟩ <;> rw [h]
  · exact appear_refl w
  · exact ⟨rfl,fun _ _ _ => .inl⟩
  · exact appear_store hg hi ha w

/-- Any other file is written. -/
theorem appear_write {path : Path} {x : Payload} (hp : ∀ g i, path ≠ .profile g i) :
    Keeps (Appear A) (writeEncryptedJSON path x) := by
  intro w
  rcases write_cases path x w with ⟨_,h⟩ | ⟨_,_,h⟩ | ⟨_,_,h⟩ <;> rw [h]
  · exact appear_refl w
  · exact ⟨rfl,fun _ _ _ => .inl⟩
  · exact appear_files rfl fun g i => .inl (by rw [readFile_store,if_neg (Ne.symm (hp g i))])

theorem appear_erase (path : Path) : Keeps (Appear A) (Database.remove path) := fun w =>
  appear_files rfl fun g i => by
    show readFile _ (w.disk.erase path) = _ ∨ readFile _ (w.disk.erase path) = _
    rw [readFile_erase]
    split
    · exact .inr rfl
    · exact .inl rfl

theorem appear_remove (under : Path → Bool) : Keeps (Appear A) (osRemoveAll under) := fun w =>
  appear_files rfl fun g i => by
    show readFile _ (removeAll under w.disk) = _ ∨ readFile _ (removeAll under w.disk) = _
    rw [readFile_removeAll]
    split
    · exact .inr rfl
    · exact .inl rfl

theorem appear_mkdir (path : Path) : Keeps (Appear A) (osMkdirAll path) := fun _ =>
  appear_files rfl fun _ _ => .inl (readFile_mkdirFor _ _ _)

theorem appear_bind {m : DBM α} {f : α → DBM β} (hm : Keeps (Appear A) m)
    (hf : ∀ a, Keeps (Appear A) (f a)) : Keeps (Appear A) (m >>= f) := keeps_bind appear_trans hm hf

theorem appear_pure (a : α) : Keeps (Appear A) (pure a : DBM α) := keeps_pure appear_refl a

theorem appear_loadGroup (gid : ℤ) : Keeps (Appear A) (loadGroupConfig gid) :=
  appear_reads (readsAs_loadGroupConfig gid)

theorem appear_saveGroup (g : Group) : Keeps (Appear A) (saveGroupConfig g) :=
  keeps_wrapping _ (appear_write nofun)

theorem appear_xray (wrap : DBError → DBError) (gid id : ℤ) (raw : RawMessage) :
    Keeps (Appear A) (wrapping wrap (saveProfileXrayConfig gid id raw)) :=
  keeps_wrapping _ (appear_bind (appear_mkdir _) fun _ => appear_write nofun)

/-- What follows a read goes on from what was read. -/
theorem appear_bindReads {m : DBM α} {f : α → DBM β} {v : Tree → Key → Option α} {w : World}
    (hm : ReadsAs m v) (hf : ∀ a, v w.disk w.key = some a → ∀ w', Reads w w' →
      Appear A w' (f a w').2) : Appear A w ((m >>= f) w).2 := by
  have hread := hm w
  rcases hr : m w with ⟨e | a,w'⟩ <;> rw [hr] at hread
  · rw [bind_of_error hr]
    exact appear_files hread.1.key fun _ _ => .inl (by rw [hread.1.disk])
  · rw [bind_of_ok hr]
    have hw : Appear A w w' := appear_files hread.1.key fun _ _ => .inl (by rw [hread.1.disk])
    exact appear_trans _ _ _ hw (hf a hread.2.symm w' hread.1)

end Writes

section Operations

variable {A : Profile → Prop}

theorem appear_dropFromOrder (gid id : ℤ) : Keeps (Appear A) (dropFromOrder gid id) := by
  refine appear_bind (keeps_attempt (appear_loadGroup gid)) fun r => ?_
  cases r with
  | error e => exact appear_pure ()
  | ok g => exact appear_bind (keeps_attempt (appear_saveGroup _)) fun _ => appear_pure ()

theorem appear_deleteProfile (gid id : ℤ) : Keeps (Appear A) (deleteProfile gid id) :=
  appear_bind (appear_erase _) fun _ => appear_bind (appear_erase _) fun _ =>
    appear_dropFromOrder gid id

theorem appear_deleteGroup (gid : ℤ) : Keeps (Appear A) (GroupStore.deleteGroup gid) := by
  refine appear_bind (appear_remove _) fun _ =>
    appear_bind (keeps_attempt (appear_reads (readsAs_readEncryptedJSON _ _))) fun r => ?_
  cases r with
  | error e => exact appear_pure ()
  | ok c =>
    exact appear_bind (keeps_attempt (appear_write nofun)) fun _ => appear_pure ()

theorem appear_addProfile (data : DBAddProfileData) {w : World} (hw : FiledRecords.Filed w) :
    Appear (fun p => p.nanoID = data.nanoID) w (addProfile data w).2 := by
  refine appear_bindReads (readsAs_loadGroupConfig _) fun group hgroup w' _ => ?_
  have hid : group.id = data.groupId := FiledRecords.filed_group hw hgroup
  refine appear_bind (appear_saveGroup _) (fun _ => appear_bind (appear_erase _) fun _ => ?_) w'
  refine appear_bind (appear_profile _ ?_ rfl rfl) fun _ =>
    appear_bind (keeps_when appear_refl fun _ => appear_xray _ _ _ _) fun _ => appear_pure _
  exact hid.symm

theorem appear_updateProfile (p : Profile) : Keeps (Appear (· = p)) (updateProfile p) := by
  refine appear_bind (appear_reads (readsAs_wrapping _ (readsAs_getProfile _ _))) fun old => ?_
  split
  · exact keeps_fail appear_refl _
  · exact appear_profile _ rfl rfl rfl

theorem appear_mono {B : Profile → Prop} {w w' : World} (hAB : ∀ p, A p → B p)
    (h : Appear A w w') : Appear B w w' :=
  ⟨h.key,fun g i p hp => (h.profiles g i p hp).imp_right fun ⟨hg,hi,ha⟩ => ⟨hg,hi,hAB p ha⟩⟩

def Renamed (w : World) (gid id : ℤ) (name : String) (p : Profile) : Prop :=
  ∃ old, profileIn w gid id = some old ∧ p = { old with name := name }

theorem appear_renameProfile (gid id : ℤ) (name : String) (w : World) :
    Appear (Renamed w gid id name) w (renameProfile gid id name w).2 :=
  appear_bindReads (readsAs_getProfile gid id) fun old hold w' _ =>
    appear_bind (fun u => appear_mono (fun _ hp => ⟨old,hold,hp⟩) (appear_updateProfile _ u))
      (fun _ => appear_pure _) w'

theorem appear_moveXray (fromGroup toGroup id newId : ℤ) :
    Keeps (Appear A) (moveXrayConfig fromGroup toGroup id newId) := by
  refine appear_bind (keeps_attempt (appear_reads (readsAs_readEncryptedJSON _ _))) fun r => ?_
  cases r with
  | error e => exact appear_pure ()
  | ok raw => exact appear_xray _ _ _ raw

/-- A moved profile is the old one under the next number of its new group. -/
def Moved (w : World) (fromGroup toGroup id : ℤ) (p : Profile) : Prop :=
  ∃ old, profileIn w fromGroup id = some old ∧
    p = { old with groupId := toGroup, id := nextIn w toGroup }

theorem appear_moveProfile (fromGroup toGroup id : ℤ) (w : World) :
    Appear (Moved w fromGroup toGroup id) w (moveProfile fromGroup toGroup id w).2 := by
  unfold moveProfile
  split
  · exact appear_refl w
  · refine appear_bindReads (readsAs_wrapping _ (readsAs_getProfile _ _)) fun old hold u hu =>
      appear_bindReads (readsAs_wrapping _ (readsAs_loadGroupConfig _)) fun group hgroup w' _ => ?_
    have hnext : nextIn w toGroup = group.lastId+1 := by
      rw [hu.disk,hu.key] at hgroup
      rw [nextIn,hgroup]
      rfl
    have hmoved : Moved w fromGroup toGroup id
        { old with groupId := toGroup, id := group.lastId+1 } := ⟨old,hold,by rw [hnext]⟩
    refine appear_bind (appear_profile _ rfl rfl hmoved) (fun _ =>
      appear_bind (keeps_when appear_refl fun _ => appear_moveXray _ _ _ _) fun _ =>
        appear_bind (keeps_attempt (appear_saveGroup _)) fun r => ?_) w'
    cases r with
    | error e => exact appear_bind (appear_erase _) fun _ => keeps_fail appear_refl _
    | ok _ =>
      exact appear_bind (appear_erase _) fun _ => appear_bind (appear_erase _) fun _ =>
        appear_bind (appear_dropFromOrder _ _) fun _ => appear_pure _

theorem appear_writeEntry (gid id : ℤ) (p : Profile) (config : RawMessage) (hg : p.groupId = gid)
    (hi : p.id = id) : Keeps (Appear (· = p)) (writeEntry gid id p config) := by
  refine appear_bind (appear_profile _ hg hi rfl) fun _ => ?_
  split
  · exact appear_xray _ _ _ config
  · exact appear_erase _

theorem appear_removeStale (gid : ℤ) (usedIDs : List ℤ) (profiles : List Profile) :
    Keeps (Appear A) (removeStale gid usedIDs profiles) := by
  refine keeps_forEach appear_refl appear_trans profiles fun p _ => ?_
  split
  · exact appear_pure ()
  · exact appear_bind (appear_erase _) fun _ => appear_erase _

end Operations

section Copies

variable {A : Profile → Prop} {w w' : World}

/-- As long as a copy's NanoID is stored under its numbers, only its measurements
may differ from what is stored. -/
def Agreed (copies : List Profile) (w : World) : Prop :=
  ∀ c ∈ copies, ∀ p, profileIn w c.groupId c.id = some p → p.nanoID = c.nanoID →
    unmeasured p = unmeasured c

theorem agreed_appear {copies : List Profile} (hc : Agreed copies w) (h : Appear A w w')
    (ha : ∀ c ∈ copies, ∀ p, p.groupId = c.groupId → p.id = c.id → A p → p.nanoID = c.nanoID →
      unmeasured p = unmeasured c) : Agreed copies w' := by
  intro c hmem p hp hn
  rcases h.profiles _ _ p hp with hold | ⟨hg,hi,hA⟩
  · exact hc c hmem p hold hn
  · exact ha c hmem p hg hi hA hn

theorem placed_appear (hw : Placed w) (h : Appear A w w') : Placed w' := fun g i p hp =>
  (h.profiles g i p hp).elim (hw g i p) fun ⟨hg,hi,_⟩ => ⟨hg,hi⟩

/-- What is stored under its own numbers agrees with itself. -/
theorem agreed_stored {copies : List Profile} (hc : Agreed copies w) (hw : Placed w)
    {ps : List Profile} (hp : ∀ p ∈ ps, ∃ g i, profileIn w g i = some p) :
    Agreed (copies ++ ps) w := by
  intro c hmem q hq hn
  rcases List.mem_append.mp hmem with hmem | hmem
  · exact hc c hmem q hq hn
  · obtain ⟨g,i,hc⟩ := hp c hmem
    obtain ⟨rfl,rfl⟩ := hw g i c hc
    rw [Option.some.inj (hq.symm.trans hc)]

end Copies

section Merge

variable {gid : ℤ} {profiles : List Profile} {keep : Keep}

theorem mergedProfile_origin (profiles : List Profile) (id : ℤ) (d : DBAddProfileData) :
    (mergedProfile profiles id d).groupId = d.groupId ∧
      (mergedProfile profiles id d).nanoID = d.nanoID := by
  unfold mergedProfile
  split
  · exact ⟨rfl,rfl⟩
  · split <;> exact ⟨rfl,rfl⟩

theorem assign_profilesAdded (profiles : List Profile) (st : Sync) (d : DBAddProfileData) :
    (st.assign profiles d).2.profilesAdded = st.profilesAdded := by
  unfold Sync.assign
  cases d.managed <;> rfl

theorem appear_syncProfiles (entries : List DBAddProfileData) (hg : ∀ d ∈ entries, d.groupId = gid)
    (st : Sync) : Keeps (Appear fun p => ∃ d ∈ entries, p.nanoID = d.nanoID)
      (syncProfiles gid profiles keep st entries) := by
  induction entries generalizing st with
  | nil => exact appear_pure st
  | cons d ds ih =>
    have hrest : ∀ st, Keeps (Appear fun p => ∃ e ∈ d::ds, p.nanoID = e.nanoID)
        (syncProfiles gid profiles keep st ds) := fun st w =>
      appear_mono (fun p ⟨e,he,hn⟩ => ⟨e,List.mem_cons_of_mem d he,hn⟩)
        (ih (fun e he => hg e (List.mem_cons_of_mem d he)) st w)
    unfold syncProfiles
    split
    · exact hrest st
    · obtain ⟨hgroup,hnano⟩ := mergedProfile_origin profiles (st.assign profiles d).1 d
      have hid := (mergedProfile_fields profiles (st.assign profiles d).1 d).1
      refine appear_bind (fun w => appear_mono ?_ (appear_writeEntry gid _ _ d.config
        (hgroup.trans (hg d List.mem_cons_self)) hid w)) fun _ => hrest _
      rintro p rfl
      exact ⟨d,List.mem_cons_self,hnano⟩

/-- The profiles added so far are stored as they were added, and no later entry
has a NanoID that is in use. -/
structure Syncing (ds : List DBAddProfileData) (added : List Profile) (w : World) : Prop where
  agreed : Agreed added w
  distinct : ∀ d ∈ ds, ∀ p ∈ added, p.nanoID ≠ d.nanoID
  unused : ∀ d ∈ ds, ∀ g i p, profileIn w g i = some p → p.nanoID ≠ d.nanoID

theorem syncing_tail {d : DBAddProfileData} {ds : List DBAddProfileData} {added : List Profile}
    {w : World} (h : Syncing (d::ds) added w) : Syncing ds added w :=
  ⟨h.agreed,fun e he => h.distinct e (List.mem_cons_of_mem d he),
    fun e he => h.unused e (List.mem_cons_of_mem d he)⟩

theorem syncing_push {d : DBAddProfileData} {ds : List DBAddProfileData} {added : List Profile}
    {q : Profile} {w w' : World} (h : Syncing (d::ds) added w) (hq : q.nanoID = d.nanoID)
    (hd : ∀ e ∈ ds, d.nanoID ≠ e.nanoID) (hw : Appear (· = q) w w') :
    Syncing ds (added ++ [q]) w' := by
  have hd' := List.mem_cons_self (a := d) (l := ds)
  refine ⟨?_,?_,?_⟩
  · intro c hc p hp hn
    rcases List.mem_append.mp hc with hc | hc
    · rcases hw.profiles _ _ p hp with hold | ⟨-,-,hpq⟩
      · exact h.agreed c hc p hold hn
      · exact absurd (hn.symm.trans (hpq ▸ hq)) (h.distinct d hd' c hc)
    · obtain rfl := List.mem_singleton.mp hc
      rcases hw.profiles _ _ p hp with hold | ⟨-,-,rfl⟩
      · exact absurd (hn.trans hq) (h.unused d hd' _ _ p hold)
      · rfl
  · intro e he p hp
    rcases List.mem_append.mp hp with hp | hp
    · exact h.distinct e (List.mem_cons_of_mem d he) p hp
    · rw [List.mem_singleton.mp hp,hq]
      exact hd e he
  · intro e he g i p hp
    rcases hw.profiles g i p hp with hold | ⟨-,-,rfl⟩
    · exact h.unused e (List.mem_cons_of_mem d he) g i p hold
    · rw [hq]
      exact hd e he

theorem syncProfiles_agrees (profiles : List Profile) (keep : Keep)
    (entries : List DBAddProfileData)
    (hg : ∀ d ∈ entries, d.groupId = gid) (hd : (entries.map (·.nanoID)).Nodup) (st : Sync) :
    Triple (Syncing entries st.profilesAdded) (syncProfiles gid profiles keep st entries)
      (fun r w => Agreed r.profilesAdded w) (fun _ _ => True) := by
  induction entries generalizing st with
  | nil => exact triple_pure st fun w h => h.agreed
  | cons d ds ih =>
    obtain ⟨hfirst,hds⟩ := List.nodup_cons.mp hd
    have hrest := ih (fun e he => hg e (List.mem_cons_of_mem d he)) hds
    unfold syncProfiles
    split
    · exact triple_weaken (hrest st) (fun w h => syncing_tail h) (fun _ _ h => h) fun _ _ h => h
    · obtain ⟨hgroup,hnano⟩ := mergedProfile_origin profiles (st.assign profiles d).1 d
      have hid := (mergedProfile_fields profiles (st.assign profiles d).1 d).1
      have hwrite := appear_writeEntry gid _ _ d.config
        (hgroup.trans (hg d List.mem_cons_self)) hid
      have hpush := assign_profilesAdded profiles st d
      have hne : ∀ e ∈ ds, d.nanoID ≠ e.nanoID := fun e he heq =>
        hfirst (List.mem_map.mpr ⟨e,he,heq.symm⟩)
      refine triple_bind (Q := fun _ => Syncing ds ((st.assign profiles d).2.push
          (st.assign profiles d).1 (mergedProfile profiles (st.assign profiles d).1 d)).profilesAdded)
        (triple_weaken (triple_of_state fun w h => ?_)
          (fun _ h => h) (fun _ _ h => h) fun _ _ _ => trivial) fun _ => hrest _
      rw [Sync.push,hpush]
      exact syncing_push h hnano hne (hwrite w)

theorem appear_update (gid keepProfileID : ℤ) (entries : List DBAddProfileData)
    (hg : ∀ d ∈ entries, d.groupId = gid) :
    Keeps (Appear fun p => ∃ d ∈ entries, p.nanoID = d.nanoID)
      (updateGroupAndProfiles gid entries keepProfileID) := by
  refine appear_bind (keeps_wrapping _ fun w => ?_) fun group =>
    appear_bind (appear_syncProfiles entries hg _) fun st =>
      appear_bind (appear_saveGroup _) fun _ => appear_bind (appear_removeStale _ _ _) fun _ =>
        appear_pure _
  have hread := (getGroup_reads gid w).1
  exact appear_files hread.key fun _ _ => .inl (by rw [hread.disk])

/-- The profile a merge keeps is stored. -/
theorem kept_stored (keepProfileID : ℤ) {v : GroupWithProfiles} {w w' : World}
    (h : getGroupDataAndProfiles gid w = (.ok v,w')) :
    ∀ p ∈ (keepOf v.profiles keepProfileID).profile.toList, ∃ i, profileIn w gid i = some p := by
  have hread := (getGroup_reads gid w).2
  rw [h] at hread
  split at hread
  · rename_i u g hu hgroup
    obtain rfl := Except.ok.inj hu
    intro p hp
    rcases keepOf_cases v.profiles keepProfileID with ⟨-,hnone⟩ | ⟨kept,hmem,-,-,hkeep⟩
    · rw [hnone] at hp
      cases hp
    · rw [hkeep] at hp
      obtain rfl := List.mem_singleton.mp hp
      rw [hread.2] at hmem
      obtain ⟨⟨i,q⟩,hq,rfl⟩ := List.mem_map.mp hmem
      refine ⟨i,(mem_profilesMapAt gid w.disk w.key i q).mp ?_⟩
      rw [listedAt,hgroup] at hq
      exact (orderProfiles_perm _ (nodup_profilesMapAt gid w.disk w.key)).mem_iff.mp hq
  · rename_i he _
    cases he
  · exact absurd hread id

/-- What a merge hands to the tests is what it has stored. -/
theorem update_agrees {keepProfileID : ℤ} {entries : List DBAddProfileData} {w w' : World}
    {added : List Profile} (hp : Placed w) (hg : ∀ d ∈ entries, d.groupId = gid)
    (hu : ∀ d ∈ entries, ∀ g i p, profileIn w g i = some p → p.nanoID ≠ d.nanoID)
    (hd : (entries.map (·.nanoID)).Nodup)
    (h : updateGroupAndProfiles gid entries keepProfileID w = (.ok added,w')) :
    Agreed added w' := by
  obtain ⟨v,w₁,hv,h⟩ := bind_ok h
  obtain ⟨st,w₂,hst,h⟩ := bind_ok h
  obtain ⟨_,w₃,hsave,h⟩ := bind_ok h
  obtain ⟨_,w₄,hstale,h⟩ := bind_ok h
  obtain ⟨hadded,rfl⟩ := Prod.mk.inj h
  obtain rfl := Except.ok.inj hadded
  have hkept := kept_stored keepProfileID (Database.wrapping_ok.mp hv)
  have hread := (getGroup_reads gid w).1
  rw [Database.wrapping_ok.mp hv] at hread
  have hsame : ∀ g i, profileIn w₁ g i = profileIn w g i := fun g i =>
    profileIn_congr hread.key (by rw [hread.disk])
  have hstart : Syncing entries (keepOf v.profiles keepProfileID).profile.toList w₁ := by
    refine ⟨fun c hc p hs _ => ?_,fun d hmem p hk => ?_,fun d hmem g i p hs => ?_⟩
    · obtain ⟨i,hi⟩ := hkept c hc
      obtain ⟨rfl,rfl⟩ := hp gid i c hi
      rw [Option.some.inj (hs.symm.trans ((hsame _ _).trans hi))]
    · obtain ⟨i,hi⟩ := hkept p hk
      exact hu d hmem gid i p hi
    · exact hu d hmem g i p ((hsame g i).symm.trans hs)
  have hsynced := syncProfiles_agrees v.profiles
    (keepOf v.profiles keepProfileID) entries hg hd
    (Sync.start v.group.lastId v.profiles (keepOf v.profiles keepProfileID)) w₁ hstart
  rw [hst] at hsynced
  have hw₃ : Appear (fun _ => False) w₂ w₃ := by
    have hk := appear_saveGroup (A := fun _ => False)
      { v.group with lastId := st.lastID, profileOrder := st.newOrder } w₂
    rwa [hsave] at hk
  have hw₄ : Appear (fun _ => False) w₃ w₄ := by
    have hk := appear_removeStale (A := fun _ => False) gid st.usedIDs v.profiles w₃
    rwa [hstale] at hk
  exact agreed_appear hsynced (appear_trans _ _ _ hw₃ hw₄) fun _ _ _ _ _ hno => hno.elim

end Merge

section Results

variable {ping : PingResult} {now : ℤ} {c : Profile} {w : World}

@[simp] theorem unmeasured_measured (ping : PingResult) (now : ℤ) (p : Profile) :
    unmeasured (measured ping now p) = unmeasured p := rfl

/-- A result is stored over the profile with its numbers and its NanoID, or not
at all. -/
theorem storeResult_cases (ping : PingResult) (now : ℤ) (c : Profile) (w : World) :
    ((storeResult ping now c w).disk = w.disk ∧ (storeResult ping now c w).key = w.key) ∨
    ∃ old w', Reads w w' ∧ profileIn w c.groupId c.id = some old ∧ old.nanoID = c.nanoID ∧
      storeResult ping now c w =
        store (.profile c.groupId c.id) (.profile (measured ping now c)) w' := by
  have hread := readsAs_wrapping (.updateMissing c.groupId c.id)
    (readsAs_getProfile c.groupId c.id) w
  rw [storeResult,updateProfile]
  rcases hr : wrapping (.updateMissing c.groupId c.id) (getProfile c.groupId c.id) w
    with ⟨e | old,w'⟩ <;> rw [hr] at hread
  · left
    rw [show (measured ping now c).groupId = c.groupId from rfl,
      show (measured ping now c).id = c.id from rfl,bind_of_error hr]
    exact ⟨hread.1.disk,hread.1.key⟩
  · rw [show (measured ping now c).groupId = c.groupId from rfl,
      show (measured ping now c).id = c.id from rfl,bind_of_ok hr]
    split
    · exact .inl ⟨hread.1.disk,hread.1.key⟩
    · rename_i hn
      rw [wrapping_snd]
      rcases write_cases (.profile c.groupId c.id) (.profile (measured ping now c)) w'
        with ⟨_,h⟩ | ⟨_,_,h⟩ | ⟨_,_,h⟩ <;> rw [h]
      · exact .inl ⟨hread.1.disk,hread.1.key⟩
      · exact .inl ⟨hread.1.disk,hread.1.key⟩
      · exact .inr ⟨old,w',hread.1,hread.2.symm,not_not.mp hn,rfl⟩

/-- The result of a copy that agrees with what is stored changes measurements
only. -/
theorem agreed_onlyMeasured {copies : List Profile} (hc : Agreed copies w) (hmem : c ∈ copies) :
    OnlyMeasured c w (storeResult ping now c w) := by
  rcases storeResult_cases ping now c w with ⟨hdisk,-⟩ | ⟨old,w',hread,hold,hn,heq⟩
  · exact ⟨fun path _ => by rw [hdisk],.inl (by rw [hdisk])⟩
  · rw [heq]
    refine ⟨fun path hne => ?_,.inr ⟨old,measured ping now c,hold,profileIn_store _ _ _ _,hn,?_⟩⟩
    · rw [readFile_store,if_neg hne,hread.disk]
    · rw [unmeasured_measured,hc c hmem old hold hn]

/-- A stored result is a copy whose NanoID was stored under its numbers. -/
def Stored (c : Profile) (w : World) (p : Profile) : Prop :=
  p.groupId = c.groupId ∧ p.id = c.id ∧ ∃ old, profileIn w c.groupId c.id = some old ∧ old.nanoID = c.nanoID ∧ p.nanoID = c.nanoID ∧
    unmeasured p = unmeasured c

theorem appear_storeResult (ping : PingResult) (now : ℤ) (c : Profile) (w : World) :
    Appear (Stored c w) w (storeResult ping now c w) := by
  rcases storeResult_cases ping now c w with ⟨hdisk,hkey⟩ | ⟨old,w',hread,hold,hn,heq⟩
  · exact appear_files hkey fun _ _ => .inl (by rw [hdisk])
  · rw [heq]
    have hw' : Appear (Stored c w) w w' :=
      appear_files hread.key fun _ _ => .inl (by rw [hread.disk])
    have hs : Stored c w (measured ping now c) := ⟨rfl,rfl,old,hold,hn,rfl,rfl⟩
    exact appear_trans _ _ _ hw' (appear_store rfl rfl hs w')

end Results

section Runs

/-- Files lie under the names of their records, and the copies of the tests agree
with what is stored. -/
structure Inv (s : State) : Prop where
  filed : FiledRecords.Filed s.world
  placed : Placed s.world
  agreed : Agreed s.tests s.world

theorem agreed_subset {copies copies' : List Profile} {w : World} (hc : Agreed copies w)
    (h : ∀ c ∈ copies', c ∈ copies) : Agreed copies' w := fun c hmem => hc c (h c hmem)

theorem inv_appear {A : Profile → Prop} {s : State} {w : World} (hs : Inv s)
    (hf : FiledRecords.KeepsFiled s.world w) (h : Appear A s.world w)
    (ha : ∀ c ∈ s.tests, ∀ p, p.groupId = c.groupId → p.id = c.id → A p → p.nanoID = c.nanoID →
      unmeasured p = unmeasured c) : Inv { s with world := w } :=
  ⟨hf hs.filed,placed_appear hs.placed h,agreed_appear hs.agreed h ha⟩

/-- Nothing appears under numbers a test knows. -/
theorem inv_shrinks {s : State} {α : Type} {m : DBM α} (hs : Inv s)
    (hf : Keeps FiledRecords.KeepsFiled m) (h : Keeps (Appear fun _ => False) m) :
    Inv { s with world := (m s.world).2 } :=
  inv_appear hs (hf s.world) (h s.world) fun _ _ _ _ _ hno => hno.elim

theorem step_test (s : State) (gid id : ℤ) :
    s.step (.test gid id) = match getProfile gid id s.world with
      | (.ok p,w) => { world := w, tests := s.tests ++ [p] }
      | (.error _,w) => { s with world := w } := rfl

theorem step_result (s : State) (n : ℕ) (ping : PingResult) (now : ℤ) :
    s.step (.result n ping now) = match s.tests[n]? with
      | none => s
      | some c => { world := storeResult ping now c s.world, tests := s.tests.eraseIdx n } := rfl

theorem step_merge (s : State) (gid : ℤ) (entries : List DBAddProfileData) (keepProfileID : ℤ)
    (tested : Bool) :
    s.step (.merge gid entries keepProfileID tested) =
      match updateGroupAndProfiles gid entries keepProfileID s.world with
      | (.ok profiles,w) =>
        { world := w, tests := if tested then s.tests ++ profiles else s.tests }
      | (.error _,w) => { s with world := w } := rfl

theorem inv_test {s : State} (hs : Inv s) (gid id : ℤ) : Inv (s.step (.test gid id)) := by
  have hread := readsAs_getProfile gid id s.world
  have hfiled := FiledRecords.keeps_readsAs FiledRecords.primitive_filed
    (readsAs_getProfile gid id) s.world
  rcases hr : getProfile gid id s.world with ⟨e | p,w⟩ <;> rw [hr] at hread hfiled <;>
    rw [step_test,hr]
  all_goals
    have hw : Appear (fun _ => False) s.world w :=
      appear_files hread.1.key fun _ _ => .inl (by rw [hread.1.disk])
    have hinv : Inv { s with world := w } :=
      inv_appear hs hfiled hw fun _ _ _ _ _ hno => hno.elim
  · exact hinv
  · refine ⟨hinv.filed,hinv.placed,agreed_stored hinv.agreed hinv.placed fun q hq => ?_⟩
    obtain rfl := List.mem_singleton.mp hq
    refine ⟨gid,id,?_⟩
    rw [profileIn_congr hread.1.key (by rw [hread.1.disk])]
    exact hread.2.symm

theorem inv_result {s : State} (hs : Inv s) (n : ℕ) (ping : PingResult) (now : ℤ) :
    Inv (s.step (.result n ping now)) := by
  rw [step_result]
  cases hn : s.tests[n]? with
  | none => exact hs
  | some c =>
    have hmem : c ∈ s.tests := List.mem_of_getElem? hn
    have hinv : Inv { s with world := storeResult ping now c s.world } := by
      refine inv_appear hs (FiledRecords.keeps_updateProfile FiledRecords.primitive_filed _ _)
        (appear_storeResult ping now c s.world) ?_
      rintro c' hmem' p hg hi ⟨hpg,hpi,old,hold,hn_old,hn_p,hu⟩ hn'
      have hc' : unmeasured old = unmeasured c' := by
        refine hs.agreed c' hmem' old ?_ (hn_old.trans (hn_p.symm.trans hn'))
        rwa [← hg,← hi,hpg,hpi]
      rw [hu,← hs.agreed c hmem old hold hn_old,hc']
    exact ⟨hinv.filed,hinv.placed,agreed_subset hinv.agreed fun _ => List.mem_of_mem_eraseIdx⟩

theorem inv_rename {s : State} (hs : Inv s) (gid id : ℤ) (name : String)
    (hc : (Event.rename gid id name).Careful s) : Inv (s.step (.rename gid id name)) := by
  refine inv_appear hs (FiledRecords.keeps_renameProfile FiledRecords.primitive_filed _ _ _ _)
    (appear_renameProfile gid id name s.world) ?_
  rintro c hmem p hg hi ⟨old,hold,rfl⟩ hn
  obtain ⟨rfl,rfl⟩ := hs.placed gid id old hold
  have hname := hc old hold c hmem hg.symm hi.symm hn.symm
  have hsame : unmeasured { old with name := name } = unmeasured old := by rw [hname]
  rw [hsame]
  have hg' : old.groupId = c.groupId := hg
  have hi' : old.id = c.id := hi
  exact hs.agreed c hmem old (hg' ▸ hi' ▸ hold) hn

theorem inv_move {s : State} (hs : Inv s) (fromGroup toGroup id : ℤ)
    (hc : (Event.move fromGroup toGroup id).Careful s) :
    Inv (s.step (.move fromGroup toGroup id)) := by
  refine inv_appear hs (FiledRecords.keeps_moveProfile FiledRecords.primitive_filed _ _ _ _)
    (appear_moveProfile fromGroup toGroup id s.world) ?_
  rintro c hmem p hg hi ⟨old,hold,rfl⟩ hn
  have hg' : toGroup = c.groupId := hg
  have hi' : nextIn s.world toGroup = c.id := hi
  have hsame := hc old hold c hmem hg'.symm hi'.symm hn.symm
  rwa [hg',← hi',hg'] at *

theorem inv_merge {s : State} (hs : Inv s) (gid : ℤ) (entries : List DBAddProfileData)
    (keepProfileID : ℤ) (tested : Bool)
    (hl : (Event.merge gid entries keepProfileID tested).Legal s) :
    Inv (s.step (.merge gid entries keepProfileID tested)) := by
  obtain ⟨hl,hnodup⟩ := hl
  have hg : ∀ d ∈ entries, d.groupId = gid := fun d hd => (hl d hd).1
  have hinv : Inv { s with world := (updateGroupAndProfiles gid entries keepProfileID s.world).2 } := by
    refine inv_appear hs (FiledRecords.keeps_updateGroupAndProfiles FiledRecords.primitive_filed
      _ _ _ _) (appear_update gid keepProfileID entries hg s.world) ?_
    rintro c hmem p - - ⟨d,hd,hp⟩ hn
    exact absurd (hn.symm.trans hp) ((hl d hd).2.1 c hmem)
  rw [step_merge]
  rcases hr : updateGroupAndProfiles gid entries keepProfileID s.world with ⟨e | added,w⟩ <;>
    rw [hr] at hinv
  · exact hinv
  · refine ⟨hinv.filed,hinv.placed,?_⟩
    have hadded := update_agrees hs.placed hg (fun d hd => (hl d hd).2.2) hnodup hr
    cases tested with
    | false => exact hinv.agreed
    | true =>
      intro c hmem
      rcases List.mem_append.mp hmem with hmem | hmem
      · exact hinv.agreed c hmem
      · exact hadded c hmem

theorem step_inv {s : State} (hs : Inv s) (e : Event) (hl : e.Legal s) (hc : e.Careful s) :
    Inv (s.step e) := by
  have hp := FiledRecords.primitive_filed
  cases e with
  | test gid id => exact inv_test hs gid id
  | result n ping now => exact inv_result hs n ping now
  | drop n =>
    exact ⟨hs.filed,hs.placed,agreed_subset hs.agreed fun _ => List.mem_of_mem_eraseIdx⟩
  | add data =>
    refine inv_appear hs (FiledRecords.keeps_addProfile hp _ _)
      (appear_addProfile data hs.filed) ?_
    rintro c hmem p - - hA hn
    exact absurd (hn.symm.trans hA) (hl.1 c hmem)
  | rename gid id name => exact inv_rename hs gid id name hc
  | move fromGroup toGroup id => exact inv_move hs fromGroup toGroup id hc
  | delete gid id =>
    exact inv_shrinks hs (FiledRecords.keeps_deleteProfile hp gid id)
      (appear_deleteProfile gid id)
  | merge gid entries keepProfileID tested => exact inv_merge hs gid entries keepProfileID tested hl
  | deleteGroup gid =>
    exact inv_shrinks hs (FiledRecords.keeps_deleteGroup hp gid) (appear_deleteGroup gid)

theorem run_inv {s : State} (hs : Inv s) (es : List Event) (hl : LegalRun s es)
    (hc : CarefulRun s es) : Inv (s.run es) := by
  induction es generalizing s with
  | nil => exact hs
  | cons e es ih => exact ih (step_inv hs e hl.1 hc.1) hl.2 hc.2

/-- Where no profile is renamed under its test, results change measurements
only. -/
theorem careful_run_faithful {s : State} (hf : FiledRecords.Filed s.world)
    (hp : Placed s.world) (ht : s.tests = []) (es : List Event) (hl : LegalRun s es)
    (hc : CarefulRun s es) : Faithful (s.run es) := by
  have hinv := run_inv ⟨hf,hp,fun c hmem => by simp [ht] at hmem⟩ es hl hc
  exact fun c hmem ping now => agreed_onlyMeasured hinv.agreed hmem

/-- A database of one group without profiles. -/
def oneGroup : State := { world := worldOf (newGroup 1 "new" 0) [] [], tests := [] }

theorem oneGroup_files (path : Path) (b : Blob) (h : readFile path oneGroup.world.disk = some b) :
    path = .groupConfig 1 ∧ b = .sealed [] 0 (.group (newGroup 1 "new" 0)) := by
  change readFile path (groupFiles (newGroup 1 "new" 0) []) = some b at h
  rw [readFile_base] at h
  split at h
  · exact ⟨‹_›,(Option.some.inj h).symm⟩
  · exact nomatch h

theorem oneGroup_filed : FiledRecords.Filed oneGroup.world := by
  intro path b k p hb hp
  obtain ⟨rfl,rfl⟩ := oneGroup_files path b hb
  simp only [openBlob] at hp
  split at hp
  · rw [← Option.some.inj hp]
    rfl
  · cases hp

theorem oneGroup_profileIn (g i : ℤ) : profileIn oneGroup.world g i = none := by
  rw [profileIn,profileAt,fileAt]
  cases hb : readFile (.profile g i) oneGroup.world.disk with
  | none => rfl
  | some b => cases (oneGroup_files _ b hb).1

theorem oneGroup_placed : Placed oneGroup.world := fun g i p hp => by
  rw [oneGroup_profileIn] at hp
  exact nomatch hp

theorem oneGroup_unused (nanoID : String) : Unused oneGroup nanoID :=
  ⟨fun c hc => (List.not_mem_nil hc).elim,fun g i p hp => by
    rw [oneGroup_profileIn] at hp
    exact nomatch hp⟩

/-- A profile deleted under its test stays deleted. -/
theorem deleted_faithful :
    (oneGroup.run [.add (uriEntry 1 "a" "a"),.test 1 1,.delete 1 1]).tests.length = 1 ∧
    Faithful (oneGroup.run [.add (uriEntry 1 "a" "a"),.test 1 1,.delete 1 1]) :=
  ⟨by decide,careful_run_faithful oneGroup_filed oneGroup_placed rfl _
    ⟨oneGroup_unused _,trivial,trivial,trivial⟩ ⟨trivial,trivial,trivial,trivial⟩⟩

/-- A profile renamed under its test gets its old name back. -/
theorem rename_undone :
    FiledRecords.Filed oneGroup.world ∧ Placed oneGroup.world ∧ oneGroup.tests = [] ∧
    LegalRun oneGroup [.add (uriEntry 1 "a" "a"),.test 1 1,.rename 1 1 "b"] ∧
    (profileIn (oneGroup.run [.add (uriEntry 1 "a" "a"),.test 1 1,.rename 1 1 "b",
      .result 0 ⟨20,0,0,true⟩ 5]).world 1 1).map (·.name) = some "a" ∧
    ¬Faithful (oneGroup.run [.add (uriEntry 1 "a" "a"),.test 1 1,.rename 1 1 "b"]) := by
  refine ⟨oneGroup_filed,oneGroup_placed,rfl,⟨oneGroup_unused _,trivial,trivial,trivial⟩,
    by decide,fun h => ?_⟩
  have hcopy := h (profileOf 1 (uriEntry 1 "a" "a")) (by decide) ⟨20,0,0,true⟩ 5
  rcases hcopy.tested with hsame | ⟨p,q,hp,hq,-,hu⟩
  · revert hsame
    decide
  · have hname : p.name = q.name := (congrArg Profile.name hu).symm
    have hb : (profileIn (oneGroup.run [.add (uriEntry 1 "a" "a"),.test 1 1,
      .rename 1 1 "b"]).world 1 1).map (·.name) = some "b" := by decide
    have ha : (profileIn (storeResult ⟨20,0,0,true⟩ 5 (profileOf 1 (uriEntry 1 "a" "a"))
      (oneGroup.run [.add (uriEntry 1 "a" "a"),.test 1 1,.rename 1 1 "b"]).world) 1 1).map
        (·.name) = some "a" := by decide
    have hp' : some p.name = some "b" := hb ▸ (congrArg (Option.map Profile.name) hp).symm
    have hq' : some q.name = some "a" := ha ▸ (congrArg (Option.map Profile.name) hq).symm
    rw [hname,hq'] at hp'
    exact absurd hp' (by decide)

end Runs

end Whoisthat.TestResults
