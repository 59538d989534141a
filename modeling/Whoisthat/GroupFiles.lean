import Mathlib.Data.List.Sort
import Whoisthat.Database

/-!
# Files of one group

Loading and saving of group configs, profiles, provider configurations and
routing profiles, and the combined view a client sees. The view is computed by
reads only; what it contains is a pure function of the stored files.
-/

set_option autoImplicit false

namespace Whoisthat.GroupFiles
open Whoisthat.FileStore Whoisthat.FallibleState Whoisthat.Records Whoisthat.Database

def loadGroupConfig (gid : ℤ) : DBM Group :=
  wrapping (.loadGroup gid) (readEncryptedJSON (.groupConfig gid) Payload.asGroup)

def saveGroupConfig (group : Group) : DBM Unit :=
  wrapping (.writeGroupConfig group.id)
    (writeEncryptedJSON (.groupConfig group.id) (.group group))

/-- Same file as `saveGroupConfig`, another error text; the source has both. -/
def updateGroup (group : Group) : DBM Unit :=
  wrapping (.writeFile (.groupConfig group.id))
    (writeEncryptedJSON (.groupConfig group.id) (.group group))

def getProfile (gid id : ℤ) : DBM Profile :=
  wrapping (.readProfile gid id) (readEncryptedJSON (.profile gid id) Payload.asProfile)

def saveProfileXrayConfig (gid id : ℤ) (raw : RawMessage) : DBM Unit := do
  osMkdirAll (.profileXrayConfig gid id)
  writeEncryptedJSON (.profileXrayConfig gid id) (.raw raw)

def loadProfileXrayConfig (gid id : ℤ) : DBM RawMessage :=
  readEncryptedJSON (.profileXrayConfig gid id) Payload.asRaw

def deleteProfileXrayConfig (gid id : ℤ) : DBM Unit := remove (.profileXrayConfig gid id)

def saveRoutingProfile (p : RoutingProfile) : DBM Unit := do
  osMkdirAll (.routingProfile p.groupId p.id)
  writeEncryptedJSON (.routingProfile p.groupId p.id) (.routingProfile p)

def loadRoutingProfile (gid : ℤ) (id : String) : DBM RoutingProfile :=
  readEncryptedJSON (.routingProfile gid id) Payload.asRoutingProfile

/-- Try each of several reads and keep what could be read. -/
def gather {ι α : Type} (read : ι → DBM α) : List ι → DBM (List (ι × α))
  | [] => pure []
  | i::is => do
    let r ← attempt (read i)
    let rest ← gather read is
    pure ((r.toOption.map (Prod.mk i)).toList ++ rest)

def profileName (gid : ℤ) : Path → Option ℤ
  | .profile g id => if g = gid then some id else none
  | _ => none

def routingProfileName (gid : ℤ) : Path → Option String
  | .routingProfile g id => if g = gid then some id else none
  | _ => none

def routingProfileBefore (p q : RoutingProfile) : Prop :=
  p.createdAt < q.createdAt ∨ (p.createdAt = q.createdAt ∧ p.name ≤ q.name)

instance : DecidableRel routingProfileBefore := fun p q => by
  unfold routingProfileBefore
  infer_instance

def listRoutingProfiles (gid : ℤ) : DBM (List RoutingProfile) := do
  let ids ← readDir (routingProfileName gid)
  let found ← gather (loadRoutingProfile gid) ids
  pure ((found.map Prod.snd).insertionSort routingProfileBefore)

/-- The `ProfileOrder` loop over the map of readable profiles, then the
profiles the order does not mention by ascending id. -/
def orderProfiles {α : Type} : List ℤ → List (ℤ × α) → List (ℤ × α)
  | [], m => m.insertionSort (fun a b => a.1 ≤ b.1)
  | pid::order, m =>
    match m.find? (fun e => e.1 = pid) with
    | some e => e :: orderProfiles order (m.filter (fun e => e.1 ≠ pid))
    | none => orderProfiles order m

def getGroupDataAndProfiles (gid : ℤ) : DBM GroupWithProfiles := do
  let groupConfig ← loadGroupConfig gid
  let ids ← readDir (profileName gid)
  let profilesMap ← gather (getProfile gid) ids
  let ordered := orderProfiles groupConfig.profileOrder profilesMap
  let routingProfiles ← listRoutingProfiles gid
  pure
    { group := { groupConfig with profileOrder := ordered.map Prod.fst }
      profiles := ordered.map Prod.snd
      routingProfiles := routingProfiles }

theorem frame_saveProfileXrayConfig (gid id : ℤ) (raw : RawMessage) :
    Keeps (Frame (fun q => q = .profileXrayConfig gid id)) (saveProfileXrayConfig gid id raw) :=
  keeps_bind frame_trans (frame_osMkdirAll _ _) fun _ => frame_write _ _

theorem saveProfileXrayConfig_cases (gid id : ℤ) (raw : RawMessage) (w : World)
    (hw : w.degraded = false) :
    let r := saveProfileXrayConfig gid id raw w
    (w.faults.head? = some true ∧ r.1 = .error (.write (.profileXrayConfig gid id))) ∨
    (w.faults.head? ≠ some true ∧ r.1 = .ok () ∧ r.2.faults = w.faults.tail) := by
  have hrun : saveProfileXrayConfig gid id raw w = writeEncryptedJSON (.profileXrayConfig gid id)
      (.raw raw) (osMkdirAll (.profileXrayConfig gid id) w).2 := rfl
  rw [hrun]
  rcases write_cases (.profileXrayConfig gid id) (.raw raw)
    (osMkdirAll (.profileXrayConfig gid id) w).2 with ⟨hd,_⟩ | ⟨_,hf,h⟩ | ⟨_,hf,h⟩
  · simp [osMkdirAll,hw] at hd
  · rw [h]
    exact Or.inl ⟨hf,rfl⟩
  · rw [h]
    exact Or.inr ⟨hf,rfl,rfl⟩

section Reading

/-- Reads may only raise the read-only flag. -/
structure Reads (w w' : World) : Prop where
  disk : w'.disk = w.disk
  key : w'.key = w.key
  nonce : w'.nonce = w.nonce
  faults : w'.faults = w.faults
  degraded : w.degraded = true → w'.degraded = true

theorem reads_refl (w : World) : Reads w w := ⟨rfl,rfl,rfl,rfl,id⟩

theorem reads_trans (u v w : World) (h : Reads u v) (h' : Reads v w) : Reads u w :=
  ⟨h'.disk.trans h.disk,h'.key.trans h.key,h'.nonce.trans h.nonce,
    h'.faults.trans h.faults,h'.degraded ∘ h.degraded⟩

/-- The files outside `P` and the key are as before. -/
structure Leaves (P : Path → Prop) (w w' : World) : Prop where
  key : w'.key = w.key
  files : ∀ path, ¬P path → readFile path w'.disk = readFile path w.disk

theorem leaves_refl (P : Path → Prop) (w : World) : Leaves P w w := ⟨rfl,fun _ _ => rfl⟩

theorem leaves_trans {P : Path → Prop} (u v w : World) (h : Leaves P u v) (h' : Leaves P v w) :
    Leaves P u w :=
  ⟨h'.key.trans h.key,fun path hp => (h'.files path hp).trans (h.files path hp)⟩

theorem leaves_of_frame {P Q : Path → Prop} {w w' : World} (h : Frame P w w')
    (hpq : ∀ path, P path → Q path) : Leaves Q w w' :=
  ⟨h.key,fun path hq => h.files path fun hp => hq (hpq path hp)⟩

theorem leaves_of_reads {P : Path → Prop} {w w' : World} (h : Reads w w') : Leaves P w w' :=
  ⟨h.key,fun path _ => by rw [h.disk]⟩

theorem read_ok {α : Type} {path : Path} {target : Payload → Option α} {w w' : World} {a : α}
    (h : readEncryptedJSON path target w = (.ok a,w')) :
    w' = w ∧ (readFile path w.disk).bind (fun b => (openBlob w.key b).bind target) = some a := by
  unfold readEncryptedJSON at h
  cases hf : readFile path w.disk with
  | none => simp [hf] at h
  | some b =>
    cases ho : openBlob w.key b with
    | none => by_cases he : b.encrypted <;> simp [hf,ho,he] at h
    | some p =>
      cases ht : target p <;> simp [hf,ho,ht] at h
      obtain ⟨rfl,rfl⟩ := h
      simp [ho,ht]

/-- `m` only reads, and what it returns is the pure function `v` of the stored
files and the key; `v` is `none` where `m` fails. -/
def ReadsAs {α : Type} (m : DBM α) (v : Tree → Key → Option α) : Prop :=
  ∀ w, Reads w (m w).2 ∧ (m w).1.toOption = v w.disk w.key

variable {α β ι : Type}

theorem readsAs_pure (a : α) : ReadsAs (pure a) (fun _ _ => some a) :=
  fun w => ⟨reads_refl w,rfl⟩

theorem readsAs_bind {m : DBM α} {f : α → DBM β} {v : Tree → Key → Option α}
    {u : α → Tree → Key → Option β} (hm : ReadsAs m v) (hf : ∀ a, ReadsAs (f a) (u a)) :
    ReadsAs (m >>= f) (fun t k => (v t k).bind (fun a => u a t k)) := by
  intro w
  obtain ⟨hr,hv⟩ := hm w
  rw [bind_run]
  rcases hmw : m w with ⟨a | e,w'⟩ <;> rw [hmw] at hr hv <;> simp only at hr hv ⊢
  · rw [← hv]
    exact ⟨hr,rfl⟩
  · obtain ⟨hr',hv'⟩ := hf e w'
    refine ⟨reads_trans _ _ _ hr hr',?_⟩
    rw [hv',← hv,hr.disk,hr.key]
    rfl

theorem readsAs_attempt {m : DBM α} {f : Except DBError α → DBM β}
    {v : Tree → Key → Option α} {u : Option α → Tree → Key → Option β}
    (hm : ReadsAs m v) (hf : ∀ r, ReadsAs (f r) (u r.toOption)) :
    ReadsAs (attempt m >>= f) (fun t k => u (v t k) t k) := by
  intro w
  obtain ⟨hr,hv⟩ := hm w
  obtain ⟨hr',hv'⟩ := hf (m w).1 (m w).2
  rw [bind_of_ok (attempt_run m w)]
  refine ⟨reads_trans _ _ _ hr hr',?_⟩
  rw [hv',hv,hr.disk,hr.key]

theorem readsAs_wrapping {m : DBM α} {v : Tree → Key → Option α} (wrap : DBError → DBError)
    (hm : ReadsAs m v) : ReadsAs (wrapping wrap m) v := by
  intro w
  obtain ⟨hr,hv⟩ := hm w
  unfold wrapping
  rcases hmw : m w with ⟨a | e,w'⟩ <;> rw [hmw] at hr hv <;> exact ⟨hr,hv⟩

theorem readsAs_readDir (name : Path → Option ι) :
    ReadsAs (readDir name) (fun t _ => some (listing name t)) :=
  fun w => ⟨reads_refl w,rfl⟩

def fileAt (path : Path) (target : Payload → Option α) (t : Tree) (k : Key) : Option α :=
  (readFile path t).bind fun b => (openBlob k b).bind target

theorem readsAs_readEncryptedJSON (path : Path) (target : Payload → Option α) :
    ReadsAs (readEncryptedJSON path target) (fileAt path target) := by
  intro w
  unfold readEncryptedJSON fileAt
  cases hf : readFile path w.disk with
  | none => exact ⟨reads_refl w,rfl⟩
  | some b =>
    cases ho : openBlob w.key b with
    | none =>
      by_cases he : b.encrypted
      · simp [he,ho,markDegraded,Except.toOption]
        exact ⟨rfl,rfl,rfl,rfl,fun _ => rfl⟩
      · simp [he,ho,Except.toOption]
        exact reads_refl w
    | some p =>
      cases ht : target p <;> simp [ho,ht,Except.toOption] <;> exact reads_refl w

theorem readsAs_gather {read : ι → DBM α} {v : ι → Tree → Key → Option α}
    (hr : ∀ i, ReadsAs (read i) (v i)) (is : List ι) :
    ReadsAs (gather read is)
      (fun t k => some (is.filterMap fun i => (v i t k).map (Prod.mk i))) := by
  induction is with
  | nil => exact readsAs_pure []
  | cons i is ih =>
    have hstep := readsAs_attempt
      (u := fun o t k => some ((o.map (Prod.mk i)).toList ++
        is.filterMap fun i => (v i t k).map (Prod.mk i)))
      (hr i) (fun r => readsAs_bind ih fun rest =>
        readsAs_pure ((r.toOption.map (Prod.mk i)).toList ++ rest))
    intro w
    refine ⟨(hstep w).1,(hstep w).2.trans ?_⟩
    cases hv : v i w.disk w.key <;> simp [hv]

end Reading

section View

def groupAt (gid : ℤ) : Tree → Key → Option Group :=
  fileAt (.groupConfig gid) Payload.asGroup

def profileAt (gid id : ℤ) : Tree → Key → Option Profile :=
  fileAt (.profile gid id) Payload.asProfile

def profilesMapAt (gid : ℤ) (t : Tree) (k : Key) : List (ℤ × Profile) :=
  (listing (profileName gid) t).filterMap fun id => (profileAt gid id t k).map (Prod.mk id)

/-- The profiles of a group as clients see them, with their file numbers. -/
def listedAt (gid : ℤ) (t : Tree) (k : Key) : List (ℤ × Profile) :=
  match groupAt gid t k with
  | none => []
  | some g => orderProfiles g.profileOrder (profilesMapAt gid t k)

theorem readsAs_loadGroupConfig (gid : ℤ) : ReadsAs (loadGroupConfig gid) (groupAt gid) :=
  readsAs_wrapping _ (readsAs_readEncryptedJSON _ _)

theorem readsAs_getProfile (gid id : ℤ) : ReadsAs (getProfile gid id) (profileAt gid id) :=
  readsAs_wrapping _ (readsAs_readEncryptedJSON _ _)

theorem readsAs_listRoutingProfiles (gid : ℤ) :
    ReadsAs (listRoutingProfiles gid) (fun t k => some
      ((((listing (routingProfileName gid) t).filterMap fun id =>
        (fileAt (.routingProfile gid id) Payload.asRoutingProfile t k).map (Prod.mk id)).map
          Prod.snd).insertionSort routingProfileBefore)) :=
  readsAs_bind (readsAs_readDir _) fun ids =>
    readsAs_bind (readsAs_gather (fun _ => readsAs_readEncryptedJSON _ _) ids) fun _ =>
      readsAs_pure _

/-- The group view is a function of the stored files: it fails exactly when
the config does not load, and lists `listedAt`. -/
theorem getGroup_reads (gid : ℤ) (w : World) :
    Reads w (getGroupDataAndProfiles gid w).2 ∧
    match (getGroupDataAndProfiles gid w).1, groupAt gid w.disk w.key with
    | .ok v, some g =>
      v.group = { g with profileOrder := (listedAt gid w.disk w.key).map Prod.fst } ∧
        v.profiles = (listedAt gid w.disk w.key).map Prod.snd
    | .error _, none => True
    | _, _ => False := by
  have h := readsAs_bind (readsAs_loadGroupConfig gid) (fun g =>
    readsAs_bind (readsAs_readDir (profileName gid)) fun ids =>
      readsAs_bind (readsAs_gather (readsAs_getProfile gid) ids) fun m =>
        readsAs_bind (readsAs_listRoutingProfiles gid) fun rs =>
          readsAs_pure
            { group := { g with
                profileOrder := (orderProfiles g.profileOrder m).map Prod.fst }
              profiles := (orderProfiles g.profileOrder m).map Prod.snd
              routingProfiles := rs : GroupWithProfiles }) w
  obtain ⟨hr,hv⟩ := h
  refine ⟨hr,?_⟩
  change (getGroupDataAndProfiles gid w).1.toOption = _ at hv
  beta_reduce at hv
  unfold listedAt
  cases hg : groupAt gid w.disk w.key with
  | none =>
    rw [hg] at hv
    rcases hres : (getGroupDataAndProfiles gid w).1 with e | v
    · trivial
    · rw [hres] at hv
      simp [Except.toOption] at hv
  | some g =>
    rw [hg] at hv
    rcases hres : (getGroupDataAndProfiles gid w).1 with e | v
    · rw [hres] at hv
      simp [Except.toOption] at hv
    · rw [hres] at hv
      simp only [Except.toOption,Option.bind_some,Option.some.injEq] at hv
      subst hv
      exact ⟨rfl,rfl⟩

theorem profileName_eq {gid : ℤ} {path : Path} {id : ℤ} :
    profileName gid path = some id ↔ path = .profile gid id := by
  cases path <;> simp [profileName]

theorem lookup_of_readFile {path : Path} {t : Tree} {b : Blob} (h : readFile path t = some b) :
    t.lookup path = some (.file b) := by
  unfold readFile at h
  split at h
  · simp_all
  · simp at h

theorem mem_profilesMapAt (gid : ℤ) (t : Tree) (k : Key) (id : ℤ) (p : Profile) :
    (id,p) ∈ profilesMapAt gid t k ↔ profileAt gid id t k = some p := by
  simp only [profilesMapAt,List.mem_filterMap,Option.map_eq_some_iff,Prod.mk.injEq]
  constructor
  · rintro ⟨j,-,q,hq,rfl,rfl⟩
    exact hq
  · intro h
    refine ⟨id,?_,p,h,rfl,rfl⟩
    rw [mem_listing]
    refine ⟨.profile gid id,?_,by simp [profileName]⟩
    unfold profileAt fileAt at h
    obtain ⟨b,hb,-⟩ := Option.bind_eq_some_iff.mp h
    simp [lookup_of_readFile hb]

theorem nodup_profilesMapAt (gid : ℤ) (t : Tree) (k : Key) :
    ((profilesMapAt gid t k).map Prod.fst).Nodup := by
  have hids : (listing (profileName gid) t).Nodup := by
    apply nodup_listing
    intro path path' id h h'
    rw [profileName_eq.mp h,profileName_eq.mp h']
  have hsub : ((profilesMapAt gid t k).map Prod.fst).Sublist (listing (profileName gid) t) := by
    unfold profilesMapAt
    induction listing (profileName gid) t with
    | nil => simp
    | cons id ids ih =>
      cases h : profileAt gid id t k with
      | none => simpa [h] using ih.cons id
      | some p => simpa [h] using ih.cons_cons id
  exact hids.sublist hsub

end View

section Marking

/-- A file that looks encrypted and does not open. -/
def locked (path : Path) (t : Tree) (k : Key) : Bool :=
  match readFile path t with
  | none => false
  | some b => b.encrypted && (openBlob k b).isNone

/-- Some profile or routing profile of the group is locked. -/
def lockedIn (gid : ℤ) (t : Tree) (k : Key) : Bool :=
  (listing (profileName gid) t).any (fun id => locked (.profile gid id) t k) ||
    (listing (routingProfileName gid) t).any (fun id => locked (.routingProfile gid id) t k)

/-- From `w`, `m` reads, and raises the read-only flag exactly when `b` holds. -/
def Marks {α : Type} (m : DBM α) (w : World) (b : Bool) : Prop :=
  Reads w (m w).2 ∧ (m w).2.degraded = (w.degraded || b)

variable {α β ι : Type}

theorem marks_pure (a : α) (w : World) : Marks (pure a) w false := ⟨reads_refl w,by simp⟩

theorem marks_readDir (name : Path → Option ι) (w : World) : Marks (readDir name) w false :=
  ⟨reads_refl w,by simp [readDir]⟩

theorem marks_bind {m : DBM α} {f : α → DBM β} {w w' : World} {a : α} {b b' : Bool}
    (hm : Marks m w b) (h : m w = (.ok a,w')) (hf : Marks (f a) w' b') :
    Marks (m >>= f) w (b || b') := by
  obtain ⟨hr,hv⟩ := hm
  obtain ⟨hr',hu⟩ := hf
  rw [h] at hr hv
  rw [Marks,bind_of_ok h]
  refine ⟨reads_trans _ _ _ hr hr',?_⟩
  rw [hu,hv,Bool.or_assoc]

theorem marks_readEncryptedJSON (path : Path) (target : Payload → Option α) (w : World) :
    Marks (readEncryptedJSON path target) w (locked path w.disk w.key) := by
  refine ⟨(readsAs_readEncryptedJSON path target w).1,?_⟩
  unfold readEncryptedJSON locked
  cases readFile path w.disk with
  | none => simp
  | some b =>
    cases ho : openBlob w.key b with
    | none => by_cases he : b.encrypted <;> simp [he,markDegraded,ho]
    | some p => cases ht : target p <;> simp [ht,ho]

theorem marks_gather {read : ι → DBM α} {path : ι → Path}
    (hr : ∀ i w, Marks (read i) w (locked (path i) w.disk w.key)) (is : List ι) (w : World) :
    Marks (gather read is) w (is.any fun i => locked (path i) w.disk w.key) ∧
      ∃ found, gather read is w = (.ok found,(gather read is w).2) := by
  induction is generalizing w with
  | nil => exact ⟨marks_pure [] w,[],rfl⟩
  | cons i is ih =>
    have hi : Marks (attempt (read i)) w (locked (path i) w.disk w.key) := hr i w
    have hreads : Reads w (read i w).2 := hi.1
    obtain ⟨hrest,found,hrun⟩ := ih (read i w).2
    rw [hreads.disk,hreads.key] at hrest
    have hstep := marks_bind (f := fun r => gather read is >>= fun rest =>
      pure ((r.toOption.map (Prod.mk i)).toList ++ rest)) hi (attempt_run (read i) w)
      (marks_bind hrest hrun (marks_pure _ _))
    rw [Bool.or_false] at hstep
    refine ⟨hstep,((read i w).1.toOption.map (Prod.mk i)).toList ++ found,run_of_fst ?_⟩
    change ((attempt (read i) >>= fun r => gather read is >>= fun rest =>
      pure ((r.toOption.map (Prod.mk i)).toList ++ rest)) w).1 = _
    rw [bind_of_ok (attempt_run (read i) w),bind_of_ok hrun]
    rfl

theorem marks_listRoutingProfiles (gid : ℤ) (w : World) :
    Marks (listRoutingProfiles gid) w ((listing (routingProfileName gid) w.disk).any
      fun id => locked (.routingProfile gid id) w.disk w.key) := by
  obtain ⟨hm,found,hrun⟩ := @marks_gather _ _ (loadRoutingProfile gid)
    (.routingProfile gid) (fun i w => marks_readEncryptedJSON _ _ w)
    (listing (routingProfileName gid) w.disk) w
  have hall : Marks (listRoutingProfiles gid) w (false || (_ || false)) :=
    marks_bind (marks_readDir _ w) rfl (marks_bind hm hrun (marks_pure _ _))
  rwa [Bool.false_or,Bool.or_false] at hall

/-- Reading a group raises the flag when one of its numbered files is locked. -/
theorem marks_getGroup {gid : ℤ} {g : Group} {w : World} (h : groupAt gid w.disk w.key = some g) :
    Marks (getGroupDataAndProfiles gid) w (lockedIn gid w.disk w.key) := by
  have hload : Marks (loadGroupConfig gid) w (locked (.groupConfig gid) w.disk w.key) := by
    have hm := marks_readEncryptedJSON (.groupConfig gid) Payload.asGroup w
    rwa [Marks,← wrapping_snd (.loadGroup gid)] at hm
  have hopen : locked (.groupConfig gid) w.disk w.key = false := by
    obtain ⟨b,hb,hp⟩ := Option.bind_eq_some_iff.mp h
    obtain ⟨p,hp,-⟩ := Option.bind_eq_some_iff.mp hp
    simp [locked,hb,hp]
  have hprofile : ∀ i w, Marks (getProfile gid i) w (locked (.profile gid i) w.disk w.key) := by
    intro i w
    have hm := marks_readEncryptedJSON (.profile gid i) Payload.asProfile w
    rwa [Marks,← wrapping_snd (.readProfile gid i)] at hm
  obtain ⟨hr,hv⟩ := readsAs_loadGroupConfig gid w
  rcases hg : loadGroupConfig gid w with ⟨e | a,w₁⟩ <;> rw [hg] at hr hv
  · rw [h] at hv
    simp [Except.toOption] at hv
  · obtain ⟨hm,m,hrun⟩ := marks_gather hprofile (listing (profileName gid) w₁.disk) w₁
    have hlist := marks_listRoutingProfiles gid
      (gather (getProfile gid) (listing (profileName gid) w₁.disk) w₁).2
    obtain ⟨rs,hrs⟩ := exists_ok (m := listRoutingProfiles gid)
      (s := (gather (getProfile gid) (listing (profileName gid) w₁.disk) w₁).2)
      (by rw [(readsAs_listRoutingProfiles gid _).2]; rfl)
    have hall : Marks (getGroupDataAndProfiles gid) w (_ || (false || (_ || (_ || false)))) :=
      marks_bind hload hg (marks_bind (marks_readDir _ w₁) rfl
        (marks_bind hm hrun (marks_bind hlist hrs (marks_pure _ _))))
    rwa [hopen,hm.1.disk,hm.1.key,hr.disk,hr.key,Bool.false_or,Bool.false_or,
      Bool.or_false] at hall

end Marking

section Ordering

variable {α β : Type}

theorem nodup_filter_keys {m : List (ℤ × α)} (h : (m.map Prod.fst).Nodup) (p : ℤ × α → Bool) :
    ((m.filter p).map Prod.fst).Nodup :=
  h.sublist (List.filter_sublist.map Prod.fst)

theorem perm_cons_filter_ne {m : List (ℤ × α)} (h : (m.map Prod.fst).Nodup) {pid : ℤ}
    {e : ℤ × α} (he : m.find? (fun e => e.1 = pid) = some e) :
    (e :: m.filter (fun e => e.1 ≠ pid)).Perm m := by
  induction m with
  | nil => simp at he
  | cons a m ih =>
    rw [List.map_cons,List.nodup_cons] at h
    by_cases ha : a.1 = pid
    · have hea : a = e := by simpa [ha] using he
      subst hea
      have hm : m.filter (fun e => e.1 ≠ pid) = m := by
        apply List.filter_eq_self.mpr
        intro b hb
        have hne : b.1 ≠ pid := fun hbp => h.1 (List.mem_map.mpr ⟨b,hb,hbp.trans ha.symm⟩)
        simpa using hne
      rw [List.filter_cons,if_neg (by simp [ha]),hm]
    · have he' : m.find? (fun e => e.1 = pid) = some e := by simpa [ha] using he
      have hstep := (ih h.2 he').cons a
      simp only [List.filter_cons,ne_eq,ha,not_false_eq_true,decide_true,if_true]
      exact (List.Perm.swap a e _).trans hstep

theorem orderProfiles_perm (order : List ℤ) {m : List (ℤ × α)} (h : (m.map Prod.fst).Nodup) :
    (orderProfiles order m).Perm m := by
  induction order generalizing m with
  | nil => exact List.perm_insertionSort _ m
  | cons pid order ih =>
    unfold orderProfiles
    split
    · rename_i e he
      exact ((ih (nodup_filter_keys h _)).cons e).trans (perm_cons_filter_ne h he)
    · exact ih h

theorem find?_perm {m m' : List (ℤ × α)} (hp : m.Perm m') (h : (m.map Prod.fst).Nodup)
    (pid : ℤ) : m.find? (fun e => e.1 = pid) = m'.find? (fun e => e.1 = pid) := by
  have h' : (m'.map Prod.fst).Nodup := (hp.map Prod.fst).nodup_iff.mp h
  cases hf : m.find? (fun e => e.1 = pid) with
  | none =>
    symm
    rw [List.find?_eq_none] at hf ⊢
    exact fun e he => hf e (hp.mem_iff.mpr he)
  | some e =>
    have hmem := (perm_cons_filter_ne h hf).mem_iff.mp (by simp : e ∈ _)
    have hkey : e.1 = pid := by simpa using List.find?_some hf
    cases hf' : m'.find? (fun e => e.1 = pid) with
    | none =>
      rw [List.find?_eq_none] at hf'
      exact absurd hkey (by simpa using hf' e (hp.mem_iff.mp hmem))
    | some e' =>
      have hmem' := (perm_cons_filter_ne h' hf').mem_iff.mp (by simp : e' ∈ _)
      have hkey' : e'.1 = pid := by simpa using List.find?_some hf'
      exact congrArg some (List.inj_on_of_nodup_map h hmem (hp.mem_iff.mpr hmem')
        (hkey.trans hkey'.symm))

/-- The listing depends on the readable profiles, not on the order in which
the directory yields them. -/
theorem orderProfiles_eq_of_perm (order : List ℤ) {m m' : List (ℤ × α)} (hp : m.Perm m')
    (h : (m.map Prod.fst).Nodup) : orderProfiles order m = orderProfiles order m' := by
  induction order generalizing m m' with
  | nil =>
    have hsorted : ∀ l : List (ℤ × α), (l.insertionSort (fun a b => a.1 ≤ b.1)).Pairwise
        (fun a b => a.1 ≤ b.1) := fun l => by
      have : Std.Total (fun a b : ℤ × α => a.1 ≤ b.1) := ⟨fun a b => Int.le_total a.1 b.1⟩
      have : IsTrans (ℤ × α) (fun a b => a.1 ≤ b.1) := ⟨fun _ _ _ => Int.le_trans⟩
      exact List.pairwise_insertionSort _ l
    refine List.Perm.eq_of_pairwise ?_ (hsorted m) (hsorted m') ?_
    · intro a b ha hb hab hba
      have ha' : a ∈ m := (List.perm_insertionSort _ m).mem_iff.mp ha
      have hb' : b ∈ m := hp.mem_iff.mpr ((List.perm_insertionSort _ m').mem_iff.mp hb)
      exact List.inj_on_of_nodup_map h ha' hb' (Int.le_antisymm hab hba)
    · exact ((List.perm_insertionSort _ m).trans hp).trans (List.perm_insertionSort _ m').symm
  | cons pid order ih =>
    unfold orderProfiles
    rw [← find?_perm hp h pid]
    split
    · exact congrArg _ (ih (hp.filter _) (nodup_filter_keys h _))
    · exact ih hp h

theorem orderProfiles_map (f : α → β) (order : List ℤ) (m : List (ℤ × α)) :
    orderProfiles order (m.map (Prod.map id f)) = (orderProfiles order m).map (Prod.map id f) := by
  induction order generalizing m with
  | nil =>
    exact (List.map_insertionSort (fun a b : ℤ × α => a.1 ≤ b.1)
      (fun a b : ℤ × β => a.1 ≤ b.1) (Prod.map id f) m (fun _ _ _ _ => Iff.rfl)).symm
  | cons pid order ih =>
    have hfind : (m.map (Prod.map id f)).find? (fun e => e.1 = pid) =
        (m.find? (fun e => e.1 = pid)).map (Prod.map id f) := by
      rw [List.find?_map]
      rfl
    have hfilter : (m.map (Prod.map id f)).filter (fun e => e.1 ≠ pid) =
        (m.filter (fun e => e.1 ≠ pid)).map (Prod.map id f) := by
      rw [List.filter_map]
      rfl
    unfold orderProfiles
    rw [hfind,hfilter]
    cases m.find? (fun e => e.1 = pid) with
    | none => simp only [Option.map_none,ih]
    | some e => simp only [Option.map_some,ih,List.map_cons]

/-- An order that mentions every profile once is the listing order. -/
theorem orderProfiles_complete {order : List ℤ} (hn : order.Nodup) {m : List (ℤ × α)}
    (hp : (m.map Prod.fst).Perm order) : (orderProfiles order m).map Prod.fst = order := by
  induction order generalizing m with
  | nil =>
    have hm : m = [] := List.map_eq_nil_iff.mp hp.eq_nil
    subst hm
    rfl
  | cons pid order ih =>
    have h : (m.map Prod.fst).Nodup := hp.nodup_iff.mpr hn
    unfold orderProfiles
    cases hf : m.find? (fun e => e.1 = pid) with
    | none =>
      have hmem : pid ∈ m.map Prod.fst := hp.mem_iff.mpr (by simp)
      obtain ⟨e,he,hkey⟩ := List.mem_map.mp hmem
      rw [List.find?_eq_none] at hf
      exact absurd hkey (by simpa using hf e he)
    | some e =>
      have hkey : e.1 = pid := by simpa using List.find?_some hf
      have hrest := ((perm_cons_filter_ne h hf).map Prod.fst).trans hp
      rw [List.map_cons,hkey] at hrest
      rw [List.map_cons,hkey,ih (List.nodup_cons.mp hn).2 (List.perm_cons pid |>.mp hrest)]

theorem eq_of_perm_of_keys {m m' : List (ℤ × α)} (hp : m.Perm m') (h : (m.map Prod.fst).Nodup)
    (hk : m.map Prod.fst = m'.map Prod.fst) : m = m' := by
  induction m generalizing m' with
  | nil => exact hp.nil_eq
  | cons a m ih =>
    cases m' with
    | nil => simp at hk
    | cons b m' =>
      rw [List.map_cons,List.map_cons,List.cons.injEq] at hk
      have hab : a = b :=
        List.inj_on_of_nodup_map h (by simp) (hp.mem_iff.mpr (by simp)) hk.1
      subst hab
      rw [ih (List.perm_cons a |>.mp hp) (List.nodup_cons.mp h).2 hk.2]

end Ordering

end Whoisthat.GroupFiles
