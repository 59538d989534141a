import Mathlib.Logic.Function.Basic
import Whoisthat.GroupFiles
import Whoisthat.Renumbering

/-!
# Merging a refreshed subscription into a group

`updateGroupAndProfiles` matches the refreshed entries against the stored
profiles and rewrites the group directory file by file. The loop variables are
one record. Ids are chosen independently of the writes, so the loop is also
the pure renumbering of the entries by identity.
-/

set_option autoImplicit false

namespace Whoisthat.GroupSync
open Whoisthat.FileStore Whoisthat.FallibleState Whoisthat.Records Whoisthat.Database
open Whoisthat.GroupFiles Whoisthat.Renumbering

/-- The map entry `byURI[uri]` -/
def byURI (profiles : List Profile) (uri : String) : List ℤ :=
  (profiles.filter (fun p => !p.managed && normalizeProfileURI p.uri = uri)).map Profile.id

/-- The map entry `byKey[key]` -/
def byKey (profiles : List Profile) (key : String) : List ℤ :=
  (profiles.filter (fun p => p.managed && p.providerKey = key)).map Profile.id

/-- The map entry `byID[id]`; a later profile with the same id wins. -/
def byID (profiles : List Profile) (id : ℤ) : Option Profile :=
  (profiles.filter (fun p => p.id = id)).getLast?

/-- The connected profile a refresh must not touch, with `keepURI` and `keepKey`. -/
structure Keep where
  id : ℤ
  uri : String
  key : String
  profile : Option Profile

def keepOf (profiles : List Profile) (keepProfileID : ℤ) : Keep :=
  if keepProfileID = 0 then ⟨0,"","",none⟩
  else match byID profiles keepProfileID with
    | none => ⟨0,"","",none⟩
    | some kept =>
      if kept.managed then ⟨keepProfileID,"",kept.providerKey,some kept⟩
      else ⟨keepProfileID,normalizeProfileURI kept.uri,"",some kept⟩

def skipped (keep : Keep) (d : DBAddProfileData) : Bool :=
  keep.id ≠ 0 &&
    ((d.managed && keep.key ≠ "" && d.providerKey = keep.key) ||
      (!d.managed && keep.key = "" && normalizeProfileURI d.uri = keep.uri))

structure Sync where
  usedIDs : List ℤ
  newOrder : List ℤ
  nextID : String → ℕ
  nextKey : String → ℕ
  lastID : ℤ
  profilesAdded : List Profile

/-- The `for id == 0` scan of one candidate queue from index `idx`. -/
def takeCandidate (usedIDs : List ℤ) : List ℤ → ℕ → ℤ × ℕ
  | [], idx => (0,idx)
  | c::cs, idx =>
    if c ∉ usedIDs ∧ c ≠ 0 then (c,idx+1) else takeCandidate usedIDs cs (idx+1)

def Sync.assign (profiles : List Profile) (st : Sync) (d : DBAddProfileData) : ℤ × Sync :=
  let (id,st) :=
    if d.managed then
      let idx := st.nextKey d.providerKey
      let (id,idx) := takeCandidate st.usedIDs ((byKey profiles d.providerKey).drop idx) idx
      (id,{ st with nextKey := Function.update st.nextKey d.providerKey idx })
    else
      let uriKey := normalizeProfileURI d.uri
      let idx := st.nextID uriKey
      let (id,idx) := takeCandidate st.usedIDs ((byURI profiles uriKey).drop idx) idx
      (id,{ st with nextID := Function.update st.nextID uriKey idx })
  let (id,lastID) := if id = 0 then (st.lastID+1,st.lastID+1) else (id,st.lastID)
  (id,{ st with usedIDs := id::st.usedIDs, lastID := lastID })

def sameProfileIdentity (old : Profile) (data : DBAddProfileData) : Bool :=
  if old.managed ≠ data.managed then false
  else if data.managed then old.providerKey = data.providerKey
  else normalizeProfileURI old.uri = normalizeProfileURI data.uri

theorem managed_stored {data : DBAddProfileData}
    (h : (data.managed && data.config ≠ "") = true) : data.providerKey ≠ "" :=
  (data.carried (by simp at h; exact h.1)).2

/-- The profile record an entry becomes before latency results are kept. -/
def profileOf (id : ℤ) (data : DBAddProfileData) : Profile :=
  { id := id
    groupId := data.groupId
    nanoID := data.nanoID
    name := data.name
    protocol := data.protocol
    uri := data.uri
    address := data.address
    host := data.host
    testResult := 0
    testedAt := 0
    lossPct := 0
    jitterMs := 0
    port := data.port
    managed := data.managed && data.config ≠ ""
    providerKey := data.providerKey
    keyed := managed_stored }

def mergedProfile (profiles : List Profile) (id : ℤ) (data : DBAddProfileData) : Profile :=
  match byID profiles id with
  | none => profileOf id data
  | some old =>
    if sameProfileIdentity old data then
      { profileOf id data with
        testResult := old.testResult
        testedAt := old.testedAt
        lossPct := old.lossPct
        jitterMs := old.jitterMs }
    else profileOf id data

/-- One entry's writes: the profile file, then its provider configuration. -/
def writeEntry (gid id : ℤ) (profile : Profile) (config : RawMessage) : DBM Unit := do
  wrapping (.writeProfile id) (writeEncryptedJSON (.profile gid id) (.profile profile))
  if profile.managed then
    wrapping (.writeXrayConfig id) (saveProfileXrayConfig gid id config)
  else deleteProfileXrayConfig gid id

def Sync.push (st : Sync) (id : ℤ) (profile : Profile) : Sync :=
  { st with newOrder := st.newOrder ++ [id], profilesAdded := st.profilesAdded ++ [profile] }

def syncProfiles (gid : ℤ) (profiles : List Profile) (keep : Keep) :
    Sync → List DBAddProfileData → DBM Sync
  | st, [] => pure st
  | st, d::ds =>
    if skipped keep d then syncProfiles gid profiles keep st ds
    else do
      let (id,st) := st.assign profiles d
      let profile := mergedProfile profiles id d
      writeEntry gid id profile d.config
      syncProfiles gid profiles keep (st.push id profile) ds

/-- `lastID` before the loop: no listed profile has a larger id. -/
def lastIDOf (lastId : ℤ) (profiles : List Profile) : ℤ :=
  profiles.foldl (fun m p => if p.id > m then p.id else m) lastId

def Sync.start (lastId : ℤ) (profiles : List Profile) (keep : Keep) : Sync :=
  { usedIDs := if keep.id ≠ 0 then [keep.id] else []
    newOrder := if keep.id ≠ 0 then [keep.id] else []
    nextID := fun _ => 0
    nextKey := fun _ => 0
    lastID := lastIDOf lastId profiles
    profilesAdded := keep.profile.toList }

/-- Stale files go only after the new group config is durable. -/
def removeStale (gid : ℤ) (usedIDs : List ℤ) (profiles : List Profile) : DBM Unit :=
  forEach (fun p : Profile =>
    if p.id ∈ usedIDs then pure ()
    else do
      remove (.profile gid p.id)
      deleteProfileXrayConfig gid p.id) profiles

def updateGroupAndProfiles (gid : ℤ) (profiles : List DBAddProfileData) (keepProfileID : ℤ) :
    DBM (List Profile) := do
  let group ← wrapping .gettingGroup (getGroupDataAndProfiles gid)
  let keep := keepOf group.profiles keepProfileID
  let st ← syncProfiles gid group.profiles keep
    (Sync.start group.group.lastId group.profiles keep) profiles
  saveGroupConfig { group.group with lastId := st.lastID, profileOrder := st.newOrder }
  removeStale gid st.usedIDs group.profiles
  pure st.profilesAdded

section Assignment

/-- The loop without its writes: which entry gets which id. -/
def assigned (profiles : List Profile) (keep : Keep) :
    Sync → List DBAddProfileData → List (DBAddProfileData × ℤ)
  | _, [] => []
  | st, d::ds =>
    if skipped keep d then assigned profiles keep st ds
    else
      let r := st.assign profiles d
      (d,r.1) :: assigned profiles keep (r.2.push r.1 (mergedProfile profiles r.1 d)) ds

def finish (profiles : List Profile) (keep : Keep) : Sync → List DBAddProfileData → Sync
  | st, [] => st
  | st, d::ds =>
    if skipped keep d then finish profiles keep st ds
    else
      let r := st.assign profiles d
      finish profiles keep (r.2.push r.1 (mergedProfile profiles r.1 d)) ds

/-- Stored profiles carry distinct positive ids. -/
structure Numbered (profiles : List Profile) : Prop where
  nodup : (profiles.map Profile.id).Nodup
  positive : ∀ p ∈ profiles, 1 ≤ p.id

def idsOf (profiles : List Profile) (i : Identity) : List ℤ :=
  (profiles.filter (fun p => p.identity = i)).map Profile.id

theorem byURI_eq (profiles : List Profile) (u : String) :
    byURI profiles u = idsOf profiles (.uri u) := by
  unfold byURI idsOf
  congr 1
  apply List.filter_congr
  intro p _
  cases hm : p.managed <;> simp [Profile.identity,hm]

theorem byKey_eq (profiles : List Profile) (key : String) :
    byKey profiles key = idsOf profiles (.managed key) := by
  unfold byKey idsOf
  congr 1
  apply List.filter_congr
  intro p _
  cases hm : p.managed <;> simp [Profile.identity,hm]

theorem nodup_idsOf {profiles : List Profile} (h : Numbered profiles) (i : Identity) :
    (idsOf profiles i).Nodup :=
  h.nodup.sublist (List.filter_sublist.map _)

theorem mem_idsOf {profiles : List Profile} {i : Identity} {c : ℤ} :
    c ∈ idsOf profiles i ↔ ∃ p ∈ profiles, p.identity = i ∧ p.id = c := by
  simp [idsOf,and_assoc]

theorem eq_of_id {profiles : List Profile} (h : Numbered profiles) {p q : Profile}
    (hp : p ∈ profiles) (hq : q ∈ profiles) (hid : p.id = q.id) : p = q :=
  List.inj_on_of_nodup_map h.nodup hp hq hid

theorem byID_eq {profiles : List Profile} (h : Numbered profiles) {p : Profile}
    (hp : p ∈ profiles) : byID profiles p.id = some p := by
  have hmem : p ∈ profiles.filter (fun q => q.id = p.id) :=
    List.mem_filter.mpr ⟨hp,by simp⟩
  have hne := List.ne_nil_of_mem hmem
  unfold byID
  rw [List.getLast?_eq_some_getLast hne]
  have hlast := List.mem_filter.mp (List.getLast_mem hne)
  exact congrArg some (eq_of_id h hlast.1 hp (by simpa using hlast.2))

theorem byID_mem {profiles : List Profile} {id : ℤ} {p : Profile}
    (h : byID profiles id = some p) : p ∈ profiles ∧ p.id = id := by
  have hmem := List.mem_of_getLast? h
  simpa using List.mem_filter.mp hmem

theorem lastIDOf_ge (lastId : ℤ) (profiles : List Profile) :
    lastId ≤ lastIDOf lastId profiles ∧ ∀ p ∈ profiles, p.id ≤ lastIDOf lastId profiles := by
  induction profiles generalizing lastId with
  | nil => simp [lastIDOf]
  | cons q profiles ih =>
    obtain ⟨h₁,h₂⟩ := ih (if q.id > lastId then q.id else lastId)
    have hstep : lastIDOf lastId (q::profiles) =
        lastIDOf (if q.id > lastId then q.id else lastId) profiles := rfl
    have hlast : lastId ≤ if q.id > lastId then q.id else lastId := by split <;> omega
    have hq : q.id ≤ if q.id > lastId then q.id else lastId := by split <;> omega
    rw [hstep]
    refine ⟨Int.le_trans hlast h₁,fun p hp => ?_⟩
    rcases List.mem_cons.mp hp with rfl | hp
    · exact Int.le_trans hq h₁
    · exact h₂ p hp

theorem lastIDOf_eq {lastId : ℤ} {profiles : List Profile} (h : ∀ p ∈ profiles, p.id ≤ lastId) :
    lastIDOf lastId profiles = lastId := by
  induction profiles with
  | nil => rfl
  | cons q profiles ih =>
    have hstep : lastIDOf lastId (q::profiles) =
        lastIDOf (if q.id > lastId then q.id else lastId) profiles := rfl
    have hq := h q (by simp)
    rw [hstep,if_neg (by omega)]
    exact ih fun p hp => h p (by simp [hp])

/-- What `keep_profile_id` means after the lookup: nothing, or a stored
profile. -/
theorem keepOf_cases (profiles : List Profile) (keepProfileID : ℤ) :
    ((keepOf profiles keepProfileID).id = 0 ∧ (keepOf profiles keepProfileID).profile = none) ∨
    ∃ kept ∈ profiles, kept.id = keepProfileID ∧ keepProfileID ≠ 0 ∧
      keepOf profiles keepProfileID =
        ⟨keepProfileID,if kept.managed then "" else normalizeProfileURI kept.uri,
          if kept.managed then kept.providerKey else "",some kept⟩ := by
  unfold keepOf
  by_cases h0 : keepProfileID = 0
  · exact Or.inl (by simp [h0])
  · rw [if_neg h0]
    cases hb : byID profiles keepProfileID with
    | none => exact Or.inl (by simp)
    | some kept =>
      obtain ⟨hmem,hid⟩ := byID_mem hb
      refine Or.inr ⟨kept,hmem,hid,h0,?_⟩
      cases hm : kept.managed <;> simp [hm]

/-- The skip test compares identities. -/
theorem skipped_iff (profiles : List Profile) (keepProfileID : ℤ) (d : DBAddProfileData) :
    skipped (keepOf profiles keepProfileID) d = true ↔
      (keepOf profiles keepProfileID).profile.map Profile.identity = some d.identity := by
  rcases keepOf_cases profiles keepProfileID with ⟨hid,hp⟩ | ⟨kept,-,-,h0,heq⟩
  · simp [skipped,hid,hp]
  · rw [heq]
    cases hm : kept.managed with
    | false =>
      cases hd : d.managed <;>
        simp [skipped,h0,hm,hd,Profile.identity,DBAddProfileData.identity]
      exact eq_comm
    | true =>
      have hkey := kept.keyed hm
      cases hd : d.managed <;>
        simp [skipped,h0,hm,hd,hkey,Profile.identity,DBAddProfileData.identity]
      exact eq_comm

def Sync.queue (profiles : List Profile) (st : Sync) : Identity → List ℤ
  | .uri u => (byURI profiles u).drop (st.nextID u)
  | .managed key => (byKey profiles key).drop (st.nextKey key)

/-- The queues the loop still draws from; nothing draws from the kept
profile's. -/
def Sync.pool (profiles : List Profile) (keep : Keep) (st : Sync) (i : Identity) : List ℤ :=
  if keep.profile.map Profile.identity = some i then [] else st.queue profiles i

structure Sync.Ready (profiles : List Profile) (keep : Keep) (st : Sync) : Prop where
  supply : Supply (st.pool profiles keep) st.lastID
  free : ∀ i, ∀ c ∈ st.pool profiles keep i, c ∉ st.usedIDs ∧ 1 ≤ c
  bounded : ∀ c ∈ st.usedIDs, c ≤ st.lastID
  positive : 0 ≤ st.lastID

theorem start_ready {profiles : List Profile} (h : Numbered profiles) (lastId : ℤ)
    (hl : 0 ≤ lastId) (keepProfileID : ℤ) :
    (Sync.start lastId profiles (keepOf profiles keepProfileID)).Ready profiles
      (keepOf profiles keepProfileID) := by
  obtain ⟨hge,hids⟩ := lastIDOf_ge lastId profiles
  have hqueue : ∀ i, (Sync.start lastId profiles (keepOf profiles keepProfileID)).queue profiles i =
      idsOf profiles i := by
    intro i
    cases i <;> simp [Sync.queue,Sync.start,byURI_eq,byKey_eq]
  have hmem : ∀ i c, c ∈ (Sync.start lastId profiles (keepOf profiles keepProfileID)).pool profiles
      (keepOf profiles keepProfileID) i →
      (keepOf profiles keepProfileID).profile.map Profile.identity ≠ some i ∧
        ∃ p ∈ profiles, p.identity = i ∧ p.id = c := by
    intro i c hc
    unfold Sync.pool at hc
    split at hc
    · simp at hc
    · rename_i hi
      exact ⟨hi,mem_idsOf.mp (hqueue i ▸ hc)⟩
  refine ⟨⟨fun i => ?_,fun i j c hi hj => ?_,fun i c hc => ?_⟩,fun i c hc => ?_,fun c hc => ?_,?_⟩
  · unfold Sync.pool
    split
    · simp
    · rw [hqueue]
      exact nodup_idsOf h i
  · obtain ⟨-,p,hp,rfl,hpc⟩ := hmem i c hi
    obtain ⟨-,q,hq,rfl,hqc⟩ := hmem j c hj
    rw [eq_of_id h hp hq (hpc.trans hqc.symm)]
  · obtain ⟨-,p,hp,-,rfl⟩ := hmem i c hc
    exact hids p hp
  · obtain ⟨hi,p,hp,rfl,rfl⟩ := hmem i c hc
    refine ⟨?_,h.positive p hp⟩
    rcases keepOf_cases profiles keepProfileID with ⟨hid,-⟩ | ⟨kept,hk,hkid,h0,heq⟩
    · simp [Sync.start,hid]
    · rw [heq] at hi ⊢
      have hne : p.id ≠ keepProfileID := by
        intro hpk
        have hpe := eq_of_id h hp hk (hpk.trans hkid.symm)
        subst hpe
        simp at hi
      simpa [Sync.start,h0] using hne
  · rcases keepOf_cases profiles keepProfileID with ⟨hid,-⟩ | ⟨kept,hk,hkid,h0,heq⟩
    · simp [Sync.start,hid] at hc
    · rw [heq] at hc
      have hck : c = keepProfileID := by simpa [Sync.start,h0] using hc
      rw [hck,← hkid]
      exact hids kept hk
  · change 0 ≤ lastIDOf lastId profiles
    omega

theorem drop_cons {α : Type} {l : List α} {n : ℕ} {c : α} {rest : List α}
    (h : l.drop n = c::rest) : l.drop (n+1) = rest := by
  rw [← List.drop_drop,h]
  rfl

theorem takeCandidate_free {usedIDs : List ℤ} {c : ℤ} (cs : List ℤ) (idx : ℕ)
    (hu : c ∉ usedIDs) (h0 : c ≠ 0) : takeCandidate usedIDs (c::cs) idx = (c,idx+1) := by
  rw [takeCandidate,if_pos ⟨hu,h0⟩]

/-- One entry draws from its identity's queue, or counts up. -/
theorem assign_draws {profiles : List Profile} {keep : Keep} {st : Sync}
    (h : st.Ready profiles keep) {d : DBAddProfileData}
    (hd : keep.profile.map Profile.identity ≠ some d.identity) :
    let r := st.assign profiles d
    r.2.usedIDs = r.1::st.usedIDs ∧ r.2.newOrder = st.newOrder ∧
      r.2.profilesAdded = st.profilesAdded ∧
      match st.pool profiles keep d.identity with
      | [] => r.1 = st.lastID+1 ∧ r.2.lastID = st.lastID+1 ∧
          r.2.pool profiles keep = st.pool profiles keep
      | c::rest => r.1 = c ∧ r.2.lastID = st.lastID ∧
          r.2.pool profiles keep =
            Function.update (st.pool profiles keep) d.identity rest := by
  have hpool : st.pool profiles keep d.identity = st.queue profiles d.identity := by
    rw [Sync.pool,if_neg hd]
  have hfree := h.free d.identity
  rw [hpool] at hfree ⊢
  have hlast := h.positive
  cases hm : d.managed with
  | false =>
    have hid : d.identity = .uri (normalizeProfileURI d.uri) := by
      simp [DBAddProfileData.identity,hm]
    rw [hid] at hfree hd ⊢
    cases hq : st.queue profiles (.uri (normalizeProfileURI d.uri)) with
    | nil =>
      have hdrop : (byURI profiles (normalizeProfileURI d.uri)).drop
          (st.nextID (normalizeProfileURI d.uri)) = [] := hq
      simp [Sync.assign,hm,hdrop,takeCandidate,Function.update_eq_self]
      rfl
    | cons c rest =>
      have hdrop : (byURI profiles (normalizeProfileURI d.uri)).drop
          (st.nextID (normalizeProfileURI d.uri)) = c::rest := hq
      obtain ⟨hu,hpos⟩ := hfree c (by simp [hq])
      have h0 : c ≠ 0 := by omega
      simp [Sync.assign,hm,hdrop,takeCandidate_free rest _ hu h0,h0]
      funext i
      by_cases hi : i = .uri (normalizeProfileURI d.uri)
      · subst hi
        rw [Function.update_self,Sync.pool,if_neg hd]
        simp [Sync.queue,drop_cons hdrop]
      · rw [Function.update_of_ne hi,Sync.pool,Sync.pool]
        cases i with
        | uri u =>
          have hu : u ≠ normalizeProfileURI d.uri := fun hu => hi (by rw [hu])
          simp [Sync.queue,Function.update_of_ne hu]
        | managed key => rfl
  | true =>
    have hid : d.identity = .managed d.providerKey := by
      simp [DBAddProfileData.identity,hm]
    rw [hid] at hfree hd ⊢
    cases hq : st.queue profiles (.managed d.providerKey) with
    | nil =>
      have hdrop : (byKey profiles d.providerKey).drop (st.nextKey d.providerKey) = [] := hq
      simp [Sync.assign,hm,hdrop,takeCandidate,Function.update_eq_self]
      rfl
    | cons c rest =>
      have hdrop : (byKey profiles d.providerKey).drop (st.nextKey d.providerKey) =
          c::rest := hq
      obtain ⟨hu,hpos⟩ := hfree c (by simp [hq])
      have h0 : c ≠ 0 := by omega
      simp [Sync.assign,hm,hdrop,takeCandidate_free rest _ hu h0,h0]
      funext i
      by_cases hi : i = .managed d.providerKey
      · subst hi
        rw [Function.update_self,Sync.pool,if_neg hd]
        simp [Sync.queue,drop_cons hdrop]
      · rw [Function.update_of_ne hi,Sync.pool,Sync.pool]
        cases i with
        | uri u => rfl
        | managed key =>
          have hk : key ≠ d.providerKey := fun hk => hi (by rw [hk])
          simp [Sync.queue,Function.update_of_ne hk]

def incoming (keep : Keep) (entries : List DBAddProfileData) : List DBAddProfileData :=
  entries.filter (fun d => !skipped keep d)

theorem assign_ready {profiles : List Profile} {keep : Keep} {st : Sync}
    (h : st.Ready profiles keep) {d : DBAddProfileData}
    (hd : keep.profile.map Profile.identity ≠ some d.identity) (p : Profile) :
    ((st.assign profiles d).2.push (st.assign profiles d).1 p).Ready profiles keep := by
  obtain ⟨hused,-,-,hdraw⟩ := assign_draws h hd
  have hpush : ((st.assign profiles d).2.push (st.assign profiles d).1 p).pool profiles keep =
      (st.assign profiles d).2.pool profiles keep := rfl
  cases hq : st.pool profiles keep d.identity with
  | nil =>
    rw [hq] at hdraw
    obtain ⟨hid,hlast,hpool⟩ := hdraw
    rw [hpool] at hpush
    refine ⟨?_,fun i c hc => ?_,fun c hc => ?_,?_⟩
    · rw [hpush]
      exact hlast ▸ supply_fresh h.supply
    · rw [hpush] at hc
      have hle := h.supply.bounded i c hc
      obtain ⟨hu,hpos⟩ := h.free i c hc
      refine ⟨?_,hpos⟩
      change c ∉ (st.assign profiles d).2.usedIDs
      rw [hused,List.mem_cons,not_or]
      exact ⟨by omega,hu⟩
    · change c ∈ (st.assign profiles d).2.usedIDs at hc
      change c ≤ (st.assign profiles d).2.lastID
      rw [hused,List.mem_cons] at hc
      rcases hc with rfl | hc
      · omega
      · have := h.bounded c hc
        omega
    · change 0 ≤ (st.assign profiles d).2.lastID
      have := h.positive
      omega
  | cons c rest =>
    rw [hq] at hdraw
    obtain ⟨hid,hlast,hpool⟩ := hdraw
    rw [hpool] at hpush
    have hc : c ∈ st.pool profiles keep d.identity := by simp [hq]
    refine ⟨?_,fun i c' hc' => ?_,fun c' hc' => ?_,?_⟩
    · rw [hpush]
      exact hlast ▸ supply_take h.supply hq
    · rw [hpush] at hc'
      obtain ⟨hu,hpos⟩ := h.free i c' (mem_update hq hc')
      refine ⟨?_,hpos⟩
      change c' ∉ (st.assign profiles d).2.usedIDs
      rw [hused,List.mem_cons,not_or]
      refine ⟨fun hcc => ?_,hu⟩
      rw [hid] at hcc
      exact taken_gone h.supply hq i (hcc ▸ hc')
    · change c' ∈ (st.assign profiles d).2.usedIDs at hc'
      change c' ≤ (st.assign profiles d).2.lastID
      rw [hused,List.mem_cons] at hc'
      rw [hlast]
      rcases hc' with rfl | hc'
      · rw [hid]
        exact h.supply.bounded _ c hc
      · exact h.bounded c' hc'
    · change 0 ≤ (st.assign profiles d).2.lastID
      rw [hlast]
      exact h.positive

/-- The ids of the loop are those of renumbering the entries that are not
skipped; the loop variables after it follow from them. -/
theorem assigned_spec {profiles : List Profile} {keep : Keep}
    (hskip : ∀ d, skipped keep d = true ↔ keep.profile.map Profile.identity = some d.identity)
    (entries : List DBAddProfileData) {st : Sync} (h : st.Ready profiles keep) :
    let l := assigned profiles keep st entries
    let st' := finish profiles keep st entries
    l.map Prod.fst = incoming keep entries ∧
      l.map (fun e => (e.1.identity,e.2)) = renumber (st.pool profiles keep) st.lastID
        ((incoming keep entries).map DBAddProfileData.identity) ∧
      st'.lastID = lastAfter (st.pool profiles keep) st.lastID
        ((incoming keep entries).map DBAddProfileData.identity) ∧
      st'.usedIDs = (l.map Prod.snd).reverse ++ st.usedIDs ∧
      st'.newOrder = st.newOrder ++ l.map Prod.snd ∧
      st'.profilesAdded = st.profilesAdded ++ l.map (fun e => mergedProfile profiles e.2 e.1) := by
  induction entries generalizing st with
  | nil => simp [assigned,finish,incoming,renumber,lastAfter]
  | cons d ds ih =>
    unfold assigned finish
    by_cases hs : skipped keep d = true
    · rw [if_pos hs,if_pos hs]
      have hin : incoming keep (d::ds) = incoming keep ds := by simp [incoming,hs]
      rw [hin]
      exact ih h
    · have hd : keep.profile.map Profile.identity ≠ some d.identity := fun hk => hs ((hskip d).mpr hk)
      have hin : incoming keep (d::ds) = d::incoming keep ds := by simp [incoming,hs]
      obtain ⟨hused,horder,hadded,hdraw⟩ := assign_draws h hd
      have hready := assign_ready h hd (mergedProfile profiles (st.assign profiles d).1 d)
      obtain ⟨h₁,h₂,h₃,h₄,h₅,h₆⟩ := ih hready
      rw [if_neg hs,if_neg hs,hin]
      simp only [List.map_cons,h₁,h₂,h₃,h₄,h₅,h₆]
      have hpush : ((st.assign profiles d).2.push (st.assign profiles d).1
          (mergedProfile profiles (st.assign profiles d).1 d)).pool profiles keep =
          (st.assign profiles d).2.pool profiles keep := rfl
      have hlast : ((st.assign profiles d).2.push (st.assign profiles d).1
          (mergedProfile profiles (st.assign profiles d).1 d)).lastID =
          (st.assign profiles d).2.lastID := rfl
      rw [hpush,hlast]
      cases hq : st.pool profiles keep d.identity with
      | nil =>
        rw [hq] at hdraw
        obtain ⟨hid,hlast,hpool⟩ := hdraw
        rw [renumber_empty hq,lastAfter_empty hq,hpool,hlast,hid]
        simp [Sync.push,hused,horder,hadded,hid]
      | cons c rest =>
        rw [hq] at hdraw
        obtain ⟨hid,hlast,hpool⟩ := hdraw
        rw [renumber_queued hq,lastAfter_queued hq,hpool,hlast,hid]
        simp [Sync.push,hused,horder,hadded,hid]

end Assignment

section Merged

theorem profileOf_managed (id : ℤ) (d : DBAddProfileData) :
    (profileOf id d).managed = d.managed := by
  cases hm : d.managed with
  | false => simp [profileOf,hm]
  | true => simp [profileOf,hm,(d.carried hm).1]

theorem mergedProfile_fields (profiles : List Profile) (id : ℤ) (d : DBAddProfileData) :
    (mergedProfile profiles id d).id = id ∧
      (mergedProfile profiles id d).managed = (profileOf id d).managed ∧
      (mergedProfile profiles id d).providerKey = d.providerKey ∧
      (mergedProfile profiles id d).uri = d.uri := by
  unfold mergedProfile
  split
  · exact ⟨rfl,rfl,rfl,rfl⟩
  · split <;> exact ⟨rfl,rfl,rfl,rfl⟩

/-- The record written for an entry has the entry's identity. -/
theorem mergedProfile_identity (profiles : List Profile) (id : ℤ) (d : DBAddProfileData) :
    (mergedProfile profiles id d).identity = d.identity := by
  obtain ⟨-,hm,hk,hu⟩ := mergedProfile_fields profiles id d
  rw [Profile.identity,DBAddProfileData.identity,hm,hk,hu,profileOf_managed]

end Merged

end Whoisthat.GroupSync
