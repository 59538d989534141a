import Whoisthat.SyncWrites

/-!
# What a refresh does to the servers of a group

A successful refresh should leave one profile for each entry, the n-th entry of
an identity under the n-th id stored for it. It does unless the profile kept
for a running connection takes the place of several entries, or of another
stored profile. A failed refresh should leave the listing as it was. It does
unless an entry that needs a new id was already written.
-/

set_option autoImplicit false

namespace Whoisthat.Refresh
open Whoisthat.FileStore Whoisthat.FallibleState Whoisthat.Records Whoisthat.Database
open Whoisthat.GroupFiles Whoisthat.Renumbering Whoisthat.GroupSync Whoisthat.SyncWrites

def identities (entries : List DBAddProfileData) : List Identity :=
  entries.map DBAddProfileData.identity

/-- The profiles `after` a refresh are those the feed asks for. -/
structure FollowsFeed (before after : List Profile) (lastId : ℤ) (kept : Option Profile)
    (feed : List Identity) : Prop where
  count : ∀ i, (after.map Profile.identity).count i =
    feed.count i + if kept.map Profile.identity = some i ∧ i ∉ feed then 1 else 0
  distinct : (after.map Profile.id).Nodup
  stable : ∀ i ∈ feed, ∃ fresh,
    idsOf after i = (idsOf before i).take (feed.count i) ++ fresh ∧
      ∀ n ∈ fresh, lastId < n ∧ ∀ p ∈ before, p.id < n

/-- The kept profile is its identity's first, and stands for at most one entry. -/
def KeptFits (before : List Profile) (kept : Option Profile) (feed : List Identity) : Prop :=
  ∀ p ∈ kept, feed.count p.identity = 0 ∨
    (feed.count p.identity = 1 ∧ (idsOf before p.identity).head? = some p.id)

section Sample

def oneServer : List Profile := [profileOf 1 (uriEntry 1 "vless://dup" "dup-1")]

def twoEntries : List DBAddProfileData :=
  [uriEntry 1 "vless://dup" "dup-1",
    uriEntry 1 "vless://dup" "dup-2"]

def connected (faults : List Bool) : World := worldOf (newGroup 1 "dups" 1) oneServer faults

theorem stored_connected (faults : List Bool) :
    StoredGroup 1 (newGroup 1 "dups" 1) (connected faults).disk (connected faults).key :=
  stored_groupFiles (newGroup 1 "dups" 1) oneServer (by decide) (by decide)

end Sample

section Success

variable {gid : ℤ} {g : Group} {t : Tree} {k : Key}

theorem identities_listing (plan : Plan) :
    (plan.listing.map Prod.snd).map Profile.identity =
      plan.keep.profile.toList.map Profile.identity ++ identities (plan.ids.map Prod.fst) := by
  simp only [Plan.listing,identities,List.map_append,List.map_map]
  congr 1
  apply List.map_congr_left
  intro e _
  exact mergedProfile_identity plan.profiles e.2 e.1

theorem idsOf_listing (plan : Plan) (i : Identity) :
    idsOf (plan.listing.map Prod.snd) i =
      (plan.keep.profile.toList.filter (fun p => p.identity = i)).map Profile.id ++
        numbersOf i (plan.ids.map (fun e => (e.1.identity,e.2))) := by
  simp only [Plan.listing,idsOf,numbersOf,List.map_append,List.filter_append,List.map_map,
    List.filter_map]
  congr 1
  have hid : ∀ e : DBAddProfileData × ℤ, (mergedProfile plan.profiles e.2 e.1).id = e.2 :=
    fun e => (mergedProfile_fields plan.profiles e.2 e.1).1
  simp only [Function.comp_def,mergedProfile_identity,hid]

theorem count_incoming (profiles : List Profile) (keepProfileID : ℤ)
    (entries : List DBAddProfileData) (i : Identity) :
    (identities (incoming (keepOf profiles keepProfileID) entries)).count i =
      if (keepOf profiles keepProfileID).profile.map Profile.identity = some i then 0
      else (identities entries).count i := by
  induction entries with
  | nil => simp [identities,incoming]
  | cons d ds ih =>
    have hskip := skipped_iff profiles keepProfileID d
    unfold identities incoming at ih ⊢
    by_cases hs : skipped (keepOf profiles keepProfileID) d = true
    · have hd := hskip.mp hs
      simp only [List.filter_cons,hs,Bool.not_true,Bool.false_eq_true,if_false,ih,hd]
      by_cases hi : d.identity = i
      · simp [hi]
      · simp [hi]
    · have hd : (keepOf profiles keepProfileID).profile.map Profile.identity ≠ some d.identity :=
        fun h => hs (hskip.mpr h)
      simp only [List.filter_cons,hs,Bool.not_false,if_true,List.map_cons,List.count_cons,ih]
      by_cases hi : d.identity = i
      · subst hi
        simp [hd]
      · simp [hi]

theorem start_pool {profiles : List Profile} {keepProfileID lastId : ℤ} {i : Identity}
    (hi : (keepOf profiles keepProfileID).profile.map Profile.identity ≠ some i) :
    (Sync.start lastId profiles (keepOf profiles keepProfileID)).pool profiles
      (keepOf profiles keepProfileID) i = idsOf profiles i := by
  rw [Sync.pool,if_neg hi]
  cases i <;> simp [Sync.queue,Sync.start,byURI_eq,byKey_eq]

/-- Entries of the kept identity are all skipped. -/
theorem idsOf_kept (h : StoredGroup gid g t k) (keepProfileID : ℤ)
    (entries : List DBAddProfileData) {p : Profile}
    (hp : (keepOf (storedAt gid t k) keepProfileID).profile = some p) :
    idsOf ((planOf gid g keepProfileID entries t k).listing.map Prod.snd) p.identity =
      [p.id] := by
  obtain ⟨-,-,hren,-⟩ := plan_spec h keepProfileID entries
  have hkeep : (planOf gid g keepProfileID entries t k).keep.profile = some p := hp
  have hcount := count_incoming (storedAt gid t k) keepProfileID entries p.identity
  rw [hp,Option.map_some,if_pos rfl] at hcount
  have hnone : numbersOf p.identity ((planOf gid g keepProfileID entries t k).ids.map
      (fun e => (e.1.identity,e.2))) = [] := by
    rw [hren]
    exact List.eq_nil_of_length_eq_zero ((length_numbersOf _ _ _ p.identity).trans hcount)
  rw [idsOf_listing,hnone,hkeep]
  simp

/-- Other entries take the stored ids of their identity in order. -/
theorem idsOf_refreshed (h : StoredGroup gid g t k) (keepProfileID : ℤ)
    (entries : List DBAddProfileData) {i : Identity}
    (hi : (keepOf (storedAt gid t k) keepProfileID).profile.map Profile.identity ≠ some i) :
    ∃ fresh, idsOf ((planOf gid g keepProfileID entries t k).listing.map Prod.snd) i =
        (idsOf (storedAt gid t k) i).take ((identities entries).count i) ++ fresh ∧
      ∀ n ∈ fresh, g.lastId < n ∧ ∀ p ∈ storedAt gid t k, p.id < n := by
  obtain ⟨-,-,hren,-⟩ := plan_spec h keepProfileID entries
  obtain ⟨hlast,hids⟩ := lastIDOf_ge g.lastId (storedAt gid t k)
  have hnone : (planOf gid g keepProfileID entries t k).keep.profile.toList.filter
      (fun p => p.identity = i) = [] := by
    apply List.filter_eq_nil_iff.mpr
    intro p hp hpi
    have hpk : (keepOf (storedAt gid t k) keepProfileID).profile = some p :=
      Option.mem_toList.mp hp
    rw [hpk] at hi
    exact hi (by simpa using hpi)
  obtain ⟨fresh,heq,hfresh⟩ := numbersOf_renumber
    ((Sync.start g.lastId (storedAt gid t k) (keepOf (storedAt gid t k) keepProfileID)).pool
      (storedAt gid t k) (keepOf (storedAt gid t k) keepProfileID))
    (lastIDOf g.lastId (storedAt gid t k))
    (identities (incoming (keepOf (storedAt gid t k) keepProfileID) entries)) i
  rw [count_incoming,if_neg hi,start_pool hi] at heq
  refine ⟨fresh,?_,fun n hn => ⟨?_,fun p hp => ?_⟩⟩
  · rw [idsOf_listing,hnone,hren]
    exact heq
  · exact Int.lt_of_le_of_lt hlast (hfresh n hn)
  · exact Int.lt_of_le_of_lt (hids p hp) (hfresh n hn)

theorem count_listing (h : StoredGroup gid g t k) (keepProfileID : ℤ)
    (entries : List DBAddProfileData) (i : Identity) :
    (((planOf gid g keepProfileID entries t k).listing.map Prod.snd).map Profile.identity).count i =
      if (keepOf (storedAt gid t k) keepProfileID).profile.map Profile.identity = some i then 1
      else (identities entries).count i := by
  obtain ⟨-,hfst,-⟩ := plan_spec h keepProfileID entries
  rw [identities_listing,hfst,List.count_append]
  change _ + (identities (incoming (keepOf (storedAt gid t k) keepProfileID) entries)).count i = _
  rw [count_incoming]
  change ((keepOf (storedAt gid t k) keepProfileID).profile.toList.map Profile.identity).count i +
    _ = _
  cases (keepOf (storedAt gid t k) keepProfileID).profile with
  | none => simp
  | some p => by_cases hi : p.identity = i <;> simp [hi]

end Success

section Failure

variable {gid : ℤ} {g : Group} {t : Tree} {k : Key}

/-- The ids and identities `GetGroupDataAndProfiles` lists. -/
def serversOf (gid : ℤ) (w : World) : Option (List (ℤ × Identity)) :=
  (getGroupDataAndProfiles gid w).1.toOption.map fun v =>
    v.profiles.map fun p => (p.id,p.identity)

def identityMapAt (gid : ℤ) (t : Tree) (k : Key) : List (ℤ × Identity) :=
  (profilesMapAt gid t k).map (Prod.map id Profile.identity)

theorem mem_identityMapAt (gid : ℤ) (t : Tree) (k : Key) (n : ℤ) (i : Identity) :
    (n,i) ∈ identityMapAt gid t k ↔ ∃ p, profileAt gid n t k = some p ∧ p.identity = i := by
  rw [identityMapAt,List.mem_map]
  constructor
  · rintro ⟨⟨m,p⟩,hp,heq⟩
    obtain ⟨rfl,rfl⟩ := Prod.mk.inj heq
    exact ⟨p,(mem_profilesMapAt gid t k _ p).mp hp,rfl⟩
  · rintro ⟨p,hp,rfl⟩
    exact ⟨(n,p),(mem_profilesMapAt gid t k n p).mpr hp,rfl⟩

theorem nodup_identityMapAt (gid : ℤ) (t : Tree) (k : Key) :
    ((identityMapAt gid t k).map Prod.fst).Nodup := by
  rw [identityMapAt,List.map_map]
  exact nodup_profilesMapAt gid t k

theorem serversOf_stored {w : World} (h : StoredGroup gid g w.disk w.key) :
    serversOf gid w = some (orderProfiles g.profileOrder (identityMapAt gid w.disk w.key)) := by
  obtain ⟨-,hview⟩ := getGroup_reads gid w
  rw [h.config] at hview
  rcases hr : (getGroupDataAndProfiles gid w).1 with e | v <;> rw [hr] at hview
  · exact hview.elim
  · rw [serversOf,hr,identityMapAt,orderProfiles_map]
    simp only [Except.toOption,Option.map_some,hview.2,List.map_map,Option.some.injEq]
    rw [listedAt,h.config]
    apply List.map_congr_left
    rintro ⟨n,p⟩ hnp
    have hp := (mem_listedAt h.config n p).mp (by rwa [listedAt,h.config])
    simp [(h.files n p hp).1]

/-- The reached entries take stored ids exactly when no identity has more
reached entries than stored profiles. -/
theorem reached_old_iff (h : StoredGroup gid g t k) (keepProfileID : ℤ)
    (entries : List DBAddProfileData) (n : ℕ) :
    (∀ e ∈ (planOf gid g keepProfileID entries t k).ids.take n,
        e.2 ≤ lastIDOf g.lastId (storedAt gid t k)) ↔
      ∀ i, (identities ((incoming (keepOf (storedAt gid t k) keepProfileID) entries).take n)).count
        i ≤ (idsOf (storedAt gid t k) i).length := by
  obtain ⟨hready,-,hren,-⟩ := plan_spec h keepProfileID entries
  have hold := all_old_iff hready.supply
    (identities ((incoming (keepOf (storedAt gid t k) keepProfileID) entries).take n))
  have htake := congrArg (List.take n) hren
  rw [take_renumber,← List.map_take,← List.map_take] at htake
  change _ = renumber _ _
    (identities ((incoming (keepOf (storedAt gid t k) keepProfileID) entries).take n)) at htake
  rw [← htake] at hold
  simp only [List.forall_mem_map] at hold
  refine hold.trans (forall_congr' fun i => ?_)
  by_cases hi : (keepOf (storedAt gid t k) keepProfileID).profile.map Profile.identity = some i
  · have hcount := count_incoming (storedAt gid t k) keepProfileID entries i
    rw [if_pos hi] at hcount
    have hsub : (identities ((incoming (keepOf (storedAt gid t k) keepProfileID) entries).take
        n)).count i ≤ 0 :=
      hcount ▸ ((List.take_sublist n _).map _).count_le i
    rw [Nat.le_zero.mp hsub]
    simp
  · rw [← @start_pool _ _ g.lastId _ hi]
    rfl

theorem old_stored (h : StoredGroup gid g t k) (keepProfileID : ℤ)
    (entries : List DBAddProfileData) {e : DBAddProfileData × ℤ}
    (he : e ∈ (planOf gid g keepProfileID entries t k).ids)
    (hle : e.2 ≤ lastIDOf g.lastId (storedAt gid t k)) :
    ∃ p, profileAt gid e.2 t k = some p ∧ p.identity = e.1.identity := by
  obtain ⟨-,-,hren,-⟩ := plan_spec h keepProfileID entries
  have hmem := List.mem_map_of_mem (f := fun e : DBAddProfileData × ℤ => (e.1.identity,e.2)) he
  rw [hren] at hmem
  rcases mem_renumber hmem with hp | ⟨hp,-⟩
  · by_cases hi : (keepOf (storedAt gid t k) keepProfileID).profile.map Profile.identity =
        some e.1.identity
    · change e.2 ∈ (Sync.start _ _ _).pool (storedAt gid t k)
        (keepOf (storedAt gid t k) keepProfileID) e.1.identity at hp
      rw [Sync.pool,if_pos hi] at hp
      simp at hp
    · have hids : e.2 ∈ idsOf (storedAt gid t k) e.1.identity := start_pool hi ▸ hp
      obtain ⟨p,hp,hpi,hpid⟩ := mem_idsOf.mp hids
      exact ⟨p,hpid ▸ (mem_storedAt h p).mp hp,hpi⟩
  · exact absurd hle (Int.not_le.mpr hp)

/-- A failed refresh leaves the listing as it was exactly when every entry
written before the failure had a stored id to take. -/
theorem failed_refresh_keeps_listing_iff {keepProfileID : ℤ} {entries : List DBAddProfileData}
    {w w' : World} {e : DBError} (h : StoredGroup gid g w.disk w.key)
    (hrun : updateGroupAndProfiles gid entries keepProfileID w = (.error e,w')) :
    serversOf gid w' = serversOf gid w ↔
      ∀ i, (identities ((incoming (keepOf (storedAt gid w.disk w.key) keepProfileID) entries).take
        (written gid keepProfileID entries w))).count i ≤
          (idsOf (storedAt gid w.disk w.key) i).length := by
  obtain ⟨w₁,hreads,hwrote⟩ := update_error h hrun
  have h' := stored_of_wrote h hreads hwrote
  have hkey : w'.key = w.key := hwrote.frame.key.trans hreads.key
  rw [← reached_old_iff h,serversOf_stored h',serversOf_stored h,Option.some.injEq,hkey]
  have hsub := fun e he => old_stored h keepProfileID entries (e := e)
    ((List.take_sublist (written gid keepProfileID entries w) _).mem he)
  generalize (planOf gid g keepProfileID entries w.disk w.key).ids.take
    (written gid keepProfileID entries w) = l at hwrote hsub ⊢
  constructor
  · intro heq e he
    have hfile := hwrote.files e he
    rw [hreads.key] at hfile
    have hmem : (e.2,(mergedProfile (planOf gid g keepProfileID entries w.disk w.key).profiles
        e.2 e.1).identity) ∈ identityMapAt gid w'.disk w.key :=
      (mem_identityMapAt _ _ _ _ _).mpr ⟨_,hfile,rfl⟩
    rw [← (orderProfiles_perm g.profileOrder (nodup_identityMapAt gid _ _)).mem_iff,heq,
      (orderProfiles_perm g.profileOrder (nodup_identityMapAt gid _ _)).mem_iff,
      mem_identityMapAt] at hmem
    obtain ⟨p,hp,-⟩ := hmem
    have hpid := (h.files e.2 p hp).1
    rw [← hpid] at hp ⊢
    exact (lastIDOf_ge g.lastId _).2 p ((mem_storedAt h p).mpr hp)
  · intro hold
    apply orderProfiles_eq_of_perm _ _ (nodup_identityMapAt gid _ _)
    refine (List.perm_ext_iff_of_nodup (nodup_identityMapAt gid _ _).of_map
      (nodup_identityMapAt gid _ _).of_map).mpr fun ⟨n,i⟩ => ?_
    rw [mem_identityMapAt,mem_identityMapAt]
    by_cases hn : ∃ e ∈ l, n = e.2
    · obtain ⟨e,he,rfl⟩ := hn
      obtain ⟨p,hp,hpi⟩ := hsub e he (hold e he)
      rw [← hreads.key,hwrote.files e he,hreads.key,hp]
      simp [mergedProfile_identity,hpi]
    · rw [profileAt_congr _ (hwrote.frame.files (.profile gid n) ?_),hreads.disk]
      rintro ⟨e,he,hpath | hpath⟩ <;> simp only [Path.profile.injEq,reduceCtorEq] at hpath
      exact hn ⟨e,he,hpath.2⟩

/-- A server whose import was cut short by the failing commit is listed. -/
theorem half_imported_server_listed :
    StoredGroup 1 (newGroup 1 "dups" 1) (connected [false,false,true]).disk [] ∧
    (updateGroupAndProfiles 1 twoEntries 0 (connected [false,false,true])).1.toOption = none ∧
    serversOf 1 (updateGroupAndProfiles 1 twoEntries 0 (connected [false,false,true])).2 ≠
      serversOf 1 (connected [false,false,true]) :=
  ⟨stored_connected _,by decide +kernel,by decide +kernel⟩

/-- A refresh that fails at its second entry, which needs a new id, changes
nothing the client sees. -/
theorem second_write_failure_hidden :
    serversOf 1 (updateGroupAndProfiles 1 twoEntries 0 (connected [false,true])).2 =
      serversOf 1 (connected [false,true]) := by
  have hrun := run_of_fst (m := updateGroupAndProfiles 1 twoEntries 0)
    (s := connected [false,true]) (r := .error (.writeProfile 2 (.write (.profile 1 2)))) rfl
  refine (failed_refresh_keeps_listing_iff (stored_connected _) hrun).mpr fun i => ?_
  have hn : written 1 0 twoEntries (connected [false,true]) = 1 := by decide
  have hin : identities ((incoming (keepOf (storedAt 1 (connected [false,true]).disk
      (connected [false,true]).key) 0) twoEntries).take 1) =
      [.uri "vless://dup"] := by decide
  rw [hn,hin]
  by_cases hi : i = .uri "vless://dup"
  · subst hi
    decide
  · simp [Ne.symm hi]

end Failure

end Whoisthat.Refresh
