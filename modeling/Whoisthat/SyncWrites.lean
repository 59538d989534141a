import Mathlib.Algebra.Ring.Nat
import Whoisthat.GroupSync

/-!
# The writes of a merge

The loop writes one file after another and may stop at any of them. Which
entries were reached depends only on the coming write outcomes; the group
directory afterwards is described from the reached entries and their ids.
-/

set_option autoImplicit false

namespace Whoisthat.SyncWrites
open Whoisthat.FileStore Whoisthat.FallibleState Whoisthat.Records Whoisthat.Database
open Whoisthat.GroupFiles Whoisthat.Renumbering Whoisthat.GroupSync

/-- How many entries have their profile file written before a write fails. A
provider-configured entry takes two writes, any other entry one. -/
def reached : List Bool → List DBAddProfileData → ℕ
  | _, [] => 0
  | faults, d::ds =>
    if faults.head? = some true then 0
    else if d.managed then
      if faults.tail.head? = some true then 1 else reached faults.tail.tail ds + 1
    else reached faults.tail ds + 1

def writeAll (gid : ℤ) (profiles : List Profile) (l : List (DBAddProfileData × ℤ)) : DBM Unit :=
  forEach (fun e => writeEntry gid e.2 (mergedProfile profiles e.2 e.1) e.1.config) l

/-- The loop is the id assignment followed by the writes. -/
theorem syncProfiles_eq (gid : ℤ) (profiles : List Profile) (keep : Keep) (st : Sync)
    (entries : List DBAddProfileData) (w : World) :
    syncProfiles gid profiles keep st entries w =
      (writeAll gid profiles (assigned profiles keep st entries) >>= fun _ =>
        pure (finish profiles keep st entries)) w := by
  induction entries generalizing st w with
  | nil => rfl
  | cons d ds ih =>
    unfold syncProfiles assigned finish
    by_cases hs : skipped keep d = true
    · rw [if_pos hs,if_pos hs,if_pos hs,ih]
    · rw [if_neg hs,if_neg hs,if_neg hs]
      simp only [writeAll,forEach,bind_run]
      rcases writeEntry gid _ _ _ w with ⟨e | u,w'⟩
      · rfl
      · simp only [ih,writeAll,bind_run]

/-- The files of `l` are written, and no other file has changed. -/
structure Wrote (gid : ℤ) (profiles : List Profile) (l : List (DBAddProfileData × ℤ))
    (w w' : World) : Prop where
  frame : Frame (fun path => ∃ e ∈ l, path = .profile gid e.2 ∨
    path = .profileXrayConfig gid e.2) w w'
  files : ∀ e ∈ l, profileAt gid e.2 w'.disk w.key = some (mergedProfile profiles e.2 e.1)

theorem wrote_nil (gid : ℤ) (profiles : List Profile) (w : World) :
    Wrote gid profiles [] w w := ⟨frame_refl _ w,by simp⟩

theorem wrote_cons {gid : ℤ} {profiles : List Profile} {e : DBAddProfileData × ℤ}
    {l : List (DBAddProfileData × ℤ)} {u v w : World} (h : Wrote gid profiles [e] u v)
    (h' : Wrote gid profiles l v w) (he : e.2 ∉ l.map Prod.snd) :
    Wrote gid profiles (e::l) u w := by
  refine ⟨frame_trans _ _ _ (frame_mono h.frame ?_) (frame_mono h'.frame ?_),fun a ha => ?_⟩
  · rintro path ⟨a,ha,hp⟩
    exact ⟨a,by simp_all,hp⟩
  · rintro path ⟨a,ha,hp⟩
    exact ⟨a,by simp [ha],hp⟩
  · rcases List.mem_cons.mp ha with rfl | ha
    · rw [← h.files a (by simp),profileAt,fileAt,fileAt]
      rw [h'.frame.files]
      rintro ⟨b,hb,hp | hp⟩
      · exact he (List.mem_map.mpr ⟨b,hb,by simpa using hp.symm⟩)
      · simp at hp
    · rw [← h'.files a ha,h.frame.key]

theorem wrote_frame {gid : ℤ} {profiles : List Profile} {l : List (DBAddProfileData × ℤ)}
    {u v w : World} (h : Wrote gid profiles l u v) (hf : Frame (fun _ => False) v w) :
    Wrote gid profiles l u w := by
  refine ⟨frame_trans _ _ _ h.frame (frame_mono hf fun _ => False.elim),fun e he => ?_⟩
  rw [← h.files e he,profileAt,fileAt,fileAt,hf.files _ id]

/-- One entry: nothing is written, its files are written and the run stops, or
its files are written and the run goes on. -/
theorem writeEntry_cases (gid : ℤ) (profiles : List Profile) (e : DBAddProfileData × ℤ)
    (w : World) (hw : w.degraded = false) :
    let r := writeEntry gid e.2 (mergedProfile profiles e.2 e.1) e.1.config w
    (w.faults.head? = some true ∧ r.1 ≠ .ok () ∧ Frame (fun _ => False) w r.2) ∨
    (w.faults.head? ≠ some true ∧ e.1.managed = true ∧ w.faults.tail.head? = some true ∧
      r.1 ≠ .ok () ∧ Wrote gid profiles [e] w r.2) ∨
    (w.faults.head? ≠ some true ∧
      (e.1.managed = true → w.faults.tail.head? ≠ some true) ∧ r.1 = .ok () ∧
      r.2.faults = (if e.1.managed then w.faults.tail.tail else w.faults.tail) ∧
      Wrote gid profiles [e] w r.2) := by
  have hm : (mergedProfile profiles e.2 e.1).managed = e.1.managed := by
    rw [(mergedProfile_fields profiles e.2 e.1).2.1,profileOf_managed]
  have hfile : ∀ w', Frame (fun path => path = .profileXrayConfig gid e.2)
      (store (.profile gid e.2) (.profile (mergedProfile profiles e.2 e.1)) w) w' →
      Wrote gid profiles [e] w w' := by
    intro w' hf
    refine ⟨frame_trans _ _ _ (frame_mono (frame_store _ _ w) ?_) (frame_mono hf ?_),?_⟩
    · rintro path rfl
      simp
    · rintro path rfl
      simp
    · intro a ha
      obtain rfl : a = e := by simpa using ha
      rw [profileAt,fileAt,hf.files _ (by simp),readFile_store,if_pos rfl]
      simp [openBlob,Payload.asProfile]
  rcases write_cases (.profile gid e.2) (.profile (mergedProfile profiles e.2 e.1)) w with
    ⟨hd,_⟩ | ⟨_,hf,h⟩ | ⟨_,hf,h⟩
  · simp [hw] at hd
  · refine Or.inl ⟨hf,?_,?_⟩ <;> simp only [writeEntry,bind_run,wrapping,h]
    · simp
    · exact ⟨rfl,rfl,fun _ _ => rfl⟩
  · right
    have hrun : writeEntry gid e.2 (mergedProfile profiles e.2 e.1) e.1.config w =
        (if (mergedProfile profiles e.2 e.1).managed then
          wrapping (.writeXrayConfig e.2) (saveProfileXrayConfig gid e.2 e.1.config)
        else deleteProfileXrayConfig gid e.2)
          (store (.profile gid e.2) (.profile (mergedProfile profiles e.2 e.1)) w) := by
      simp only [writeEntry,bind_run,wrapping,h]
    simp only [hrun,hm]
    cases hmd : e.1.managed with
    | false =>
      refine Or.inr ⟨hf,by simp,?_,?_,hfile _ ?_⟩
      · rfl
      · rfl
      · exact frame_remove _ _
    | true =>
      have hx := frame_saveProfileXrayConfig gid e.2 e.1.config
        (store (.profile gid e.2) (.profile (mergedProfile profiles e.2 e.1)) w)
      simp only [if_true,wrapping_snd]
      rcases saveProfileXrayConfig_cases gid e.2 e.1.config
        (store (.profile gid e.2) (.profile (mergedProfile profiles e.2 e.1)) w) hw with
        ⟨hf',hr⟩ | ⟨hf',hr,hrest⟩
      · exact Or.inl ⟨hf,trivial,hf',by simp [wrapping_fst,hr,Except.mapError],hfile _ hx⟩
      · exact Or.inr ⟨hf,fun _ => hf',by simp [wrapping_fst,hr,Except.mapError],hrest,hfile _ hx⟩

theorem nodup_take {l : List (DBAddProfileData × ℤ)} (h : (l.map Prod.snd).Nodup) (n : ℕ) :
    ((l.take n).map Prod.snd).Nodup :=
  h.sublist ((List.take_sublist n l).map _)

/-- The loop writes the files of the reached entries and no others; it
succeeds only when it reaches all of them. -/
theorem writeAll_spec (gid : ℤ) (profiles : List Profile) (l : List (DBAddProfileData × ℤ))
    (hn : (l.map Prod.snd).Nodup) (w : World) (hw : w.degraded = false) :
    Wrote gid profiles (l.take (reached w.faults (l.map Prod.fst))) w
        (writeAll gid profiles l w).2 ∧
      ((writeAll gid profiles l w).1 = .ok () →
        reached w.faults (l.map Prod.fst) = l.length) := by
  induction l generalizing w with
  | nil => exact ⟨wrote_nil gid profiles w,fun _ => rfl⟩
  | cons e l ih =>
    rw [List.map_cons,List.nodup_cons] at hn
    have hrun : writeAll gid profiles (e::l) w =
        (writeEntry gid e.2 (mergedProfile profiles e.2 e.1) e.1.config >>= fun _ =>
          writeAll gid profiles l) w := rfl
    rw [hrun,bind_run,List.map_cons]
    unfold reached
    rcases writeEntry_cases gid profiles e w hw with
      ⟨hf,hr,hframe⟩ | ⟨hf,hm,hf',hr,hwrote⟩ | ⟨hf,hm,hr,hfaults,hwrote⟩
    · rcases hres : writeEntry gid e.2 (mergedProfile profiles e.2 e.1) e.1.config w with ⟨er | u,w'⟩
      · rw [hres] at hframe
        simp only [hf,if_true,List.take_zero]
        exact ⟨⟨frame_mono hframe fun _ => False.elim,by simp⟩,by simp⟩
      · exact absurd (by rw [hres]) hr
    · rcases hres : writeEntry gid e.2 (mergedProfile profiles e.2 e.1) e.1.config w with ⟨er | u,w'⟩
      · rw [hres] at hwrote
        simp only [hf,hm,hf',if_true,if_false]
        exact ⟨hwrote,by simp⟩
      · exact absurd (by rw [hres]) hr
    · rcases hres : writeEntry gid e.2 (mergedProfile profiles e.2 e.1) e.1.config w with ⟨er | u,w'⟩
      · rw [hres] at hr
        simp at hr
      · rw [hres] at hwrote hfaults
        have hw' : w'.degraded = false := hwrote.frame.degraded.trans hw
        obtain ⟨hrest,hall⟩ := ih hn.2 w' hw'
        have hreach : (if w.faults.head? = some true then 0
            else if e.1.managed then
              if w.faults.tail.head? = some true then 1
              else reached w.faults.tail.tail (l.map Prod.fst) + 1
            else reached w.faults.tail (l.map Prod.fst) + 1) =
            reached w'.faults (l.map Prod.fst) + 1 := by
          simp only at hfaults
          rw [if_neg hf,hfaults]
          cases hmd : e.1.managed with
          | false => simp
          | true => rw [if_pos rfl,if_pos rfl,if_neg (hm hmd)]
        rw [hreach]
        refine ⟨wrote_cons hwrote hrest ?_,fun hok => by simp [hall hok]⟩
        intro hmem
        exact hn.1 (((List.take_sublist _ l).map _).mem hmem)

section Group

/-- A group as the database leaves it: its config names it, and every readable
profile carries the number of its file. -/
structure StoredGroup (gid : ℤ) (g : Group) (t : Tree) (k : Key) : Prop where
  config : groupAt gid t k = some g
  id : g.id = gid
  lastId : 0 ≤ g.lastId
  files : ∀ n p, profileAt gid n t k = some p → p.id = n ∧ 1 ≤ n

def storedAt (gid : ℤ) (t : Tree) (k : Key) : List Profile :=
  (listedAt gid t k).map Prod.snd

variable {gid : ℤ} {g : Group} {t : Tree} {k : Key}

theorem mem_listedAt (h : groupAt gid t k = some g) (n : ℤ) (p : Profile) :
    (n,p) ∈ listedAt gid t k ↔ profileAt gid n t k = some p := by
  rw [listedAt,h,(orderProfiles_perm _ (nodup_profilesMapAt gid t k)).mem_iff,mem_profilesMapAt]

theorem nodup_listedAt (gid : ℤ) (t : Tree) (k : Key) :
    ((listedAt gid t k).map Prod.fst).Nodup := by
  unfold listedAt
  split
  · simp
  · rename_i g _
    have hp := orderProfiles_perm g.profileOrder (nodup_profilesMapAt gid t k)
    exact (hp.map Prod.fst).nodup_iff.mpr (nodup_profilesMapAt gid t k)

theorem ids_storedAt (h : StoredGroup gid g t k) :
    (storedAt gid t k).map Profile.id = (listedAt gid t k).map Prod.fst := by
  rw [storedAt,List.map_map]
  apply List.map_congr_left
  rintro ⟨n,p⟩ hnp
  exact (h.files n p ((mem_listedAt h.config n p).mp hnp)).1

theorem mem_storedAt (h : StoredGroup gid g t k) (p : Profile) :
    p ∈ storedAt gid t k ↔ profileAt gid p.id t k = some p := by
  rw [storedAt,List.mem_map]
  constructor
  · rintro ⟨⟨n,q⟩,hnq,rfl⟩
    have hq := (mem_listedAt h.config n q).mp hnq
    rwa [← (h.files n q hq).1] at hq
  · intro hp
    exact ⟨(p.id,p),(mem_listedAt h.config _ _).mpr hp,rfl⟩

theorem numbered_storedAt (h : StoredGroup gid g t k) : Numbered (storedAt gid t k) := by
  refine ⟨?_,fun p hp => ?_⟩
  · rw [ids_storedAt h]
    exact nodup_listedAt gid t k
  · exact (h.files p.id p ((mem_storedAt h p).mp hp)).2

/-- The pure part of a merge: what is stored, what is kept, and which entry
gets which id. -/
structure Plan where
  profiles : List Profile
  keep : Keep
  ids : List (DBAddProfileData × ℤ)
  final : Sync

def planOf (gid : ℤ) (g : Group) (keepProfileID : ℤ) (entries : List DBAddProfileData) (t : Tree)
    (k : Key) : Plan :=
  let profiles := storedAt gid t k
  let keep := keepOf profiles keepProfileID
  let start := Sync.start g.lastId profiles keep
  { profiles := profiles
    keep := keep
    ids := assigned profiles keep start entries
    final := finish profiles keep start entries }

/-- After its reads, a merge is the planned writes, the commit of the group
config, and the removal of stale files. -/
theorem update_run (gid keepProfileID : ℤ) (entries : List DBAddProfileData) (w : World)
    (h : groupAt gid w.disk w.key = some g) :
    let plan := planOf gid g keepProfileID entries w.disk w.key
    ∃ w₁, Reads w w₁ ∧ w₁ = (getGroupDataAndProfiles gid w).2 ∧
      updateGroupAndProfiles gid entries keepProfileID w =
        (writeAll gid plan.profiles plan.ids >>= fun _ =>
          saveGroupConfig
            { g with lastId := plan.final.lastID, profileOrder := plan.final.newOrder } >>= fun _ =>
          removeStale gid plan.final.usedIDs plan.profiles >>= fun _ =>
          pure plan.final.profilesAdded) w₁ := by
  obtain ⟨hreads,hview⟩ := getGroup_reads gid w
  rw [h] at hview
  refine ⟨_,hreads,rfl,?_⟩
  rcases hr : getGroupDataAndProfiles gid w with ⟨e | v,w₁⟩
  · rw [hr] at hview
    exact hview.elim
  · rw [hr] at hview
    obtain ⟨hgroup,hprofiles⟩ := hview
    have hread : wrapping .gettingGroup (getGroupDataAndProfiles gid) w = (.ok v,w₁) :=
      wrapping_ok.mpr hr
    rw [updateGroupAndProfiles,bind_of_ok hread,bind_run,syncProfiles_eq]
    have hlast : v.group.lastId = g.lastId := by rw [hgroup]
    have hsave : ∀ a b, { v.group with lastId := a, profileOrder := b } =
        { g with lastId := a, profileOrder := b } := by
      intro a b
      rw [hgroup]
    rw [hlast,hprofiles]
    simp only [hsave,bind_run,planOf,storedAt]
    rcases writeAll gid _ _ w₁ with ⟨e | u,w₂⟩ <;> rfl

theorem plan_spec (h : StoredGroup gid g t k) (keepProfileID : ℤ)
    (entries : List DBAddProfileData) :
    let plan := planOf gid g keepProfileID entries t k
    let start := Sync.start g.lastId plan.profiles plan.keep
    start.Ready plan.profiles plan.keep ∧
      plan.ids.map Prod.fst = incoming plan.keep entries ∧
      plan.ids.map (fun e => (e.1.identity,e.2)) = renumber (start.pool plan.profiles plan.keep)
        start.lastID ((incoming plan.keep entries).map DBAddProfileData.identity) ∧
      plan.final.lastID = lastAfter (start.pool plan.profiles plan.keep) start.lastID
        ((incoming plan.keep entries).map DBAddProfileData.identity) ∧
      plan.final.usedIDs = (plan.ids.map Prod.snd).reverse ++ start.usedIDs ∧
      plan.final.newOrder = start.newOrder ++ plan.ids.map Prod.snd ∧
      plan.final.profilesAdded = start.profilesAdded ++
        plan.ids.map (fun e => mergedProfile plan.profiles e.2 e.1) := by
  have hready := start_ready (numbered_storedAt h) g.lastId h.lastId keepProfileID
  exact ⟨hready,assigned_spec (skipped_iff _ keepProfileID) entries hready⟩

theorem keep_ids (profiles : List Profile) (keepProfileID : ℤ) (lastId : ℤ) :
    let keep := keepOf profiles keepProfileID
    (Sync.start lastId profiles keep).usedIDs = keep.profile.toList.map Profile.id ∧
      (Sync.start lastId profiles keep).newOrder = keep.profile.toList.map Profile.id ∧
      (Sync.start lastId profiles keep).profilesAdded = keep.profile.toList ∧
      ∀ p ∈ keep.profile, p ∈ profiles := by
  rcases keepOf_cases profiles keepProfileID with ⟨hid,hp⟩ | ⟨kept,hmem,hid,h0,heq⟩
  · simp [Sync.start,hid,hp]
  · rw [heq]
    simp [Sync.start,h0,hid,hmem]

theorem plan_ids (h : StoredGroup gid g t k) (keepProfileID : ℤ)
    (entries : List DBAddProfileData) :
    let plan := planOf gid g keepProfileID entries t k
    (plan.ids.map Prod.snd).Nodup ∧
      ∀ e ∈ plan.ids, 1 ≤ e.2 ∧ e.2 ∉ plan.keep.profile.toList.map Profile.id := by
  obtain ⟨hready,-,hren,-⟩ := plan_spec h keepProfileID entries
  obtain ⟨hused,-⟩ := keep_ids (storedAt gid t k) keepProfileID g.lastId
  have hsnd := congrArg (List.map Prod.snd) hren
  rw [List.map_map] at hsnd
  refine ⟨?_,fun e he => ?_⟩
  · have hn := nodup_renumber hready.supply
      ((incoming (planOf gid g keepProfileID entries t k).keep entries).map
        DBAddProfileData.identity)
    rw [← hsnd] at hn
    exact hn
  · have hmem := List.mem_map_of_mem (f := fun e : DBAddProfileData × ℤ => (e.1.identity,e.2)) he
    rw [hren] at hmem
    change 1 ≤ e.2 ∧
      e.2 ∉ (keepOf (storedAt gid t k) keepProfileID).profile.toList.map Profile.id
    rw [← hused]
    rcases mem_renumber hmem with hp | ⟨hp,-⟩
    · exact ⟨(hready.free _ _ hp).2,(hready.free _ _ hp).1⟩
    · have hlast := hready.positive
      refine ⟨by simp only at hp; omega,fun hk => ?_⟩
      exact absurd hp (Int.not_lt.mpr (hready.bounded _ hk))

/-- The new counter dominates the old one and every id given out. -/
theorem plan_lastID (h : StoredGroup gid g t k) (keepProfileID : ℤ)
    (entries : List DBAddProfileData) :
    let plan := planOf gid g keepProfileID entries t k
    g.lastId ≤ plan.final.lastID ∧ ∀ e ∈ plan.ids, e.2 ≤ plan.final.lastID := by
  obtain ⟨hready,-,hren,hlast,-⟩ := plan_spec h keepProfileID entries
  have hmono := last_le_lastAfter ((Sync.start g.lastId (storedAt gid t k)
      (keepOf (storedAt gid t k) keepProfileID)).pool (storedAt gid t k)
      (keepOf (storedAt gid t k) keepProfileID)) (lastIDOf g.lastId (storedAt gid t k))
    ((incoming (keepOf (storedAt gid t k) keepProfileID) entries).map DBAddProfileData.identity)
  refine ⟨hlast ▸ Int.le_trans (lastIDOf_ge g.lastId _).1 hmono,fun e he => ?_⟩
  have hmem := List.mem_map_of_mem (f := fun e : DBAddProfileData × ℤ => (e.1.identity,e.2)) he
  rw [hren] at hmem
  rw [hlast]
  rcases mem_renumber hmem with hp | ⟨-,hp⟩
  · exact Int.le_trans (hready.supply.bounded _ _ hp) hmono
  · exact hp

/-- The files a merge removes at its end. -/
def Stale (gid : ℤ) (usedIDs : List ℤ) (profiles : List Profile) (path : Path) : Prop :=
  ∃ p ∈ profiles, p.id ∉ usedIDs ∧
    (path = .profile gid p.id ∨ path = .profileXrayConfig gid p.id)

theorem removeStale_spec (gid : ℤ) (usedIDs : List ℤ) (profiles : List Profile) (w : World) :
    Frame (Stale gid usedIDs profiles) w (removeStale gid usedIDs profiles w).2 ∧
      ∀ path, Stale gid usedIDs profiles path →
        readFile path (removeStale gid usedIDs profiles w).2.disk = none := by
  induction profiles generalizing w with
  | nil => exact ⟨frame_refl _ w,fun path ⟨p,hp,_⟩ => by simp at hp⟩
  | cons p profiles ih =>
    have hmono : ∀ path, Stale gid usedIDs profiles path → Stale gid usedIDs (p::profiles) path :=
      fun path ⟨q,hq,h⟩ => ⟨q,by simp [hq],h⟩
    by_cases hp : p.id ∈ usedIDs
    · have hrun : removeStale gid usedIDs (p::profiles) w = removeStale gid usedIDs profiles w := by
        simp [removeStale,forEach,hp,bind_run]
      rw [hrun]
      refine ⟨frame_mono (ih w).1 hmono,?_⟩
      rintro path ⟨q,hq,hu,h⟩
      rcases List.mem_cons.mp hq with rfl | hq
      · exact absurd hp hu
      · exact (ih w).2 path ⟨q,hq,hu,h⟩
    · have hrun : removeStale gid usedIDs (p::profiles) w =
          (remove (.profile gid p.id) >>= fun _ => deleteProfileXrayConfig gid p.id >>= fun _ =>
            removeStale gid usedIDs profiles) w := by
        simp [removeStale,forEach,hp,bind_run,remove,deleteProfileXrayConfig]
      have hgone : ∀ path, path = .profile gid p.id ∨ path = .profileXrayConfig gid p.id →
          readFile path (deleteProfileXrayConfig gid p.id
            (remove (.profile gid p.id) w).2).2.disk = none := by
        intro path hpath
        simp only [deleteProfileXrayConfig,remove,modify_run,readFile_erase]
        rcases hpath with rfl | rfl <;> simp
      have hframe : Frame (Stale gid usedIDs (p::profiles)) w
          (deleteProfileXrayConfig gid p.id (remove (.profile gid p.id) w).2).2 := by
        refine frame_trans _ _ _ (frame_mono (frame_remove _ _) ?_)
          (frame_mono (frame_remove _ _) ?_)
        · exact fun path hpath => ⟨p,by simp,hp,Or.inl hpath⟩
        · exact fun path hpath => ⟨p,by simp,hp,Or.inr hpath⟩
      obtain ⟨hrest,hnone⟩ := ih (deleteProfileXrayConfig gid p.id (remove (.profile gid p.id) w).2).2
      rw [hrun]
      refine ⟨frame_trans _ _ _ hframe (frame_mono hrest hmono),?_⟩
      rintro path ⟨q,hq,hu,h⟩
      by_cases hs : Stale gid usedIDs profiles path
      · exact hnone path hs
      · rcases List.mem_cons.mp hq with rfl | hq
        · exact (hrest.files path hs).trans (hgone path h)
        · exact absurd ⟨q,hq,hu,h⟩ hs

theorem profileAt_congr {t t' : Tree} {gid n : ℤ} (k : Key)
    (h : readFile (.profile gid n) t' = readFile (.profile gid n) t) :
    profileAt gid n t' k = profileAt gid n t k := by
  rw [profileAt,fileAt,fileAt,h]

theorem groupAt_congr {t t' : Tree} {gid : ℤ} (k : Key)
    (h : readFile (.groupConfig gid) t' = readFile (.groupConfig gid) t) :
    groupAt gid t' k = groupAt gid t k := by
  rw [groupAt,fileAt,fileAt,h]

/-- The numbered files of a group. -/
def ProfileFile (gid : ℤ) (path : Path) : Prop :=
  ∃ n, path = .profile gid n ∨ path = .profileXrayConfig gid n

theorem frame_writeAll (gid : ℤ) (profiles : List Profile) (l : List (DBAddProfileData × ℤ)) :
    Keeps (Frame (ProfileFile gid)) (writeAll gid profiles l) := by
  refine keeps_forEach (frame_refl _) frame_trans l fun e _ => ?_
  refine keeps_bind frame_trans (keeps_wrapping _ (keeps_frame_mono (frame_write _ _) ?_)) ?_
  · rintro path rfl
    exact ⟨e.2,Or.inl rfl⟩
  · have hx : ∀ path, path = .profileXrayConfig gid e.2 → ProfileFile gid path :=
      fun path hp => ⟨e.2,Or.inr hp⟩
    intro _
    split
    · exact keeps_wrapping _ (keeps_frame_mono (frame_saveProfileXrayConfig _ _ _) hx)
    · exact keeps_frame_mono (frame_remove _) hx

theorem writeAll_degraded (gid : ℤ) (profiles : List Profile)
    (l : List (DBAddProfileData × ℤ)) (w : World) :
    (writeAll gid profiles l w).2.degraded = w.degraded :=
  (frame_writeAll gid profiles l w).degraded

/-- A merge touches the config and the numbered files of its group. -/
theorem update_leaves {w : World} (h : groupAt gid w.disk w.key = some g) (hid : g.id = gid)
    (keepProfileID : ℤ) (entries : List DBAddProfileData) :
    Leaves (fun path => path = .groupConfig gid ∨ ProfileFile gid path) w
      (updateGroupAndProfiles gid entries keepProfileID w).2 := by
  obtain ⟨w₁,hreads,-,hprog⟩ := update_run gid keepProfileID entries w h
  rw [hprog]
  refine leaves_trans _ _ _ (leaves_of_reads hreads) (leaves_of_frame (P := fun path =>
    path = .groupConfig gid ∨ ProfileFile gid path) ?_ fun _ => id)
  refine keeps_bind frame_trans (keeps_frame_mono (frame_writeAll _ _ _) fun _ => Or.inr)
    (fun _ => keeps_bind frame_trans (keeps_wrapping _ (keeps_frame_mono (frame_write _ _) ?_))
      fun _ => keeps_bind frame_trans (fun w => ?_) fun _ => keeps_pure (frame_refl _) _) w₁
  · rintro path rfl
    exact Or.inl (by rw [← hid])
  · refine frame_mono (removeStale_spec gid _ _ w).1 ?_
    rintro path ⟨p,-,-,hp⟩
    exact Or.inr ⟨p.id,hp⟩

/-- The listing after a merge: the kept profile, then the entries in order. -/
def Plan.listing (plan : Plan) : List (ℤ × Profile) :=
  plan.keep.profile.toList.map (fun p => (p.id,p)) ++
    plan.ids.map (fun e => (e.2,mergedProfile plan.profiles e.2 e.1))

theorem plan_listing (h : StoredGroup gid g t k) (keepProfileID : ℤ)
    (entries : List DBAddProfileData) :
    let plan := planOf gid g keepProfileID entries t k
    plan.listing.map Prod.fst = plan.final.newOrder ∧ plan.final.newOrder.Nodup ∧
      ∀ n, n ∈ plan.final.usedIDs ↔ n ∈ plan.final.newOrder := by
  obtain ⟨-,-,-,-,hused,horder,-⟩ := plan_spec h keepProfileID entries
  obtain ⟨hku,hko,-⟩ := keep_ids (storedAt gid t k) keepProfileID g.lastId
  obtain ⟨hn,hdisj⟩ := plan_ids h keepProfileID entries
  have hstart : (Sync.start g.lastId (planOf gid g keepProfileID entries t k).profiles
      (planOf gid g keepProfileID entries t k).keep).newOrder =
      (planOf gid g keepProfileID entries t k).keep.profile.toList.map Profile.id := hko
  have hstart' : (Sync.start g.lastId (planOf gid g keepProfileID entries t k).profiles
      (planOf gid g keepProfileID entries t k).keep).usedIDs =
      (planOf gid g keepProfileID entries t k).keep.profile.toList.map Profile.id := hku
  refine ⟨?_,?_,fun n => ?_⟩
  · rw [horder,hstart,Plan.listing,List.map_append,List.map_map,List.map_map]
    rfl
  · rw [horder,hstart,List.nodup_append]
    refine ⟨?_,hn,fun a ha b hb hab => ?_⟩
    · cases (planOf gid g keepProfileID entries t k).keep.profile <;> simp
    · obtain ⟨e,he,rfl⟩ := List.mem_map.mp hb
      exact (hdisj e he).2 (hab ▸ ha)
  · rw [hused,horder,hstart,hstart',List.mem_append,List.mem_append,List.mem_reverse]
    exact or_comm

/-- The readable profiles after the planned writes and the removal of stale
files, wherever the group config has been committed. -/
theorem profileAt_after {keepProfileID : ℤ} {entries : List DBAddProfileData} {w₁ w₂ w₃ w₄ : World}
    (h : StoredGroup gid g w₁.disk w₁.key)
    (hwrote : Wrote gid (planOf gid g keepProfileID entries w₁.disk w₁.key).profiles
      (planOf gid g keepProfileID entries w₁.disk w₁.key).ids w₁ w₂)
    (hcommit : Frame (fun path => path = .groupConfig gid) w₂ w₃)
    (hframe : Frame (Stale gid (planOf gid g keepProfileID entries w₁.disk w₁.key).final.usedIDs
      (storedAt gid w₁.disk w₁.key)) w₃ w₄)
    (hgone : ∀ path, Stale gid (planOf gid g keepProfileID entries w₁.disk w₁.key).final.usedIDs
      (storedAt gid w₁.disk w₁.key) path → readFile path w₄.disk = none) (n : ℤ) (p : Profile) :
    profileAt gid n w₄.disk w₁.key = some p ↔
      (n,p) ∈ (planOf gid g keepProfileID entries w₁.disk w₁.key).listing := by
  obtain ⟨horder,-,hused⟩ := plan_listing h keepProfileID entries
  obtain ⟨hn,hdisj⟩ := plan_ids h keepProfileID entries
  obtain ⟨-,-,-,hkept⟩ := keep_ids (storedAt gid w₁.disk w₁.key) keepProfileID g.lastId
  generalize hplan : planOf gid g keepProfileID entries w₁.disk w₁.key = plan at *
  have hprofiles : plan.profiles = storedAt gid w₁.disk w₁.key := by rw [← hplan]; rfl
  have hkept' : ∀ p ∈ plan.keep.profile, p ∈ storedAt gid w₁.disk w₁.key := by
    rw [← hplan]
    exact hkept
  have hlive : ∀ m ∈ plan.final.usedIDs,
      profileAt gid m w₄.disk w₁.key = profileAt gid m w₂.disk w₁.key := by
    intro m hm
    refine (profileAt_congr _ (hframe.files _ ?_)).trans
      (profileAt_congr _ (hcommit.files _ (by simp)))
    rintro ⟨q,-,hq,hpath | hpath⟩ <;> simp only [Path.profile.injEq,reduceCtorEq] at hpath
    exact hq (hpath.2 ▸ hm)
  have hkeepfile : ∀ m, m ∉ plan.ids.map Prod.snd →
      profileAt gid m w₂.disk w₁.key = profileAt gid m w₁.disk w₁.key := by
    intro m hm
    refine profileAt_congr _ (hwrote.frame.files _ ?_)
    rintro ⟨e,he,hpath | hpath⟩ <;> simp only [Path.profile.injEq,reduceCtorEq] at hpath
    exact hm (List.mem_map.mpr ⟨e,he,hpath.2.symm⟩)
  have hback : ∀ m q, (m,q) ∈ plan.listing → profileAt gid m w₄.disk w₁.key = some q := by
    intro m q hmq
    have hm : m ∈ plan.final.usedIDs := by
      rw [hused,← horder]
      exact List.mem_map.mpr ⟨(m,q),hmq,rfl⟩
    rw [hlive m hm]
    rcases List.mem_append.mp hmq with hmq | hmq
    · obtain ⟨kept,hk,heq⟩ := List.mem_map.mp hmq
      obtain ⟨rfl,rfl⟩ := Prod.mk.inj heq
      rw [hkeepfile,← mem_storedAt h]
      · exact hkept' kept (by simpa using hk)
      · intro hmem
        obtain ⟨e,he,hek⟩ := List.mem_map.mp hmem
        exact (hdisj e he).2 (hek ▸ List.mem_map.mpr ⟨kept,hk,rfl⟩)
    · obtain ⟨e,he,heq⟩ := List.mem_map.mp hmq
      obtain ⟨rfl,rfl⟩ := Prod.mk.inj heq
      exact hwrote.files e he
  refine ⟨fun hp => ?_,hback n p⟩
  by_cases hu : n ∈ plan.final.usedIDs
  · rw [hused,← horder] at hu
    obtain ⟨⟨m,q⟩,hmq,rfl⟩ := List.mem_map.mp hu
    have hq := hback m q hmq
    rw [hp,Option.some.injEq] at hq
    rw [hq]
    exact hmq
  · have hstored : ¬Stale gid plan.final.usedIDs (storedAt gid w₁.disk w₁.key) (.profile gid n) := by
      intro hs
      rw [profileAt,fileAt,hgone _ hs] at hp
      simp at hp
    have hids : n ∉ plan.ids.map Prod.snd := by
      rw [hused] at hu
      rw [← horder] at hu
      intro hm
      obtain ⟨e,he,rfl⟩ := List.mem_map.mp hm
      exact hu (List.mem_map.mpr ⟨_,List.mem_append_right _ (List.mem_map.mpr ⟨e,he,rfl⟩),rfl⟩)
    rw [profileAt_congr _ (hframe.files _ hstored),
      profileAt_congr _ (hcommit.files (.profile gid n) (by simp)),hkeepfile n hids] at hp
    have hid := (h.files n p hp).1
    refine absurd ⟨p,?_,by rwa [hid],Or.inl (by rw [hid])⟩ hstored
    rw [mem_storedAt h,hid]
    exact hp

/-- A merge that succeeds leaves a stored group with the planned listing. -/
theorem update_ok {keepProfileID : ℤ} {entries : List DBAddProfileData} {w w' : World}
    {r : List Profile} (h : StoredGroup gid g w.disk w.key)
    (hrun : updateGroupAndProfiles gid entries keepProfileID w = (.ok r,w')) :
    let plan := planOf gid g keepProfileID entries w.disk w.key
    w'.key = w.key ∧
      StoredGroup gid { g with lastId := plan.final.lastID, profileOrder := plan.final.newOrder }
        w'.disk w'.key ∧
      listedAt gid w'.disk w'.key = plan.listing ∧
      ∀ n, (readFile (.profile gid n) w'.disk).isSome →
        (readFile (.profile gid n) w.disk).isSome ∨ n ∈ plan.ids.map Prod.snd := by
  intro plan
  obtain ⟨w₁,hreads,-,hprog⟩ := update_run gid keepProfileID entries w h.config
  rw [hprog] at hrun
  obtain ⟨_,w₂,hwrites,hrun⟩ := bind_ok hrun
  obtain ⟨_,w₃,hsave,hrun⟩ := bind_ok hrun
  obtain ⟨_,w₄,hstale,hrun⟩ := bind_ok hrun
  obtain ⟨-,rfl⟩ : _ ∧ w₄ = w' := by simpa using hrun
  obtain ⟨hd,rfl⟩ := write_ok (wrapping_ok.mp hsave)
  have h₁ : StoredGroup gid g w₁.disk w₁.key := by rwa [hreads.disk,hreads.key]
  have hplan : planOf gid g keepProfileID entries w₁.disk w₁.key = plan := by
    rw [hreads.disk,hreads.key]
  change writeAll gid plan.profiles plan.ids w₁ = _ at hwrites
  change removeStale gid plan.final.usedIDs plan.profiles _ = _ at hstale
  have hd₁ : w₁.degraded = false := by
    rw [← writeAll_degraded gid plan.profiles plan.ids,hwrites]
    exact hd
  obtain ⟨hwrote,hall⟩ := writeAll_spec gid plan.profiles plan.ids
    (plan_ids h keepProfileID entries).1 w₁ hd₁
  rw [hwrites] at hwrote hall
  rw [hall rfl,List.take_length] at hwrote
  obtain ⟨hframe,hgone⟩ := removeStale_spec gid plan.final.usedIDs plan.profiles
    (store (.groupConfig g.id) (.group { g with
      lastId := plan.final.lastID, profileOrder := plan.final.newOrder }) w₂)
  rw [hstale] at hframe hgone
  have hcommit : Frame (fun path => path = .groupConfig gid) w₂
      (store (.groupConfig g.id) (.group { g with
        lastId := plan.final.lastID, profileOrder := plan.final.newOrder }) w₂) :=
    h.id ▸ frame_store _ _ w₂
  have hprofiles : plan.profiles = storedAt gid w₁.disk w₁.key := by
    rw [hreads.disk,hreads.key]
    rfl
  have hafter := profileAt_after h₁ (hplan.symm ▸ hwrote) hcommit
    (hplan.symm ▸ hprofiles ▸ hframe) (hplan.symm ▸ hprofiles ▸ hgone)
  rw [hplan] at hafter
  have hkey : w₄.key = w₁.key :=
    hframe.key.trans (hcommit.key.trans hwrote.frame.key)
  have hconfig : groupAt gid w₄.disk w₄.key = some { g with
      lastId := plan.final.lastID, profileOrder := plan.final.newOrder } := by
    rw [hkey,groupAt_congr _ (hframe.files (.groupConfig gid) ?_)]
    · rw [groupAt,fileAt,readFile_store,if_pos (by rw [h.id]),hwrote.frame.key]
      simp [openBlob,Payload.asGroup]
    · rintro ⟨q,-,-,hpath | hpath⟩ <;> simp at hpath
  refine ⟨hkey.trans hreads.key,⟨hconfig,h.id,?_,fun n p hp => ?_⟩,?_,fun n hn => ?_⟩
  · obtain ⟨hready,-,-,hlast,-⟩ := plan_spec h keepProfileID entries
    have hmono := last_le_lastAfter ((Sync.start g.lastId plan.profiles plan.keep).pool
      plan.profiles plan.keep) (Sync.start g.lastId plan.profiles plan.keep).lastID
      ((incoming plan.keep entries).map DBAddProfileData.identity)
    exact hlast ▸ Int.le_trans hready.positive hmono
  · rw [hkey] at hp
    rcases List.mem_append.mp ((hafter n p).mp hp) with hmem | hmem
    · obtain ⟨kept,hk,heq⟩ := List.mem_map.mp hmem
      obtain ⟨rfl,rfl⟩ := Prod.mk.inj heq
      have hk' := (keep_ids (storedAt gid w.disk w.key) keepProfileID g.lastId).2.2.2 kept
        (Option.mem_toList.mp hk)
      exact ⟨rfl,(numbered_storedAt h).positive kept hk'⟩
    · obtain ⟨e,he,heq⟩ := List.mem_map.mp hmem
      obtain ⟨rfl,rfl⟩ := Prod.mk.inj heq
      exact ⟨(mergedProfile_fields plan.profiles e.2 e.1).1,
        ((plan_ids h keepProfileID entries).2 e he).1⟩
  · obtain ⟨horder,hn,-⟩ := plan_listing h keepProfileID entries
    have hlisting : (plan.listing.map Prod.fst).Nodup := horder ▸ hn
    have hmap : (profilesMapAt gid w₄.disk w₄.key).Perm plan.listing := by
      refine (List.perm_ext_iff_of_nodup (nodup_profilesMapAt gid _ _).of_map
        hlisting.of_map).mpr fun ⟨n,p⟩ => ?_
      rw [mem_profilesMapAt,hkey]
      exact hafter n p
    have hperm : (listedAt gid w₄.disk w₄.key).Perm plan.listing := by
      rw [listedAt,hconfig]
      exact (orderProfiles_perm _ (nodup_profilesMapAt gid _ _)).trans hmap
    refine eq_of_perm_of_keys hperm (nodup_listedAt gid _ _) ?_
    rw [horder,listedAt,hconfig]
    exact orderProfiles_complete hn (horder ▸ hmap.map Prod.fst)
  · by_cases hs : Stale gid plan.final.usedIDs plan.profiles (.profile gid n)
    · simp [hgone _ hs] at hn
    · rw [hframe.files _ hs,hcommit.files _ (by simp)] at hn
      by_cases hids : n ∈ plan.ids.map Prod.snd
      · exact Or.inr hids
      · rw [hwrote.frame.files (.profile gid n) ?_,hreads.disk] at hn
        · exact Or.inl hn
        · rintro ⟨e,he,hpath | hpath⟩ <;> simp only [Path.profile.injEq,reduceCtorEq] at hpath
          exact hids (List.mem_map.mpr ⟨e,he,hpath.2.symm⟩)

theorem mem_take_of_get {l : List Bool} {i n : ℕ} (h : l[i]? = some true) (hi : i < n) :
    true ∈ l.take n := by
  rw [← List.getElem?_take_of_lt hi] at h
  exact List.mem_of_getElem? h

def writesOf (entries : List DBAddProfileData) : ℕ :=
  (entries.map fun d => if d.managed then 2 else 1).sum

/-- The outcomes the loop consumes: all for its writes, up to a failing one. -/
theorem writeAll_faults (gid : ℤ) (profiles : List Profile)
    (l : List (DBAddProfileData × ℤ)) (w : World) (hw : w.degraded = false) :
    match (writeAll gid profiles l w).1 with
    | .ok _ => (writeAll gid profiles l w).2.faults =
        w.faults.drop (writesOf (l.map Prod.fst))
    | .error _ => true ∈ w.faults.take (writesOf (l.map Prod.fst)) := by
  induction l generalizing w with
  | nil => simp [writeAll,forEach,writesOf]
  | cons e l ih =>
    have hrun : writeAll gid profiles (e::l) w =
        (writeEntry gid e.2 (mergedProfile profiles e.2 e.1) e.1.config >>= fun _ =>
          writeAll gid profiles l) w := rfl
    have hcount : writesOf ((e::l).map Prod.fst) =
        (if e.1.managed then 2 else 1) + writesOf (l.map Prod.fst) := by simp [writesOf]
    rw [hrun,hcount]
    rcases writeEntry_cases gid profiles e w hw with
      ⟨hf,hr,-⟩ | ⟨hf,hm,hf',hr,-⟩ | ⟨hf,hm,hr,hfaults,hwrote⟩
    · rcases hres : writeEntry gid e.2 (mergedProfile profiles e.2 e.1) e.1.config w with ⟨er | u,w'⟩
      · rw [bind_of_error hres]
        exact mem_take_of_get (i := 0) (by rwa [← List.head?_eq_getElem?]) (by split <;> omega)
      · exact absurd (by rw [hres]) hr
    · rcases hres : writeEntry gid e.2 (mergedProfile profiles e.2 e.1) e.1.config w with ⟨er | u,w'⟩
      · rw [bind_of_error hres]
        refine mem_take_of_get (i := 1) ?_ (by simp [hm]; omega)
        rw [← hf',List.head?_eq_getElem?,List.getElem?_tail]
      · exact absurd (by rw [hres]) hr
    · rw [bind_of_ok (run_of_fst hr)]
      generalize (writeEntry gid e.2 (mergedProfile profiles e.2 e.1) e.1.config w).2 = w' at *
      have hdrop : w'.faults = w.faults.drop (if e.1.managed then 2 else 1) := by
        rw [hfaults]
        cases e.1.managed <;> simp [← List.drop_one,List.drop_drop]
      have hrest := ih w' (hwrote.frame.degraded.trans hw)
      rw [hdrop,List.drop_drop] at hrest
      rcases hr' : writeAll gid profiles l w' with ⟨er | u,w''⟩ <;> rw [hr'] at hrest
      · simp only [List.take_drop] at hrest
        exact List.mem_of_mem_drop hrest
      · exact hrest

theorem writeAll_refused (gid : ℤ) (profiles : List Profile)
    (l : List (DBAddProfileData × ℤ)) (w : World) (hw : w.degraded = true) :
    (writeAll gid profiles l w).2 = w := by
  cases l with
  | nil => rfl
  | cons e l =>
    have hwrite : writeEncryptedJSON (.profile gid e.2) (.profile (mergedProfile profiles e.2 e.1))
        w = (.error (.readOnly (.profile gid e.2)),w) := by
      rw [writeEncryptedJSON,if_pos hw]
    simp only [writeAll,forEach,writeEntry,wrapping,bind_run,hwrite]

theorem removeStale_ok (gid : ℤ) (usedIDs : List ℤ) (profiles : List Profile) (w : World) :
    (removeStale gid usedIDs profiles w).1 = .ok () := by
  induction profiles generalizing w with
  | nil => rfl
  | cons p profiles ih =>
    by_cases hp : p.id ∈ usedIDs
    · simpa [removeStale,forEach,hp,bind_run] using ih w
    · simpa [removeStale,forEach,hp,bind_run,remove,deleteProfileXrayConfig] using ih _

/-- How many entries a merge writes before it stops: none once the database is
read-only. -/
def written (gid keepProfileID : ℤ) (entries : List DBAddProfileData) (w : World) : ℕ :=
  if w.degraded || lockedIn gid w.disk w.key then 0
  else reached w.faults (incoming (keepOf (storedAt gid w.disk w.key) keepProfileID) entries)

/-- A merge that fails has written the files of the entries it reached. -/
theorem update_error {keepProfileID : ℤ} {entries : List DBAddProfileData} {w w' : World}
    {e : DBError} (h : StoredGroup gid g w.disk w.key)
    (hrun : updateGroupAndProfiles gid entries keepProfileID w = (.error e,w')) :
    let plan := planOf gid g keepProfileID entries w.disk w.key
    ∃ w₁, Reads w w₁ ∧
      Wrote gid plan.profiles (plan.ids.take (written gid keepProfileID entries w)) w₁ w' := by
  intro plan
  obtain ⟨w₁,hreads,hw₁,hprog⟩ := update_run gid keepProfileID entries w h.config
  rw [hprog] at hrun
  refine ⟨w₁,hreads,?_⟩
  have hmarks := (marks_getGroup h.config).2
  rw [← hw₁] at hmarks
  -- the commit replaces only the group config, and only when the run goes on to succeed
  have hcommit : ∀ w₂ r, (saveGroupConfig
        { g with lastId := plan.final.lastID, profileOrder := plan.final.newOrder } >>= fun _ =>
      removeStale gid plan.final.usedIDs plan.profiles >>= fun _ =>
      pure plan.final.profilesAdded) w₂ = (.error r,w') →
      Frame (fun _ => False) w₂ w' := by
    intro w₂ r hr
    rcases write_cases (.groupConfig g.id) (.group { g with
        lastId := plan.final.lastID, profileOrder := plan.final.newOrder }) w₂ with
      ⟨_,hs⟩ | ⟨_,_,hs⟩ | ⟨_,_,hs⟩
    · simp only [saveGroupConfig,wrapping,bind_run,hs,Prod.mk.injEq] at hr
      exact hr.2 ▸ frame_refl _ w₂
    · simp only [saveGroupConfig,wrapping,bind_run,hs,Prod.mk.injEq] at hr
      exact hr.2 ▸ ⟨rfl,rfl,fun _ _ => rfl⟩
    · simp only [saveGroupConfig,wrapping,bind_run,hs] at hr
      rw [run_of_fst (removeStale_ok gid _ _ _)] at hr
      simp at hr
  have hrest : Frame (fun _ => False) (writeAll gid plan.profiles plan.ids w₁).2 w' := by
    rw [bind_run] at hrun
    change (match writeAll gid plan.profiles plan.ids w₁ with | _ => _) = _ at hrun
    rcases hw : writeAll gid plan.profiles plan.ids w₁ with ⟨e' | u,w₂⟩ <;> rw [hw] at hrun
    · exact (Prod.mk.inj hrun).2 ▸ frame_refl _ w₂
    · exact hcommit w₂ e hrun
  refine wrote_frame ?_ hrest
  cases hd : w₁.degraded with
  | true =>
    have hn : written gid keepProfileID entries w = 0 := by rw [written,← hmarks,hd]; rfl
    rw [hn,List.take_zero,writeAll_refused gid plan.profiles plan.ids w₁ hd]
    exact wrote_nil gid plan.profiles w₁
  | false =>
    have hn : written gid keepProfileID entries w =
        reached w₁.faults (plan.ids.map Prod.fst) := by
      rw [written,← hmarks,hd,hreads.faults,(plan_spec h keepProfileID entries).2.1]
      rfl
    rw [hn]
    exact (writeAll_spec gid plan.profiles plan.ids (plan_ids h keepProfileID entries).1 w₁ hd).1

/-- A merge that can write fails only where one of its writes fails. -/
theorem update_fault {keepProfileID : ℤ} {entries : List DBAddProfileData} {w w' : World}
    {e : DBError} (h : StoredGroup gid g w.disk w.key)
    (hrun : updateGroupAndProfiles gid entries keepProfileID w = (.error e,w'))
    (hw : (w.degraded || lockedIn gid w.disk w.key) = false) :
    true ∈ w.faults.take (writesOf
      (incoming (keepOf (storedAt gid w.disk w.key) keepProfileID) entries) + 1) := by
  obtain ⟨w₁,hreads,hw₁,hprog⟩ := update_run gid keepProfileID entries w h.config
  have hmarks := (marks_getGroup h.config).2
  rw [← hw₁,hw] at hmarks
  rw [hprog] at hrun
  have hfaults := writeAll_faults gid (planOf gid g keepProfileID entries w.disk w.key).profiles
    (planOf gid g keepProfileID entries w.disk w.key).ids w₁ hmarks
  have hd := writeAll_degraded gid (planOf gid g keepProfileID entries w.disk w.key).profiles
    (planOf gid g keepProfileID entries w.disk w.key).ids w₁
  rw [(plan_spec h keepProfileID entries).2.1,hreads.faults] at hfaults
  rcases hw : writeAll gid (planOf gid g keepProfileID entries w.disk w.key).profiles
      (planOf gid g keepProfileID entries w.disk w.key).ids w₁ with ⟨e' | u,w₂⟩ <;>
    rw [hw] at hfaults hd
  · exact (List.take_subset_take_left _ (Nat.le_succ _)) hfaults
  · rw [bind_of_ok hw] at hrun
    rcases write_cases (.groupConfig g.id) (.group { g with
        lastId := (planOf gid g keepProfileID entries w.disk w.key).final.lastID
        profileOrder := (planOf gid g keepProfileID entries w.disk w.key).final.newOrder }) w₂ with
      ⟨hd',_⟩ | ⟨_,hf,_⟩ | ⟨_,_,hs⟩
    · rw [hd,hmarks] at hd'
      simp at hd'
    · rw [show w₂.faults = _ from hfaults,List.head?_drop] at hf
      exact mem_take_of_get hf (Nat.lt_succ_self _)
    · simp only [saveGroupConfig,wrapping,bind_run,hs] at hrun
      rw [run_of_fst (removeStale_ok gid _ _ _)] at hrun
      simp at hrun

/-- Rewritten files keep the group well formed, wherever the run stopped. -/
theorem stored_of_wrote {keepProfileID : ℤ} {entries : List DBAddProfileData} {w w₁ w' : World}
    (h : StoredGroup gid g w.disk w.key) (hreads : Reads w w₁) {n : ℕ}
    (hwrote : Wrote gid (planOf gid g keepProfileID entries w.disk w.key).profiles
      ((planOf gid g keepProfileID entries w.disk w.key).ids.take n) w₁ w') :
    StoredGroup gid g w'.disk w'.key := by
  have hkey : w'.key = w.key := hwrote.frame.key.trans hreads.key
  refine ⟨?_,h.id,h.lastId,fun m p hp => ?_⟩
  · rw [hkey,groupAt_congr _ (hwrote.frame.files (.groupConfig gid) (by simp)),hreads.disk]
    exact h.config
  · by_cases hm : ∃ e ∈ (planOf gid g keepProfileID entries w.disk w.key).ids.take n, m = e.2
    · obtain ⟨e,he,rfl⟩ := hm
      rw [hkey,← hreads.key,hwrote.files e he,Option.some.injEq] at hp
      subst hp
      exact ⟨(mergedProfile_fields _ e.2 e.1).1,
        ((plan_ids h keepProfileID entries).2 e (List.mem_of_mem_take he)).1⟩
    · rw [hkey,profileAt_congr _ (hwrote.frame.files (.profile gid m) ?_),hreads.disk] at hp
      · exact h.files m p hp
      · rintro ⟨e,he,hpath | hpath⟩ <;> simp only [Path.profile.injEq,reduceCtorEq] at hpath
        exact hm ⟨e,he,hpath.2⟩

end Group

section Sample

def newGroup (id : ℤ) (name : String) (lastId : ℤ) : Group :=
  { id := id
    subscriptionUrl := ""
    name := name
    lastId := lastId
    subLastUpdated := 0
    subExpires := 0
    subUpload := 0
    subDownload := 0
    subTotal := 0
    subUpdateInterval := 0
    subUpdateIntervalOverride := 0
    subAutoUpdateDisabled := false
    profileOrder := []
    routingMode := ""
    manualRoutingMode := ""
    activeRoutingProfileId := ""
    pendingActiveRoutingProfileId := ""
    subName := ""
    subscriptionFormat := "" }

def uriEntry (gid : ℤ) (uri name : String) : DBAddProfileData :=
  ⟨uri,gid,name,"vless","","",443,"","","",false,by simp⟩

/-- A group config and profile files, sealed under the empty key. -/
def groupFiles (g : Group) : List Profile → Tree
  | [] => ((∅ : Tree).insert (.groupDir g.id) .dir).insert (.groupConfig g.id)
      (.file (.sealed [] 0 (.group g)))
  | p::ps => (groupFiles g ps).insert (.profile g.id p.id) (.file (.sealed [] 0 (.profile p)))

def worldOf (g : Group) (ps : List Profile) (faults : List Bool) : World :=
  { root := ["db"], disk := groupFiles g ps, key := [], degraded := false, nonce := 1, faults := faults }

theorem readFile_base (g : Group) (path : Path) :
    readFile path (groupFiles g []) =
      if path = .groupConfig g.id then some (.sealed [] 0 (.group g)) else none := by
  rw [groupFiles,readFile_insert]
  split
  · rfl
  · unfold readFile
    rw [lookup_insert]
    by_cases hd : path = .groupDir g.id <;> simp [hd]

theorem stored_groupFiles (g : Group) (ps : List Profile) (hl : 0 ≤ g.lastId)
    (hp : ∀ p ∈ ps, 1 ≤ p.id) : StoredGroup g.id g (groupFiles g ps) [] := by
  induction ps with
  | nil =>
    refine ⟨?_,rfl,hl,fun n p hnp => ?_⟩
    · simp [groupAt,fileAt,readFile_base,openBlob,Payload.asGroup]
    · simp [profileAt,fileAt,readFile_base] at hnp
  | cons q ps ih =>
    have h := ih fun p hmem => hp p (by simp [hmem])
    refine ⟨?_,rfl,hl,fun n p hnp => ?_⟩
    · rw [groupAt,fileAt,groupFiles,readFile_insert,if_neg (by simp)]
      exact h.config
    · rw [profileAt,fileAt,groupFiles,readFile_insert] at hnp
      split at hnp
      · rename_i hpath
        simp [openBlob,Payload.asProfile] at hnp hpath
        subst hnp
        exact ⟨hpath.symm,hpath ▸ hp q (by simp)⟩
      · exact h.files n p hnp

end Sample

end Whoisthat.SyncWrites
