import Whoisthat.ProfileStore
import Whoisthat.Refresh

/-!
# Profile numbers and the persisted counter

The next number of a group is one above the `LastId` of its config. The
invariant says that no numbered file of the group exceeds `LastId`. Every
operation keeps it, whatever writes fail, except a refresh or a move that
fails after it wrote a file under a new number.
-/

set_option autoImplicit false

namespace Whoisthat.ProfileIds
open Whoisthat.FileStore Whoisthat.FallibleState Whoisthat.Records Whoisthat.Database
open Whoisthat.GroupFiles Whoisthat.GroupSync Whoisthat.SyncWrites Whoisthat.Refresh
open Whoisthat.ProfileStore

/-- Every readable group config carries the number of its directory. -/
def Named (w : World) : Prop := ∀ gid g, groupAt gid w.disk w.key = some g → g.id = gid

/-- The group is well formed and no profile file is numbered above `last`. -/
structure Bounded (gid : ℤ) (g : Group) (last : ℤ) (w : World) : Prop where
  stored : StoredGroup gid g w.disk w.key
  bound : ∀ n, (readFile (.profile gid n) w.disk).isSome → n ≤ last

structure Inv (gid : ℤ) (w : World) : Prop where
  named : Named w
  bounded : ∃ g, Bounded gid g g.lastId w

section Effects

theorem named_leaves {P : Path → Prop} {w w' : World} (h : Leaves P w w')
    (hp : ∀ gid, ¬P (.groupConfig gid)) (hn : Named w) : Named w' := by
  intro gid g hg
  rw [h.key,groupAt_congr _ (h.files _ (hp gid))] at hg
  exact hn gid g hg

theorem bounded_leaves {P : Path → Prop} {gid last : ℤ} {g : Group} {w w' : World}
    (h : Leaves P w w') (hc : ¬P (.groupConfig gid)) (hp : ∀ n, ¬P (.profile gid n))
    (hb : Bounded gid g last w) : Bounded gid g last w' := by
  refine ⟨⟨?_,hb.stored.id,hb.stored.lastId,fun n p hn => ?_⟩,fun n hn => ?_⟩
  · rw [h.key,groupAt_congr _ (h.files _ hc)]
    exact hb.stored.config
  · rw [h.key,profileAt_congr _ (h.files _ (hp n))] at hn
    exact hb.stored.files n p hn
  · rw [h.files _ (hp n)] at hn
    exact hb.bound n hn

theorem bounded_remove {gid last : ℤ} {g : Group} {w : World} {path : Path}
    (hc : path ≠ .groupConfig gid) (hb : Bounded gid g last w) :
    Bounded gid g last (remove path w).2 := by
  have hf : ∀ q, readFile q (remove path w).2.disk =
      if q = path then none else readFile q w.disk := fun q => readFile_erase q path w.disk
  refine ⟨⟨?_,hb.stored.id,hb.stored.lastId,fun n p hn => ?_⟩,fun n hn => ?_⟩
  · rw [groupAt_congr _ ((hf _).trans (if_neg (Ne.symm hc)))]
    exact hb.stored.config
  · rw [profileAt,fileAt,hf] at hn
    split at hn
    · simp at hn
    · exact hb.stored.files n p hn
  · rw [hf] at hn
    split at hn
    · simp at hn
    · exact hb.bound n hn

theorem bounded_removeLast {gid last : ℤ} {g : Group} {w : World}
    (hb : Bounded gid g (last+1) w) :
    Bounded gid g last (remove (.profile gid (last+1)) w).2 := by
  have h := @bounded_remove _ _ _ _ (.profile gid (last+1)) (by simp) hb
  refine ⟨h.stored,fun n hn => ?_⟩
  have hle := h.bound n hn
  have hne : n ≠ last+1 := by
    rintro rfl
    simp [remove,readFile_erase] at hn
  omega

theorem bounded_profile {gid n last : ℤ} {g : Group} {p : Profile} {w : World}
    (hp : p.id = n) (h1 : 1 ≤ n) (hn : n ≤ last) (hb : Bounded gid g last w) :
    Bounded gid g last (writeEncryptedJSON (.profile gid n) (.profile p) w).2 := by
  rcases write_cases (.profile gid n) (.profile p) w with ⟨_,h⟩ | ⟨_,_,h⟩ | ⟨_,_,h⟩ <;> rw [h]
  · exact hb
  · exact ⟨hb.stored,hb.bound⟩
  · refine ⟨⟨?_,hb.stored.id,hb.stored.lastId,fun m q hm => ?_⟩,fun m hm => ?_⟩
    · rw [groupAt,fileAt,readFile_store,if_neg (by simp)]
      exact hb.stored.config
    · rw [profileAt,fileAt,readFile_store] at hm
      split at hm
      · rename_i hpath
        obtain rfl : m = n := by simpa using hpath
        simp only [store,openBlob,Option.bind_some,if_true,Payload.asProfile,
          Option.some.injEq] at hm
        exact ⟨hm ▸ hp,h1⟩
      · exact hb.stored.files m q hm
    · rw [readFile_store] at hm
      split at hm
      · rename_i hpath
        obtain rfl : m = n := by simpa using hpath
        exact hn
      · exact hb.bound m hm

/-- Saving a config either changes nothing or installs it. -/
theorem save_cases (g : Group) (w : World) :
    (∃ e, (saveGroupConfig g w).1 = .error e ∧
      Leaves (fun _ => False) w (saveGroupConfig g w).2) ∨
    ((saveGroupConfig g w).1 = .ok () ∧
      saveGroupConfig g w = (.ok (),store (.groupConfig g.id) (.group g) w)) := by
  rcases write_cases (.groupConfig g.id) (.group g) w with ⟨_,h⟩ | ⟨_,_,h⟩ | ⟨_,_,h⟩ <;>
    simp only [saveGroupConfig,wrapping,h]
  · exact Or.inl ⟨_,rfl,leaves_refl _ w⟩
  · exact Or.inl ⟨_,rfl,rfl,fun _ _ => rfl⟩
  · simp

theorem groupAt_store (g : Group) (gid : ℤ) (w : World) :
    groupAt gid (store (.groupConfig g.id) (.group g) w).disk w.key =
      if gid = g.id then some g else groupAt gid w.disk w.key := by
  rw [groupAt,fileAt,fileAt,readFile_store]
  by_cases hg : gid = g.id
  · simp [hg,openBlob,Payload.asGroup]
  · simp [hg]

theorem named_save (g : Group) (w : World) (h : Named w) : Named (saveGroupConfig g w).2 := by
  rcases save_cases g w with ⟨e,-,hl⟩ | ⟨-,hs⟩
  · exact named_leaves hl (fun _ => id) h
  · rw [hs]
    intro gid g' hg'
    change groupAt gid _ w.key = some g' at hg'
    rw [groupAt_store] at hg'
    split at hg'
    · rename_i hgid
      obtain rfl := Option.some.inj hg'
      exact hgid.symm
    · exact h gid g' hg'

theorem bounded_store {gid last : ℤ} {g g' : Group} {w : World} (hid : g'.id = gid)
    (hl : 0 ≤ g'.lastId) (hb : Bounded gid g last w) :
    Bounded gid g' last (store (.groupConfig g'.id) (.group g') w) := by
  refine ⟨⟨?_,hid,hl,fun n p hn => ?_⟩,fun n hn => ?_⟩
  · change groupAt gid _ w.key = some g'
    rw [groupAt_store,if_pos hid.symm]
  · rw [profileAt,fileAt,readFile_store,if_neg (by simp)] at hn
    exact hb.stored.files n p hn
  · rw [readFile_store,if_neg (by simp)] at hn
    exact hb.bound n hn

theorem bounded_mono {gid last last' : ℤ} {g : Group} {w : World} (h : last ≤ last')
    (hb : Bounded gid g last w) : Bounded gid g last' w :=
  ⟨hb.stored,fun n hn => Int.le_trans (hb.bound n hn) h⟩

end Effects

section Rules

/-- A group config `g` has been read from `gid'`; if that is the group under
watch, its numbered files are bounded by `last`. -/
structure Loaded (gid gid' : ℤ) (g : Group) (last : ℤ) (w : World) : Prop where
  named : Named w
  id : g.id = gid'
  here : gid' = gid → Bounded gid g last w
  elsewhere : gid' ≠ gid → ∃ g₀, Bounded gid g₀ g₀.lastId w

variable {gid gid' : ℤ} {g g' : Group} {last : ℤ} {α : Type}

theorem loaded_inv {w : World} (h : Loaded gid gid' g g.lastId w) : Inv gid w := by
  refine ⟨h.named,?_⟩
  by_cases hg : gid' = gid
  · exact ⟨g,h.here hg⟩
  · exact h.elsewhere hg

theorem inv_leaves {P : Path → Prop} {w w' : World} (h : Leaves P w w')
    (hc : ∀ i, ¬P (.groupConfig i)) (hp : ∀ i n, ¬P (.profile i n)) (hi : Inv gid w) :
    Inv gid w' := by
  obtain ⟨g,hb⟩ := hi.bounded
  exact ⟨named_leaves h hc hi.named,g,bounded_leaves h (hc gid) (hp gid) hb⟩

theorem inv_reads {w w' : World} (h : Reads w w') (hi : Inv gid w) : Inv gid w' :=
  inv_leaves (leaves_of_reads (P := fun _ => False) h) (fun _ => id) (fun _ _ => id) hi

theorem loaded_leaves {P : Path → Prop} {w w' : World} (h : Leaves P w w')
    (hc : ∀ i, ¬P (.groupConfig i)) (hp : ∀ i n, ¬P (.profile i n))
    (hl : Loaded gid gid' g last w) : Loaded gid gid' g last w' :=
  ⟨named_leaves h hc hl.named,hl.id,fun hg => bounded_leaves h (hc gid) (hp gid) (hl.here hg),
    fun hg => (hl.elsewhere hg).imp fun _ hb => bounded_leaves h (hc gid) (hp gid) hb⟩

theorem reads_inv {m : DBM α} {v : Tree → Key → Option α} (h : ReadsAs m v) :
    Triple (Inv gid) m (fun _ => Inv gid) (fun _ => Inv gid) := by
  intro w hw
  have hr := (h w).1
  rcases hm : m w with ⟨e | a,w'⟩ <;> rw [hm] at hr <;> exact inv_reads hr hw

theorem load_loaded (gid gid' : ℤ) :
    Triple (Inv gid) (loadGroupConfig gid') (fun g => Loaded gid gid' g g.lastId)
      (fun _ => Inv gid) := by
  intro w hw
  obtain ⟨hr,hv⟩ := readsAs_loadGroupConfig gid' w
  rcases hm : loadGroupConfig gid' w with ⟨e | g,w'⟩ <;> rw [hm] at hr hv
  · exact inv_reads hr hw
  · have hw' := inv_reads hr hw
    have hg : groupAt gid' w'.disk w'.key = some g := by
      rw [hr.disk,hr.key]
      exact hv.symm
    refine ⟨hw'.named,hw'.named gid' g hg,?_,fun _ => hw'.bounded⟩
    rintro rfl
    obtain ⟨g₀,hb⟩ := hw'.bounded
    obtain rfl := Option.some.inj (hg.symm.trans hb.stored.config)
    exact hb

theorem save_loaded {k : Group} (hid : k.id = g.id) (hlast : last ≤ k.lastId)
    (hpos : 0 ≤ g.lastId → 0 ≤ k.lastId) :
    Triple (Loaded gid gid' g last) (saveGroupConfig k)
      (fun _ => Loaded gid gid' k k.lastId) (fun _ => Loaded gid gid' g last) := by
  intro w hw
  have hn := named_save k w hw.named
  rcases save_cases k w with ⟨e,he,hl⟩ | ⟨-,hs⟩
  · rw [run_of_fst he]
    exact loaded_leaves hl (fun _ => id) (fun _ _ => id) hw
  · rw [hs] at hn ⊢
    refine ⟨hn,hid.trans hw.id,fun hg => ?_,fun hg => ?_⟩
    · have hb := hw.here hg
      exact bounded_mono hlast
        (bounded_store (hid.trans (hw.id.trans hg)) (hpos hb.stored.lastId) hb)
    · obtain ⟨g₀,hb⟩ := hw.elsewhere hg
      have hne : ¬gid = k.id := fun h => hg (h ▸ (hid.trans hw.id).symm)
      refine ⟨g₀,bounded_leaves (leaves_of_frame (frame_store (.groupConfig k.id) _ w)
        fun _ => id) ?_ (fun n => by simp) hb⟩
      simpa using hne

theorem profile_loaded {n : ℤ} {p : Profile} (hp : p.id = n) (hpos : gid' = gid → 1 ≤ n)
    (hn : n ≤ last) (wrap : DBError → DBError) :
    Triple (Loaded gid gid' g last)
      (wrapping wrap (writeEncryptedJSON (.profile gid' n) (.profile p)))
      (fun _ => Loaded gid gid' g last) (fun _ => Loaded gid gid' g last) := by
  intro w hw
  have hkeep : Loaded gid gid' g last
      (writeEncryptedJSON (.profile gid' n) (.profile p) w).2 := by
    have hf := leaves_of_frame (frame_write (.profile gid' n) (.profile p) w) fun _ => id
    refine ⟨named_leaves hf (fun i => by simp) hw.named,hw.id,fun hg => ?_,fun hg => ?_⟩
    · subst hg
      exact bounded_profile hp (hpos rfl) hn (hw.here rfl)
    · obtain ⟨g₀,hb⟩ := hw.elsewhere hg
      exact ⟨g₀,bounded_leaves hf (by simp) (fun m => by simp [Ne.symm hg]) hb⟩
  rw [← wrapping_snd wrap] at hkeep
  rcases hm : wrapping wrap (writeEncryptedJSON (.profile gid' n) (.profile p)) w with ⟨e | u,w'⟩ <;>
    rw [hm] at hkeep <;> exact hkeep

theorem remove_inv {path : Path} (hc : ∀ i, path ≠ .groupConfig i) :
    Triple (Inv gid) (remove path) (fun _ => Inv gid) (fun _ => Inv gid) :=
  triple_of_state fun w hw => ⟨named_leaves (leaves_of_frame (frame_remove path w) fun _ => id)
    (fun i h => hc i h.symm) hw.named,hw.bounded.imp fun _ hb => bounded_remove (hc gid) hb⟩

theorem remove_loaded {path : Path} (hc : ∀ i, path ≠ .groupConfig i) :
    Triple (Loaded gid gid' g last) (remove path) (fun _ => Loaded gid gid' g last)
      (fun _ => Loaded gid gid' g last) :=
  triple_of_state fun w hw => ⟨named_leaves (leaves_of_frame (frame_remove path w) fun _ => id)
    (fun i h => hc i h.symm) hw.named,hw.id,fun hg => bounded_remove (hc gid) (hw.here hg),
    fun hg => (hw.elsewhere hg).imp fun _ hb => bounded_remove (hc gid) hb⟩

theorem xray_loaded (i n : ℤ) (raw : RawMessage) (wrap : DBError → DBError) :
    Triple (Loaded gid gid' g last) (wrapping wrap (saveProfileXrayConfig i n raw))
      (fun _ => Loaded gid gid' g last) (fun _ => Loaded gid gid' g last) :=
  triple_of_state fun w hw => loaded_leaves
    (leaves_of_frame (keeps_wrapping wrap (frame_saveProfileXrayConfig i n raw) w) fun _ => id)
    (fun _ => by simp) (fun _ _ => by simp) hw

end Rules

section Operations

variable {gid : ℤ}

theorem reorder_inv (i : ℤ) (g : Group) (order : List ℤ) :
    Triple (Loaded gid i g g.lastId) (saveGroupConfig { g with profileOrder := order })
      (fun _ => Inv gid) (fun _ => Inv gid) :=
  triple_weaken (save_loaded (g := g) rfl (Int.le_refl g.lastId) fun h => h)
    (fun _ h => h) (fun _ _ h => loaded_inv h) (fun _ _ h => loaded_inv h)

theorem dropFromOrder_inv (i id : ℤ) :
    Triple (Inv gid) (dropFromOrder i id) (fun _ => Inv gid) (fun _ => Inv gid) := by
  refine triple_attempt_bind (load_loaded gid i) (fun g => ?_)
    fun _ => triple_pure () fun _ h => h
  refine triple_bind (triple_attempt (R := fun _ => Inv gid) ?_) fun _ => triple_pure () fun _ h => h
  exact reorder_inv i g _

theorem deleteProfile_inv (i id : ℤ) :
    Triple (Inv gid) (deleteProfile i id) (fun _ => Inv gid) (fun _ => Inv gid) :=
  triple_bind (remove_inv (by simp)) fun _ =>
    triple_bind (remove_inv (by simp)) fun _ => dropFromOrder_inv i id

theorem triple_wrapping {α : Type} {P : World → Prop} {m : DBM α} {Q : α → World → Prop}
    {E : World → Prop} (wrap : DBError → DBError) (h : Triple P m Q (fun _ => E)) :
    Triple P (wrapping wrap m) Q (fun _ => E) := by
  intro w hw
  have hm := h w hw
  unfold wrapping
  rcases hr : m w with ⟨e | a,w'⟩ <;> rw [hr] at hm <;> exact hm

theorem reorderProfiles_inv (i : ℤ) (ids : List ℤ) :
    Triple (Inv gid) (reorderProfiles i ids) (fun _ => Inv gid) (fun _ => Inv gid) :=
  triple_bind (triple_wrapping _ (load_loaded gid i)) fun g => reorder_inv i g ids

theorem addProfile_inv (data : DBAddProfileData) :
    Triple (Inv gid) (addProfile data) (fun _ => Inv gid) (fun _ => Inv gid) := by
  refine triple_bind (load_loaded gid data.groupId) fun g => ?_
  refine triple_of_pre (fun _ h => h.id) fun hid => ?_
  refine triple_of_pre (φ := data.groupId = gid → 0 ≤ g.lastId)
    (fun _ h hg => (h.here hg).stored.lastId) fun hpos => ?_
  have hsave := @save_loaded gid data.groupId g g.lastId
    { g with lastId := g.lastId+1, profileOrder := g.profileOrder ++ [g.lastId+1] } rfl
    (Int.le_of_lt (Int.lt_succ g.lastId)) (by simp only; omega)
  refine triple_bind (triple_weaken hsave (fun _ h => h) (fun _ _ h => h)
    (fun _ _ h => loaded_inv h)) fun _ => ?_
  have hrest : Triple (Loaded gid data.groupId { g with
      lastId := g.lastId+1, profileOrder := g.profileOrder ++ [g.lastId+1] } (g.lastId+1))
      (do
        remove (.profile g.id (g.lastId+1))
        wrapping (.writeFile (.profile g.id (g.lastId+1)))
          (writeEncryptedJSON (.profile g.id (g.lastId+1))
            (.profile (profileOf (g.lastId+1) data)))
        when (profileOf (g.lastId+1) data).managed (wrapping (.writeXrayConfig (g.lastId+1))
          (saveProfileXrayConfig data.groupId (g.lastId+1) data.config))
        pure (profileOf (g.lastId+1) data))
      (fun _ => Inv gid) (fun _ => Inv gid) := by
    have hnew : data.groupId = gid → 1 ≤ g.lastId+1 := fun hg => by
      have := hpos hg
      omega
    rw [hid]
    refine triple_weaken (triple_bind (remove_loaded (by simp)) fun _ =>
      triple_bind (profile_loaded (n := g.lastId+1) rfl hnew (Int.le_refl _) _) fun _ =>
        triple_bind (triple_when (fun _ => xray_loaded _ _ _ _) fun _ h => h) fun _ =>
          triple_pure _ fun _ h => h)
      (fun _ h => h) (fun _ _ h => loaded_inv h) (fun _ _ h => loaded_inv h)
  exact hrest

/-- The second write of a move, of a provider configuration, does not fail. -/
def MoveSafe (fromGroup id : ℤ) (w : World) : Prop :=
  ∀ old raw, profileAt fromGroup id w.disk w.key = some old → old.managed = true →
    fileAt (.profileXrayConfig fromGroup id) Payload.asRaw w.disk w.key = some raw →
    w.faults.head? = some true ∨ w.faults.tail.head? ≠ some true

theorem loaded_elsewhere {gid' last : ℤ} {g : Group} {w : World} (hne : gid' ≠ gid)
    (h : Loaded gid gid' g last w) : Inv gid w := ⟨h.named,h.elsewhere hne⟩

theorem moveXray_loaded (fromGroup toGroup id newId last : ℤ) (g : Group) :
    Triple (fun w => Loaded gid toGroup g last w ∧ (toGroup = gid → ∀ raw,
        fileAt (.profileXrayConfig fromGroup id) Payload.asRaw w.disk w.key = some raw →
        w.degraded = false ∧ w.faults.head? ≠ some true))
      (moveXrayConfig fromGroup toGroup id newId) (fun _ => Loaded gid toGroup g last)
      (fun _ => Inv gid) := by
  rintro w ⟨hw,hsafe⟩
  have hread := (readsAs_readEncryptedJSON (.profileXrayConfig fromGroup id) Payload.asRaw w).1
  rw [moveXrayConfig,bind_of_ok (attempt_run _ w)]
  change Reads w (loadProfileXrayConfig fromGroup id w).2 at hread
  rcases hl : loadProfileXrayConfig fromGroup id w with ⟨e | raw,w'⟩ <;> rw [hl] at hread
  · exact loaded_leaves (leaves_of_reads (P := fun _ => False) hread)
      (fun _ => not_false) (fun _ _ => not_false) hw
  · obtain ⟨rfl,hraw⟩ := read_ok hl
    have hkeep := @xray_loaded gid toGroup g last toGroup newId
      raw .moveXrayConfig w' hw
    have hfst := wrapping_fst .moveXrayConfig (saveProfileXrayConfig toGroup newId raw) w'
    simp only
    rcases hs : wrapping .moveXrayConfig (saveProfileXrayConfig toGroup newId raw) w' with
      ⟨e | u,w''⟩ <;> rw [hs] at hkeep hfst
    · by_cases hg : toGroup = gid
      · obtain ⟨hd,hf⟩ := hsafe hg raw hraw
        rcases saveProfileXrayConfig_cases toGroup newId raw w' hd with ⟨hf',-⟩ | ⟨-,hr,-⟩
        · exact absurd hf' hf
        · simp [hr,Except.mapError] at hfst
      · exact loaded_elsewhere hg hkeep
    · exact hkeep

theorem removeLast_inv (toGroup : ℤ) (g : Group) :
    Triple (Loaded gid toGroup g (g.lastId+1)) (remove (.profile toGroup (g.lastId+1)))
      (fun _ => Inv gid) (fun _ => Inv gid) := by
  intro w hw
  by_cases hg : toGroup = gid
  · subst hg
    exact ⟨named_leaves (leaves_of_frame (frame_remove _ w) fun _ h => h) (fun i => by simp)
      hw.named,g,bounded_removeLast (hw.here rfl)⟩
  · exact remove_inv (by simp) w (loaded_elsewhere hg hw)

theorem saveTarget_inv (toGroup : ℤ) (g : Group) (order : List ℤ) {rest : DBM Profile}
    (hrest : Triple (Inv gid) rest (fun _ => Inv gid) (fun _ => Inv gid)) :
    Triple (Loaded gid toGroup g (g.lastId+1))
      (attempt (saveGroupConfig { g with lastId := g.lastId+1, profileOrder := order }) >>= fun r =>
        match r with
        | .error e => remove (.profile toGroup (g.lastId+1)) >>= fun _ =>
            fail (.saveTarget toGroup e)
        | .ok _ => rest)
      (fun _ => Inv gid) (fun _ => Inv gid) := by
  have hsave := @save_loaded gid toGroup g (g.lastId+1)
    { g with lastId := g.lastId+1, profileOrder := order } rfl (Int.le_refl _)
    (by simp only; omega)
  refine triple_attempt_bind
    (triple_weaken hsave (fun _ h => h) (fun _ _ h => loaded_inv h) (fun _ _ h => h))
    (fun _ => hrest) fun _ => ?_
  exact triple_bind (removeLast_inv toGroup g) fun _ => triple_fail _ fun _ h => h

/-- A move keeps the invariant as long as its second write does not fail. -/
theorem moveProfile_inv (fromGroup toGroup id : ℤ) :
    Triple (fun w => Inv gid w ∧ (toGroup = gid → MoveSafe fromGroup id w))
      (moveProfile fromGroup toGroup id) (fun _ => Inv gid) (fun _ => Inv gid) := by
  rintro w ⟨hw,hsafe⟩
  rw [moveProfile]
  by_cases hne : fromGroup = toGroup
  · rw [if_pos hne]
    exact hw
  · rw [if_neg hne]
    obtain ⟨hr₁,hv₁⟩ := readsAs_wrapping (.getMoved id fromGroup)
      (readsAs_getProfile fromGroup id) w
    rcases hget : wrapping (.getMoved id fromGroup) (getProfile fromGroup id) w with ⟨e | old,w₁⟩ <;>
      rw [hget] at hr₁ hv₁
    · rw [bind_of_error hget]
      exact inv_reads hr₁ hw
    · rw [bind_of_ok hget]
      have hold : profileAt fromGroup id w.disk w.key = some old := hv₁.symm
      obtain ⟨hr₂,-⟩ := readsAs_wrapping (.loadTarget toGroup) (readsAs_loadGroupConfig toGroup) w₁
      have hload := triple_wrapping (.loadTarget toGroup) (load_loaded gid toGroup) w₁
        (inv_reads hr₁ hw)
      rcases hld : wrapping (.loadTarget toGroup) (loadGroupConfig toGroup) w₁ with ⟨e | g,w₂⟩ <;>
        rw [hld] at hr₂ hload
      · rw [bind_of_error hld]
        exact hload
      · rw [bind_of_ok hld]
        have hr := reads_trans _ _ _ hr₁ hr₂
        have hnew : toGroup = gid → 1 ≤ g.lastId+1 := fun hg => by
          have := (hload.here hg).stored.lastId
          omega
        have hraise : Loaded gid toGroup g (g.lastId+1) w₂ :=
          ⟨hload.named,hload.id,fun hg => bounded_mono (by omega) (hload.here hg),hload.elsewhere⟩
        have htail := triple_bind (triple_when (P := fun w => Loaded gid toGroup g (g.lastId+1) w ∧
          (old.managed = true → toGroup = gid → ∀ raw,
            fileAt (.profileXrayConfig fromGroup id) Payload.asRaw w.disk w.key = some raw →
            w.degraded = false ∧ w.faults.head? ≠ some true))
          (fun hm => triple_weaken (moveXray_loaded fromGroup toGroup id (g.lastId+1) (g.lastId+1) g)
            (fun w h => ⟨h.1,h.2 hm⟩) (fun _ _ h => h) (fun _ _ h => h)) (fun _ h => h.1))
          (fun _ => saveTarget_inv toGroup g (g.profileOrder ++ [g.lastId+1])
            (triple_bind (@remove_inv gid (.profile fromGroup id) (by simp)) fun _ =>
              triple_bind (@remove_inv gid (.profileXrayConfig fromGroup id) (by simp)) fun _ =>
                triple_bind (dropFromOrder_inv fromGroup id) fun _ =>
                  triple_pure { old with groupId := toGroup, id := g.lastId+1 } fun _ h => h))
        have hwrite := @profile_loaded gid _ _ _ (g.lastId+1) { old with
          groupId := toGroup, id := g.lastId+1 } rfl hnew (Int.le_refl _)
            (.writeMoved (.profile toGroup (g.lastId+1))) w₂ hraise
        rcases wrapped_write_cases (.writeMoved (.profile toGroup (g.lastId+1)))
            (.profile toGroup (g.lastId+1)) (.profile { old with
            groupId := toGroup, id := g.lastId+1 }) w₂ with ⟨_,h⟩ | ⟨_,_,h⟩ | ⟨hd,hf,h⟩
        · rw [bind_of_error h]
          exact loaded_inv hload
        · rw [bind_of_error h]
          exact inv_leaves (w := w₂) (P := fun _ => False) ⟨rfl,fun _ _ => rfl⟩
            (fun _ => not_false) (fun _ _ => not_false) (loaded_inv hload)
        · rw [h] at hwrite
          rw [bind_of_ok h]
          refine htail _ ⟨hwrite,fun hm hg raw hraw => ⟨hd,?_⟩⟩
          rw [fileAt,readFile_store,if_neg (by simp)] at hraw
          change fileAt _ _ w₂.disk w₂.key = _ at hraw
          rw [hr.disk,hr.key] at hraw
          rw [hr.faults] at hf
          change w₂.faults.tail.head? ≠ _
          rw [hr.faults]
          exact (hsafe hg old raw hold hm hraw).resolve_left hf

/-- No write of the merge fails, or every entry written before the failing one
had a stored id to take. -/
def UpdateSafe (gid : ℤ) (entries : List DBAddProfileData) (keepProfileID : ℤ) (w : World) : Prop :=
  let arriving := incoming (keepOf (storedAt gid w.disk w.key) keepProfileID) entries
  true ∉ w.faults.take (writesOf arriving + 1) ∨
    ∀ i, (identities (arriving.take (written gid keepProfileID entries w))).count i ≤
      (idsOf (storedAt gid w.disk w.key) i).length

theorem update_missing (i keepProfileID : ℤ) (entries : List DBAddProfileData) (w : World)
    (h : groupAt i w.disk w.key = none) :
    Reads w (updateGroupAndProfiles i entries keepProfileID w).2 := by
  obtain ⟨hr,hview⟩ := getGroup_reads i w
  rw [h] at hview
  rcases hg : getGroupDataAndProfiles i w with ⟨e | v,w'⟩ <;> rw [hg] at hr hview
  · have hrun : wrapping .gettingGroup (getGroupDataAndProfiles i) w =
        (.error (.gettingGroup e),w') := by simp only [wrapping,hg]
    rw [updateGroupAndProfiles,bind_of_error hrun]
    exact hr
  · exact hview.elim

theorem update_named (i keepProfileID : ℤ) (entries : List DBAddProfileData) (w : World)
    (hw : Named w) : Named (updateGroupAndProfiles i entries keepProfileID w).2 := by
  cases hg : groupAt i w.disk w.key with
  | none =>
    exact named_leaves (leaves_of_reads (P := fun _ => False)
      (update_missing i keepProfileID entries w hg)) (fun _ => not_false) hw
  | some g =>
    obtain ⟨w₁,hreads,-,hprog⟩ := update_run i keepProfileID entries w hg
    have hw₁ := named_leaves (leaves_of_reads (P := fun _ => False) hreads)
      (fun _ => not_false) hw
    rw [hprog]
    have hfiles : ∀ path gid, ProfileFile i path → path ≠ .groupConfig gid := by
      rintro path gid ⟨n,rfl | rfl⟩ <;> simp
    refine keeps_bind (R := fun w w' => Named w → Named w') (fun _ _ _ h h' hn => h' (h hn))
      (fun w => named_leaves (leaves_of_frame (frame_writeAll i _ _ w) fun _ h => h)
        fun gid h => hfiles _ gid h rfl)
      (fun _ => keeps_bind (fun _ _ _ h h' hn => h' (h hn)) (fun w => named_save _ w)
        fun _ => keeps_bind (fun _ _ _ h h' hn => h' (h hn))
          (fun w => named_leaves (leaves_of_frame (removeStale_spec i _ _ w).1 fun _ h => h) ?_)
          fun _ => keeps_pure (fun _ h => h) _) w₁ hw₁
    rintro gid ⟨p,-,-,h | h⟩ <;> simp at h

theorem reached_safe {keepProfileID : ℤ} {entries : List DBAddProfileData} {g : Group}
    {w w' : World} {e : DBError} (h : StoredGroup gid g w.disk w.key)
    (hrun : updateGroupAndProfiles gid entries keepProfileID w = (.error e,w'))
    (hsafe : UpdateSafe gid entries keepProfileID w) :
    ∀ i, (identities ((incoming (keepOf (storedAt gid w.disk w.key) keepProfileID) entries).take
      (written gid keepProfileID entries w))).count i ≤ (idsOf (storedAt gid w.disk w.key) i).length := by
  rcases hsafe with hno | hold
  · cases hw : w.degraded || lockedIn gid w.disk w.key with
    | false => exact absurd (update_fault h hrun hw) hno
    | true =>
      have hn : written gid keepProfileID entries w = 0 := by rw [written,hw]; rfl
      simp [hn,identities]
  · exact hold

/-- A refresh keeps the invariant as long as it does not fail after a file
under a new number. -/
theorem update_inv (i keepProfileID : ℤ) (entries : List DBAddProfileData) :
    Triple (fun w => Inv gid w ∧ (i = gid → UpdateSafe gid entries keepProfileID w))
      (updateGroupAndProfiles i entries keepProfileID) (fun _ => Inv gid) (fun _ => Inv gid) := by
  refine triple_of_state fun w ⟨hw,hsafe⟩ => ⟨update_named i keepProfileID entries w hw.named,?_⟩
  obtain ⟨g₀,hb⟩ := hw.bounded
  by_cases hi : i = gid
  · subst hi
    have hgood := hb.stored
    have hids := plan_ids hgood keepProfileID entries
    obtain ⟨hlast,hplan⟩ := plan_lastID hgood keepProfileID entries
    rcases hrun : updateGroupAndProfiles i entries keepProfileID w with ⟨e | r,w'⟩
    · obtain ⟨w₁,hreads,hwrote⟩ := update_error hgood hrun
      refine ⟨g₀,stored_of_wrote hgood hreads hwrote,fun n hn => ?_⟩
      by_cases hmem : ∃ e ∈ (planOf i g₀ keepProfileID entries w.disk w.key).ids.take
          (written i keepProfileID entries w), n = e.2
      · obtain ⟨e,he,rfl⟩ := hmem
        have hstored : ∀ p ∈ storedAt i w.disk w.key, p.id ≤ g₀.lastId := by
          intro p hp
          have hfile := (mem_storedAt hgood p).mp hp
          refine hb.bound p.id ?_
          obtain ⟨b,hbl,-⟩ := Option.bind_eq_some_iff.mp hfile
          simp [hbl]
        have hold := (reached_old_iff hgood keepProfileID entries _).mpr
          (reached_safe hgood hrun (hsafe rfl)) e he
        rwa [lastIDOf_eq hstored] at hold
      · rw [hwrote.frame.files (.profile i n) ?_,hreads.disk] at hn
        · exact hb.bound n hn
        · rintro ⟨e,he,hpath | hpath⟩ <;> simp only [Path.profile.injEq,reduceCtorEq] at hpath
          exact hmem ⟨e,he,hpath.2⟩
    · obtain ⟨hkey,hnew,-,hpresent⟩ := update_ok hgood hrun
      refine ⟨_,hnew,fun n hn => ?_⟩
      rcases hpresent n hn with hbefore | hmem
      · exact Int.le_trans (hb.bound n hbefore) hlast
      · obtain ⟨e,he,rfl⟩ := List.mem_map.mp hmem
        exact hplan e he
  · cases hg : groupAt i w.disk w.key with
    | none =>
      exact ⟨g₀,bounded_leaves (leaves_of_reads (P := fun _ => False)
        (update_missing i keepProfileID entries w hg)) not_false (fun _ => not_false) hb⟩
    | some g =>
      refine ⟨g₀,bounded_leaves (update_leaves hg (hw.named i g hg) keepProfileID entries)
        ?_ (fun n => ?_) hb⟩
      · rintro (h | ⟨n,h | h⟩) <;> simp at h
        exact hi h.symm
      · rintro (h | ⟨n,h | h⟩) <;> simp at h
        exact hi h.1.symm

end Operations

section Runs

inductive Op where
  | addProfile (data : DBAddProfileData)
  | deleteProfile (gid id : ℤ)
  | moveProfile (fromGroup toGroup id : ℤ)
  | reorderProfiles (gid : ℤ) (ids : List ℤ)
  | updateGroupAndProfiles (gid : ℤ) (entries : List DBAddProfileData) (keepProfileID : ℤ)

/-- The state an operation leaves behind, whether or not it returns an error. -/
def Op.run : Op → World → World
  | .addProfile data, w => (ProfileStore.addProfile data w).2
  | .deleteProfile gid id, w => (ProfileStore.deleteProfile gid id w).2
  | .moveProfile fromGroup toGroup id, w => (ProfileStore.moveProfile fromGroup toGroup id w).2
  | .reorderProfiles gid ids, w => (ProfileStore.reorderProfiles gid ids w).2
  | .updateGroupAndProfiles gid entries keepProfileID, w =>
    (GroupSync.updateGroupAndProfiles gid entries keepProfileID w).2

def Op.Safe (gid : ℤ) : Op → World → Prop
  | .moveProfile fromGroup toGroup id, w => toGroup = gid → MoveSafe fromGroup id w
  | .updateGroupAndProfiles i entries keepProfileID, w =>
    i = gid → UpdateSafe gid entries keepProfileID w
  | _, _ => True

def runOps : List Op → World → World
  | [], w => w
  | op::ops, w => runOps ops (op.run w)

def SafeRun (gid : ℤ) : List Op → World → Prop
  | [], _ => True
  | op::ops, w => op.Safe gid w ∧ SafeRun gid ops (op.run w)

variable {gid : ℤ}

theorem step_inv (op : Op) {w : World} (hw : Inv gid w) (hs : op.Safe gid w) :
    Inv gid (op.run w) := by
  cases op with
  | addProfile data => exact triple_state (addProfile_inv data) hw
  | deleteProfile i id => exact triple_state (deleteProfile_inv i id) hw
  | moveProfile fromGroup toGroup id =>
    exact triple_state (moveProfile_inv fromGroup toGroup id) ⟨hw,hs⟩
  | reorderProfiles i ids => exact triple_state (reorderProfiles_inv i ids) hw
  | updateGroupAndProfiles i entries keepProfileID =>
    exact triple_state (update_inv i keepProfileID entries) ⟨hw,hs⟩

theorem run_inv (ops : List Op) {w : World} (hw : Inv gid w) (hs : SafeRun gid ops w) :
    Inv gid (runOps ops w) := by
  induction ops generalizing w with
  | nil => exact hw
  | cons op ops ih => exact ih (step_inv op hw hs.1) hs.2

/-- A readable group without any profile file. -/
def EmptyGroup (gid : ℤ) (w : World) : Prop :=
  ∃ g, groupAt gid w.disk w.key = some g ∧ 0 ≤ g.lastId ∧
    ∀ n, readFile (.profile gid n) w.disk = none

theorem empty_inv {w : World} (hn : Named w) (he : EmptyGroup gid w) : Inv gid w := by
  obtain ⟨g,hg,hl,hnone⟩ := he
  refine ⟨hn,g,⟨hg,hn gid g hg,hl,fun n p hp => ?_⟩,fun n hp => ?_⟩
  · simp [profileAt,fileAt,hnone n] at hp
  · simp [hnone n] at hp

theorem leaves_readsAs {α : Type} {P : Path → Prop} {m : DBM α} {v : Tree → Key → Option α}
    (h : ReadsAs m v) : Keeps (Leaves P) m := fun w => leaves_of_reads (h w).1

/-- The names an operation may touch when the next number of `gid` is `n`. -/
def Touched (gid n : ℤ) (path : Path) : Prop :=
  (∃ i, path = .groupConfig i) ∨ path = .profile gid n ∨ ∃ i m, path = .profileXrayConfig i m

theorem leaves_save {n : ℤ} (g : Group) : Keeps (Leaves (Touched gid n)) (saveGroupConfig g) :=
  fun w => leaves_of_frame (keeps_wrapping _ (frame_write _ _) w)
    fun _ h => Or.inl ⟨g.id,h⟩

theorem leaves_xray {n : ℤ} (wrap : DBError → DBError) (i m : ℤ) (raw : RawMessage) :
    Keeps (Leaves (Touched gid n)) (wrapping wrap (saveProfileXrayConfig i m raw)) :=
  fun w => leaves_of_frame (keeps_wrapping wrap (frame_saveProfileXrayConfig i m raw) w)
    fun _ h => Or.inr (Or.inr ⟨i,m,h⟩)

/-- An add touches at most the profile file above the counter. -/
theorem add_leaves {data : DBAddProfileData} {w : World} {g : Group}
    (hg : groupAt data.groupId w.disk w.key = some g) (hid : g.id = data.groupId) :
    Leaves (Touched data.groupId (g.lastId+1)) w (addProfile data w).2 ∧
      ∀ p w', addProfile data w = (.ok p,w') → p.id = g.lastId+1 := by
  obtain ⟨hr,hv⟩ := readsAs_loadGroupConfig data.groupId w
  rw [hg] at hv
  rcases hl : loadGroupConfig data.groupId w with ⟨e | g',w₁⟩ <;> rw [hl] at hr hv
  · simp [Except.toOption] at hv
  · obtain rfl : g' = g := by simpa [Except.toOption] using hv
    rw [addProfile,bind_of_ok hl,hid]
    refine ⟨leaves_trans _ _ _ (leaves_of_reads hr) (keeps_bind leaves_trans (leaves_save _)
      (fun _ => keeps_bind leaves_trans (fun w => leaves_of_frame (frame_remove _ w)
          fun _ h => Or.inr (Or.inl h)) fun _ => keeps_bind leaves_trans
        (fun w => leaves_of_frame (keeps_wrapping _ (frame_write _ _) w)
          fun _ h => Or.inr (Or.inl h)) fun _ => keeps_bind leaves_trans
        (keeps_when (leaves_refl _) fun _ => leaves_xray _ _ _ _) fun _ =>
          keeps_pure (leaves_refl _) _) w₁),fun p w' hrun => ?_⟩
    obtain ⟨_,_,_,hrun⟩ := bind_ok hrun
    obtain ⟨_,_,_,hrun⟩ := bind_ok hrun
    obtain ⟨_,_,_,hrun⟩ := bind_ok hrun
    obtain ⟨_,_,_,hrun⟩ := bind_ok hrun
    have hp := (Prod.mk.inj hrun).1
    rw [← Except.ok.inj hp]
    rfl

theorem leaves_load {n : ℤ} (i : ℤ) : Keeps (Leaves (Touched gid n)) (loadGroupConfig i) :=
  leaves_readsAs (readsAs_loadGroupConfig i)

theorem leaves_mono {P Q : Path → Prop} {α : Type} {m : DBM α} (h : Keeps (Leaves P) m)
    (hpq : ∀ path, P path → Q path) : Keeps (Leaves Q) m :=
  fun w => ⟨(h w).key,fun path hq => (h w).files path fun hp => hq (hpq path hp)⟩

theorem leaves_dropFromOrder {n : ℤ} (i id : ℤ) :
    Keeps (Leaves (Touched gid n)) (dropFromOrder i id) := by
  refine keeps_bind leaves_trans (keeps_attempt (leaves_load i)) fun r => ?_
  cases r with
  | error e => exact keeps_pure (leaves_refl _) ()
  | ok g =>
    exact keeps_bind leaves_trans (keeps_attempt (leaves_save _)) fun _ =>
      keeps_pure (leaves_refl _) ()

theorem leaves_moveXray {n : ℤ} (fromGroup toGroup id newId : ℤ) :
    Keeps (Leaves (Touched gid n)) (moveXrayConfig fromGroup toGroup id newId) := by
  refine keeps_bind leaves_trans (keeps_attempt (leaves_readsAs
    (readsAs_readEncryptedJSON (.profileXrayConfig fromGroup id) Payload.asRaw))) fun r => ?_
  cases r with
  | error e => exact keeps_pure (leaves_refl _) ()
  | ok raw => exact leaves_xray _ _ _ _

/-- A move touches at most the moved file and the file above the counter. -/
theorem move_leaves {fromGroup toGroup id : ℤ} {w : World} {g : Group}
    (hg : groupAt toGroup w.disk w.key = some g) :
    Leaves (fun path => Touched toGroup (g.lastId+1) path ∨ path = .profile fromGroup id) w
        (moveProfile fromGroup toGroup id w).2 ∧
      ∀ p w', moveProfile fromGroup toGroup id w = (.ok p,w') → p.id = g.lastId+1 := by
  rw [moveProfile]
  by_cases hne : fromGroup = toGroup
  · rw [if_pos hne]
    exact ⟨leaves_refl _ w,fun p w' h => by simp at h⟩
  · rw [if_neg hne]
    obtain ⟨hr,-⟩ := readsAs_wrapping (.getMoved id fromGroup) (readsAs_getProfile fromGroup id) w
    rcases hget : wrapping (.getMoved id fromGroup) (getProfile fromGroup id) w with ⟨e | old,w₁⟩ <;>
      rw [hget] at hr
    · rw [bind_of_error hget]
      exact ⟨leaves_of_reads hr,fun p w' h => by simp at h⟩
    · rw [bind_of_ok hget]
      obtain ⟨hr₂,hv⟩ := readsAs_wrapping (.loadTarget toGroup) (readsAs_loadGroupConfig toGroup) w₁
      rw [hr.disk,hr.key,hg] at hv
      rcases hld : wrapping (.loadTarget toGroup) (loadGroupConfig toGroup) w₁ with ⟨e | g',w₂⟩ <;>
        rw [hld] at hr₂ hv
      · simp [Except.toOption] at hv
      · obtain rfl : g' = g := by simpa [Except.toOption] using hv
        rw [bind_of_ok hld]
        refine ⟨leaves_trans _ _ _ (leaves_of_reads (reads_trans _ _ _ hr hr₂))
          (keeps_bind leaves_trans (fun w => leaves_of_frame
            (keeps_wrapping _ (frame_write _ _) w)
              fun _ h => Or.inl (Or.inr (Or.inl h)))
            (fun _ => keeps_bind leaves_trans (keeps_when (leaves_refl _) fun _ =>
              leaves_mono (@leaves_moveXray toGroup _ _ _ _ _) fun _ => Or.inl)
              fun _ => keeps_bind leaves_trans
                (keeps_attempt (leaves_mono (leaves_save _) fun _ => Or.inl)) ?_) w₂),
          fun p w' hrun => ?_⟩
        · rintro (e | u)
          · exact keeps_bind leaves_trans (fun w => leaves_of_frame (frame_remove _ w)
              fun _ h => Or.inl (Or.inr (Or.inl h))) fun _ => keeps_fail (leaves_refl _) _
          · exact keeps_bind leaves_trans (fun w => leaves_of_frame (frame_remove _ w)
              fun _ h => Or.inr h) fun _ => keeps_bind leaves_trans
                (fun w => leaves_of_frame (frame_remove _ w)
                  fun _ h => Or.inl (Or.inr (Or.inr ⟨fromGroup,id,h⟩))) fun _ =>
                keeps_bind leaves_trans (leaves_mono (@leaves_dropFromOrder toGroup _ _ _)
                  fun _ => Or.inl) fun _ => keeps_pure (leaves_refl _) _
        · obtain ⟨_,_,_,hrun⟩ := bind_ok hrun
          obtain ⟨_,_,_,hrun⟩ := bind_ok hrun
          obtain ⟨r,_,_,hrun⟩ := bind_ok hrun
          cases r with
          | error e =>
            obtain ⟨_,_,_,hrun⟩ := bind_ok hrun
            simp at hrun
          | ok u =>
            obtain ⟨_,_,_,hrun⟩ := bind_ok hrun
            obtain ⟨_,_,_,hrun⟩ := bind_ok hrun
            obtain ⟨_,_,_,hrun⟩ := bind_ok hrun
            rw [← Except.ok.inj (Prod.mk.inj hrun).1]

/-- An operation that takes the next number of `gid` gives out one that no file
carries, and leaves every profile file of the group as it was. -/
def Fresh (gid : ℤ) (m : DBM Profile) (w : World) : Prop :=
  (∀ p w', m w = (.ok p,w') → readFile (.profile gid p.id) w.disk = none ∧
    ∀ q ∈ storedAt gid w.disk w.key, q.id ≠ p.id) ∧
  ∀ n, (readFile (.profile gid n) w.disk).isSome →
    readFile (.profile gid n) (m w).2.disk = readFile (.profile gid n) w.disk

theorem fresh_of_next {w : World} {g : Group} {m : DBM Profile} (hb : Bounded gid g g.lastId w)
    (hid : ∀ p w', m w = (.ok p,w') → p.id = g.lastId+1) {P : Path → Prop}
    (hl : Leaves P w (m w).2) (hP : ∀ n, P (.profile gid n) → n = g.lastId+1) :
    Fresh gid m w := by
  have hnone : readFile (.profile gid (g.lastId+1)) w.disk = none := by
    rcases hf : readFile (.profile gid (g.lastId+1)) w.disk with _ | b
    · rfl
    · have hle := hb.bound (g.lastId+1) (by simp [hf])
      omega
  refine ⟨fun p w' hm => ?_,fun n hn => hl.files _ fun hp => ?_⟩
  · rw [hid p w' hm]
    refine ⟨hnone,fun q hq hqid => ?_⟩
    have hfile := (mem_storedAt hb.stored q).mp hq
    rw [hqid,profileAt,fileAt,hnone] at hfile
    simp at hfile
  · rw [hP n hp,hnone] at hn
    simp at hn

def emptyGroup (faults : List Bool) : World := worldOf (newGroup 1 "new" 0) [] faults

theorem emptyGroup_named (faults : List Bool) : Named (emptyGroup faults) := by
  intro gid g hg
  rw [groupAt,fileAt] at hg
  change (readFile (.groupConfig gid) (groupFiles (newGroup 1 "new" 0) [])).bind _ = _ at hg
  rw [readFile_base] at hg
  by_cases hgid : gid = 1
  · subst hgid
    obtain rfl : newGroup 1 "new" 0 = g := by
      simpa [emptyGroup,worldOf,newGroup,openBlob,Payload.asGroup] using hg
    rfl
  · simp [newGroup,hgid] at hg

theorem emptyGroup_empty (faults : List Bool) : EmptyGroup 1 (emptyGroup faults) := by
  refine ⟨newGroup 1 "new" 0,(stored_groupFiles (newGroup 1 "new" 0) [] (by decide)
    (by simp)).config,by decide,fun n => ?_⟩
  change readFile _ (groupFiles (newGroup 1 "new" 0) []) = none
  rw [readFile_base,if_neg (by simp)]

end Runs

end Whoisthat.ProfileIds
