import Whoisthat.GroupStore
import Whoisthat.Startup

/-!
# Group numbers and the persisted counter

The counter lives in `config.json`, the groups in directories of their own. A
tree is well numbered if no group exceeds the counter of a config that anybody
can read. Every operation keeps the database and all its copies well numbered;
recreating a lost config does so only where no group is left.
-/

set_option autoImplicit false

namespace Whoisthat.GroupIds
open Whoisthat.FileStore Whoisthat.FallibleState Whoisthat.Records Whoisthat.Database
open Whoisthat.GroupFiles Whoisthat.GroupStore Whoisthat.StagedCopy Whoisthat.Snapshots
open Whoisthat.KeyFiles Whoisthat.Startup

/-- Something lies in the directory of the group. -/
def GroupExists (gid : ℤ) (t : Tree) : Prop :=
  ∃ path, path.group? = some gid ∧ (t.lookup path).isSome

/-- The counter of a readable config has reached `gid`. -/
def RoomFor (gid : ℤ) (t : Tree) : Prop :=
  ∀ k c, fileAt .dbConfig Payload.asDBConfig t k = some c → gid ≤ c.lastGroupId

structure Numbered (t : Tree) : Prop where
  room : ∀ gid, GroupExists gid t → RoomFor gid t
  named : ∀ k gid g, groupAt gid t k = some g → g.id = gid

section Trees

variable {t t' : Tree} {w : World} {gid : ℤ} {path q : Path} {p : Payload}

theorem numbered_empty : Numbered ∅ := by
  refine ⟨fun gid ⟨path,_,h⟩ => ?_,fun k gid g h => ?_⟩
  · simp at h
  · simp [groupAt,fileAt,readFile] at h

/-- `t'` has the nodes of `t` or fewer; a file may be there without content. -/
def Below (t' t : Tree) : Prop :=
  ∀ path n, t'.lookup path = some n →
    t.lookup path = some n ∨ (n = .file (.junk []) ∧ (t.lookup path).isSome)

theorem below_refl (t : Tree) : Below t t := fun _ _ h => Or.inl h

theorem fileAt_below {α : Type} {target : Payload → Option α} {k : Key} {a : α} (h : Below t' t)
    (ha : fileAt path target t' k = some a) : fileAt path target t k = some a := by
  unfold fileAt readFile at ha ⊢
  cases hl : t'.lookup path with
  | none => simp [hl] at ha
  | some n =>
    rcases h path n hl with ht | ⟨rfl,_⟩
    · rw [ht]
      rw [hl] at ha
      exact ha
    · simp [hl,openBlob] at ha

/-- Copies that are not finished are well numbered with their source. -/
theorem numbered_below (h : Below t' t) (hn : Numbered t) : Numbered t' := by
  refine ⟨fun gid ⟨path,hg,hs⟩ k c hc => ?_,fun k gid g hg => ?_⟩
  · obtain ⟨n,hl⟩ := Option.isSome_iff_exists.mp hs
    have hex : GroupExists gid t := by
      rcases h path n hl with ht | ⟨_,ht⟩
      · exact ⟨path,hg,by rw [ht]; rfl⟩
      · exact ⟨path,hg,ht⟩
    exact hn.room gid hex k c (fileAt_below h hc)
  · exact hn.named k gid g (fileAt_below h hg)

theorem below_erase (h : Below t' t) : Below (t'.erase path) t := by
  intro q n hq
  rw [lookup_erase] at hq
  split_ifs at hq
  exact h q n hq

theorem below_removeAll (under : Path → Bool) (t : Tree) : Below (removeAll under t) t := by
  intro q n hq
  rw [lookup_removeAll] at hq
  split_ifs at hq
  exact Or.inl hq

theorem lookup_mkdirFor (path q : Path) (t : Tree) :
    (mkdirFor q t).lookup path =
      match q.group? with
      | none => t.lookup path
      | some gid => if path = .groupDir gid ∧ (t.lookup (.groupDir gid)).isSome = false
          then some .dir else t.lookup path := by
  unfold mkdirFor
  cases hg : q.group? with
  | none => rfl
  | some gid =>
    cases hd : (t.lookup (.groupDir gid)).isSome with
    | true => simp [hd]
    | false =>
      simp only [hd,and_true]
      exact lookup_insert _ _ _ _

theorem groupExists_mkdirFor (h : GroupExists gid (mkdirFor q t)) :
    GroupExists gid t ∨ q.group? = some gid := by
  obtain ⟨path,hp,hs⟩ := h
  rw [lookup_mkdirFor] at hs
  cases hg : q.group? with
  | none =>
    rw [hg] at hs
    exact Or.inl ⟨path,hp,hs⟩
  | some g =>
    rw [hg] at hs
    simp only at hs
    split_ifs at hs with hd
    · rw [hd.1] at hp
      exact Or.inr hp
    · exact Or.inl ⟨path,hp,hs⟩

theorem fileAt_mkdirFor {α : Type} {target : Payload → Option α} {k : Key} :
    fileAt path target (mkdirFor q t) k = fileAt path target t k := by
  unfold fileAt
  rw [readFile_mkdirFor]

theorem numbered_mkdirFor (hn : Numbered t) (hq : ∀ gid, q.group? = some gid → RoomFor gid t) :
    Numbered (mkdirFor q t) := by
  refine ⟨fun gid hg k c hc => ?_,fun k gid g hg => ?_⟩
  · rw [fileAt_mkdirFor] at hc
    rcases groupExists_mkdirFor hg with h | h
    · exact hn.room gid h k c hc
    · exact hq gid h k c hc
  · rw [groupAt,fileAt_mkdirFor] at hg
    exact hn.named k gid g hg

theorem fileAt_insert {α : Type} {target : Payload → Option α} {k key : Key} {n : ℕ} :
    fileAt path target (t.insert q (.file (.sealed key n p))) k =
      if path = q then (if key = k then target p else none) else fileAt path target t k := by
  unfold fileAt
  rw [readFile_insert]
  by_cases hq : path = q
  · by_cases hk : key = k <;> simp [hq,hk,openBlob]
  · simp [hq]

/-- What an encrypted write asks for: a counter above every group if it writes
the config, its own number if it writes a group, and room for its directory. -/
structure Writes (path : Path) (p : Payload) (t : Tree) : Prop where
  config : path = .dbConfig → ∀ c, p.asDBConfig = some c →
    ∀ gid, GroupExists gid t → gid ≤ c.lastGroupId
  group : ∀ gid, path = .groupConfig gid → ∀ g, p.asGroup = some g → g.id = gid
  room : ∀ gid, path.group? = some gid → RoomFor gid t

theorem numbered_store (hn : Numbered w.disk) (hw : Writes path p w.disk) :
    Numbered (store path p w).disk := by
  have hm := numbered_mkdirFor hn hw.room
  refine ⟨fun gid ⟨q,hq,hs⟩ k c hc => ?_,fun k gid g hg => ?_⟩
  · have hex : GroupExists gid w.disk ∨ path.group? = some gid := by
      simp only [store,lookup_insert] at hs
      split_ifs at hs with hpath
      · exact Or.inr (hpath ▸ hq)
      · exact groupExists_mkdirFor ⟨q,hq,hs⟩
    simp only [store,fileAt_insert,fileAt_mkdirFor] at hc
    split_ifs at hc with hpath hk
    · rcases hex with h | h
      · exact hw.config hpath.symm c hc gid h
      · rw [← hpath] at h
        simp [Path.group?] at h
    · rcases hex with h | h
      · exact hn.room gid h k c hc
      · exact hw.room gid h k c hc
  · simp only [store,groupAt,fileAt_insert,fileAt_mkdirFor] at hg
    split_ifs at hg with hpath hk
    · exact hw.group gid hpath.symm g hg
    · exact hn.named k gid g hg

end Trees

section Operations

def WellNumbered (w : World) : Prop := Numbered w.disk

variable {α : Type} {gid : ℤ} {path : Path} {p : Payload}

theorem numbered_write (h : ∀ w, WellNumbered w → Writes path p w.disk) :
    Triple WellNumbered (writeEncryptedJSON path p) (fun _ => WellNumbered)
      (fun _ => WellNumbered) := by
  refine triple_of_state fun w hw => ?_
  rcases write_cases path p w with ⟨_,hr⟩ | ⟨_,_,hr⟩ | ⟨_,_,hr⟩ <;> rw [hr]
  · exact hw
  · exact hw
  · exact numbered_store hw (h w hw)

theorem triple_wrapping {P : World → Prop} {m : DBM α} {Q : α → World → Prop}
    {I : World → Prop} (wrap : DBError → DBError) (h : Triple P m Q (fun _ => I)) :
    Triple P (wrapping wrap m) Q (fun _ => I) := by
  intro w hw
  have hm := h w hw
  unfold wrapping
  rcases hr : m w with ⟨e | a,w'⟩ <;> rw [hr] at hm <;> exact hm

/-- A read returns what is stored and leaves the tree alone. -/
theorem numbered_read {m : DBM α} {v : Tree → Key → Option α} (h : ReadsAs m v) :
    Triple WellNumbered m (fun a w => WellNumbered w ∧ v w.disk w.key = some a)
      (fun _ => WellNumbered) := by
  intro w hw
  obtain ⟨hr,hv⟩ := h w
  have hn : WellNumbered (m w).2 := by
    rw [WellNumbered,hr.disk]
    exact hw
  rcases hm : m w with ⟨e | a,w'⟩ <;> rw [hm] at hr hv hn
  · exact hn
  · exact ⟨hn,by rw [hr.disk,hr.key]; exact hv.symm⟩

theorem readsAs_loadDBConfig :
    ReadsAs loadDBConfig (fileAt .dbConfig Payload.asDBConfig) := readsAs_readEncryptedJSON _ _

/-- A config is rewritten with a counter that is not lower. -/
theorem writes_dbConfig {t : Tree} {k : Key} {c c' : DBConfig} (hn : Numbered t)
    (hc : fileAt .dbConfig Payload.asDBConfig t k = some c) (hle : c.lastGroupId ≤ c'.lastGroupId) :
    Writes .dbConfig (.dbConfig c') t := by
  refine ⟨fun _ d hd gid hg => ?_,fun gid h => by simp at h,fun gid h => by simp [Path.group?] at h⟩
  obtain rfl : c' = d := by simpa [Payload.asDBConfig] using hd
  exact Int.le_trans (hn.room gid hg k c hc) hle

theorem numbered_saveDBConfig {c e : DBConfig} (hle : c.lastGroupId ≤ e.lastGroupId) :
    Triple (fun w => WellNumbered w ∧
        fileAt .dbConfig Payload.asDBConfig w.disk w.key = some c)
      (saveDBConfig e)
      (fun _ w => WellNumbered w ∧ RoomFor e.lastGroupId w.disk) (fun _ => WellNumbered) := by
  intro w ⟨hw,hc⟩
  unfold saveDBConfig
  rcases write_cases .dbConfig (.dbConfig e) w with ⟨_,hr⟩ | ⟨_,_,hr⟩ | ⟨_,_,hr⟩ <;> rw [hr]
  · exact hw
  · exact hw
  · refine ⟨numbered_store hw (writes_dbConfig hw hc hle),fun k d hd => ?_⟩
    simp only [store,fileAt_insert,fileAt_mkdirFor,if_true,Payload.asDBConfig] at hd
    split_ifs at hd
    exact le_of_eq (congrArg DBConfig.lastGroupId (Option.some.inj hd))

theorem roomFor_below {t t' : Tree} (h : Below t' t) (hr : RoomFor gid t) : RoomFor gid t' :=
  fun k c hc => hr k c (fileAt_below h hc)

theorem numbered_addGroup (subscriptionHost : String → String) (name url : String) :
    Triple WellNumbered (addGroup subscriptionHost name url) (fun _ => WellNumbered)
      (fun _ => WellNumbered) := by
  refine triple_bind (numbered_read readsAs_loadDBConfig) fun c => ?_
  simp only
  refine triple_bind (numbered_saveDBConfig (Int.le_add_one (Int.le_refl _))) fun _ => ?_
  simp only
  refine triple_bind (Q := fun _ w => WellNumbered w ∧ RoomFor (c.lastGroupId+1) w.disk)
    (fun w ⟨hw,hr⟩ => ?_) fun _ => ?_
  · have hb := below_removeAll (inGroupDir (c.lastGroupId+1)) w.disk
    exact ⟨numbered_below hb hw,roomFor_below hb hr⟩
  refine triple_bind (Q := fun _ w => WellNumbered w ∧ RoomFor (c.lastGroupId+1) w.disk)
    (fun w ⟨hw,hr⟩ => ?_) fun _ => ?_
  · refine ⟨?_,fun k d hd => ?_⟩
    · change Numbered (mkdirFor (.groupDir (c.lastGroupId+1)) w.disk)
      refine numbered_mkdirFor hw fun gid hg => ?_
      obtain rfl : c.lastGroupId+1 = gid := by simpa [Path.group?] using hg
      exact hr
    · simp only [fileAt_mkdirFor] at hd
      exact hr k d hd
  refine triple_bind (Q := fun _ => WellNumbered) (triple_wrapping _ fun w ⟨hw,hr⟩ => ?_)
    fun _ => triple_pure _ fun _ h => h
  have hwrites : Writes (.groupConfig (c.lastGroupId+1))
      (.group (newGroupConfig subscriptionHost (c.lastGroupId+1) name url)) w.disk := by
    refine ⟨fun h => by simp at h,fun gid h g hg => ?_,fun gid h => ?_⟩
    · obtain rfl : c.lastGroupId+1 = gid := by simpa using h
      obtain rfl : newGroupConfig subscriptionHost (c.lastGroupId+1) name url = g := by
        simpa [Payload.asGroup] using hg
      rfl
    · obtain rfl : c.lastGroupId+1 = gid := by simpa [Path.group?] using h
      exact hr
  rcases write_cases (.groupConfig (c.lastGroupId+1))
    (.group (newGroupConfig subscriptionHost (c.lastGroupId+1) name url)) w
      with ⟨_,h⟩ | ⟨_,_,h⟩ | ⟨_,_,h⟩ <;> rw [h]
  · exact hw
  · exact hw
  · exact numbered_store hw hwrites

theorem numbered_deleteGroup (gid : ℤ) :
    Triple WellNumbered (deleteGroup gid) (fun _ => WellNumbered) (fun _ => WellNumbered) := by
  refine triple_bind (Q := fun _ => WellNumbered)
    (triple_of_state fun w hw => numbered_below (below_removeAll _ _) hw) fun _ => ?_
  refine triple_bind (Q := fun r w => WellNumbered w ∧
      ∀ c, r = .ok c → fileAt .dbConfig Payload.asDBConfig w.disk w.key = some c)
    (triple_attempt (triple_weaken (numbered_read readsAs_loadDBConfig) (fun _ h => h)
      (fun c w h => ⟨h.1,fun d hd => Except.ok.inj hd ▸ h.2⟩)
      fun e w h => ⟨h,fun d hd => by simp at hd⟩)) fun r => ?_
  cases r with
  | error e => exact triple_pure () fun _ h => h.1
  | ok c =>
    refine triple_bind (Q := fun _ => WellNumbered) (triple_attempt (triple_weaken
      (numbered_saveDBConfig (c := c)
        (e := { c with groupOrder := c.groupOrder.filter (fun g => g ≠ gid) }) (Int.le_refl _))
      (fun w h => ⟨h.1,h.2 c rfl⟩) (fun _ w h => h.1) fun _ w h => h))
      fun _ => triple_pure () fun _ h => h

theorem numbered_reorderGroups (ids : List ℤ) :
    Triple WellNumbered (reorderGroups ids) (fun _ => WellNumbered) (fun _ => WellNumbered) :=
  triple_bind (triple_wrapping _ (numbered_read readsAs_loadDBConfig)) fun c =>
    triple_weaken
      (numbered_saveDBConfig (c := c) (e := { c with groupOrder := ids }) (Int.le_refl _))
      (fun _ h => h) (fun _ _ h => h.1) fun _ _ h => h

/-- A group that was loaded is saved under its own number. -/
theorem numbered_updateGroup {g g' : Group} (hid : g'.id = g.id) :
    Triple (fun w => WellNumbered w ∧ groupAt gid w.disk w.key = some g) (updateGroup g')
      (fun _ => WellNumbered) (fun _ => WellNumbered) := by
  refine triple_wrapping _ (triple_of_state fun w ⟨hw,hg⟩ => ?_)
  have hgid : g'.id = gid := hid.trans (hw.named _ gid g hg)
  have hwrites : Writes (.groupConfig g'.id) (.group g') w.disk := by
    refine ⟨fun h => by simp at h,fun n h g₁ hg₁ => ?_,fun n h => hw.room n ?_⟩
    · obtain rfl : g'.id = n := by simpa using h
      obtain rfl : g' = g₁ := by simpa [Payload.asGroup] using hg₁
      rfl
    · refine ⟨.groupConfig gid,by rw [← hgid]; exact h,?_⟩
      unfold groupAt fileAt readFile at hg
      cases hl : w.disk.lookup (.groupConfig gid) with
      | none => simp [hl] at hg
      | some n => rfl
  rcases write_cases (.groupConfig g'.id) (.group g') w with ⟨_,h⟩ | ⟨_,_,h⟩ | ⟨_,_,h⟩ <;> rw [h]
  · exact hw
  · exact hw
  · exact numbered_store hw hwrites

theorem numbered_mergeSubscriptionFields (gid : ℤ) (f : SubscriptionFields) :
    Triple WellNumbered (mergeSubscriptionFields gid f) (fun _ => WellNumbered)
      (fun _ => WellNumbered) :=
  triple_bind (numbered_read (readsAs_loadGroupConfig gid)) fun g =>
    triple_bind (numbered_updateGroup (mergedFields_id g f)) fun _ => triple_pure _ fun _ h => h

theorem numbered_updateGroupConfig (subscriptionHost : String → String) (gid : ℤ)
    (name url : String) (autoUpdate : Option Bool) (updateInterval : Option ℤ) :
    Triple WellNumbered (updateGroupConfig subscriptionHost gid name url autoUpdate updateInterval)
      (fun _ => WellNumbered) (fun _ => WellNumbered) := by
  refine triple_bind (triple_wrapping _ (numbered_read (readsAs_loadGroupConfig gid))) fun g => ?_
  cases he : editedGroup subscriptionHost g gid name url autoUpdate updateInterval with
  | error e => exact triple_fail e fun _ h => h.1
  | ok g' =>
    exact triple_bind (numbered_updateGroup (editedGroup_id he)) fun _ => triple_pure _ fun _ h => h

end Operations

section Migration

/-- Encrypting a plain file in place keeps what it says. -/
theorem writes_raw {t : Tree} {path : Path} {b : Blob} {p : Payload} (hn : Numbered t)
    (hb : readFile path t = some b) (hp : rawPayload b = some p) : Writes path p t := by
  have hread : ∀ {α : Type} (target : Payload → Option α) (a : α),
      (∀ bytes, target (.bytes bytes) = none) → target p = some a →
      ∀ k, fileAt path target t k = some a := by
    intro α target a hbytes ha k
    unfold fileAt
    rw [hb]
    cases b with
    | «sealed» key n q => simp [rawPayload] at hp
    | tampered bytes => simp [rawPayload] at hp
    | plain q =>
      obtain rfl : q = p := by simpa [rawPayload] using hp
      exact ha
    | junk bytes =>
      obtain rfl : Payload.bytes bytes = p := by simpa [rawPayload] using hp
      rw [hbytes] at ha
      simp at ha
  refine ⟨fun hpath c hc gid hg => ?_,fun gid hpath g hg => ?_,fun gid hgid => hn.room gid ?_⟩
  · have hr := hread Payload.asDBConfig c (fun _ => rfl) hc []
    rw [hpath] at hr
    exact hn.room gid hg [] c hr
  · have hr := hread Payload.asGroup g (fun _ => rfl) hg []
    rw [hpath] at hr
    exact hn.named [] gid g hr
  · refine ⟨path,hgid,?_⟩
    unfold readFile at hb
    cases hl : t.lookup path with
    | none => simp [hl] at hb
    | some n => rfl

def KeepsNumbers (w w' : World) : Prop := WellNumbered w → WellNumbered w'

theorem keepsNumbers_refl (w : World) : KeepsNumbers w w := fun h => h

theorem keepsNumbers_trans (u v w : World) (h : KeepsNumbers u v) (h' : KeepsNumbers v w) :
    KeepsNumbers u w := fun hu => h' (h hu)

theorem numbered_migrateFile (path : Path) :
    Keeps KeepsNumbers (migrateFileToEncrypted path) := by
  intro w hw
  unfold migrateFileToEncrypted
  cases hf : readFile path w.disk with
  | none => exact hw
  | some b =>
    cases hr : rawPayload b with
    | none => simpa [hr] using hw
    | some p =>
      simp only [Option.bind_some,hr]
      split
      · exact hw
      · exact numbered_store hw (writes_raw hw hf hr)

theorem numbered_migrateToEncrypted : Keeps KeepsNumbers migrateToEncrypted := by
  have hdir : ∀ {ι : Type} (name : Path → Option ι), Keeps KeepsNumbers (readDir name) :=
    fun _ w h => h
  refine keeps_bind keepsNumbers_trans (numbered_migrateFile _) fun _ =>
    keeps_bind keepsNumbers_trans (numbered_migrateFile _) fun _ =>
      keeps_bind keepsNumbers_trans (hdir _) fun gids =>
        keeps_forEach keepsNumbers_refl keepsNumbers_trans gids fun gid _ => ?_
  exact keeps_bind keepsNumbers_trans (numbered_migrateFile _) fun _ =>
    keeps_bind keepsNumbers_trans (hdir _) fun entries =>
      keeps_forEach keepsNumbers_refl keepsNumbers_trans entries fun e _ => numbered_migrateFile e

end Migration

section Copies

/-- Every directory of the backups is well numbered. -/
def AllNumbered (b : Backups) : Prop := ∀ name t, b.lookup name = some t → Numbered t

variable {b : Backups} {src t : Tree} {name : String} {es es' : List BackupEffect}

theorem below_partialCopy (h : PartialCopy nodeSteps (walk src) t) : Below t src := by
  intro path n hn
  obtain ⟨e,he,rfl,hsteps⟩ := h path n hn
  have hsrc := (mem_walk src e).mp he
  cases hnode : e.2 with
  | dir =>
    rw [hnode] at hsteps hsrc
    obtain rfl := List.mem_singleton.mp hsteps
    exact Or.inl hsrc
  | file blob =>
    rw [hnode] at hsteps hsrc
    simp only [nodeSteps,List.mem_cons,List.not_mem_nil,or_false] at hsteps
    rcases hsteps with rfl | rfl
    · exact Or.inr ⟨rfl,by rw [hsrc]; rfl⟩
    · exact Or.inl hsrc

theorem allNumbered_moves (hb : AllNumbered b) (hes : ∀ e ∈ es, e.moves) :
    AllNumbered (run es b) :=
  forall_run_moves numbered_empty (fun t _ ht => numbered_below (below_erase (below_refl t)) ht)
    hes hb

theorem allNumbered_copyTree (hb : AllNumbered b) (hsrc : Numbered src)
    (habsent : b.lookup name = none) (n : ℕ) :
    AllNumbered (run ((copyTree src name).take n) b) := by
  intro d t ht
  by_cases hd : d = name
  · subst hd
    refine numbered_below (below_partialCopy ?_) hsrc
    refine @partialCopy_run _ _ _ _ _ nodeSteps d _ _ (fun e he => List.mem_of_mem_take he) _ ?_ t ht
    intro u hu
    rw [habsent] at hu
    simp at hu
  · rw [lookup_run_of_not_touches fun e he hte =>
      hd (touches_copyTree (List.mem_of_mem_take he) hte)] at ht
    exact hb d t ht

/-- Clearing a directory and copying to it, cut off anywhere. -/
theorem allNumbered_staged (hb : AllNumbered b) (hsrc : Numbered src) (n : ℕ) :
    AllNumbered (run ((removeDir name b ++ copyTree src name).take n) b) := by
  rw [List.take_append,run_append]
  have hcleared : AllNumbered (run ((removeDir name b).take n) b) :=
    allNumbered_moves hb fun e he => moves_removeDir (List.mem_of_mem_take he)
  by_cases hn : n ≤ (removeDir name b).length
  · rw [Nat.sub_eq_zero_of_le hn]
    exact hcleared
  · have hle := Nat.le_of_not_le hn
    rw [List.take_of_length_le hle] at hcleared ⊢
    exact allNumbered_copyTree hcleared hsrc (lookup_run_removeDir rfl) _

theorem allNumbered_append (h : ∀ n, AllNumbered (run (es.take n) b)) (hes : ∀ e ∈ es', e.moves)
    (n : ℕ) : AllNumbered (run ((es++es').take n) b) := by
  rw [List.take_append,run_append]
  exact allNumbered_moves (h n) fun e he => hes e (List.mem_of_mem_take he)

theorem moves_retention {e : BackupEffect} (he : e ∈ retentionEffects b) : e.moves := by
  obtain ⟨d,_,he⟩ := List.mem_flatMap.mp he
  exact moves_removeDir he

/-- Taking a snapshot, cut off anywhere. -/
theorem allNumbered_snapshotDaily (hb : AllNumbered b) (hsrc : Numbered src) (day : Day)
    (fate : Fate) (n : ℕ) : AllNumbered (run ((snapshotDaily day fate src b).take n) b) := by
  have hretained : ∀ e ∈ (if saves day fate b then
      retentionEffects (run (stagingEffects day fate src b) b) else []), Effect.moves e := by
    intro e he
    split at he
    · exact moves_retention he
    · simp at he
  refine allNumbered_append (fun n => ?_) hretained n
  by_cases hday : day.text ∈ snapshotDays b
  · simpa [stagingEffects,hday] using hb
  · rw [stagingEffects_eq hday]
    cases fate with
    | copyFailed k =>
      refine allNumbered_append (fun n => ?_) (fun e he => moves_removeDir he) n
      rw [← List.take_length_add_append,List.take_take]
      exact allNumbered_staged hb hsrc _
    | renameFailed =>
      exact allNumbered_append (allNumbered_staged hb hsrc) (fun e he => moves_removeDir he) n
    | saved =>
      refine allNumbered_append (allNumbered_staged hb hsrc) (fun e he => ?_) n
      obtain rfl := List.mem_singleton.mp he
      trivial

theorem below_copied (src : Tree) (upTo : Option ℕ) : Below (copied src upTo) src := by
  unfold copied
  simp only
  cases hl : (run ((copyTree src "").take (upTo.getD (copyTree src "").length)) ∅).lookup "" with
  | none =>
    intro path n hn
    simp at hn
  | some t =>
    refine below_partialCopy (@partialCopy_run _ _ _ _ _ nodeSteps "" _ _
      (fun e he => List.mem_of_mem_take he) ∅ ?_ t hl)
    intro u hu
    simp at hu

end Copies

section Runs

structure Inv (m : Machine) : Prop where
  world : Numbered m.world.disk
  backups : AllNumbered m.backups

/-- The start writes a new config. -/
structure Recreates (io : StartIO) (m : Machine) : Prop where
  loads : (loadOrCreateKey io.keys m.keyring).1.toOption.isSome
  missing : m.world.disk.lookup .dbConfig = none
  written : io.faults.head? ≠ some true

/-- Where the start writes a new config, no group with a positive number is
left. -/
def RecreatesSafely (io : StartIO) (m : Machine) : Prop :=
  Recreates io m → ∀ gid, GroupExists gid m.world.disk → gid ≤ 0

variable {io : StartIO} {m : Machine}

theorem groupExists_same {k k' : Keyring} (h : SameFiles k k') {gid : ℤ} :
    GroupExists gid k'.tree ↔ GroupExists gid k.tree := by
  have hne : ∀ path, Path.group? path = some gid → path ≠ legacyPath := by
    rintro path hp rfl
    simp [legacyPath,Path.group?] at hp
  constructor
  · rintro ⟨path,hp,hs⟩
    exact ⟨path,hp,by rwa [h path (hne path hp)] at hs⟩
  · rintro ⟨path,hp,hs⟩
    exact ⟨path,hp,by rwa [h path (hne path hp)]⟩

theorem numbered_same {k k' : Keyring} (h : SameFiles k k') (hn : Numbered k.tree) :
    Numbered k'.tree := by
  have hfile : ∀ {α : Type} {path : Path} {target : Payload → Option α} {key : Key},
      path ≠ legacyPath → fileAt path target k'.tree key = fileAt path target k.tree key := by
    intro α path target key hp
    rw [fileAt,fileAt,readFile,readFile,h path hp]
  refine ⟨fun gid hg key c hc => ?_,fun key gid g hg => ?_⟩
  · rw [hfile (by simp [legacyPath])] at hc
    exact hn.room gid ((groupExists_same h).mp hg) key c hc
  · rw [groupAt,hfile (by simp [legacyPath])] at hg
    exact hn.named key gid g hg

theorem openDatabase_numbered (hn : Numbered m.world.disk) (hs : RecreatesSafely io m) :
    Numbered (openDatabase io m).2.world.disk := by
  have hsame := sameFiles_loadOrCreateKey io.keys m.keyring
  unfold openDatabase
  rcases hk : loadOrCreateKey io.keys m.keyring with ⟨e | key,k⟩ <;> rw [hk] at hsame
  · exact numbered_same hsame hn
  · have hk' : Numbered k.tree := numbered_same hsame hn
    simp only
    generalize hw : ({ m.world with
      disk := k.tree, key := key, degraded := false, faults := io.faults } : World) = w
    have hens : Numbered (ensureDBConfigExistance w).2.disk := by
      subst hw
      unfold ensureDBConfigExistance
      split_ifs with hsome
      · exact hk'
      · have hmissing : m.world.disk.lookup .dbConfig = none := by
          have hnone := Option.not_isSome_iff_eq_none.mp hsome
          rwa [hsame .dbConfig (by simp [legacyPath])] at hnone
        rcases write_cases .dbConfig (.dbConfig ⟨0,[]⟩) { m.world with
          disk := k.tree, key := key, degraded := false, faults := io.faults }
          with ⟨_,h⟩ | ⟨_,_,h⟩ | ⟨_,hf,h⟩ <;> rw [saveDBConfig,h]
        · exact hk'
        · exact hk'
        · have hrec : Recreates io m := ⟨by rw [hk]; rfl,hmissing,hf⟩
          refine numbered_store hk' ⟨fun _ c hc gid hg => ?_,fun gid h => by simp at h,
            fun gid h => by simp [Path.group?] at h⟩
          obtain rfl : (⟨0,[]⟩ : DBConfig) = c := by simpa [Payload.asDBConfig] using hc
          exact hs hrec gid ((groupExists_same hsame).mp hg)
    rcases he : ensureDBConfigExistance w with ⟨e | u,w'⟩ <;> rw [he] at hens <;> exact hens

theorem initializeDB_inv (h : Inv m) (hs : RecreatesSafely io m) : Inv (initializeDB io m) := by
  have hn := openDatabase_numbered h.world hs
  have hb := openDatabase_backups io m
  unfold initializeDB
  rcases ho : openDatabase io m with ⟨e | u,m'⟩ <;> rw [ho] at hn hb <;> simp only at hn hb ⊢
  · exact ⟨hn,hb ▸ h.backups⟩
  · have hsnap : ∀ n, AllNumbered (run ((m'.snapshotEffects io).take n) m'.backups) := by
      intro n
      unfold Machine.snapshotEffects
      split
      · exact allNumbered_snapshotDaily (hb ▸ h.backups) hn io.day io.fate n
      · simpa using hb ▸ h.backups
    cases io.crash with
    | some n => exact ⟨hn,hsnap n⟩
    | none =>
      refine ⟨numbered_migrateToEncrypted m'.world hn,?_⟩
      have hall := hsnap (m'.snapshotEffects io).length
      rwa [List.take_length] at hall

theorem restoreSnapshot_inv (io : RestoreIO) (h : Inv m) : Inv (restoreSnapshot io m).2 := by
  unfold restoreSnapshot
  split
  · exact h
  · rename_i day hday
    have hsrc : Numbered ((m.backups.lookup day).getD ∅) := by
      cases hl : m.backups.lookup day with
      | none => exact numbered_empty
      | some t => exact h.backups day t hl
    have hcopy := numbered_below (below_copied ((m.backups.lookup day).getD ∅) io.copyFails) hsrc
    split_ifs
    · simp only
      split
      · exact ⟨hcopy,h.backups⟩
      · split_ifs
        · exact h
        · exact ⟨hcopy,h.backups⟩
    · exact h

inductive GroupOp where
  | addGroup (name url : String)
  | deleteGroup (gid : ℤ)
  | updateGroupConfig (gid : ℤ) (name url : String) (autoUpdate : Option Bool)
      (updateInterval : Option ℤ)
  | mergeSubscriptionFields (gid : ℤ) (f : SubscriptionFields)
  | reorderGroups (ids : List ℤ)

variable (subscriptionHost : String → String)

def GroupOp.run : GroupOp → World → World
  | .addGroup name url, w => (GroupStore.addGroup subscriptionHost name url w).2
  | .deleteGroup gid, w => (GroupStore.deleteGroup gid w).2
  | .updateGroupConfig gid name url autoUpdate updateInterval, w =>
    (GroupStore.updateGroupConfig subscriptionHost gid name url autoUpdate updateInterval w).2
  | .mergeSubscriptionFields gid f, w => (GroupStore.mergeSubscriptionFields gid f w).2
  | .reorderGroups ids, w => (GroupStore.reorderGroups ids w).2

/-- A start, a request to the running daemon with the outcomes of its writes, or
the loss of `config.json`. -/
inductive Event where
  | start (io : StartIO)
  | restore (io : RestoreIO)
  | op (o : GroupOp) (faults : List Bool)
  | loseConfig

def Event.step : Event → Machine → Machine
  | .start io, m => initializeDB io m
  | .restore io, m => if m.running then (restoreSnapshot io m).2 else m
  | .op o faults, m =>
    if m.running then { m with world := o.run subscriptionHost { m.world with faults := faults } }
    else m
  | .loseConfig, m => { m with world := { m.world with disk := m.world.disk.erase .dbConfig } }

def runEvents (es : List Event) (m : Machine) : Machine :=
  es.foldl (fun m e => e.step subscriptionHost m) m

def Event.Safe : Event → Machine → Prop
  | .start io, m => RecreatesSafely io m
  | _, _ => True

def SafeRun : List Event → Machine → Prop
  | [], _ => True
  | e::es, m => e.Safe m ∧ SafeRun es (e.step subscriptionHost m)

theorem groupOp_numbered (o : GroupOp) {w : World} (hw : WellNumbered w) :
    WellNumbered (o.run subscriptionHost w) := by
  cases o with
  | addGroup name url => exact triple_state (numbered_addGroup subscriptionHost name url) hw
  | deleteGroup gid => exact triple_state (numbered_deleteGroup gid) hw
  | updateGroupConfig gid name url autoUpdate updateInterval =>
    exact triple_state
      (numbered_updateGroupConfig subscriptionHost gid name url autoUpdate updateInterval) hw
  | mergeSubscriptionFields gid f => exact triple_state (numbered_mergeSubscriptionFields gid f) hw
  | reorderGroups ids => exact triple_state (numbered_reorderGroups ids) hw

theorem step_inv (e : Event) (h : Inv m) (hs : e.Safe m) : Inv (e.step subscriptionHost m) := by
  cases e with
  | start io => exact initializeDB_inv h hs
  | restore io =>
    simp only [Event.step]
    split_ifs
    · exact restoreSnapshot_inv io h
    · exact h
  | op o faults =>
    simp only [Event.step]
    split_ifs
    · exact ⟨groupOp_numbered subscriptionHost o h.world,h.backups⟩
    · exact h
  | loseConfig => exact ⟨numbered_below (below_erase (below_refl _)) h.world,h.backups⟩

theorem run_inv (es : List Event) (h : Inv m) (hs : SafeRun subscriptionHost es m) :
    Inv (runEvents subscriptionHost es m) := by
  induction es generalizing m with
  | nil => exact h
  | cons e es ih => exact ih (step_inv subscriptionHost e h hs.1) hs.2

/-- On a well numbered database a new group touches no existing one. -/
theorem addGroup_keeps {w : World} (hn : Numbered w.disk) (name url : String) {gid : ℤ} {path : Path}
    (hg : GroupExists gid w.disk) (hp : path.group? = some gid) :
    readFile path (GroupStore.addGroup subscriptionHost name url w).2.disk =
      readFile path w.disk := by
  obtain ⟨hr,hv⟩ := readsAs_loadDBConfig w
  rcases hl : loadDBConfig w with ⟨e | c,w'⟩ <;> rw [hl] at hr hv
  · rw [GroupStore.addGroup,bind_of_error hl,hr.disk]
  · have hle := hn.room gid hg w.key c hv.symm
    rw [GroupStore.addGroup,bind_of_ok hl]
    have hframe : Keeps
        (Frame (fun q => q = .dbConfig ∨ q.group? = some (c.lastGroupId+1))) (do
          saveDBConfig
            { lastGroupId := c.lastGroupId+1, groupOrder := c.groupOrder ++ [c.lastGroupId+1] }
          osRemoveAll (inGroupDir (c.lastGroupId+1))
          osMkdirAll (.groupDir (c.lastGroupId+1))
          wrapping (.writeFile (.groupConfig (c.lastGroupId+1)))
            (writeEncryptedJSON (.groupConfig (c.lastGroupId+1))
              (.group (newGroupConfig subscriptionHost (c.lastGroupId+1) name url)))
          pure
            { id := c.lastGroupId+1, subscriptionUrl := url,
              name := (newGroupConfig subscriptionHost (c.lastGroupId+1) name url).name :
              GroupAdded }) := by
      refine keeps_bind frame_trans (keeps_frame_mono (frame_write _ _) fun _ h => Or.inl h)
        fun _ => keeps_bind frame_trans (keeps_frame_mono (frame_osRemoveAll _) fun q h => ?_)
          fun _ => keeps_bind frame_trans (frame_osMkdirAll _ _) fun _ =>
            keeps_bind frame_trans (keeps_wrapping _
              (keeps_frame_mono (frame_write _ _) fun q h => ?_)) fun _ =>
                keeps_pure (frame_refl _) _
      · exact Or.inr (by simpa [inGroupDir] using h)
      · exact Or.inr (by rw [h]; rfl)
    rw [(hframe w').files path,hr.disk]
    rintro (rfl | h)
    · simp [Path.group?] at hp
    · rw [hp] at h
      have := Option.some.inj h
      omega

/-- From an empty machine, over any sequence of starts, restores and group
operations whose starts recreate the config only where no group is left, the
next number is no existing group's and adding a group changes no other. -/
theorem next_group_is_new_run (hd : m.world.disk = ∅) (hb : m.backups = ∅) (es : List Event)
    (hs : SafeRun subscriptionHost es m) :
    let w := (runEvents subscriptionHost es m).world
    (∀ c, fileAt .dbConfig Payload.asDBConfig w.disk w.key = some c →
      ∀ gid, GroupExists gid w.disk → c.lastGroupId+1 ≠ gid) ∧
    ∀ name url faults gid path, GroupExists gid w.disk → path.group? = some gid →
      readFile path
          (GroupStore.addGroup subscriptionHost name url { w with faults := faults }).2.disk =
        readFile path w.disk := by
  have hinv : Inv m := by
    refine ⟨by rw [hd]; exact numbered_empty,fun name t ht => ?_⟩
    rw [hb] at ht
    simp at ht
  have hrun := run_inv subscriptionHost es hinv hs
  refine ⟨fun c hc gid hg => ?_,fun name url faults gid path hg hp => ?_⟩
  · have hle := hrun.world.room gid hg _ c hc
    omega
  · exact addGroup_keeps subscriptionHost
      (w := { (runEvents subscriptionHost es m).world with faults := faults }) hrun.world name url
      hg hp

/-- A daemon that added a group, lost its config and was started again. -/
def restarted : Machine :=
  runEvents id [.start (calmStart none),.op (.addGroup "a" "") [],.loseConfig,
    .start (calmStart none)] freshMachine

/-- The recreated config hands out the number of the group that is still there,
and adding a group replaces it. -/
theorem recreated_config_reuses_group :
    fileAt .dbConfig Payload.asDBConfig restarted.world.disk restarted.world.key = some ⟨0,[]⟩ ∧
    (groupAt 1 restarted.world.disk restarted.world.key).map Group.name = some "a" ∧
    (groupAt 1 (GroupStore.addGroup id "b" "" restarted.world).2.disk restarted.world.key).map
      Group.name = some "b" := by
  refine ⟨?_,?_,?_⟩ <;> decide

/-- A daemon that added one group. -/
def oneGroup : Machine :=
  runEvents id [.start (calmStart none),.op (.addGroup "a" "") []] freshMachine

theorem oneGroup_safe :
    SafeRun id [.start (calmStart none),.op (.addGroup "a" "") []] freshMachine := by
  refine ⟨fun _ gid ⟨path,_,hs⟩ => ?_,trivial,trivial⟩
  simp [freshMachine] at hs

/-- Without the loss of the config, a second group leaves the first alone. -/
theorem second_group_is_new :
    readFile (.groupConfig 1)
        (GroupStore.addGroup id "b" "" { oneGroup.world with faults := [] }).2.disk =
      readFile (.groupConfig 1) oneGroup.world.disk :=
  (next_group_is_new_run id (m := freshMachine) rfl rfl _ oneGroup_safe).2 "b" "" [] 1
    (.groupConfig 1) ⟨.groupConfig 1,rfl,by decide⟩ rfl

end Runs

end Whoisthat.GroupIds
