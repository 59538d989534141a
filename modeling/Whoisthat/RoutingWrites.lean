import Whoisthat.Footprints

/-!
# What the routing operations write

Each operation of the routing commands stays inside a footprint: the group it
is about, the manual rules, the names of a deleted routing profile, or the files
of a moved profile. Routing fields of a moved profile's groups are written as
they were read.
-/

set_option autoImplicit false

namespace Whoisthat.RoutingWrites
open Whoisthat.FileStore Whoisthat.FallibleState Whoisthat.Records Whoisthat.Database
open Whoisthat.GroupFiles Whoisthat.RoutingStore Whoisthat.FiledRecords Whoisthat.ProfileStore
open Whoisthat.RoutingResolution Whoisthat.SessionRouting Whoisthat.Footprints

section Rules

variable {W W' : Path → Payload → Prop} {D D' : Path → Prop} {w u v : World} {ε α β : Type}

theorem effects_trans (h : Effects W D w u) (h' : Effects W D u v) : Effects W D w v := by
  induction h' with
  | start => exact h
  | same _ hs ih => exact .same ih hs
  | write _ hw ih => exact .write ih hw
  | mkdir path _ ih => exact .mkdir path ih
  | remove _ hd ih => exact .remove ih hd
  | erase _ hd ih => exact .erase ih hd

theorem effects_mono (hw : ∀ path p, W path p → W' path p) (hd : ∀ path, D path → D' path)
    (h : Effects W D w u) : Effects W' D' w u := by
  induction h with
  | start => exact .start
  | same _ hs ih => exact .same ih hs
  | write _ hp ih => exact .write ih (hw _ _ hp)
  | mkdir path _ ih => exact .mkdir path ih
  | remove _ hu ih => exact .remove ih fun path hp => hd path (hu path hp)
  | erase _ hp ih => exact .erase ih (hd _ hp)

/-- From anywhere inside the footprint the program stays inside. -/
def Inside (W : Path → Payload → Prop) (D : Path → Prop) (w : World) (m : Prog World ε α) : Prop :=
  Triple (Effects W D w) m (fun _ => Effects W D w) (fun _ => Effects W D w)

theorem inside_pure (a : α) : Inside W D w (pure a : Prog World ε α) := triple_pure a fun _ => id

theorem inside_fail (e : ε) : Inside W D w (fail e : Prog World ε α) := triple_fail e fun _ => id

theorem inside_when {c : Bool} {m : Prog World ε Unit} (h : Inside W D w m) :
    Inside W D w (when c m) := triple_when (fun _ => h) fun _ => id

theorem inside_bind {m : Prog World ε α} {f : α → Prog World ε β} (hm : Inside W D w m)
    (hf : ∀ a, Inside W D w (f a)) : Inside W D w (m >>= f) := triple_bind hm hf

theorem inside_run {m : Prog World ε α} (h : Inside W D w m) (hu : Effects W D w u) :
    Effects W D w (m u).2 := triple_state h hu

theorem effects_of_run {m : Prog World ε α} {r : Except ε α} (h : Inside W D u m)
    (hr : m u = (r,v)) : Effects W D u v := by
  have hv := inside_run h .start
  rwa [hr] at hv

theorem inside_attempt {m : DBM α} (h : Inside W D w m) : Inside W D w (attempt m) :=
  @triple_attempt World DBError α (Effects W D w) _ m (fun _ => Effects W D w) h

theorem inside_wrapping {m : DBM α} (wrap : DBError → DBError) (h : Inside W D w m) :
    Inside W D w (wrapping wrap m) := by
  intro u hu
  have hm := h u hu
  unfold wrapping
  rcases hr : m u with ⟨e | a,v⟩ <;> rw [hr] at hm <;> exact hm

/-- A program that reads finds in the files what it returns. -/
theorem inside_reads {m : DBM α} {f : World → Option α} (hm : ∀ u, Yields u m (f u))
    (hf : ∀ u v, SameFiles u v → f v = f u) :
    Triple (Effects W D w) m (fun a u => Effects W D w u ∧ f u = some a)
      (fun _ => Effects W D w) := by
  intro u hu
  obtain ⟨hv,hs⟩ := hm u u (sameFiles_refl u)
  rcases hr : m u with ⟨e | a,v⟩ <;> rw [hr] at hv hs
  · exact .same hu hs
  · exact ⟨.same hu hs,(hf u v hs).trans hv.symm⟩

theorem inside_read {m : DBM α} {f : World → Option α} (hm : ∀ u, Yields u m (f u)) :
    Inside W D w m := by
  intro u hu
  obtain ⟨-,hs⟩ := hm u u (sameFiles_refl u)
  rcases hr : m u with ⟨e | a,v⟩ <;> rw [hr] at hs <;> exact .same hu hs

theorem stored_of_files {path : Path} {target : Payload → Option α} (h : SameFiles u v) :
    stored path target v = stored path target u := by
  rw [stored,stored,h.disk,h.key]

theorem inside_load (gid : ℤ) :
    Triple (Effects W D w) (loadGroupConfig gid)
      (fun g u => Effects W D w u ∧ storedGroup u gid = some g) (fun _ => Effects W D w) :=
  inside_reads (fun _ => yields_wrapping _ (yields_read _ _)) fun _ _ h => stored_of_files h

theorem inside_write {path : Path} {p : Payload} (hp : W path p) :
    Inside W D w (writeEncryptedJSON path p) := by
  intro u hu
  rcases write_cases path p u with ⟨_,h⟩ | ⟨_,_,h⟩ | ⟨_,_,h⟩ <;> rw [h]
  · exact hu
  · exact .same hu ⟨rfl,rfl,rfl⟩
  · exact .write hu hp

theorem inside_mkdir (path : Path) : Inside W D w (osMkdirAll path) :=
  fun _ hu => .mkdir path hu

theorem inside_erase {path : Path} (hd : D path) : Inside W D w (Database.remove path) :=
  fun _ hu => .erase hu hd

theorem inside_updateGroup {g : Group} (hp : W (.groupConfig g.id) (.group g)) :
    Inside W D w (updateGroup g) := inside_wrapping _ (inside_write hp)

theorem inside_saveGroupConfig {g : Group} (hp : W (.groupConfig g.id) (.group g)) :
    Inside W D w (saveGroupConfig g) := inside_wrapping _ (inside_write hp)

end Rules

section Groups

/-- Everything a command about the routing of one group may write. -/
inductive GroupWrites (gid : ℤ) : Path → Payload → Prop
  | config (g : Group) (h : g.id = gid) : GroupWrites gid (.groupConfig gid) (.group g)
  | rules (cfg : RoutingConfig) : GroupWrites gid (.groupRouting gid) (.routing cfg)

inductive GlobalWrites : Path → Payload → Prop
  | rules (cfg : RoutingConfig) : GlobalWrites .routing (.routing cfg)

def Nothing (_ : Path) : Prop := False

variable {gid : ℤ} {w : World}

theorem fits_groupWrites (path : Path) (p : Payload) (h : GroupWrites gid path p) :
    Fits path p := by
  cases h with
  | config g h => exact h
  | rules cfg => trivial

theorem groupWrites_save {g : Group} (h : g.id = gid) :
    GroupWrites gid (.groupConfig g.id) (.group g) := h ▸ .config g rfl

theorem loaded_id {W : Path → Payload → Prop} {D : Path → Prop} {u : World} {g : Group}
    (hfits : ∀ path p, W path p → Fits path p) (hw : Filed w) (h : Effects W D w u)
    (hg : storedGroup u gid = some g) : g.id = gid :=
  filed_group (effects_filed hfits h hw) hg

/-- Loading the group, then something that knows its number. -/
theorem inside_loaded {β : Type} {f : Group → DBM β} (wrap : DBError → DBError) (hw : Filed w)
    (hf : ∀ g, g.id = gid → Inside (GroupWrites gid) Nothing w (f g)) :
    Inside (GroupWrites gid) Nothing w (wrapping wrap (loadGroupConfig gid) >>= f) := by
  have hload : Triple (Effects (GroupWrites gid) Nothing w) (wrapping wrap (loadGroupConfig gid))
      (fun g u => Effects (GroupWrites gid) Nothing w u ∧ storedGroup u gid = some g)
      (fun _ => Effects (GroupWrites gid) Nothing w) :=
    inside_reads (fun _ => yields_wrapping _ (yields_wrapping _ (yields_read _ _)))
      fun _ _ h => stored_of_files h
  refine triple_bind hload fun g u hu => ?_
  exact hf g (loaded_id fits_groupWrites hw hu.1 hu.2) u hu.1

theorem inside_saveGroupRouting (cfg : RoutingConfig) :
    Inside (GroupWrites gid) Nothing w (saveGroupRouting gid cfg) :=
  inside_bind (inside_mkdir _) fun _ => inside_write (.rules cfg)

theorem inside_ensureGroupRouting : Inside (GroupWrites gid) Nothing w (ensureGroupRouting gid) := by
  refine inside_bind (fun u hu => hu : Inside (GroupWrites gid) Nothing w (get : DBM World))
    fun u => ?_
  split
  · exact inside_pure ()
  · have hload : ∀ u, Yields u RoutingStore.loadRouting
        (some ((stored .routing Payload.asRouting u).getD defaultRouting)) := by
      intro u
      rw [yields_returns,RoutingStore.loadRouting,← disk_readRouting]
      exact returns_readRouting u .routing
    exact inside_bind (inside_read hload) fun cfg => inside_saveGroupRouting cfg

theorem inside_setManualRoutingSource (hw : Filed w) (source : String) :
    Inside (GroupWrites gid) Nothing w (setManualRoutingSource gid source) := by
  unfold setManualRoutingSource
  split
  · exact inside_fail _
  · dsimp only
    generalize toLower (trimSpace source) = source
    split
    · exact inside_fail _
    · refine inside_loaded _ hw fun g hg => ?_
      exact inside_bind (inside_when inside_ensureGroupRouting) fun _ =>
        inside_updateGroup (groupWrites_save hg)

theorem inside_setGroupRoutingMode (hw : Filed w) (mode : String) :
    Inside (GroupWrites gid) Nothing w (setGroupRoutingMode gid mode) := by
  unfold setGroupRoutingMode
  dsimp only
  split
  · exact inside_fail _
  · exact inside_loaded _ hw fun g hg => inside_updateGroup (groupWrites_save hg)

theorem inside_checkRoutingProfile {W : Path → Payload → Prop} {D : Path → Prop} (id : String) :
    Inside W D w (checkRoutingProfile gid id) := by
  refine inside_bind (inside_read fun _ => yields_wrapping _ (yields_read _ _)) fun p => ?_
  split
  · exact inside_fail _
  · split
    · exact inside_fail _
    · refine inside_bind (fun u hu => hu : Inside W D w (get : DBM World)) fun u => ?_
      dsimp only
      split_ifs
      · exact inside_pure ()
      · exact inside_fail _
      · exact inside_fail _
      · exact inside_pure ()

theorem inside_setActiveRoutingProfile (hw : Filed w) (id : String) :
    Inside (GroupWrites gid) Nothing w (setActiveRoutingProfile gid id) :=
  inside_loaded _ hw fun _ hg => inside_bind (inside_when (inside_checkRoutingProfile id))
    fun _ => inside_updateGroup (groupWrites_save hg)

end Groups

section Deletion

/-- A deletion writes the group back, without the deleted selection. -/
inductive DeleteWrites (w : World) (gid : ℤ) (id : String) : Path → Payload → Prop
  | config (g : Group) (hg : storedGroup w gid = some g) :
      DeleteWrites w gid id (.groupConfig gid) (.group (deselected g id))

/-- The names a deletion removes. -/
def Deleted (w : World) (gid : ℤ) (id : String) : Path → Prop :=
  ReadOnly.Op.removes w.root (.deleteRoutingProfile gid id)

variable {w : World} {gid : ℤ} {id : String}

theorem effects_deleteRoutingProfile (hw : Filed w) :
    Effects (DeleteWrites w gid id) (Deleted w gid id) w (deleteRoutingProfile gid id w).2 := by
  let D := Deleted w gid id
  let first := (removeAt (joinPath (getRoutingDir w.root gid ++ ["profiles"]) (id ++ ".json")) w).2
  let second := (removeUnder (joinPath (getRoutingDir w.root gid ++ ["geo"]) id) first).2
  have hfirst : Effects (fun _ _ => False) D w first :=
    .remove .start fun path hp => .inl (by simpa using hp)
  have hsecond : Effects (fun _ _ => False) D w second :=
    .remove hfirst fun path hp => .inr (List.isPrefixOf_iff_prefix.mp hp)
  have hload := @inside_load (fun _ _ => False) D w gid second hsecond
  have hrun : (deleteRoutingProfile gid id w).2 = (ReadOnly.deselect gid id second).2 := rfl
  have hweak : ∀ {u}, Effects (fun _ _ => False) D w u → Effects (DeleteWrites w gid id) D w u :=
    effects_mono (fun _ _ => False.elim) fun _ hd => hd
  rw [hrun,ReadOnly.deselect,bind_of_ok (attempt_run _ second)]
  rcases hr : loadGroupConfig gid second with ⟨e | g,u⟩ <;> rw [hr] at hload
  · exact hweak hload
  · obtain ⟨hu,hg⟩ := hload
    -- what is loaded after the removals lay there before
    have hbefore : storedGroup w gid = some g := by
      rcases @effects_lookup _ _ _ _ hu (.groupConfig gid) (fun _ hf => hf) (by simp)
        with hl | ⟨-,hl⟩
      · rwa [storedGroup,groupAt,fileAt,readFile,hl,effects_key hu] at hg
      · rw [storedGroup,groupAt,fileAt,readFile,hl] at hg
        simp at hg
    have hid : (deselected g id).id = gid := (filed_group hw hbefore : g.id = gid)
    have hsave : DeleteWrites w gid id (.groupConfig (deselected g id).id)
        (.group (deselected g id)) := by
      rw [hid]
      exact .config g hbefore
    dsimp only
    split
    · exact inside_run (inside_bind (inside_attempt (inside_updateGroup hsave))
        fun _ => inside_pure ()) (hweak hu)
    · exact hweak hu

end Deletion

section Moves

/-- A move writes the new profile and its document, and the groups it takes the
profile from and to, with the routing fields they had. -/
inductive MoveWrites (w : World) (fromGroup toGroup newId : ℤ) : Path → Payload → Prop
  | profile (p : Profile) : MoveWrites w fromGroup toGroup newId (.profile toGroup newId) (.profile p)
  | document (raw : RawMessage) :
      MoveWrites w fromGroup toGroup newId (.profileXrayConfig toGroup newId) (.raw raw)
  | config (gid : ℤ) (g g' : Group) (h : gid = fromGroup ∨ gid = toGroup)
      (hg : storedGroup w gid = some g) (hr : routed g' = routed g) (hid : g'.id = gid) :
      MoveWrites w fromGroup toGroup newId (.groupConfig gid) (.group g')

inductive Moved (fromGroup toGroup id newId : ℤ) : Path → Prop
  | profile : Moved fromGroup toGroup id newId (.profile fromGroup id)
  | document : Moved fromGroup toGroup id newId (.profileXrayConfig fromGroup id)
  | undone : Moved fromGroup toGroup id newId (.profile toGroup newId)

variable {w : World} {fromGroup toGroup id newId : ℤ}

theorem fits_moveWrites (path : Path) (p : Payload) (h : MoveWrites w fromGroup toGroup newId path p) :
    Fits path p := by
  cases h with
  | profile p => trivial
  | document raw => trivial
  | config gid g g' h hg hr hid => exact hid

theorem routed_moveWrites {u : World}
    (h : Effects (MoveWrites w fromGroup toGroup newId) (Moved fromGroup toGroup id newId) w u)
    (gid : ℤ) : (storedGroup u gid).map routed = (storedGroup w gid).map routed := by
  refine effects_routed h (fun p hp => ?_) fun hd => nomatch hd
  cases hp with
  | config gid g g' h hg hr hid => exact ⟨g,g',rfl,hg,hr⟩

/-- A loaded group is saved with another order and counter. -/
theorem moveWrites_save {u : World} {gid : ℤ} {g : Group} (g' : Group) (hw : Filed w)
    (h : Effects (MoveWrites w fromGroup toGroup newId) (Moved fromGroup toGroup id newId) w u)
    (hgid : gid = fromGroup ∨ gid = toGroup) (hg : storedGroup u gid = some g)
    (hr : routed g' = routed g) (hid : g'.id = g.id) :
    MoveWrites w fromGroup toGroup newId (.groupConfig g'.id) (.group g') := by
  have hnum : g'.id = gid := hid.trans (loaded_id fits_moveWrites hw h hg)
  have hrouted := routed_moveWrites h gid
  rw [hg] at hrouted
  obtain ⟨g₀,hg₀,hr₀⟩ := Option.map_eq_some_iff.mp hrouted.symm
  rw [hnum]
  exact .config gid g₀ g' hgid hg₀ (hr.trans hr₀.symm) hnum

theorem inside_moveXrayConfig {D : Path → Prop} :
    Inside (MoveWrites w fromGroup toGroup newId) D w
      (moveXrayConfig fromGroup toGroup id newId) := by
  refine inside_bind (inside_attempt (inside_read fun _ => yields_read _ _)) fun r => ?_
  cases r with
  | error e => exact inside_pure ()
  | ok raw =>
    exact inside_wrapping _ (inside_bind (inside_mkdir _) fun _ => inside_write (.document raw))

theorem inside_dropFromOrder (hw : Filed w) (dropped : ℤ) :
    Inside (MoveWrites w fromGroup toGroup newId) (Moved fromGroup toGroup id newId) w
      (dropFromOrder fromGroup dropped) := by
  have hload := @inside_load (MoveWrites w fromGroup toGroup newId)
    (Moved fromGroup toGroup id newId) w fromGroup
  have hread : Triple (Effects (MoveWrites w fromGroup toGroup newId)
      (Moved fromGroup toGroup id newId) w) (attempt (loadGroupConfig fromGroup))
      (fun r u => Effects (MoveWrites w fromGroup toGroup newId)
        (Moved fromGroup toGroup id newId) w u ∧
        ∀ g, r = .ok g → storedGroup u fromGroup = some g)
      (fun _ => Effects (MoveWrites w fromGroup toGroup newId)
        (Moved fromGroup toGroup id newId) w) := by
    refine triple_attempt ?_
    intro u hu
    have hl := hload u hu
    rcases hr : loadGroupConfig fromGroup u with ⟨e | g,v⟩ <;> rw [hr] at hl
    · exact ⟨hl,fun _ he => nomatch he⟩
    · refine ⟨hl.1,fun g' hg' => ?_⟩
      rw [← Except.ok.inj hg']
      exact hl.2
  refine triple_bind hread fun r u hu => ?_
  cases r with
  | error e => exact hu.1
  | ok g =>
    have hsave := moveWrites_save { g with
      profileOrder := g.profileOrder.filter fun pid => pid ≠ dropped } hw hu.1 (.inl rfl)
      (hu.2 g rfl) rfl rfl
    exact inside_bind (inside_attempt (inside_saveGroupConfig hsave)) (fun _ => inside_pure ())
      u hu.1

/-- The number a move would give out. -/
def nextId (w : World) (toGroup : ℤ) : ℤ := ((storedGroup w toGroup).map Group.lastId).getD 0+1

theorem reads_run {α : Type} {m : DBM α} {o : Option α} {u v : World} {a : α} (hm : Yields u m o)
    (hr : m u = (.ok a,v)) : SameFiles u v ∧ o = some a := by
  obtain ⟨hv,hs⟩ := hm u (sameFiles_refl u)
  rw [hr] at hv hs
  exact ⟨hs,hv.symm⟩

theorem reads_state {α : Type} {m : DBM α} {o : Option α} {u : World} (hm : Yields u m o) :
    SameFiles u (m u).2 := (hm u (sameFiles_refl u)).2

theorem sameFiles_trans {u v v' : World} (h : SameFiles u v) (h' : SameFiles v v') :
    SameFiles u v' := ⟨h'.disk.trans h.disk,h'.key.trans h.key,h'.root.trans h.root⟩

theorem yields_getProfile (u : World) (gid id : ℤ) (wrap : DBError → DBError) :
    Yields u (wrapping wrap (getProfile gid id)) (stored (.profile gid id) Payload.asProfile u) :=
  yields_wrapping _ (yields_wrapping _ (yields_read _ _))

theorem yields_loadGroup (u : World) (gid : ℤ) (wrap : DBError → DBError) :
    Yields u (wrapping wrap (loadGroupConfig gid)) (storedGroup u gid) :=
  yields_wrapping _ (yields_wrapping _ (yields_read _ _))

theorem nextId_loaded {g : Group} (hg : storedGroup w toGroup = some g) :
    nextId w toGroup = g.lastId+1 := by rw [nextId,hg]; rfl

theorem effects_moveProfile (hw : Filed w) :
    Effects (MoveWrites w fromGroup toGroup (nextId w toGroup))
      (Moved fromGroup toGroup id (nextId w toGroup)) w (moveProfile fromGroup toGroup id w).2 := by
  unfold moveProfile
  split
  · exact .start
  · have hold := reads_state (yields_getProfile w fromGroup id (.getMoved id fromGroup))
    rcases hr : wrapping (.getMoved id fromGroup) (getProfile fromGroup id) w with ⟨e | old,u⟩
    · rw [hr] at hold
      rw [bind_of_error hr]
      exact .same .start hold
    · rw [hr] at hold
      rw [bind_of_ok hr]
      have hgroup := reads_state (yields_loadGroup u toGroup (.loadTarget toGroup))
      rcases hl : wrapping (.loadTarget toGroup) (loadGroupConfig toGroup) u with ⟨e | g,v⟩
      · rw [hl] at hgroup
        rw [bind_of_error hl]
        exact .same .start (sameFiles_trans hold hgroup)
      · obtain ⟨hv,hg⟩ := reads_run (yields_loadGroup u toGroup (.loadTarget toGroup)) hl
        rw [storedGroup,groupAt,hold.disk,hold.key] at hg
        rw [bind_of_ok hl]
        have hbase : Effects (MoveWrites w fromGroup toGroup (nextId w toGroup))
            (Moved fromGroup toGroup id (nextId w toGroup)) w v :=
          .same .start (sameFiles_trans hold hv)
        have hsave := moveWrites_save { g with
          lastId := g.lastId+1, profileOrder := g.profileOrder ++ [g.lastId+1] } hw
          (@Effects.start (MoveWrites w fromGroup toGroup (nextId w toGroup))
            (Moved fromGroup toGroup id (nextId w toGroup)) w) (.inr rfl) hg rfl rfl
        rw [nextId_loaded hg] at hsave hbase ⊢
        refine inside_run (inside_bind (inside_wrapping _ (inside_write (.profile _))) fun _ =>
          inside_bind (inside_when inside_moveXrayConfig) fun _ =>
            inside_bind (inside_attempt (inside_saveGroupConfig hsave)) fun r => ?_) hbase
        cases r with
        | error e => exact inside_bind (inside_erase .undone) fun _ => inside_fail _
        | ok _ =>
          exact inside_bind (inside_erase .profile) fun _ => inside_bind (inside_erase .document)
            fun _ => inside_bind (inside_dropFromOrder hw id) fun _ => inside_pure _

/-- What a move that fails removes: the copy it has made. -/
def Undone (toGroup newId : ℤ) (path : Path) : Prop := path = .profile toGroup newId

theorem undone_moved {path : Path} (h : Undone toGroup newId path) :
    Moved fromGroup toGroup id newId path := by
  rw [show path = _ from h]
  exact .undone

theorem dropFromOrder_ok (gid dropped : ℤ) (u : World) :
    ∃ v, dropFromOrder gid dropped u = (.ok (),v) := by
  unfold dropFromOrder
  rw [bind_of_ok (attempt_run _ u)]
  rcases loadGroupConfig gid u with ⟨e | g,v⟩ <;> exact ⟨_,rfl⟩

/-- Once the target group is saved a move cannot fail. -/
theorem moveProfile_error {v : World} {e : DBError} (hw : Filed w)
    (hr : moveProfile fromGroup toGroup id w = (.error e,v)) :
    Effects (MoveWrites w fromGroup toGroup (nextId w toGroup)) (Undone toGroup (nextId w toGroup))
      w v := by
  unfold moveProfile at hr
  split at hr
  · obtain ⟨-,rfl⟩ := Prod.mk.inj hr
    exact .start
  · have hold := reads_state (yields_getProfile w fromGroup id (.getMoved id fromGroup))
    rcases h₁ : wrapping (.getMoved id fromGroup) (getProfile fromGroup id) w with ⟨e' | old,u⟩ <;>
      rw [h₁] at hold
    · rw [bind_of_error h₁] at hr
      obtain ⟨-,rfl⟩ := Prod.mk.inj hr
      exact .same .start hold
    · rw [bind_of_ok h₁] at hr
      have hgroup := reads_state (yields_loadGroup u toGroup (.loadTarget toGroup))
      rcases h₂ : wrapping (.loadTarget toGroup) (loadGroupConfig toGroup) u with ⟨e' | g,t⟩ <;>
        rw [h₂] at hgroup
      · rw [bind_of_error h₂] at hr
        obtain ⟨-,rfl⟩ := Prod.mk.inj hr
        exact .same .start (sameFiles_trans hold hgroup)
      · obtain ⟨ht,hg⟩ := reads_run (yields_loadGroup u toGroup (.loadTarget toGroup)) h₂
        rw [storedGroup,groupAt,hold.disk,hold.key] at hg
        rw [bind_of_ok h₂] at hr
        have hbase : Effects (MoveWrites w fromGroup toGroup (nextId w toGroup))
            (Undone toGroup (nextId w toGroup)) w t := .same .start (sameFiles_trans hold ht)
        have hsave := moveWrites_save { g with
          lastId := g.lastId+1, profileOrder := g.profileOrder ++ [g.lastId+1] } hw
          (@Effects.start (MoveWrites w fromGroup toGroup (nextId w toGroup))
            (Moved fromGroup toGroup id (nextId w toGroup)) w) (.inr rfl) hg rfl rfl
        rw [nextId_loaded hg] at hsave hbase ⊢
        refine triple_error (Q := fun _ _ => True)
          (E := fun (_ : DBError) => Effects (MoveWrites w fromGroup toGroup (g.lastId+1))
            (Undone toGroup (g.lastId+1)) w) ?_ hbase hr
        refine triple_bind (inside_wrapping _ (inside_write (.profile _))) fun _ =>
          triple_bind (inside_when inside_moveXrayConfig) fun _ =>
            triple_bind (inside_attempt (inside_saveGroupConfig hsave)) fun r => ?_
        -- nothing fails after the old place is given up
        intro s hs
        cases r with
        | error e => exact .erase hs rfl
        | ok x =>
          let first : World := { s with disk := s.disk.erase (.profile fromGroup id) }
          let second : World :=
            { first with disk := first.disk.erase (.profileXrayConfig fromGroup id) }
          obtain ⟨v,hdrop⟩ := dropFromOrder_ok fromGroup id second
          have hdone : (do
              remove (.profile fromGroup id)
              deleteProfileXrayConfig fromGroup id
              dropFromOrder fromGroup id
              pure { old with groupId := toGroup, id := g.lastId+1 } : DBM Profile) s =
              (.ok { old with groupId := toGroup, id := g.lastId+1 },v) := bind_of_ok hdrop
          dsimp only
          rw [hdone]
          trivial

/-- Any group config. -/
def ConfigWrites (path : Path) (_ : Payload) : Prop := ∃ i, path = .groupConfig i

theorem inside_dropped {D : Path → Prop} (u : World) (gid dropped : ℤ) :
    Inside ConfigWrites D u (dropFromOrder gid dropped) := by
  refine inside_bind (inside_attempt (inside_read fun _ =>
    yields_wrapping _ (yields_read _ _))) fun r => ?_
  cases r with
  | error e => exact inside_pure ()
  | ok g => exact inside_bind (inside_attempt (inside_saveGroupConfig ⟨g.id,rfl⟩)) fun _ =>
      inside_pure ()

theorem stored_store {α : Type} (path : Path) (p : Payload) (target : Payload → Option α)
    (u : World) : stored path target (store path p u) = target p := by
  rw [stored,fileAt,readFile_store,if_pos rfl]
  simp [openBlob,store]

theorem stored_store_ne {α : Type} {path q : Path} (h : q ≠ path) (p : Payload)
    (target : Payload → Option α) (u : World) :
    stored q target (store path p u) = stored q target u := by
  rw [stored,fileAt,readFile_store,if_neg h]
  rfl

/-- After the move of the document, it lies where the profile goes. -/
theorem moveXrayConfig_ok {u v : World} {x : Unit}
    (hr : moveXrayConfig fromGroup toGroup id newId u = (.ok x,v)) :
    (∀ d, stored (.profileXrayConfig fromGroup id) Payload.asRaw u = some d →
      stored (.profileXrayConfig toGroup newId) Payload.asRaw v = some d) ∧
    stored (.profile toGroup newId) Payload.asProfile v =
      stored (.profile toGroup newId) Payload.asProfile u := by
  obtain ⟨r,u₁,h₁,h₂⟩ := bind_ok hr
  obtain ⟨hout,hstate⟩ := Prod.mk.inj h₁
  obtain rfl := hstate
  have hread := yields_read (.profileXrayConfig fromGroup id) Payload.asRaw u (sameFiles_refl u)
  have hr' : r.toOption = stored (.profileXrayConfig fromGroup id) Payload.asRaw u := by
    rw [← Except.ok.inj hout]
    exact hread.1
  cases r with
  | error e =>
    obtain ⟨-,rfl⟩ := Prod.mk.inj h₂
    exact ⟨fun d hd => (nomatch hr'.trans hd),stored_of_files hread.2⟩
  | ok raw =>
    obtain ⟨a,t,hmk,hwrite⟩ := bind_ok (wrapping_ok.mp h₂)
    obtain ⟨-,rfl⟩ := write_ok hwrite
    have hmkdir : ∀ q, readFile q t.disk = readFile q u.disk := by
      intro q
      rw [← (Prod.mk.inj hmk).2,← hread.2.disk]
      exact readFile_mkdirFor _ _ _
    have hkey : t.key = u.key := by
      rw [← (Prod.mk.inj hmk).2]
      exact hread.2.key
    constructor
    · intro d hd
      rw [stored_store,← Option.some.inj (hr'.trans hd)]
      rfl
    · have hne : Path.profile toGroup newId ≠ .profileXrayConfig toGroup newId := nofun
      rw [stored_store_ne hne,stored,stored,fileAt,fileAt,hmkdir,hkey]

/-- The old place of a moved profile. -/
inductive Taken (fromGroup id : ℤ) : Path → Prop
  | profile : Taken fromGroup id (.profile fromGroup id)
  | document : Taken fromGroup id (.profileXrayConfig fromGroup id)

/-- A move that succeeds leaves the profile and its document at the new place. -/
theorem moveProfile_ok {w' : World} {moved : Profile}
    (hr : moveProfile fromGroup toGroup id w = (.ok moved,w')) :
    ∃ old, stored (.profile fromGroup id) Payload.asProfile w = some old ∧
      moved = { old with groupId := toGroup, id := nextId w toGroup } ∧
      stored (.profile toGroup (nextId w toGroup)) Payload.asProfile w' = some moved ∧
      (old.managed = true → ∀ d,
        stored (.profileXrayConfig fromGroup id) Payload.asRaw w = some d →
        stored (.profileXrayConfig toGroup (nextId w toGroup)) Payload.asRaw w' = some d) := by
  unfold moveProfile at hr
  split at hr
  · simp at hr
  · rename_i hne
    obtain ⟨old,u₁,h₁,hr⟩ := bind_ok hr
    obtain ⟨hs₁,hold⟩ := reads_run (yields_getProfile w fromGroup id (.getMoved id fromGroup)) h₁
    obtain ⟨g,u₂,h₂,hr⟩ := bind_ok hr
    obtain ⟨hs₂,hg⟩ := reads_run (yields_loadGroup u₁ toGroup (.loadTarget toGroup)) h₂
    have hs := sameFiles_trans hs₁ hs₂
    have hgw : storedGroup w toGroup = some g := (stored_of_files hs₁).symm.trans hg
    rw [nextId_loaded hgw]
    dsimp only at hr
    generalize hq : ({ old with groupId := toGroup, id := g.lastId+1 } : Profile) = q at hr
    generalize hg' : ({ g with lastId := g.lastId+1, profileOrder := g.profileOrder ++ [g.lastId+1] }
      : Group) = g' at hr
    obtain ⟨x₃,u₃,h₃,hr⟩ := bind_ok hr
    obtain ⟨-,hu₃⟩ := write_ok (wrapping_ok.mp h₃)
    obtain ⟨x₄,u₄,h₄,hr⟩ := bind_ok hr
    obtain ⟨r,u₅,h₅,hr⟩ := bind_ok hr
    have hsave : Effects ConfigWrites (Taken fromGroup id) u₄ u₅ :=
      effects_of_run (inside_attempt (inside_saveGroupConfig ⟨g'.id,rfl⟩)) h₅
    cases r with
    | error e =>
      obtain ⟨x,t,-,hr⟩ := bind_ok hr
      simp at hr
    | ok x₅ =>
      have hrest : Effects ConfigWrites (Taken fromGroup id) u₅ w' :=
        effects_of_run (inside_bind (inside_erase .profile) fun _ =>
          inside_bind (inside_erase .document) fun _ =>
            inside_bind (inside_dropped u₅ fromGroup id) fun _ => inside_pure q) hr
      have htail := effects_trans hsave hrest
      obtain ⟨x₆,u₆,-,hr⟩ := bind_ok hr
      obtain ⟨x₇,u₇,-,hr⟩ := bind_ok hr
      obtain ⟨x₈,u₈,-,hr⟩ := bind_ok hr
      obtain rfl := Except.ok.inj (Prod.mk.inj hr).1
      have hprofile : ¬Taken fromGroup id (.profile toGroup (g.lastId+1)) := fun ht => by
        cases ht
        exact hne rfl
      have hdocument : ¬Taken fromGroup id (.profileXrayConfig toGroup (g.lastId+1)) := fun ht => by
        cases ht
        exact hne rfl
      have hwritten : stored (.profile toGroup (g.lastId+1)) Payload.asProfile u₃ = some q := by
        rw [hu₃,stored_store]
        rfl
      have hkept : ∀ {path : Path} (target : Payload → Option RawMessage),
          path ≠ .profile toGroup (g.lastId+1) → stored path target u₃ = stored path target w := by
        intro path target hp
        rw [hu₃,stored_store_ne hp]
        exact stored_of_files hs
      refine ⟨old,hold,hq.symm,?_,fun hm d hd => ?_⟩
      · rw [effects_stored htail (fun p hp => by cases hp; contradiction) hprofile (by simp)]
        cases hm : old.managed with
        | false =>
          rw [hm] at h₄
          obtain ⟨-,rfl⟩ := Prod.mk.inj h₄
          exact hwritten
        | true =>
          rw [hm] at h₄
          exact (moveXrayConfig_ok h₄).2.trans hwritten
      · rw [effects_stored htail (fun p hp => by cases hp; contradiction) hdocument (by simp)]
        rw [hm] at h₄
        have hbefore := @hkept (.profileXrayConfig fromGroup id) Payload.asRaw (by simp)
        exact (moveXrayConfig_ok h₄).1 d (hbefore.trans hd)

end Moves

section Separation

variable {w : World} {gid own : ℤ} {managed : Bool}

theorem rulesPath_cases (w : World) (own : ℤ) :
    rulesPath w own = .groupRouting own ∧ customAt w own = true ∨
      rulesPath w own = .routing ∧ customAt w own = false := by
  unfold rulesPath
  cases customAt w own with
  | true => exact .inl ⟨rfl,rfl⟩
  | false => exact .inr ⟨rfl,rfl⟩

theorem assetFree_groupWrites (path : Path) (p : Payload) (h : GroupWrites gid path p) :
    AssetFree path := by
  cases h with
  | config g h => exact @assetFree_json _ "group_config" rfl
  | rules cfg => exact @assetFree_json _ "manual" rfl

theorem apart_group (hne : gid ≠ own) : Apart w own managed (GroupWrites gid) Nothing where
  group p h := by
    cases h
    exact absurd rfl hne
  rules p h := by
    rcases rulesPath_cases w own with ⟨hp,-⟩ | ⟨hp,-⟩ <;> rw [hp] at h <;> cases h
    exact hne rfl
  profiles id p h := nomatch h
  assets := assetFree_groupWrites
  spared path := False.elim

/-- A group with rules of its own does not read the global ones. -/
theorem apart_global (hc : customAt w own = true) : Apart w own managed GlobalWrites Nothing where
  group p h := nomatch h
  rules p h := by
    rcases rulesPath_cases w own with ⟨hp,-⟩ | ⟨-,hp⟩
    · rw [hp] at h
      cases h
    · rw [hp] at hc
      cases hc
  profiles id p h := nomatch h
  assets path p h := by
    cases h
    exact @assetFree_json _ "routing" rfl
  spared path := False.elim

variable {id : String}

/-- A deletion that removes nothing the connection is routed by. -/
theorem apart_delete
    (hactive : gid = own → ∀ g, storedGroup w gid = some g → g.activeRoutingProfileId ≠ id)
    (hspared : ∀ path, Deleted w gid id path → ¬Feeds w own managed path) :
    Apart w own managed (DeleteWrites w gid id) (Deleted w gid id) where
  group p h := by
    cases h with
    | config g hg =>
      refine ⟨g,deselected g id,rfl,hg,?_⟩
      simp [routed,deselected,hactive rfl g hg]
  rules p h := by
    rcases rulesPath_cases w own with ⟨hp,-⟩ | ⟨hp,-⟩ <;> rw [hp] at h <;> cases h
  profiles i p h := nomatch h
  assets path p h := by
    cases h
    exact @assetFree_json _ "group_config" rfl
  spared := hspared

variable {fromGroup toGroup moved newId : ℤ}

theorem apart_move :
    Apart w own managed (MoveWrites w fromGroup toGroup newId)
      (Moved fromGroup toGroup moved newId) where
  group p h := by
    cases h with
    | config gid g g' h hg hr hid => exact ⟨g,g',rfl,hg,hr⟩
  rules p h := by
    rcases rulesPath_cases w own with ⟨hp,-⟩ | ⟨hp,-⟩ <;> rw [hp] at h <;> cases h
  profiles id p h := nomatch h
  assets path p h := by
    cases h with
    | profile p => exact @assetFree_json _ (toString newId) rfl
    | document raw => exact @assetFree_json _ (toString newId) rfl
    | config gid g g' h hg hr hid => exact @assetFree_json _ "group_config" rfl
  spared path hd hf := by
    have hfree : AssetFree path := by
      cases hd with
      | profile => exact @assetFree_json _ (toString moved) rfl
      | document => exact @assetFree_json _ (toString moved) rfl
      | undone => exact @assetFree_json _ (toString newId) rfl
    cases hf with
    | group => cases hd
    | rules =>
      rcases rulesPath_cases w own with ⟨hp,-⟩ | ⟨hp,-⟩ <;> rw [hp] at hd <;> cases hd
    | active g hg => cases hd
    | chosen g i p hm hg h => cases hd
    | asset p file _ hp hfile ht => exact components_ne hfree hfile _ ht

end Separation

end Whoisthat.RoutingWrites
