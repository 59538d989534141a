import Whoisthat.CliRouting
import Whoisthat.ProfileMoves

/-!
# What a listing shows

The order lists come from clients unchecked and are repaired when groups and
profiles are listed: what the list mentions by first occurrence, the rest by
number. No sequence of reorderings, additions, deletions and moves makes a
stored profile or group disappear or appear twice, as long as no step takes a
number that is in use and no move is left half done.
-/

set_option autoImplicit false

namespace Whoisthat.Listings
open Whoisthat.FileStore Whoisthat.FallibleState Whoisthat.Records Whoisthat.Database
open Whoisthat.GroupFiles Whoisthat.GroupStore Whoisthat.GroupSync Whoisthat.CliRouting
open Whoisthat.SyncWrites (mem_listedAt nodup_listedAt profileAt_congr groupAt_congr newGroup
  worldOf uriEntry)

section Orders

/-- What is stored, each once: by first occurrence in the order, where a number
the order does not mention comes after all that it does. -/
structure ListedBy (stored : ℤ → Prop) (order listed : List ℤ) : Prop where
  once : listed.Nodup
  all : ∀ n, n ∈ listed ↔ stored n
  ordered : listed.Pairwise fun a b =>
    order.idxOf a < order.idxOf b ∨ (order.idxOf a = order.idxOf b ∧ a < b)

variable {α : Type}

theorem insertionSort_ordered {m : List (ℤ × α)} (h : (m.map Prod.fst).Nodup) :
    ((m.insertionSort fun a b => a.1 ≤ b.1).map Prod.fst).Pairwise fun a b => a < b := by
  have : Std.Total (fun a b : ℤ × α => a.1 ≤ b.1) := ⟨fun a b => Int.le_total a.1 b.1⟩
  have : IsTrans (ℤ × α) (fun a b => a.1 ≤ b.1) := ⟨fun _ _ _ => Int.le_trans⟩
  have hsorted := List.pairwise_insertionSort (fun a b : ℤ × α => a.1 ≤ b.1) m
  have hnd : ((m.insertionSort fun a b => a.1 ≤ b.1).map Prod.fst).Nodup :=
    ((List.perm_insertionSort _ m).map Prod.fst).nodup_iff.mpr h
  rw [List.Nodup,List.pairwise_map] at hnd
  rw [List.pairwise_map]
  exact hsorted.imp₂ (fun a b hle hne => lt_of_le_of_ne hle hne) hnd

theorem mem_orderProfiles {order : List ℤ} {m : List (ℤ × α)} (h : (m.map Prod.fst).Nodup)
    (n : ℤ) : n ∈ (orderProfiles order m).map Prod.fst ↔ n ∈ m.map Prod.fst :=
  ((orderProfiles_perm order h).map Prod.fst).mem_iff

/-- The first occurrence decides, then the number. -/
theorem orderProfiles_ordered (order : List ℤ) {m : List (ℤ × α)} (h : (m.map Prod.fst).Nodup) :
    ((orderProfiles order m).map Prod.fst).Pairwise fun a b =>
      order.idxOf a < order.idxOf b ∨ (order.idxOf a = order.idxOf b ∧ a < b) := by
  induction order generalizing m with
  | nil => exact (insertionSort_ordered h).imp fun hab => Or.inr ⟨rfl,hab⟩
  | cons pid order ih =>
    -- away from the head of the order both positions move by one
    have hlift : ∀ {l : List ℤ}, pid ∉ l → (l.Pairwise fun a b =>
        order.idxOf a < order.idxOf b ∨ (order.idxOf a = order.idxOf b ∧ a < b)) →
        l.Pairwise fun a b => (pid::order).idxOf a < (pid::order).idxOf b ∨
          ((pid::order).idxOf a = (pid::order).idxOf b ∧ a < b) := by
      intro l hpid hl
      refine hl.imp_of_mem fun {a b} ha hb hab => ?_
      have ha' : pid ≠ a := fun he => hpid (he ▸ ha)
      have hb' : pid ≠ b := fun he => hpid (he ▸ hb)
      rw [List.idxOf_cons_ne _ ha',List.idxOf_cons_ne _ hb']
      omega
    unfold orderProfiles
    cases hf : m.find? (fun e => e.1 = pid) with
    | none =>
      refine hlift (fun hmem => ?_) (ih h)
      rw [mem_orderProfiles h] at hmem
      obtain ⟨e,he,hkey⟩ := List.mem_map.mp hmem
      exact absurd hkey (by simpa using List.find?_eq_none.mp hf e he)
    | some e =>
      have hkey : e.1 = pid := by simpa using List.find?_some hf
      have hnd := nodup_filter_keys h fun e => e.1 ≠ pid
      have hpid : pid ∉ (orderProfiles order (m.filter fun e => e.1 ≠ pid)).map Prod.fst := by
        rw [mem_orderProfiles hnd]
        simp
      rw [List.map_cons,List.pairwise_cons,hkey]
      refine ⟨fun b hb => Or.inl ?_,hlift hpid (ih hnd)⟩
      have hne : pid ≠ b := fun he => hpid (he ▸ hb)
      rw [List.idxOf_cons_self,List.idxOf_cons_ne _ hne]
      exact Nat.succ_pos _

theorem orderProfiles_listedBy (order : List ℤ) {m : List (ℤ × α)} (h : (m.map Prod.fst).Nodup) :
    ListedBy (fun n => n ∈ m.map Prod.fst) order ((orderProfiles order m).map Prod.fst) :=
  ⟨((orderProfiles_perm order h).map Prod.fst).nodup_iff.mpr h,mem_orderProfiles h,
    orderProfiles_ordered order h⟩

end Orders

section Listing

def groupOrderAt (w : World) : List ℤ :=
  ((fileAt .dbConfig Payload.asDBConfig w.disk w.key).map DBConfig.groupOrder).getD []

/-- Clients get every readable group with every readable profile of it, in the
repaired orders. -/
structure ListsAll (w : World) : Prop where
  groups : ∃ views gids, (getAllGroupsAndProfiles w).1 = .ok views ∧
    views.map some = gids.map (fun gid => viewAt gid w.disk w.key) ∧
    ListedBy (fun gid => (groupAt gid w.disk w.key).isSome = true) (groupOrderAt w) gids
  profiles : ∀ gid g, groupAt gid w.disk w.key = some g →
    ∃ view, (getGroupDataAndProfiles gid w).1 = .ok view ∧
      viewAt gid w.disk w.key = some view ∧
      view.profiles.map some = view.group.profileOrder.map
        (fun n => profileAt gid n w.disk w.key) ∧
      ListedBy (fun n => (profileAt gid n w.disk w.key).isSome = true) g.profileOrder
        view.group.profileOrder

variable {w : World}

theorem ok_of_toOption {α : Type} {r : Except DBError α} {a : α} (h : r.toOption = some a) :
    r = .ok a := by
  cases r with
  | error e => cases h
  | ok b => rw [Option.some.inj h]

theorem map_some_of_values {α : Type} {f : ℤ → Option α} {l : List (ℤ × α)}
    (h : ∀ e ∈ l, f e.1 = some e.2) : (l.map Prod.snd).map some = (l.map Prod.fst).map f := by
  rw [List.map_map,List.map_map]
  exact List.map_congr_left fun e he => (h e he).symm

theorem viewAt_eq {gid : ℤ} {g : Group} {t : Tree} {k : Key} (hg : groupAt gid t k = some g) :
    viewAt gid t k = some
      { group := { g with
          profileOrder := (orderProfiles g.profileOrder (profilesMapAt gid t k)).map Prod.fst }
        profiles := (orderProfiles g.profileOrder (profilesMapAt gid t k)).map Prod.snd
        routingProfiles := listedRoutingAt gid t k } := by
  rw [viewAt,hg]
  rfl

theorem listedBy_congr {P Q : ℤ → Prop} {order listed : List ℤ} (h : ListedBy P order listed)
    (hpq : ∀ n, P n ↔ Q n) : ListedBy Q order listed :=
  ⟨h.once,fun n => (h.all n).trans (hpq n),h.ordered⟩

theorem keys_profilesMapAt (gid : ℤ) (t : Tree) (k : Key) (n : ℤ) :
    n ∈ (profilesMapAt gid t k).map Prod.fst ↔ (profileAt gid n t k).isSome = true := by
  rw [List.mem_map,Option.isSome_iff_exists]
  constructor
  · rintro ⟨e,he,rfl⟩
    exact ⟨e.2,(mem_profilesMapAt gid t k e.1 e.2).mp he⟩
  · rintro ⟨p,hp⟩
    exact ⟨(n,p),(mem_profilesMapAt gid t k n p).mpr hp,rfl⟩

def groupsMapAt (t : Tree) (k : Key) : List (ℤ × GroupWithProfiles) :=
  (listing Path.group? t).dedup.filterMap fun gid => (viewAt gid t k).map (Prod.mk gid)

theorem mem_groupsMapAt {t : Tree} {k : Key} {e : ℤ × GroupWithProfiles} :
    e ∈ groupsMapAt t k ↔ viewAt e.1 t k = some e.2 := by
  rw [groupsMapAt,List.mem_filterMap]
  constructor
  · rintro ⟨gid,-,he⟩
    obtain ⟨view,hview,rfl⟩ := Option.map_eq_some_iff.mp he
    exact hview
  · intro he
    refine ⟨e.1,List.mem_dedup.mpr ?_,by rw [he]; rfl⟩
    obtain ⟨g,hg,-⟩ := Option.map_eq_some_iff.mp he
    obtain ⟨b,hb,-⟩ := Option.bind_eq_some_iff.mp hg
    rw [mem_listing]
    exact ⟨.groupConfig e.1,by rw [lookup_of_readFile hb]; rfl,rfl⟩

theorem nodup_groupsMapAt (t : Tree) (k : Key) : ((groupsMapAt t k).map Prod.fst).Nodup := by
  have hsub : ((groupsMapAt t k).map Prod.fst).Sublist (listing Path.group? t).dedup := by
    unfold groupsMapAt
    induction (listing Path.group? t).dedup with
    | nil => simp
    | cons gid gids ih =>
      cases h : viewAt gid t k with
      | none => simpa [h] using ih.cons gid
      | some view => simpa [h] using ih.cons_cons gid
  exact (List.nodup_dedup _).sublist hsub

theorem keys_groupsMapAt (t : Tree) (k : Key) (gid : ℤ) :
    gid ∈ (groupsMapAt t k).map Prod.fst ↔ (groupAt gid t k).isSome = true := by
  rw [List.mem_map,← Option.isSome_map (f := fun g =>
    let ordered := orderProfiles g.profileOrder (profilesMapAt gid t k)
    ({ group := { g with profileOrder := ordered.map Prod.fst }
       profiles := ordered.map Prod.snd
       routingProfiles := listedRoutingAt gid t k } : GroupWithProfiles))]
  change _ ↔ (viewAt gid t k).isSome = true
  rw [Option.isSome_iff_exists]
  constructor
  · rintro ⟨e,he,rfl⟩
    exact ⟨e.2,mem_groupsMapAt.mp he⟩
  · rintro ⟨view,hview⟩
    exact ⟨(gid,view),mem_groupsMapAt.mpr hview,rfl⟩

/-- Every database is listed completely, whatever its orders say. -/
theorem listsAll (w : World) : ListsAll w := by
  refine ⟨?_,fun gid g hg => ?_⟩
  · have hnd := nodup_groupsMapAt w.disk w.key
    refine ⟨_,_,ok_of_toOption (readsAs_getAllGroups w).2,map_some_of_values fun e he => ?_,
      listedBy_congr (orderProfiles_listedBy (groupOrderAt w) hnd) (keys_groupsMapAt _ _)⟩
    exact mem_groupsMapAt.mp ((orderProfiles_perm _ hnd).mem_iff.mp he)
  · have hnd := nodup_profilesMapAt gid w.disk w.key
    have hview := viewAt_eq hg
    refine ⟨_,ok_of_toOption ((readsAs_getGroup gid w).2.trans hview),hview,
      map_some_of_values fun e he => ?_,
      listedBy_congr (orderProfiles_listedBy g.profileOrder hnd) (keys_profilesMapAt gid _ _)⟩
    exact (mem_profilesMapAt gid w.disk w.key e.1 e.2).mp
      ((orderProfiles_perm _ hnd).mem_iff.mp he)

end Listing

section Steps

inductive Op where
  | addProfile (data : DBAddProfileData)
  | deleteProfile (gid id : ℤ)
  | moveProfile (fromGroup toGroup id : ℤ)
  | reorderProfiles (gid : ℤ) (ids : List ℤ)
  | addGroup (name url : String)
  | deleteGroup (gid : ℤ)
  | reorderGroups (ids : List ℤ)

def outcome {α : Type} (m : DBM α) (w : World) : Bool × World :=
  ((m w).1.toOption.isSome,(m w).2)

/-- Whether the operation succeeds, and what it leaves. -/
def Op.run (subscriptionHost : String → String) : Op → World → Bool × World
  | .addProfile data => outcome (ProfileStore.addProfile data)
  | .deleteProfile gid id => outcome (ProfileStore.deleteProfile gid id)
  | .moveProfile fromGroup toGroup id => outcome (ProfileStore.moveProfile fromGroup toGroup id)
  | .reorderProfiles gid ids => outcome (ProfileStore.reorderProfiles gid ids)
  | .addGroup name url => outcome (GroupStore.addGroup subscriptionHost name url)
  | .deleteGroup gid => outcome (GroupStore.deleteGroup gid)
  | .reorderGroups ids => outcome (GroupStore.reorderGroups ids)

def Stored (w : World) (gid n : ℤ) (p : Profile) : Prop := profileAt gid n w.disk w.key = some p

def Loaded (w : World) (gid : ℤ) : Prop := (groupAt gid w.disk w.key).isSome = true

/-- The profiles an operation that ends so takes out of their group. -/
def Op.removes (ok : Bool) (gid n : ℤ) : Op → Prop
  | .deleteProfile g i => gid = g ∧ n = i
  | .deleteGroup g => gid = g
  | .moveProfile fromGroup _ i => ok = true ∧ gid = fromGroup ∧ n = i
  | _ => False

def Op.removesGroup (gid : ℤ) : Op → Prop
  | .deleteGroup g => gid = g
  | _ => False

def Op.adds (ok : Bool) (w : World) (gid n : ℤ) : Op → Prop
  | .addProfile data => ∃ g, groupAt data.groupId w.disk w.key = some g ∧ gid = g.id ∧ n = g.lastId+1
  | .moveProfile _ toGroup _ => ok = true ∧ gid = toGroup ∧
      ∃ g, groupAt toGroup w.disk w.key = some g ∧ n = g.lastId+1
  | _ => False

/-- Nothing disappears but what the operation is told to remove, nothing comes
twice, and a moved profile is listed where it went. -/
structure Kept (subscriptionHost : String → String) (op : Op) (w : World) : Prop where
  groups : ∀ gid, Loaded w gid → ¬op.removesGroup gid → Loaded (op.run subscriptionHost w).2 gid
  profiles : ∀ gid n p, Loaded w gid → Stored w gid n p →
    ¬op.removes (op.run subscriptionHost w).1 gid n → Stored (op.run subscriptionHost w).2 gid n p
  fresh : ∀ gid n p, Stored (op.run subscriptionHost w).2 gid n p →
    Stored w gid n p ∨ op.adds (op.run subscriptionHost w).1 w gid n
  moved : ∀ fromGroup toGroup id, op = .moveProfile fromGroup toGroup id →
    (op.run subscriptionHost w).1 = true → ∃ p n, Stored w fromGroup id p ∧
      Stored (op.run subscriptionHost w).2 toGroup n { p with groupId := toGroup, id := n } ∧
      Loaded (op.run subscriptionHost w).2 toGroup ∧
      ∀ q, ¬Stored (op.run subscriptionHost w).2 fromGroup id q

/-- The number a step takes is free, and a move that copies a configuration can
write it. -/
def Op.Careful (w : World) : Op → Prop
  | .addProfile data => ∀ g, groupAt data.groupId w.disk w.key = some g →
      profileAt g.id (g.lastId+1) w.disk w.key = none
  | .moveProfile fromGroup toGroup id => fromGroup ≠ toGroup → ∀ old g,
      ProfileMoves.Started ⟨none,none,none,none⟩ fromGroup toGroup id old g w →
        profileAt toGroup (g.lastId+1) w.disk w.key = none ∧
        ¬(ProfileMoves.Copies ⟨none,none,none,none⟩ fromGroup id old w ∧
          w.faults[1]? = some true)
  | .addGroup _ _ => ∀ c, fileAt .dbConfig Payload.asDBConfig w.disk w.key = some c →
      groupAt (c.lastGroupId+1) w.disk w.key = none
  | _ => True

/-- Every state of a run is listed completely, and every step keeps what it is
not told to remove. -/
def KeptRun (subscriptionHost : String → String) : List Op → World → Prop
  | [],w => ListsAll w
  | op::ops,w => ListsAll w ∧ Kept subscriptionHost op w ∧
      KeptRun subscriptionHost ops (op.run subscriptionHost w).2

def CarefulRun (subscriptionHost : String → String) : List Op → World → Prop
  | [],_ => True
  | op::ops,w => op.Careful w ∧ CarefulRun subscriptionHost ops (op.run subscriptionHost w).2

end Steps

section Groups

variable {w w' : World}

/-- Every group that could be read can be read afterwards. -/
structure Loads (w w' : World) : Prop where
  key : w'.key = w.key
  groups : ∀ gid, Loaded w gid → Loaded w' gid

theorem loads_refl (w : World) : Loads w w := ⟨rfl,fun _ h => h⟩

theorem loads_trans (u v w : World) (h : Loads u v) (h' : Loads v w) : Loads u w :=
  ⟨h'.key.trans h.key,fun gid hg => h'.groups gid (h.groups gid hg)⟩

theorem loads_leaves {P : Path → Prop} (h : Leaves P w w')
    (hp : ∀ gid, ¬P (.groupConfig gid)) : Loads w w' := by
  refine ⟨h.key,fun gid hg => ?_⟩
  rw [Loaded,h.key,groupAt_congr _ (h.files _ (hp gid))]
  exact hg

theorem loads_save (g : Group) : Keeps Loads (saveGroupConfig g) := fun w =>
  ⟨(ProfileMoves.leaves_config g w).key,fun _ hg => ProfileMoves.loaded_save hg g⟩

theorem loads_read {α : Type} {m : DBM α} {v : Tree → Key → Option α} (h : ReadsAs m v) :
    Keeps Loads m :=
  fun w => loads_leaves (leaves_of_reads (P := fun _ => False) (h w).1) fun _ => id

theorem loads_remove {path : Path} (h : ∀ gid, Path.groupConfig gid ≠ path) :
    Keeps Loads (Database.remove path) :=
  fun w => loads_leaves (leaves_of_frame (frame_remove path w) fun _ hp => hp) h

theorem loads_write {path : Path} (h : ∀ gid, Path.groupConfig gid ≠ path)
    (wrap : DBError → DBError) (p : Payload) :
    Keeps Loads (wrapping wrap (writeEncryptedJSON path p)) :=
  fun w => loads_leaves (leaves_of_frame (keeps_wrapping wrap (frame_write path p) w)
    fun _ hp => hp) h

theorem loads_xray (wrap : DBError → DBError) (gid id : ℤ) (raw : RawMessage) :
    Keeps Loads (wrapping wrap (saveProfileXrayConfig gid id raw)) :=
  fun w => loads_leaves (leaves_of_frame
    (keeps_wrapping wrap (frame_saveProfileXrayConfig gid id raw) w) fun _ hp => hp) (by simp)

theorem loads_dropFromOrder (gid id : ℤ) : Keeps Loads (ProfileStore.dropFromOrder gid id) := by
  refine keeps_bind loads_trans (keeps_attempt (loads_read (readsAs_loadGroupConfig gid)))
    fun r => ?_
  cases r with
  | error e => exact keeps_pure loads_refl ()
  | ok g =>
    exact keeps_bind loads_trans (keeps_attempt (loads_save _)) fun _ => keeps_pure loads_refl ()

theorem loads_addProfile (data : DBAddProfileData) : Keeps Loads (ProfileStore.addProfile data) :=
  keeps_bind loads_trans (loads_read (readsAs_loadGroupConfig _)) fun _ =>
    keeps_bind loads_trans (loads_save _) fun _ => keeps_bind loads_trans (loads_remove nofun)
      fun _ => keeps_bind loads_trans (loads_write (by simp) _ _) fun _ =>
        keeps_bind loads_trans (keeps_when loads_refl fun _ => loads_xray _ _ _ _)
          fun _ => keeps_pure loads_refl _

theorem loads_deleteProfile (gid id : ℤ) : Keeps Loads (ProfileStore.deleteProfile gid id) :=
  keeps_bind loads_trans (loads_remove nofun) fun _ =>
    keeps_bind loads_trans (loads_remove nofun) fun _ => loads_dropFromOrder gid id

theorem loads_reorderProfiles (gid : ℤ) (ids : List ℤ) :
    Keeps Loads (ProfileStore.reorderProfiles gid ids) :=
  keeps_bind loads_trans (keeps_wrapping _ (loads_read (readsAs_loadGroupConfig gid)))
    fun _ => loads_save _

theorem loads_moveXrayConfig (fromGroup toGroup id newId : ℤ) :
    Keeps Loads (ProfileStore.moveXrayConfig fromGroup toGroup id newId) := by
  refine keeps_bind loads_trans (keeps_attempt (loads_read (readsAs_readEncryptedJSON
    (.profileXrayConfig fromGroup id) Payload.asRaw))) fun r => ?_
  cases r with
  | error e => exact keeps_pure loads_refl ()
  | ok raw => exact loads_xray _ _ _ _

theorem loads_moveProfile (fromGroup toGroup id : ℤ) :
    Keeps Loads (ProfileStore.moveProfile fromGroup toGroup id) := by
  unfold ProfileStore.moveProfile
  split
  · exact keeps_fail loads_refl _
  · refine keeps_bind loads_trans (keeps_wrapping _ (loads_read (readsAs_getProfile _ _)))
      fun old => keeps_bind loads_trans
        (keeps_wrapping _ (loads_read (readsAs_loadGroupConfig _))) fun g =>
          keeps_bind loads_trans (loads_write (by simp) _ _) fun _ => keeps_bind loads_trans
            (keeps_when loads_refl fun _ => loads_moveXrayConfig _ _ _ _) fun _ =>
              keeps_bind loads_trans (keeps_attempt (loads_save _)) fun r => ?_
    cases r with
    | error e =>
      exact keeps_bind loads_trans (loads_remove (by simp)) fun _ => keeps_fail loads_refl _
    | ok _ =>
      exact keeps_bind loads_trans (loads_remove (by simp)) fun _ =>
        keeps_bind loads_trans (loads_remove (by simp)) fun _ =>
          keeps_bind loads_trans (loads_dropFromOrder _ _) fun _ => keeps_pure loads_refl _

end Groups

section Preservation

variable {subscriptionHost : String → String} {w w' : World} {op : Op}

theorem stored_leaves {P : Path → Prop} (h : Leaves P w w') {gid n : ℤ} (hp : ¬P (.profile gid n))
    (p : Profile) : Stored w' gid n p ↔ Stored w gid n p := by
  rw [Stored,Stored,h.key,profileAt_congr _ (h.files _ hp)]

/-- An operation that touches only profiles it removes or adds. -/
theorem kept_of_leaves {P : Path → Prop} {ok : Bool} (hrun : op.run subscriptionHost w = (ok,w'))
    (hgroups : ∀ gid, Loaded w gid → ¬op.removesGroup gid → Loaded w' gid)
    (hl : Leaves P w w')
    (hbefore : ∀ gid n, P (.profile gid n) → Loaded w gid →
      profileAt gid n w.disk w.key = none ∨ op.removes ok gid n)
    (hafter : ∀ gid n, P (.profile gid n) →
      profileAt gid n w'.disk w'.key = none ∨ op.adds ok w gid n)
    (hmoved : ∀ fromGroup toGroup id, op = .moveProfile fromGroup toGroup id → ok = true →
      ∃ p n, Stored w fromGroup id p ∧ Stored w' toGroup n { p with groupId := toGroup, id := n } ∧
        Loaded w' toGroup ∧ ∀ q, ¬Stored w' fromGroup id q) :
    Kept subscriptionHost op w := by
  refine ⟨?_,?_,?_,?_⟩ <;> rw [hrun]
  · exact hgroups
  · intro gid n p hg hs hr
    by_cases hp : P (.profile gid n)
    · rcases hbefore gid n hp hg with hnone | hrem
      · rw [Stored,hnone] at hs
        cases hs
      · exact absurd hrem hr
    · exact (stored_leaves hl hp p).mpr hs
  · intro gid n p hs
    by_cases hp : P (.profile gid n)
    · rcases hafter gid n hp with hnone | hadd
      · rw [Stored,hnone] at hs
        cases hs
      · exact Or.inr hadd
    · exact Or.inl ((stored_leaves hl hp p).mp hs)
  · exact hmoved

theorem leaves_reorderProfiles (gid : ℤ) (ids : List ℤ) :
    Keeps (Leaves ProfileMoves.Config) (ProfileStore.reorderProfiles gid ids) :=
  keeps_bind leaves_trans (keeps_wrapping _ fun w => leaves_of_reads (readsAs_loadGroupConfig gid w).1)
    fun _ => ProfileMoves.leaves_config _

theorem kept_reorderProfiles (gid : ℤ) (ids : List ℤ) (w : World) :
    Kept subscriptionHost (.reorderProfiles gid ids) w :=
  kept_of_leaves rfl (fun g hg _ => (loads_reorderProfiles gid ids w).groups g hg)
    (leaves_reorderProfiles gid ids w) (by simp [ProfileMoves.Config])
    (by simp [ProfileMoves.Config]) nofun

theorem leaves_saveDBConfig (c : DBConfig) : Keeps (Leaves (· = .dbConfig)) (saveDBConfig c) :=
  fun w => leaves_of_frame (frame_write .dbConfig (.dbConfig c) w) fun _ h => h

theorem leaves_reorderGroups (ids : List ℤ) :
    Keeps (Leaves (· = .dbConfig)) (GroupStore.reorderGroups ids) :=
  keeps_bind leaves_trans (keeps_wrapping _ fun w => leaves_of_reads
    (readsAs_readEncryptedJSON .dbConfig Payload.asDBConfig w).1) fun _ => leaves_saveDBConfig _

theorem kept_reorderGroups (ids : List ℤ) (w : World) :
    Kept subscriptionHost (.reorderGroups ids) w :=
  kept_of_leaves rfl (fun g hg _ => (loads_leaves (leaves_reorderGroups ids w) nofun).groups g hg)
    (leaves_reorderGroups ids w) nofun nofun nofun

/-- An addition touches at most the file above the counter. -/
theorem leaves_addProfile {data : DBAddProfileData} {g : Group}
    (hg : groupAt data.groupId w.disk w.key = some g) :
    Leaves (ProfileIds.Touched g.id (g.lastId+1)) w (ProfileStore.addProfile data w).2 := by
  obtain ⟨hr,hv⟩ := readsAs_loadGroupConfig data.groupId w
  rw [hg] at hv
  rcases hl : loadGroupConfig data.groupId w with ⟨e | g',w₁⟩ <;> rw [hl] at hr hv
  · cases hv
  · obtain rfl : g' = g := Option.some.inj hv
    rw [ProfileStore.addProfile,bind_of_ok hl]
    refine leaves_trans _ _ _ (leaves_of_reads hr) (keeps_bind leaves_trans
      (ProfileIds.leaves_save _) (fun _ => keeps_bind leaves_trans (fun u => ?_) fun _ =>
        keeps_bind leaves_trans (fun u => ?_) fun _ => keeps_bind leaves_trans
          (keeps_when (leaves_refl _) fun _ => ProfileIds.leaves_xray _ _ _ _) fun _ =>
            keeps_pure (leaves_refl _) _) w₁)
    · exact leaves_of_frame (frame_remove _ u) fun _ h => Or.inr (Or.inl h)
    · exact leaves_of_frame (keeps_wrapping _ (frame_write _ _) u) fun _ h => Or.inr (Or.inl h)

theorem touched_profile {gid n g m : ℤ} (h : ProfileIds.Touched g m (.profile gid n)) :
    gid = g ∧ n = m := by
  rcases h with ⟨i,h⟩ | h | ⟨i,j,h⟩
  · cases h
  · exact ⟨(Path.profile.inj h).1,(Path.profile.inj h).2⟩
  · cases h

theorem kept_addProfile (data : DBAddProfileData) (w : World)
    (hc : (Op.addProfile data).Careful w) : Kept subscriptionHost (.addProfile data) w := by
  have hgroups : ∀ gid, Loaded w gid → ¬(Op.addProfile data).removesGroup gid →
      Loaded (ProfileStore.addProfile data w).2 gid :=
    fun gid hg _ => (loads_addProfile data w).groups gid hg
  cases hg : groupAt data.groupId w.disk w.key with
  | none =>
    have hl : Leaves (fun _ => False) w (ProfileStore.addProfile data w).2 := by
      obtain ⟨hr,hv⟩ := readsAs_loadGroupConfig data.groupId w
      rw [hg] at hv
      rcases hload : loadGroupConfig data.groupId w with ⟨e | g,u⟩ <;> rw [hload] at hr hv
      · rw [ProfileStore.addProfile,bind_of_error hload]
        exact leaves_of_reads hr
      · cases hv
    exact kept_of_leaves rfl hgroups hl (fun _ _ => False.elim) (fun _ _ => False.elim) (by simp)
  | some g =>
    refine kept_of_leaves rfl hgroups (leaves_addProfile hg) (fun gid n hp _ => ?_)
      (fun gid n hp => ?_) (by simp)
    · obtain ⟨rfl,rfl⟩ := touched_profile hp
      exact Or.inl (hc g hg)
    · obtain ⟨rfl,rfl⟩ := touched_profile hp
      exact Or.inr ⟨g,hg,rfl,rfl⟩

theorem kept_deleteProfile (gid id : ℤ) (w : World) :
    Kept subscriptionHost (.deleteProfile gid id) w := by
  let u : World := { w with
    disk := (w.disk.erase (.profile gid id)).erase (.profileXrayConfig gid id) }
  obtain ⟨v,hdrop,hl,-⟩ := ProfileMoves.dropFromOrder_spec ⟨none,none,none,none⟩ gid gid id u
  have hrun : ProfileStore.deleteProfile gid id w = (.ok (),v) := hdrop
  have hgone : readFile (.profile gid id) v.disk = none := by
    rw [hl.files _ (by simp [ProfileMoves.Config]),readFile_erase,if_neg (by simp),readFile_erase,
      if_pos rfl]
  have hall : Leaves (ProfileMoves.Cleared gid id) w v := by
    refine ⟨hl.key,fun path hp => ?_⟩
    rw [hl.files path fun h => hp (.inr (.inr h)),readFile_erase,
      if_neg fun h => hp (.inr (.inl h)),readFile_erase,if_neg fun h => hp (.inl h)]
  have hprofile : ∀ g n, ProfileMoves.Cleared gid id (.profile g n) → g = gid ∧ n = id := by
    rintro g n (h | h | ⟨i,h⟩)
    · exact ⟨(Path.profile.inj h).1,(Path.profile.inj h).2⟩
    · cases h
    · cases h
  have hout : (Op.deleteProfile gid id).run subscriptionHost w = (true,v) := by
    rw [Op.run,outcome,hrun]
    rfl
  refine kept_of_leaves hout (fun g hg _ => ?_) hall (fun g n hp _ => ?_) (fun g n hp => ?_)
    (by simp)
  · have hloads := (loads_deleteProfile gid id w).groups g hg
    rwa [hrun] at hloads
  · exact Or.inr (hprofile g n hp)
  · obtain ⟨rfl,rfl⟩ := hprofile g n hp
    left
    rw [profileAt,fileAt,hgone]
    rfl

/-- A move that gets past its first write. -/
theorem kept_ending {fromGroup toGroup id : ℤ} {old : Profile} {g : Group}
    {r : Except DBError Profile × World}
    (hs : ProfileMoves.Started ⟨none,none,none,none⟩ fromGroup toGroup id old g w)
    (hend : ProfileMoves.Ending ⟨none,none,none,none⟩ fromGroup toGroup id old g w r)
    (hrun : ProfileStore.moveProfile fromGroup toGroup id w = r)
    (hfree : profileAt toGroup (g.lastId+1) w.disk w.key = none)
    (hwrite : ¬(ProfileMoves.Copies ⟨none,none,none,none⟩ fromGroup id old w ∧
      w.faults[1]? = some true))
    (hgroups : ∀ gid, Loaded w gid → ¬(Op.moveProfile fromGroup toGroup id).removesGroup gid →
      Loaded (ProfileStore.moveProfile fromGroup toGroup id w).2 gid) :
    Kept subscriptionHost (.moveProfile fromGroup toGroup id) w := by
  rw [hrun] at hgroups
  have hout : (Op.moveProfile fromGroup toGroup id).run subscriptionHost w =
      (r.1.toOption.isSome,r.2) := by rw [Op.run,outcome,hrun]
  cases hend with
  | halfway e v hc hw => exact absurd ⟨hc,hw⟩ hwrite
  | undone e v hc hw hl hp =>
    refine kept_of_leaves hout hgroups hl (fun gid n h _ => ?_) (fun gid n h => ?_)
      fun _ _ _ _ h => nomatch h
    · rcases h with h | h
      · obtain ⟨rfl,rfl⟩ := Path.profile.inj h
        exact Or.inl hfree
      · cases h
    · rcases h with h | h
      · obtain ⟨rfl,rfl⟩ := Path.profile.inj h
        exact Or.inl hp
      · cases h
  | done v hc hw hl hgone hp hg hx =>
    refine kept_of_leaves hout hgroups hl (fun gid n h _ => ?_) (fun gid n h => ?_) ?_
    · rcases h with (h | h) | h | h | ⟨i,h⟩
      · obtain ⟨rfl,rfl⟩ := Path.profile.inj h
        exact Or.inl hfree
      · cases h
      · obtain ⟨rfl,rfl⟩ := Path.profile.inj h
        exact Or.inr ⟨rfl,rfl,rfl⟩
      · cases h
      · cases h
    · rcases h with (h | h) | h | h | ⟨i,h⟩
      · obtain ⟨rfl,rfl⟩ := Path.profile.inj h
        exact Or.inr ⟨rfl,rfl,g,hs.group,rfl⟩
      · cases h
      · obtain ⟨rfl,rfl⟩ := Path.profile.inj h
        exact Or.inl hgone
      · cases h
      · cases h
    · intro f t i hop _
      obtain ⟨rfl,rfl,rfl⟩ := Op.moveProfile.inj hop
      refine ⟨old,g.lastId+1,hs.old,hp,hg,fun q hq => ?_⟩
      rw [Stored,hgone] at hq
      cases hq

theorem kept_moveProfile (fromGroup toGroup id : ℤ) (w : World)
    (hc : (Op.moveProfile fromGroup toGroup id).Careful w) :
    Kept subscriptionHost (.moveProfile fromGroup toGroup id) w := by
  have hgroups : ∀ gid, Loaded w gid → ¬(Op.moveProfile fromGroup toGroup id).removesGroup gid →
      Loaded (ProfileStore.moveProfile fromGroup toGroup id w).2 gid :=
    fun gid hg _ => (loads_moveProfile fromGroup toGroup id w).groups gid hg
  by_cases hne : fromGroup = toGroup
  · have hrun : ProfileStore.moveProfile fromGroup toGroup id w = (.error .sameGroups,w) := by
      rw [ProfileStore.moveProfile,if_pos hne]
      rfl
    have hout : (Op.moveProfile fromGroup toGroup id).run subscriptionHost w = (false,w) := by
      rw [Op.run,outcome,hrun]
      rfl
    exact kept_of_leaves hout (fun _ hg _ => hg) (leaves_refl (fun _ => False) w)
      (fun _ _ => False.elim) (fun _ _ => False.elim) (by simp)
  · rcases ProfileMoves.move_cases ⟨none,none,none,none⟩ fromGroup toGroup id hne w
      with ⟨e,v,hrun,hl,-⟩ | ⟨old,g,hs,hend⟩
    · rw [ProfileMoves.moveProfile_readable] at hrun
      have hout : (Op.moveProfile fromGroup toGroup id).run subscriptionHost w = (false,v) := by
        rw [Op.run,outcome,hrun]
        rfl
      rw [hrun] at hgroups
      exact kept_of_leaves hout hgroups hl (fun _ _ => False.elim) (fun _ _ => False.elim)
        (by simp)
    · obtain ⟨hfree,hwrite⟩ := hc hne old g hs
      rw [ProfileMoves.moveProfile_readable] at hend
      exact kept_ending hs hend rfl hfree hwrite hgroups

theorem dropFromGroupOrder_spec (gid : ℤ) (u : World) :
    ∃ v, dropFromGroupOrder gid u = (.ok (),v) ∧ Leaves (· = .dbConfig) u v := by
  have hr := (readsAs_readEncryptedJSON .dbConfig Payload.asDBConfig u).1
  unfold dropFromGroupOrder
  rw [bind_of_ok (attempt_run _ u),loadDBConfig]
  rcases hload : readEncryptedJSON .dbConfig Payload.asDBConfig u with ⟨e | c,v⟩ <;>
    rw [hload] at hr
  · exact ⟨v,rfl,leaves_of_reads hr⟩
  · exact ⟨_,rfl,leaves_trans _ _ _ (leaves_of_reads hr) (leaves_saveDBConfig _ v)⟩

theorem kept_deleteGroup (gid : ℤ) (w : World) : Kept subscriptionHost (.deleteGroup gid) w := by
  obtain ⟨v,hdrop,hl⟩ := dropFromGroupOrder_spec gid (osRemoveAll (inGroupDir gid) w).2
  have hrun : GroupStore.deleteGroup gid w = (.ok (),v) := hdrop
  have hout : (Op.deleteGroup gid).run subscriptionHost w = (true,v) := by
    rw [Op.run,outcome,hrun]
    rfl
  have hall : Leaves (fun path => inGroupDir gid path = true ∨ path = .dbConfig) w v :=
    leaves_trans _ _ _ (leaves_of_frame (frame_osRemoveAll (inGroupDir gid) w) fun _ => .inl)
      ⟨hl.key,fun path hp => hl.files path fun h => hp (.inr h)⟩
  have hgone : ∀ n, profileAt gid n v.disk v.key = none := by
    intro n
    rw [profileAt,fileAt,hl.files (.profile gid n) (by simp),osRemoveAll,modify_run,
      readFile_removeAll,if_pos (by simp [inGroupDir,Path.group?])]
    rfl
  have hinside : ∀ g n, inGroupDir gid (.profile g n) = true ∨ Path.profile g n = .dbConfig →
      g = gid := by
    intro g n h
    simpa [inGroupDir,Path.group?] using h
  refine kept_of_leaves hout (fun g hg hne => ?_) hall (fun g n hp _ => ?_) (fun g n hp => ?_)
    (by simp)
  · have hout' : ¬(inGroupDir gid (.groupConfig g) = true ∨ Path.groupConfig g = .dbConfig) := by
      have hne' : ¬g = gid := hne
      simpa [inGroupDir,Path.group?] using hne'
    rw [Loaded,hall.key,groupAt_congr _ (hall.files _ hout')]
    exact hg
  · exact Or.inr (hinside g n hp)
  · rw [hinside g n hp]
    exact Or.inl (hgone n)

/-- A group that is added touches its own directory only, which it empties. -/
theorem leaves_newGroup (gid : ℤ) (g : Group) (added : GroupAdded) (u : World) :
    let v := ((do
      osRemoveAll (inGroupDir gid)
      osMkdirAll (.groupDir gid)
      wrapping (.writeFile (.groupConfig gid)) (writeEncryptedJSON (.groupConfig gid) (.group g))
      pure added : DBM GroupAdded) u).2
    Leaves (fun path => inGroupDir gid path = true) u v ∧
      ∀ n, profileAt gid n v.disk v.key = none := by
  let u' := (osMkdirAll (.groupDir gid) (osRemoveAll (inGroupDir gid) u).2).2
  have hfirst : Leaves (fun path => inGroupDir gid path = true) u u' :=
    leaves_trans _ _ _ (leaves_of_frame (frame_osRemoveAll (inGroupDir gid) u) fun _ h => h)
      (leaves_of_frame (frame_osMkdirAll _ _ _) fun _ h => h)
  have hempty : ∀ n, readFile (.profile gid n) u'.disk = none := fun n => by
    simp only [u',osMkdirAll,modify_run,readFile_mkdirFor,osRemoveAll,readFile_removeAll]
    rw [if_pos (by simp [inGroupDir,Path.group?])]
  have hsave : Leaves (· = .groupConfig gid) u' (wrapping (.writeFile (.groupConfig gid))
      (writeEncryptedJSON (.groupConfig gid) (.group g)) u').2 :=
    leaves_of_frame (keeps_wrapping _ (frame_write _ _) u') fun _ h => h
  have hrun : ((do
      osRemoveAll (inGroupDir gid)
      osMkdirAll (.groupDir gid)
      wrapping (.writeFile (.groupConfig gid)) (writeEncryptedJSON (.groupConfig gid) (.group g))
      pure added : DBM GroupAdded) u).2 = (wrapping (.writeFile (.groupConfig gid))
      (writeEncryptedJSON (.groupConfig gid) (.group g)) u').2 := by
    change ((wrapping (.writeFile (.groupConfig gid)) (writeEncryptedJSON (.groupConfig gid)
      (.group g)) >>= fun _ => (pure added : DBM GroupAdded)) u').2 = _
    rw [bind_run]
    split <;> rename_i h <;> rw [h]
    rfl
  rw [hrun]
  refine ⟨leaves_trans _ _ _ hfirst ⟨hsave.key,fun path hp => hsave.files path ?_⟩,fun n => ?_⟩
  · rintro rfl
    exact hp (by simp [inGroupDir,Path.group?])
  · rw [profileAt,fileAt,hsave.files (.profile gid n) (by simp),hempty]
    rfl

theorem kept_addGroup (name url : String) (w : World) (hc : (Op.addGroup name url).Careful w) :
    Kept subscriptionHost (.addGroup name url) w := by
  obtain ⟨hr,hv⟩ := readsAs_readEncryptedJSON .dbConfig Payload.asDBConfig w
  rcases hload : readEncryptedJSON .dbConfig Payload.asDBConfig w with ⟨e | c,u⟩ <;>
    rw [hload] at hr hv
  · have hrun : GroupStore.addGroup subscriptionHost name url w = (.error e,u) :=
      bind_of_error hload
    have hl : Leaves (fun _ => False) w u := leaves_of_reads hr
    exact kept_of_leaves (by rw [Op.run,outcome,hrun]) (fun g hg _ =>
      (loads_leaves hl fun _ => id).groups g hg) hl (fun _ _ => False.elim) (fun _ _ => False.elim)
      nofun
  · obtain rfl := (read_ok hload).1
    have hfree := hc c hv.symm
    rcases write_cases .dbConfig (.dbConfig ⟨c.lastGroupId+1,c.groupOrder ++ [c.lastGroupId+1]⟩) u
      with ⟨-,h⟩ | ⟨-,-,h⟩ | ⟨-,-,h⟩
    · have hrun : GroupStore.addGroup subscriptionHost name url u = (.error _,u) :=
        (bind_of_ok hload).trans (bind_of_error h)
      have hl : Leaves (fun _ => False) u u := leaves_refl _ u
      exact kept_of_leaves (by rw [Op.run,outcome,hrun]) (fun _ hg _ => hg) hl
        (fun _ _ => False.elim) (fun _ _ => False.elim) nofun
    · have hrun : GroupStore.addGroup subscriptionHost name url u =
          (.error _,{ u with faults := u.faults.tail }) :=
        (bind_of_ok hload).trans (bind_of_error h)
      have hout : (Op.addGroup name url).run subscriptionHost u =
          (false,{ u with faults := u.faults.tail }) := by
        rw [Op.run,outcome,hrun]
        rfl
      have hl : Leaves (fun _ => False) u { u with faults := u.faults.tail } :=
        ⟨rfl,fun _ _ => rfl⟩
      exact kept_of_leaves hout (fun _ hg _ => hg) hl (fun _ _ => False.elim)
        (fun _ _ => False.elim) nofun
    · have hrun : GroupStore.addGroup subscriptionHost name url u = _ :=
        (bind_of_ok hload).trans (bind_of_ok h)
      obtain ⟨hl,hgone⟩ := leaves_newGroup (c.lastGroupId+1)
        (newGroupConfig subscriptionHost (c.lastGroupId+1) name url)
        { id := c.lastGroupId+1, subscriptionUrl := url,
          name := (newGroupConfig subscriptionHost (c.lastGroupId+1) name url).name }
        (store .dbConfig (.dbConfig ⟨c.lastGroupId+1,c.groupOrder ++ [c.lastGroupId+1]⟩) u)
      have hall := leaves_trans (P := fun path =>
          inGroupDir (c.lastGroupId+1) path = true ∨ path = .dbConfig) _ _ _
        (leaves_of_frame (frame_store .dbConfig
          (.dbConfig ⟨c.lastGroupId+1,c.groupOrder ++ [c.lastGroupId+1]⟩) u) fun _ => .inr)
        ⟨hl.key,fun path hp => hl.files path fun h => hp (.inl h)⟩
      have hinside : ∀ g n, inGroupDir (c.lastGroupId+1) (.profile g n) = true ∨
          Path.profile g n = .dbConfig → g = c.lastGroupId+1 := by
        intro g n h
        simpa [inGroupDir,Path.group?] using h
      have hother : ∀ g, Loaded u g → g ≠ c.lastGroupId+1 := by
        rintro g hg rfl
        rw [Loaded,hfree] at hg
        cases hg
      refine kept_of_leaves (by rw [Op.run,outcome,hrun]) (fun g hg _ => ?_) hall
        (fun g n hp hg => absurd (hinside g n hp) (hother g hg)) (fun g n hp => ?_) nofun
      · have hout : ¬(inGroupDir (c.lastGroupId+1) (.groupConfig g) = true ∨
            Path.groupConfig g = .dbConfig) := by
          simpa [inGroupDir,Path.group?] using hother g hg
        rw [Loaded,hall.key,groupAt_congr _ (hall.files _ hout)]
        exact hg
      · rw [hinside g n hp]
        exact Or.inl (hgone n)

theorem op_kept (op : Op) (w : World) (hc : op.Careful w) : Kept subscriptionHost op w := by
  cases op with
  | addProfile data => exact kept_addProfile data w hc
  | deleteProfile gid id => exact kept_deleteProfile gid id w
  | moveProfile fromGroup toGroup id => exact kept_moveProfile fromGroup toGroup id w hc
  | reorderProfiles gid ids => exact kept_reorderProfiles gid ids w
  | addGroup name url => exact kept_addGroup name url w hc
  | deleteGroup gid => exact kept_deleteGroup gid w
  | reorderGroups ids => exact kept_reorderGroups ids w

/-- Listings stay complete over every careful run. -/
theorem listings_kept (subscriptionHost : String → String) (ops : List Op) (w : World)
    (h : CarefulRun subscriptionHost ops w) : KeptRun subscriptionHost ops w := by
  induction ops generalizing w with
  | nil => exact listsAll w
  | cons op ops ih => exact ⟨listsAll w,op_kept op w h.1,ih _ h.2⟩

/-- A group with one profile and a given counter. -/
def oneProfile (lastId : ℤ) : World :=
  worldOf (newGroup 1 "g" lastId) [ProfileMoves.served] []

theorem reordered_listings_kept : KeptRun id
    [.reorderProfiles 1 [9,1,1],.addProfile (uriEntry 1 "vless://x" "x"),.deleteProfile 1 9]
    (oneProfile 1) := by
  refine listings_kept _ _ _ ⟨trivial,fun g hg => ?_,trivial,trivial⟩
  have hstored : groupAt 1 ((Op.reorderProfiles 1 [9,1,1]).run id (oneProfile 1)).2.disk
      ((Op.reorderProfiles 1 [9,1,1]).run id (oneProfile 1)).2.key =
        some { newGroup 1 "g" 1 with profileOrder := [9,1,1] } := by decide +kernel
  obtain rfl := Option.some.inj (hg.symm.trans hstored)
  decide +kernel

/-- Behind a counter that is too low an addition replaces a stored profile. -/
theorem stale_counter_loses : ¬∀ (subscriptionHost : String → String) (ops : List Op) (w : World),
    KeptRun subscriptionHost ops w := by
  intro h
  have hkept := (h id [.addProfile (uriEntry 1 "vless://x" "x")] (oneProfile 0)).2.1
  have hlost := hkept.profiles 1 1 ProfileMoves.served (by unfold Loaded; decide +kernel)
    (by unfold Stored; decide +kernel) fun h => h
  unfold Stored at hlost
  revert hlost
  decide +kernel

end Preservation

end Whoisthat.Listings
