import Whoisthat.Dispatch
import Whoisthat.MirroredBooks

/-!
# The client's list of servers follows the core's

Each command that changes groups or profiles, as the core handles it, with the
notification that it sends; and a client that reads the notifications off the wire and
applies what it understands. It shows what the core would list: the same groups in the
same order with the same profiles in the same order, as long as the database can be
written, orders are given for exactly what is stored, and numbers fit the client's.
-/

set_option autoImplicit false

namespace Whoisthat.ClientMirror
open Whoisthat.FileStore Whoisthat.FallibleState Whoisthat.Records Whoisthat.Database
open Whoisthat.GroupFiles Whoisthat.GroupSync Whoisthat.CliRouting Whoisthat.CoreBooks
open Whoisthat.MirroredOrders Whoisthat.MirroredBooks Whoisthat.TreeEvents
open Whoisthat.Structs (Notification collected)
open Whoisthat.WireRecords (Slice.items)
open Whoisthat.TreeView (App)

section Source

inductive Command where
  | addProfiles (datas : List DBAddProfileData)
  | deleteProfiles (profiles : List Protocol.ProfileID)
  | updateProfile (profile : Protocol.ProfileID) (name : String)
  | reorderProfiles (groupId : Int32) (profileIds : List Int32)
  | moveProfile (profileId fromGroupId toGroupId : Int32)
  | addGroup (name subscriptionUrl : String)
  | deleteGroup (id : Int32)
  | updateGroup (id : Int32) (name subscriptionUrl : String) (autoUpdate : Option Bool)
      (updateInterval : Option ℤ)
  | reorderGroups (groupIds : List Int32)

/-- `lib.AddProfiles`: what became of each. -/
def addedProfiles : List DBAddProfileData → DBM (List (Option Profile))
  | [] => pure []
  | data::datas => do
    let r ← attempt (ProfileStore.addProfile data)
    let rest ← addedProfiles datas
    pure (r.toOption::rest)

def deletedProfiles : List Protocol.ProfileID → DBM (List (Option Protocol.ProfileID))
  | [] => pure []
  | p::profiles => do
    let r ← attempt (ProfileStore.deleteProfile p.groupId.toInt p.id.toInt)
    let rest ← deletedProfiles profiles
    pure (r.toOption.map (fun _ => p)::rest)

/-- What succeeds is sent to the clients; of what fails they get a warning, which leaves
their lists alone. -/
def announce {α : Type} (m : DBM α) (event : α → Notification) (w : World) :
    Option Notification × World := ((m w).1.toOption.map event,(m w).2)

def maxUpdateIntervalSeconds : ℤ := 8760*3600

def goProfileID (p : Protocol.ProfileID) : Structs.ProfileID := ⟨goInt p.id,goInt p.groupId⟩

def Command.run (subscriptionHost : String → String) :
    Command → World → Option Notification × World
  | .addProfiles datas => announce (addedProfiles datas) fun results =>
    .profilesAdded (collected (results.map (Option.map goProfile)))
  | .deleteProfiles profiles => announce (deletedProfiles profiles) fun results =>
    .profilesDeleted (collected (results.map (Option.map goProfileID)))
  | .updateProfile profile name =>
    announce (ProfileStore.renameProfile profile.groupId.toInt profile.id.toInt name)
      fun p => .profileUpdated (goProfile p)
  | .reorderProfiles groupId profileIds =>
    announce (ProfileStore.reorderProfiles groupId.toInt (profileIds.map Int32.toInt))
      fun _ => .profilesReordered ⟨goInt groupId,some (profileIds.map goInt)⟩
  | .moveProfile profileId fromGroupId toGroupId =>
    announce (ProfileStore.moveProfile fromGroupId.toInt toGroupId.toInt profileId.toInt)
      fun p => .profileMoved ⟨goProfileID ⟨profileId,fromGroupId⟩,goProfile p⟩
  | .addGroup name url =>
    announce (GroupStore.addGroup subscriptionHost name url) fun g =>
      .groupAdded ⟨Int64.ofInt g.id,g.subscriptionUrl,g.name⟩
  | .deleteGroup id =>
    announce (GroupStore.deleteGroup id.toInt) fun _ => .groupDeleted (goInt id)
  | .updateGroup id name url autoUpdate updateInterval => fun w =>
    if updateInterval.any fun n => n < 0 || maxUpdateIntervalSeconds < n then (none,w)
    else announce (GroupStore.updateGroupConfig subscriptionHost id.toInt name url autoUpdate
      updateInterval) (fun g => .groupUpdated (goGroup g)) w
  | .reorderGroups groupIds =>
    announce (GroupStore.reorderGroups (groupIds.map Int32.toInt)) fun _ =>
      .groupsReordered (some (groupIds.map goInt))

/-- What `handle_core_event` does to the tree: nothing but this. -/
def treeEvent : Dispatch.CoreEvent → Option Event
  | .applicationState s => some (.applicationState s.groups)
  | .profilesAdded profiles => some (.profilesAdded profiles)
  | .profilesDeleted deleted => some (.profilesDeleted deleted)
  | .profileUpdated p => some (.profileUpdated p)
  | .groupAdded g => some (.groupAdded g)
  | .groupDeleted id => some (.groupDeleted id)
  | .groupUpdated g => some (.groupUpdated g)
  | .subscriptionUpdated group profiles routingProfiles _ =>
    some (.subscriptionUpdated group profiles routingProfiles)
  | .profilesReordered groupId profileIds => some (.profilesReordered groupId profileIds)
  | .groupsReordered groupIds => some (.groupsReordered groupIds)
  | .profileMoved oldProfile newProfile => some (.profileMoved oldProfile newProfile)
  | _ => none

/-- A client that gets a frame, or none. -/
def hear (toLowercase : String → String) (order : HashOrder) (requestId : String)
    (n : Option Notification) (s : App) : App :=
  ((n.bind fun n => Dispatch.receive (n.frame requestId)).bind treeEvent).elim s
    (Event.apply toLowercase order s)

end Source

section Commands

variable (subscriptionHost toLowercase : String → String)

/-- Orders are given for exactly what is stored, and new numbers fit the client's. -/
def Command.Careful (b : Book) : Command → Prop
  | .addProfiles datas => ∀ data ∈ datas, FitsInt32 data.port ∧
      ∀ g, b.group data.groupId = some g → g.lastId+datas.length ≤ 2147483647
  | .reorderProfiles groupId profileIds => (b.group groupId.toInt).isSome = true → ∀ n,
      n ∈ profileIds.map Int32.toInt ↔ (b.profile groupId.toInt n).isSome = true
  | .moveProfile _ _ toGroupId => ∀ g, b.group toGroupId.toInt = some g → FitsInt32 (g.lastId+1)
  | .addGroup _ _ => ∀ c, b.config = some c → FitsInt32 (c.lastGroupId+1)
  | .reorderGroups groupIds => ∀ gid,
      gid ∈ groupIds.map Int32.toInt ↔ (b.group gid).isSome = true
  | _ => True

structure InStep (w : World) (s : App) : Prop where
  healthy : Healthy w
  sound : Sound (bookOf w)
  mirrored : Mirrored (bookOf w) s.groups

variable {subscriptionHost toLowercase} {order : HashOrder} {requestId : String} {w : World}
  {s : App}

theorem clampCursor_groups (s : App) : (clampCursor toLowercase s).groups = s.groups := by
  unfold clampCursor
  dsimp only
  split_ifs <;> rfl

/-- A message that fits is heard with its content. -/
theorem hear_fits {n : Notification} {e : Event} (h : Dispatch.fits n = true)
    (he : treeEvent (Dispatch.seen n) = some e) :
    hear toLowercase order requestId (some n) s = e.apply toLowercase order s := by
  rw [hear,Option.bind_some,(Dispatch.receive_iff_fits n requestId).mpr h,Option.bind_some,he]
  rfl

theorem hear_missed {n : Notification} (h : Dispatch.fits n = false) :
    hear toLowercase order requestId (some n) s = s := by
  rw [hear,Option.bind_some,Dispatch.receive,Dispatch.read_frame,Option.map_some,
    Dispatch.dispatch_frame,h]
  rfl

theorem inStep_announce {α : Type} {m : DBM α} {event : α → Notification} {r : Option α} {b : Book}
    (hl : Leads m w r b) (hs : Sound b)
    (hm : Mirrored b (hear toLowercase order requestId (r.map event) s).groups) :
    InStep (announce m event w).2
      (hear toLowercase order requestId (announce m event w).1 s) := by
  constructor
  · exact hl.healthy
  · exact hl.book ▸ hs
  · change Mirrored (bookOf (m w).2)
      (hear toLowercase order requestId ((m w).1.toOption.map event) s).groups
    rw [hl.book,hl.result]
    exact hm

theorem inStep_heard {α : Type} {m : DBM α} {event : α → Notification} {a : α} {b : Book}
    {e : Event} (hl : Leads m w (some a) b) (hs : Sound b) (hf : Dispatch.fits (event a) = true)
    (he : treeEvent (Dispatch.seen (event a)) = some e)
    (hm : Mirrored b (e.apply toLowercase order s).groups) :
    InStep (announce m event w).2
      (hear toLowercase order requestId (announce m event w).1 s) := by
  refine inStep_announce hl hs ?_
  rw [Option.map_some,hear_fits hf he]
  exact hm

/-- A command that fails is not announced, and has changed nothing. -/
theorem inStep_refused {α : Type} {m : DBM α} {event : α → Notification} (h : InStep w s)
    (hl : Leads m w none (bookOf w)) :
    InStep (announce m event w).2
      (hear toLowercase order requestId (announce m event w).1 s) :=
  inStep_announce hl h.sound h.mirrored

/-- What was added, each with numbers that the client can read. -/
theorem addedProfiles_mirrored {datas : List DBAddProfileData} (h : InStep w s)
    (hc : (Command.addProfiles datas).Careful (bookOf w)) :
    ∃ results b, Leads (addedProfiles datas) w (some results) b ∧ Sound b ∧
      (∀ p, some p ∈ results → Fits p) ∧
      Mirrored b (applyProfilesAdded ((results.filterMap id).map sentProfile) s).groups := by
  induction datas generalizing w s with
  | nil =>
    exact ⟨[],bookOf w,leads_pure h.healthy [],h.sound,fun p hp => absurd hp List.not_mem_nil,
      h.mirrored⟩
  | cons data datas ih =>
    obtain ⟨hport,hnow⟩ := hc data List.mem_cons_self
    cases hg : (bookOf w).group data.groupId with
    | none =>
      have hl := leads_addProfile_missing h.healthy hg
      have hlater : (Command.addProfiles datas).Careful (bookOf w) := by
        intro d hd
        obtain ⟨hport,hroom⟩ := hc d (List.mem_cons_of_mem _ hd)
        refine ⟨hport,fun g hgd => ?_⟩
        have hlast := hroom g hgd
        rw [List.length_cons] at hlast
        omega
      rw [← hl.book] at hlater
      obtain ⟨results,b,hrest,hs,hfits,hm⟩ :=
        ih ⟨hl.healthy,hl.book ▸ h.sound,hl.book ▸ h.mirrored⟩ hlater
      refine ⟨none::results,b,leads_next (leads_bind hrest fun w' hw' hb => ?_),hs,
        fun p hp => hfits p ((List.mem_cons.mp hp).resolve_left (by simp)),hm⟩
      rw [hl.result,← hb]
      exact leads_pure hw' _
    | some g =>
      have hsg := (h.sound.groups _ g hg).1
      have hl := leads_addProfile h.healthy hg hsg.id
      have hroom := hnow g hg
      rw [List.length_cons] at hroom
      have hfits : Fits (profileOf (g.lastId+1) data) := by
        have hlast := hsg.fits.lastId
        have hid : FitsInt32 (g.lastId+1) := ⟨by have := hlast.1; omega,by omega⟩
        have hzero : FitsInt32 0 := ⟨by decide,by decide⟩
        have hgid : FitsInt32 data.groupId := hsg.id ▸ hsg.fits.id
        exact ⟨hid,hgid,hzero,hzero,hzero,hport⟩
      have hlater : (Command.addProfiles datas).Careful
          ((bookOf w).push data.groupId g (profileOf (g.lastId+1) data)) := by
        intro d hd
        obtain ⟨hport,hroom'⟩ := hc d (List.mem_cons_of_mem _ hd)
        refine ⟨hport,fun g' hg' => ?_⟩
        by_cases he : d.groupId = data.groupId
        · rw [he,group_push] at hg'
          obtain rfl := Option.some.inj hg'
          dsimp only
          omega
        · rw [(apart_push _ _ _ _).group _ he] at hg'
          have hlast := hroom' g' hg'
          rw [List.length_cons] at hlast
          omega
      have hs' := sound_push h.sound hg (p := profileOf (g.lastId+1) data) rfl rfl hfits
      have hkey : (sentProfile (profileOf (g.lastId+1) data)).groupId.toInt = data.groupId :=
        narrow_small hfits.groupId
      have hm' := mirrored_push h.mirrored h.sound hg (p := profileOf (g.lastId+1) data) hkey
        (q := cleanProfile (sentProfile (profileOf (g.lastId+1) data))) (sent_id hfits)
        (cleanProfile_idem _)
      rw [← hl.book] at hlater hs' hm'
      obtain ⟨results,b,hrest,hs,hall,hm⟩ := ih (s := modifyGroup
        (sentProfile (profileOf (g.lastId+1) data)).groupId
        (pushProfile (cleanProfile (sentProfile (profileOf (g.lastId+1) data)))) s)
        ⟨hl.healthy,hs',hm'⟩ hlater
      refine ⟨some (profileOf (g.lastId+1) data)::results,b,
        leads_next (leads_bind hrest fun w' hw' hb => ?_),hs,?_,hm⟩
      · rw [hl.result,← hb]
        exact leads_pure hw' _
      · intro p hp
        cases List.mem_cons.mp hp with
        | inl he => exact Option.some.inj he ▸ hfits
        | inr hp => exact hall p hp

theorem deletedProfiles_mirrored (profiles : List Protocol.ProfileID) (h : InStep w s) :
    ∃ b, Leads (deletedProfiles profiles) w (some (profiles.map some)) b ∧ Sound b ∧
      Mirrored b (profiles.foldl (fun s d =>
        modifyGroup d.groupId (retainProfiles fun p => p.id ≠ d.id) s) s).groups := by
  induction profiles generalizing w s with
  | nil => exact ⟨bookOf w,leads_pure h.healthy [],h.sound,h.mirrored⟩
  | cons d profiles ih =>
    have hl := leads_deleteProfile h.healthy
      (fun g hg => (h.sound.groups d.groupId.toInt g hg).1.id) d.id.toInt
    have hs' := sound_drop h.sound d.groupId.toInt d.id.toInt
    have hm' := mirrored_drop h.mirrored h.sound (i := d.groupId) rfl (j := d.id) rfl
    rw [← hl.book] at hs' hm'
    obtain ⟨b,hrest,hs,hm⟩ := ih (s := modifyGroup d.groupId
      (retainProfiles fun p => p.id ≠ d.id) s) ⟨hl.healthy,hs',hm'⟩
    refine ⟨b,leads_next (leads_bind hrest fun w' hw' hb => ?_),hs,hm⟩
    rw [hl.result,← hb]
    exact leads_pure hw' _

/-- A report of what succeeded is heard where something did, and missed where there is
nothing to hear. -/
theorem hear_collected {α β : Type} {write : α → β} {results : List (Option α)}
    {fitsItem : β → Bool} {report : WireRecords.Slice β → Notification} {e : Event}
    (hreport : ∀ l, Dispatch.fits (report l) = ClientAgreement.made fitsItem l)
    (hf : ∀ a, some a ∈ results → fitsItem (write a) = true)
    (he : treeEvent (Dispatch.seen (report (some ((results.filterMap id).map write)))) = some e)
    (hnothing : results.filterMap id = [] → (e.apply toLowercase order s).groups = s.groups) :
    (hear toLowercase order requestId
      (some (report (collected (results.map (Option.map write))))) s).groups =
      (e.apply toLowercase order s).groups := by
  have hvalues : (results.map (Option.map write)).filterMap id =
      (results.filterMap id).map write := by
    rw [List.filterMap_map,List.map_filterMap]
    rfl
  rw [collected,Dispatch.foldl_collected,hvalues]
  by_cases hnone : results.filterMap id = []
  · have hunmade : Dispatch.fits (report none) = false := hreport none
    rw [hnone,List.map_nil,if_pos rfl,hear_missed hunmade,hnothing hnone]
  · rw [if_neg (by simpa using hnone)]
    refine congrArg App.groups (hear_fits ?_ he)
    rw [hreport]
    refine Bool.and_eq_true_iff.mpr ⟨rfl,List.all_eq_true.mpr fun b hb => ?_⟩
    obtain ⟨a,ha,rfl⟩ := List.mem_map.mp hb
    exact hf a (by simpa using ha)

end Commands

section Following

variable {subscriptionHost : String → String} {toLowercase : String → String}
  {order : HashOrder} {requestId : String} {w : World} {s : App}

theorem renamed_inStep (h : InStep w s) (profile : Protocol.ProfileID) (name : String) :
    InStep ((Command.updateProfile profile name).run subscriptionHost w).2
      (hear toLowercase order requestId
        ((Command.updateProfile profile name).run subscriptionHost w).1 s) := by
  cases hp : (bookOf w).profile profile.groupId.toInt profile.id.toInt with
  | none => exact inStep_refused h (leads_renameProfile_missing h.healthy name hp)
  | some p =>
    cases hg : (bookOf w).group profile.groupId.toInt with
    | none =>
      rw [h.sound.orphans _ hg] at hp
      cases hp
    | some g =>
      have hsg := (h.sound.groups _ g hg).1
      obtain ⟨hgid,hid,hfits,-⟩ := hsg.profiles _ p hp
      have hfits' : Fits { p with name := name } :=
        ⟨hfits.id,hfits.groupId,hfits.testResult,hfits.lossPct,hfits.jitterMs,hfits.port⟩
      refine inStep_heard (leads_renameProfile h.healthy name hp hgid hid)
        (sound_replace h.sound hg hp hgid hid hfits') (fits_profile hfits') rfl ?_
      exact mirrored_replace h.mirrored hg hp ((narrow_small hfits'.groupId).trans hgid)
        ((sent_id hfits').trans hid)

theorem drop_push {fromGroup toGroup : ℤ} (hne : fromGroup ≠ toGroup) (b : Book) (n : ℤ)
    (g : Group) (p : Profile) :
    (b.push toGroup g p).drop fromGroup n = (b.drop fromGroup n).push toGroup g p := by
  have hgroup : (b.push toGroup g p).group fromGroup = b.group fromGroup :=
    (apart_push b toGroup g p).group _ hne
  unfold Book.drop
  rw [hgroup]
  cases b.group fromGroup <;>
    simp [Book.push,Book.setGroup,Book.setProfile,hne,hne.symm,Function.update_comm hne]

theorem moved_inStep (h : InStep w s) (profileId fromGroupId toGroupId : Int32)
    (hc : (Command.moveProfile profileId fromGroupId toGroupId).Careful (bookOf w)) :
    InStep ((Command.moveProfile profileId fromGroupId toGroupId).run subscriptionHost w).2
      (hear toLowercase order requestId
        ((Command.moveProfile profileId fromGroupId toGroupId).run subscriptionHost w).1 s) := by
  by_cases hsame : fromGroupId.toInt = toGroupId.toInt
  · exact inStep_refused h (leads_moveProfile_refused h.healthy (.inl hsame))
  · cases hp : (bookOf w).profile fromGroupId.toInt profileId.toInt with
    | none => exact inStep_refused h (leads_moveProfile_refused h.healthy (.inr (.inl hp)))
    | some p =>
      cases hg : (bookOf w).group toGroupId.toInt with
      | none => exact inStep_refused h (leads_moveProfile_refused h.healthy (.inr (.inr hg)))
      | some g =>
        have hsg := (h.sound.groups _ g hg).1
        have hl := leads_moveProfile h.healthy hsame hp hg hsg.id
          fun g' hg' => (h.sound.groups _ g' hg').1.id
        have hs := sound_drop h.sound fromGroupId.toInt profileId.toInt
        have hm := mirrored_drop h.mirrored h.sound (i := fromGroupId) rfl (j := profileId) rfl
        have hg' : ((bookOf w).drop fromGroupId.toInt profileId.toInt).group toGroupId.toInt =
            some g := by
          cases hfrom : (bookOf w).group fromGroupId.toInt with
          | none => rwa [drop_missing h.sound hfrom]
          | some g' => rwa [(apart_drop hfrom _).group _ (Ne.symm hsame)]
        rw [drop_push hsame] at hl
        have hfits : Fits (movedProfile p g) := by
          cases hfrom : (bookOf w).group fromGroupId.toInt with
          | none =>
            rw [h.sound.orphans _ hfrom] at hp
            cases hp
          | some g' =>
            have hold := ((h.sound.groups _ g' hfrom).1.profiles _ p hp).2.2.1
            exact ⟨hc g hg,hsg.fits.id,hold.testResult,hold.lossPct,hold.jitterMs,hold.port⟩
        have hids : ClientAgreement.fitsProfileID (goProfileID ⟨profileId,fromGroupId⟩) = true := by
          simp [ClientAgreement.fitsProfileID,goProfileID]
        have hseen : Dispatch.seen (.profileMoved
            ⟨goProfileID ⟨profileId,fromGroupId⟩,goProfile (movedProfile p g)⟩) =
            .profileMoved ⟨profileId,fromGroupId⟩ (sentProfile (movedProfile p g)) := by
          simp [Dispatch.seen,ClientAgreement.seenProfileID,goProfileID,sentProfile]
        refine inStep_heard hl (sound_push hs hg' hsg.id rfl hfits)
          (Bool.and_eq_true_iff.mpr ⟨hids,fits_profile hfits⟩) (congrArg treeEvent hseen) ?_
        change Mirrored _ (clampCursor _ _).groups
        rw [clampCursor_groups]
        exact mirrored_push hm hs hg' ((narrow_small hfits.groupId).trans hsg.id)
          (sent_id hfits) rfl

theorem grouped_inStep (h : InStep w s) (name url : String)
    (hc : (Command.addGroup name url).Careful (bookOf w)) :
    InStep ((Command.addGroup name url).run subscriptionHost w).2
      (hear toLowercase order requestId
        ((Command.addGroup name url).run subscriptionHost w).1 s) := by
  cases hconfig : (bookOf w).config with
  | none =>
    exact inStep_refused h (leads_addGroup_missing h.healthy subscriptionHost name url hconfig)
  | some c =>
    have hsmall := hc c hconfig
    have hzero : FitsInt32 0 := ⟨by decide,by decide⟩
    have hfits : FitsGroup
        (GroupStore.newGroupConfig subscriptionHost (c.lastGroupId+1) name url) :=
      ⟨hsmall,hzero,fun n hn => absurd hn List.not_mem_nil⟩
    refine inStep_heard (leads_addGroup h.healthy subscriptionHost name url hconfig)
      (sound_open h.sound hconfig rfl hfits rfl) (small_small hsmall) rfl ?_
    exact mirrored_open h.mirrored h.sound hconfig (narrow_small hsmall) (shownGroup_idem _)

theorem edited_group {g g' : Group} {gid : ℤ} {name url : String} {autoUpdate : Option Bool}
    {updateInterval : Option ℤ} (h : (GroupStore.editedGroup subscriptionHost g gid name url
      autoUpdate updateInterval).toOption = some g') :
    g'.id = g.id ∧ g'.lastId = g.lastId ∧ g'.profileOrder = g.profileOrder := by
  have hok := Listings.ok_of_toOption h
  unfold GroupStore.editedGroup at hok
  dsimp only at hok
  split at hok
  · cases hok
  · cases hok
    exact ⟨rfl,rfl,rfl⟩

theorem edited_inStep (h : InStep w s) (id : Int32) (name url : String)
    (autoUpdate : Option Bool) (updateInterval : Option ℤ) :
    InStep ((Command.updateGroup id name url autoUpdate updateInterval).run subscriptionHost w).2
      (hear toLowercase order requestId
        ((Command.updateGroup id name url autoUpdate updateInterval).run subscriptionHost w).1
        s) := by
  unfold Command.run
  dsimp only
  split_ifs
  · exact h
  · cases hg : (bookOf w).group id.toInt with
    | none =>
      exact inStep_refused h (leads_updateGroupConfig_missing h.healthy subscriptionHost name url
        autoUpdate updateInterval hg)
    | some g =>
      have hl := leads_updateGroupConfig h.healthy subscriptionHost name url autoUpdate
        updateInterval hg rfl
      cases hedited : (GroupStore.editedGroup subscriptionHost g id.toInt name url autoUpdate
          updateInterval).toOption with
      | none =>
        rw [hedited] at hl
        exact inStep_refused h hl
      | some g' =>
        obtain ⟨hid,hlast,horder⟩ := edited_group hedited
        have hsg := (h.sound.groups _ g hg).1
        have hgid : g'.id = id.toInt := hid.trans hsg.id
        rw [hedited,Option.elim_some,hgid] at hl
        have hsent : (sentGroup g').id = id := by
          change WireRecords.narrow (Int64.ofInt g'.id) = id
          rw [hgid]
          exact narrow_goInt id
        have hs := sound_edit h.sound hg hid hlast (horder ▸ fun _ hm => hm)
          fun m p hp => horder ▸ (hsg.profiles m p hp).2.2.2
        have hfits := (hs.groups _ g' (Function.update_self _ _ _)).1.fits
        refine inStep_heard hl hs (fits_group hfits) rfl ?_
        change Mirrored _ (modifyGroup (sentGroup g').id _ s).groups
        rw [hsent]
        exact mirrored_edit h.mirrored hg horder rfl hsent

theorem made_goInt (ids : List Int32) :
    ClientAgreement.made WireRecords.small (some (ids.map goInt)) = true := by
  simp [ClientAgreement.made,Slice.items]

theorem rearranged_inStep (h : InStep w s) (groupId : Int32) (profileIds : List Int32)
    (hc : (Command.reorderProfiles groupId profileIds).Careful (bookOf w)) :
    InStep ((Command.reorderProfiles groupId profileIds).run subscriptionHost w).2
      (hear toLowercase order requestId
        ((Command.reorderProfiles groupId profileIds).run subscriptionHost w).1 s) := by
  cases hg : (bookOf w).group groupId.toInt with
  | none => exact inStep_refused h (leads_reorderProfiles_missing h.healthy _ hg)
  | some g =>
    have hsg := (h.sound.groups _ g hg).1
    have hids := hc (by rw [hg]; rfl)
    have hin : ∀ m ∈ profileIds.map Int32.toInt, m ∈ g.profileOrder := by
      intro m hm
      obtain ⟨p,hp⟩ := Option.isSome_iff_exists.mp ((hids m).mp hm)
      exact (hsg.profiles m p hp).2.2.2
    have hall : ∀ m p, (bookOf w).profile groupId.toInt m = some p →
        m ∈ profileIds.map Int32.toInt := fun m p hp => (hids m).mpr (by rw [hp]; rfl)
    have hs : Sound ((bookOf w).setGroup groupId.toInt { g with
        profileOrder := profileIds.map Int32.toInt }) := sound_edit h.sound hg rfl rfl hin hall
    have hfits : Dispatch.fits
        (.profilesReordered ⟨goInt groupId,some (profileIds.map goInt)⟩) = true :=
      Bool.and_eq_true_iff.mpr ⟨small_goInt groupId,made_goInt profileIds⟩
    have hseen : treeEvent (Dispatch.seen
        (.profilesReordered ⟨goInt groupId,some (profileIds.map goInt)⟩)) =
          some (.profilesReordered groupId profileIds) := by
      simp [Dispatch.seen,Slice.items,treeEvent,Function.comp_def]
    refine inStep_heard (leads_reorderProfiles h.healthy _ hg hsg.id) hs hfits hseen ?_
    change Mirrored _ (clampCursor _ _).groups
    rw [clampCursor_groups]
    exact mirrored_rearrange h.mirrored hg rfl hids order

/-- What the core stores and the client shows stays the same over every command. -/
theorem command_inStep (c : Command) (h : InStep w s) (hc : c.Careful (bookOf w)) :
    InStep (c.run subscriptionHost w).2
      (hear toLowercase order requestId (c.run subscriptionHost w).1 s) := by
  cases c with
  | addProfiles datas =>
    obtain ⟨results,b,hl,hs,hfits,hm⟩ := addedProfiles_mirrored h hc
    refine inStep_announce hl hs ?_
    have hseen : treeEvent (Dispatch.seen (.profilesAdded
        (some ((results.filterMap id).map goProfile)))) =
          some (.profilesAdded ((results.filterMap id).map sentProfile)) := by
      simp [Dispatch.seen,Slice.items,treeEvent,sentProfile,Function.comp_def]
    rw [Option.map_some,hear_collected (fun _ => rfl) (fun p hp => fits_profile (hfits p hp)) hseen
      fun hnone => ?_]
    · exact hm
    · rw [hnone]
      rfl
  | deleteProfiles profiles =>
    obtain ⟨b,hl,hs,hm⟩ := deletedProfiles_mirrored profiles h
    refine inStep_announce hl hs ?_
    have hall : (profiles.map some).filterMap id = profiles := by simp
    have hids : ∀ p, some p ∈ profiles.map some →
        ClientAgreement.fitsProfileID (goProfileID p) = true := fun p _ => by
      simp [ClientAgreement.fitsProfileID,goProfileID]
    have hseen : treeEvent (Dispatch.seen (.profilesDeleted
        (some (((profiles.map some).filterMap id).map goProfileID)))) =
          some (.profilesDeleted profiles) := by
      rw [hall]
      simp [Dispatch.seen,Slice.items,treeEvent,ClientAgreement.seenProfileID,goProfileID,
        Function.comp_def]
    rw [Option.map_some,hear_collected (fun _ => rfl) hids hseen fun hnone => ?_]
    · change Mirrored b (clampCursor _ _).groups
      rwa [clampCursor_groups]
    · rw [hall] at hnone
      subst hnone
      exact clampCursor_groups s
  | updateProfile profile name => exact renamed_inStep h profile name
  | reorderProfiles groupId profileIds => exact rearranged_inStep h groupId profileIds hc
  | moveProfile profileId fromGroupId toGroupId =>
    exact moved_inStep h profileId fromGroupId toGroupId hc
  | addGroup name url => exact grouped_inStep h name url hc
  | deleteGroup id =>
    have hseen : treeEvent (Dispatch.seen (.groupDeleted (goInt id))) =
        some (.groupDeleted id) := by
      simp [Dispatch.seen,treeEvent]
    refine inStep_heard (leads_deleteGroup h.healthy id.toInt) (sound_close h.sound _)
      (small_goInt id) hseen ?_
    change Mirrored _ (clampCursor _ _).groups
    rw [clampCursor_groups]
    exact mirrored_close h.mirrored rfl
  | updateGroup id name url autoUpdate updateInterval =>
    exact edited_inStep h id name url autoUpdate updateInterval
  | reorderGroups groupIds =>
    cases hconfig : (bookOf w).config with
    | none => exact inStep_refused h (leads_reorderGroups_missing h.healthy _ hconfig)
    | some c =>
      have hseen : treeEvent (Dispatch.seen (.groupsReordered (some (groupIds.map goInt)))) =
          some (.groupsReordered groupIds) := by
        simp [Dispatch.seen,Slice.items,treeEvent,Function.comp_def]
      refine inStep_heard (leads_reorderGroups h.healthy _ hconfig)
        (sound_order h.sound hconfig hc) (made_goInt groupIds) hseen ?_
      change Mirrored _ (clampCursor _ _).groups
      rw [clampCursor_groups]
      exact mirrored_order h.mirrored hc order

end Following

section Views

variable {w : World} {s : App} {b : Book}

/-- A group and its profiles as the client shows them. -/
def page (x : Protocol.GroupWithProfiles) : Protocol.Group × List Protocol.Profile :=
  (shownGroup x.group,x.profiles.map cleanProfile)

def sentView (v : GroupWithProfiles) : Protocol.GroupWithProfiles :=
  ⟨sentGroup v.group,v.profiles.map sentProfile,[]⟩

/-- The client shows what the core lists. -/
def Follows (w : World) (s : App) : Prop :=
  ∃ views, (getAllGroupsAndProfiles w).1 = .ok views ∧
    s.groups.map page = views.map fun v => page (sentView v)

theorem keys_of_values {α : Type} {f : ℤ → Option α} {key : α → ℤ} {xs : List α} {ns : List ℤ}
    (h : xs.map some = ns.map f) (hf : ∀ n a, f n = some a → key a = n) : xs.map key = ns := by
  induction xs generalizing ns with
  | nil =>
    cases ns with
    | nil => rfl
    | cons n ns => cases h
  | cons x xs ih =>
    cases ns with
    | nil => cases h
    | cons n ns =>
      obtain ⟨hx,hxs⟩ := List.cons.inj h
      rw [List.map_cons,hf n x hx.symm,ih hxs]

/-- A group that is listed is shown as it is stored. -/
theorem view_shows (hs : Sound (bookOf w)) {gid : ℤ} {v : GroupWithProfiles}
    (hv : viewAt gid w.disk w.key = some v) :
    (sentView v).group.id.toInt = gid ∧ ∃ g, Shows (bookOf w) g (sentView v) := by
  obtain ⟨g,hg,-⟩ := Option.map_eq_some_iff.mp hv
  obtain ⟨v',-,hv',hprofiles,horder⟩ := (Listings.listsAll w).profiles gid g hg
  obtain rfl := Option.some.inj (hv.symm.trans hv')
  have hgroup := Option.some.inj (hv.symm.trans (Listings.viewAt_eq hg))
  have hsg := (hs.groups gid g hg).1
  have hkey : (sentView v).group.id.toInt = gid := by
    have hid : v.group.id = g.id := by rw [hgroup]
    exact (narrow_small (hid ▸ hsg.fits.id)).trans (hid.trans hsg.id)
  have hstored : ∀ p ∈ v.profiles, ∃ n, (bookOf w).profile gid n = some p := by
    intro p hp
    have hsome : some p ∈ v.profiles.map some := List.mem_map_of_mem hp
    rw [hprofiles] at hsome
    obtain ⟨n,-,hn⟩ := List.mem_map.mp hsome
    exact ⟨n,hn⟩
  have hnumber : ∀ p ∈ v.profiles, (sentProfile p).id.toInt = p.id := by
    intro p hp
    obtain ⟨n,hn⟩ := hstored p hp
    exact sent_id (hsg.profiles n p hn).2.2.1
  have hnumbers : (v.profiles.map fun p => (sentProfile p).id.toInt) = v.group.profileOrder := by
    rw [List.map_congr_left hnumber]
    exact keys_of_values hprofiles fun n p hp => (hsg.profiles n p hp).2.1
  refine ⟨hkey,g,?_⟩
  constructor
  · rw [hkey]
    exact hg
  · change shownGroup (sentGroup v.group) = _
    rw [hgroup]
    exact shown_counted g g.lastId _
  · rw [hkey]
    change Listings.ListedBy _ _ ((v.profiles.map sentProfile).map fun p => p.id.toInt)
    rw [List.map_map]
    exact hnumbers.symm ▸ horder
  · rw [hkey]
    change ∀ p ∈ v.profiles.map sentProfile, _
    intro p hp
    obtain ⟨q,hq,rfl⟩ := List.mem_map.mp hp
    obtain ⟨n,hn⟩ := hstored q hq
    rw [hnumber q hq,(hsg.profiles n q hn).2.1]
    exact ⟨q,hn,rfl⟩

theorem mirrored_views (hs : Sound (bookOf w)) {views : List GroupWithProfiles}
    (hviews : (getAllGroupsAndProfiles w).1 = .ok views) :
    Mirrored (bookOf w) (views.map sentView) := by
  obtain ⟨views',gids,hok,hvalues,hlisted⟩ := (Listings.listsAll w).groups
  obtain rfl : views' = views := Except.ok.inj (hok.symm.trans hviews)
  constructor
  · have hkeys : (views'.map fun v => (sentView v).group.id.toInt) = gids :=
      keys_of_values hvalues fun gid v hv => (view_shows hs hv).1
    rw [List.map_map]
    exact hkeys.symm ▸ hlisted
  · intro x hx
    obtain ⟨v,hv,rfl⟩ := List.mem_map.mp hx
    have hsome : some v ∈ views'.map some := List.mem_map_of_mem hv
    rw [hvalues] at hsome
    obtain ⟨gid,-,hgid⟩ := List.mem_map.mp hsome
    exact (view_shows hs hgid).2

theorem follows_of_inStep (h : InStep w s) : Follows w s := by
  obtain ⟨views,-,hok,-⟩ := (Listings.listsAll w).groups
  refine ⟨views,hok,?_⟩
  have hunique := mirrored_unique h.mirrored (mirrored_views h.sound hok)
  rwa [List.map_map] at hunique

/-- What looks the same mirrors the same. -/
theorem mirrored_pages {xs ys : List Protocol.GroupWithProfiles} (h : Mirrored b xs)
    (hp : ys.map page = xs.map page) : Mirrored b ys := by
  have hkeys : (ys.map fun y => y.group.id.toInt) = xs.map fun x => x.group.id.toInt := by
    have hids := congrArg (List.map fun u : Protocol.Group × List Protocol.Profile =>
      u.1.id.toInt) hp
    rwa [List.map_map,List.map_map] at hids
  refine ⟨hkeys.symm ▸ h.listed,fun y hy => ?_⟩
  have hmem : page y ∈ xs.map page := hp ▸ List.mem_map_of_mem hy
  obtain ⟨x,hx,hpage⟩ := List.mem_map.mp hmem
  obtain ⟨g,hshows⟩ := h.shows x hx
  have hgroup : shownGroup x.group = shownGroup y.group := congrArg Prod.fst hpage
  have hprofiles : x.profiles.map cleanProfile = y.profiles.map cleanProfile :=
    congrArg Prod.snd hpage
  have hid : x.group.id = y.group.id := by
    have hids := congrArg Protocol.Group.id hgroup
    exact hids
  have hnums : (x.profiles.map fun p => p.id.toInt) = y.profiles.map fun p => p.id.toInt := by
    have hids := congrArg (List.map fun p : Protocol.Profile => p.id.toInt) hprofiles
    rwa [List.map_map,List.map_map] at hids
  refine ⟨g,?_,?_,?_,?_⟩
  · rw [← hid]
    exact hshows.stored
  · rw [← hgroup]
    exact hshows.group
  · rw [← hid,← hnums]
    exact hshows.listed
  · intro p hp
    have hclean : cleanProfile p ∈ x.profiles.map cleanProfile :=
      hprofiles ▸ List.mem_map_of_mem hp
    obtain ⟨q,hq,he⟩ := List.mem_map.mp hclean
    have hpq : q.id = p.id := by
      have hids := congrArg Protocol.Profile.id he
      exact hids
    rw [← hid,← he,← hpq]
    exact hshows.profiles q hq

theorem inStep_of_follows (hw : Healthy w) (hs : Sound (bookOf w)) (hf : Follows w s) :
    InStep w s := by
  obtain ⟨views,hok,hpages⟩ := hf
  refine ⟨hw,hs,mirrored_pages (mirrored_views hs hok) ?_⟩
  rw [hpages,List.map_map]
  rfl

end Views

section Runs

variable (subscriptionHost toLowercase : String → String)

/-- A command as a client sends it, and the order in which the hash maps of the client
that hears of it give up what is left in them. -/
structure Turn where
  command : Command
  requestId : String
  order : HashOrder

/-- Commands one after the other: before the first one and after each the client shows what
the core lists. -/
def FollowsRun : List Turn → World → App → Prop
  | [],w,s => Follows w s
  | t::run,w,s => Follows w s ∧ FollowsRun run (t.command.run subscriptionHost w).2
      (hear toLowercase t.order t.requestId (t.command.run subscriptionHost w).1 s)

def CarefulRun : List Turn → World → Prop
  | [],_ => True
  | t::run,w => t.command.Careful (bookOf w) ∧
      CarefulRun run (t.command.run subscriptionHost w).2

theorem run_inStep {run : List Turn} {w : World} {s : App} (h : InStep w s)
    (hc : CarefulRun subscriptionHost run w) :
    FollowsRun subscriptionHost toLowercase run w s := by
  induction run generalizing w s with
  | nil => exact follows_of_inStep h
  | cons t run ih => exact ⟨follows_of_inStep h,ih (command_inStep t.command h hc.1) hc.2⟩

/-- A database without groups. -/
def emptyDatabase : World :=
  store .dbConfig (.dbConfig ⟨0,[]⟩) ⟨["db"],∅,[],false,1,[]⟩

def lastFirst : HashOrder := ⟨List.reverse,List.reverse,List.reverse_perm,List.reverse_perm⟩

theorem empty_inStep : InStep emptyDatabase App.new := by
  have hfile : ∀ path : Path, path ≠ .dbConfig → readFile path emptyDatabase.disk = none := by
    intro path hp
    rw [emptyDatabase,readFile_store,if_neg hp]
    rfl
  have hgroup : ∀ gid, (bookOf emptyDatabase).group gid = none := fun gid => by
    simp [bookOf,groupAt,fileAt,hfile]
  have hprofile : ∀ gid n, (bookOf emptyDatabase).profile gid n = none := fun gid n => by
    simp [bookOf,profileAt,fileAt,hfile]
  have horder : (bookOf emptyDatabase).config = some ⟨0,[]⟩ := by decide +kernel
  refine ⟨⟨rfl,rfl,fun path b hb _ => ?_⟩,⟨?_,fun gid _ n => hprofile gid n,?_⟩,?_,?_⟩
  · by_cases hp : path = .dbConfig
    · rw [hp,emptyDatabase,readFile_store,if_pos rfl] at hb
      obtain rfl := Option.some.inj hb
      rfl
    · rw [hfile path hp] at hb
      cases hb
  · intro gid g hg
    rw [hgroup] at hg
    cases hg
  · intro c hc gid hgid
    rw [horder] at hc
    obtain rfl := Option.some.inj hc
    exact absurd hgid List.not_mem_nil
  · apply listed_nil
    intro gid
    rw [hgroup]
    simp
  · intro x hx
    exact absurd hx List.not_mem_nil

end Runs

end Whoisthat.ClientMirror
