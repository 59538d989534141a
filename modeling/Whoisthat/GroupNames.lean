import Whoisthat.GroupStore
import Whoisthat.SyncWrites

/-!
# Group names and provider names

`Name` follows `SubName` while the two are equal, and a rename is recognised by
their difference alone. The abstract part is a shown label that follows the
label received last; the stored group refines it for every history of
subscription merges and edits that pass the shown name back.
-/

set_option autoImplicit false

namespace Whoisthat.GroupNames
open Whoisthat.FileStore Whoisthat.FallibleState Whoisthat.Records Whoisthat.Database
open Whoisthat.GroupFiles Whoisthat.SyncWrites Whoisthat.GroupStore

section Labels

variable {α : Type} [DecidableEq α]

/-- The label on display and the label the provider sent last. -/
structure Labels (α : Type) where
  shown : α
  sent : α

def Labels.receive (l : Labels α) (a : α) : Labels α :=
  { shown := if l.shown = l.sent then a else l.shown
    sent := a }

/-- The label on display is `n` now and after each of the coming labels. -/
def Stable (n : α) : Labels α → List α → Prop
  | l, [] => l.shown = n
  | l, a::as => l.shown = n ∧ Stable n (l.receive a) as

theorem stable_linked_iff {n : α} {l : Labels α} (hn : l.shown = n) (hs : l.sent = n)
    (as : List α) : Stable n l as ↔ ∀ a ∈ as, a = n := by
  induction as generalizing l with
  | nil => simp [Stable,hn]
  | cons a as ih =>
    have hr : l.receive a = ⟨a,a⟩ := by simp [Labels.receive,hn,hs]
    rw [Stable,hr,List.forall_mem_cons]
    by_cases ha : a = n
    · simp [hn,ha,ih (l := ⟨n,n⟩) rfl rfl]
    · refine iff_of_false (fun h => ha ?_) (fun h => ha h.1)
      cases as with
      | nil => exact h.2
      | cons b bs => exact h.2.1

/-- A label of its own stays on display exactly when no received label equal to
it is followed by a different one. -/
theorem stable_iff_pairwise {n : α} {l : Labels α} (hn : l.shown = n) (hs : l.sent ≠ n)
    (as : List α) : Stable n l as ↔ as.Pairwise (fun a b => a = n → b = n) := by
  induction as generalizing l with
  | nil => simp [Stable,hn]
  | cons a as ih =>
    have hr : l.receive a = ⟨n,a⟩ := by simp [Labels.receive,hn,Ne.symm hs]
    rw [Stable,hr,List.pairwise_cons]
    by_cases ha : a = n
    · subst ha
      rw [stable_linked_iff (n := a) (l := ⟨a,a⟩) rfl rfl]
      refine ⟨fun h => ⟨fun b hb _ => h.2 b hb,?_⟩,fun h => ⟨hn,fun b hb => h.1 b hb rfl⟩⟩
      exact List.pairwise_of_forall_mem_list fun _ _ b hb _ => h.2 b hb
    · rw [ih (l := ⟨n,a⟩) rfl ha]
      simp [hn,ha]

end Labels

section Edits

variable (subscriptionHost : String → String)

/-- A call of the history: a subscription merge, or an edit of the group that
passes its name back. -/
inductive Call where
  | merge (f : SubscriptionFields)
  | edit (url : String) (autoUpdate : Option Bool) (updateInterval : Option ℤ)

/-- The name a call brings from the provider's side. -/
def Call.providerName : Call → Option String
  | .merge f => (f.title.map trimSpace).filter (fun title => title ≠ "")
  | .edit url _ _ => if url ≠ "" ∧ subscriptionHost url ≠ "" then some (subscriptionHost url) else none

def Call.valid : Call → Bool
  | .merge _ => true
  | .edit _ _ updateInterval => !updateInterval.any (fun seconds => seconds < 0)

def labels (g : Group) : Labels String := ⟨g.name,g.subName⟩

def Labels.follow (l : Labels String) (name : Option String) : Labels String :=
  match name with
  | none => l
  | some a => l.receive a

theorem labels_retitled {g : Group} (hn : g.name ≠ "") (title : Option String) :
    labels (retitled g title) =
      (labels g).follow ((title.map trimSpace).filter (fun title => title ≠ "")) ∧
    (retitled g title).id = g.id := by
  unfold retitled
  cases title.map trimSpace with
  | none => exact ⟨rfl,rfl⟩
  | some title =>
    by_cases he : title = ""
    · simp [he,Option.filter,Labels.follow]
    · by_cases hl : g.name = g.subName <;>
        simp [he,hn,hl,Option.filter,labels,Labels.follow,Labels.receive]

theorem labels_mergedFields {g : Group} (hn : g.name ≠ "") (f : SubscriptionFields) :
    labels (mergedFields g f) =
      (labels g).follow ((Call.merge f).providerName subscriptionHost) ∧
    (mergedFields g f).id = g.id := by
  unfold mergedFields
  exact labels_retitled (by exact hn) f.title

theorem editedGroup_error {g : Group} {gid : ℤ} {name url : String} {autoUpdate : Option Bool}
    {updateInterval : Option ℤ} (h : (Call.edit url autoUpdate updateInterval).valid = false) :
    ∃ e, editedGroup subscriptionHost g gid name url autoUpdate updateInterval = .error e := by
  cases updateInterval with
  | none => simp [Call.valid] at h
  | some seconds =>
    have hneg : seconds < 0 := by simpa [Call.valid] using h
    exact ⟨.badInterval seconds,by simp [editedGroup,Option.filter,hneg]⟩

theorem labels_editedGroup {g : Group} {gid : ℤ} {url : String} {autoUpdate : Option Bool}
    {updateInterval : Option ℤ} (hn : g.name ≠ "")
    (h : (Call.edit url autoUpdate updateInterval).valid = true) :
    ∃ g', editedGroup subscriptionHost g gid g.name url autoUpdate updateInterval = .ok g' ∧
      labels g' =
        (labels g).follow ((Call.edit url autoUpdate updateInterval).providerName subscriptionHost) ∧
      g'.id = g.id := by
  have hv : updateInterval.filter (fun seconds => seconds < 0) = none := by
    cases updateInterval with
    | none => rfl
    | some seconds => simpa [Call.valid] using h
  simp only [editedGroup,hv]
  refine ⟨_,rfl,?_,rfl⟩
  unfold Call.providerName
  by_cases hu : url ≠ "" ∧ subscriptionHost url ≠ ""
  · by_cases hl : g.name = g.subName
    · have hs : g.subName ≠ "" := hl ▸ hn
      simp [hu,hl,hs,labels,Labels.follow,Labels.receive,defaultName]
    · simp [hu,hl,hn,labels,Labels.follow,Labels.receive]
  · by_cases hl : g.name = g.subName
    · have hs : g.subName ≠ "" := hl ▸ hn
      simp [hu,hl,hs,labels,Labels.follow,defaultName]
    · simp [hu,hl,hn,labels,Labels.follow]

end Edits

section Histories

variable (subscriptionHost : String → String) (gid : ℤ) (name : String)

def Call.run : Call → World → World
  | .merge f, w => (mergeSubscriptionFields gid f w).2
  | .edit url autoUpdate updateInterval, w =>
    (updateGroupConfig subscriptionHost gid name url autoUpdate updateInterval w).2

def runCalls (calls : List Call) (w : World) : World :=
  calls.foldl (fun w c => c.run subscriptionHost gid name w) w

/-- The next write of the database goes through. -/
def writable (w : World) : Bool := !w.degraded && w.faults.head? ≠ some true

/-- The provider names of the calls whose config write goes through. -/
def received : List Call → World → List String
  | [], _ => []
  | c::cs, w =>
    (if c.valid && writable w then (c.providerName subscriptionHost).toList else []) ++
      received cs (c.run subscriptionHost gid name w)

def nameAt (w : World) : Option String := (groupAt gid w.disk w.key).map Group.name

/-- The stored group shows `name`. -/
structure Shows (g : Group) (w : World) : Prop where
  config : groupAt gid w.disk w.key = some g
  id : g.id = gid
  name : g.name = name

/-- The group was given `name` by the user: it differs from the provider name. -/
def ManualName (w : World) : Prop :=
  ∃ g, Shows gid name g w ∧ name ≠ "" ∧ g.subName ≠ name

theorem load_run {w : World} {g : Group} (h : groupAt gid w.disk w.key = some g) :
    loadGroupConfig gid w = (.ok g,w) := by
  obtain ⟨_,hv⟩ := readsAs_loadGroupConfig gid w
  rw [h] at hv
  rcases hr : loadGroupConfig gid w with ⟨e | a,w'⟩ <;> rw [hr] at hv
  · simp [Except.toOption] at hv
  · obtain rfl : a = g := by simpa [Except.toOption] using hv
    rw [loadGroupConfig,wrapping_ok] at hr
    rw [(read_ok hr).1]

theorem groupAt_store (g : Group) (w : World) :
    groupAt g.id (store (.groupConfig g.id) (.group g) w).disk w.key = some g := by
  rw [groupAt,fileAt,readFile_store,if_pos rfl]
  simp [openBlob,Payload.asGroup]

theorem updateGroup_run {g : Group} (hid : g.id = gid) (w : World) :
    (writable w = true ∧ (updateGroup g w).1 = .ok () ∧
      groupAt gid (updateGroup g w).2.disk (updateGroup g w).2.key = some g) ∨
    (writable w = false ∧ (∃ e, (updateGroup g w).1 = .error e) ∧
      (updateGroup g w).2.disk = w.disk ∧ (updateGroup g w).2.key = w.key) := by
  subst hid
  rcases wrapped_write_cases (.writeFile (.groupConfig g.id)) (.groupConfig g.id) (.group g) w
    with ⟨hd,h⟩ | ⟨hd,hf,h⟩ | ⟨hd,hf,h⟩ <;> rw [updateGroup,h]
  · exact Or.inr ⟨by simp [writable,hd],⟨_,rfl⟩,rfl,rfl⟩
  · exact Or.inr ⟨by simp [writable,hf],⟨_,rfl⟩,rfl,rfl⟩
  · exact Or.inl ⟨by simp [writable,hd,hf],rfl,groupAt_store g w⟩

theorem updateGroup_ok {g : Group} {w w' : World} {u : Unit}
    (h : updateGroup g w = (.ok u,w')) : groupAt g.id w'.disk w'.key = some g := by
  obtain ⟨_,rfl⟩ := write_ok (wrapping_ok.mp h)
  exact groupAt_store g w

theorem defaultName_ne (subName : String) (gid : ℤ) : defaultName subName gid ≠ "" := by
  unfold defaultName
  split
  · simp
  · assumption

theorem editedGroup_ok {g g' : Group} {url : String} {autoUpdate : Option Bool}
    {updateInterval : Option ℤ}
    (h : editedGroup subscriptionHost g gid name url autoUpdate updateInterval = .ok g') :
    g'.id = g.id ∧ g'.name ≠ "" := by
  unfold editedGroup at h
  simp only at h
  split at h
  · simp at h
  · obtain rfl := Except.ok.inj h
    refine ⟨rfl,?_⟩
    simp only
    split
    · exact defaultName_ne _ gid
    · rename_i hne
      exact fun he => hne (Or.inl he)

/-- An edit that leaves the group under a name other than the provider's makes
it a manual one. -/
theorem manualName_updateGroupConfig {url : String} {autoUpdate : Option Bool}
    {updateInterval : Option ℤ} {w w' : World} {g : Group}
    (hid : ∀ g, groupAt gid w.disk w.key = some g → g.id = gid)
    (h : updateGroupConfig subscriptionHost gid name url autoUpdate updateInterval w = (.ok g,w'))
    (hn : g.name = name) (hs : g.subName ≠ name) : ManualName gid name w' := by
  obtain ⟨old,u,hload,hrest⟩ := bind_ok h
  have hread := read_ok (wrapping_ok.mp (wrapping_ok.mp hload))
  obtain rfl := hread.1
  cases hg' : editedGroup subscriptionHost old gid name url autoUpdate updateInterval with
  | error e => simp [hg'] at hrest
  | ok g' =>
    rw [hg'] at hrest
    obtain ⟨v,t,hsave,hrest⟩ := bind_ok hrest
    obtain ⟨rfl,rfl⟩ : g' = g ∧ t = w' := by simpa using hrest
    obtain ⟨hid',hne⟩ := editedGroup_ok subscriptionHost gid name hg'
    have hgid : g'.id = gid := hid'.trans (hid old hread.2)
    have hstored := updateGroup_ok hsave
    rw [hgid] at hstored
    exact ⟨g',⟨hstored,hgid,hn⟩,hn ▸ hne,hs⟩

/-- So does the creation of a group under a name other than the URL's host. -/
theorem manualName_addGroup {url : String} {w w' : World} {added : GroupAdded}
    (h : addGroup subscriptionHost name url w = (.ok added,w')) (hn : name ≠ "")
    (hs : subscriptionHost url ≠ name) : ManualName added.id name w' := by
  obtain ⟨c,_,_,h⟩ := bind_ok h
  obtain ⟨_,_,_,h⟩ := bind_ok h
  obtain ⟨_,_,_,h⟩ := bind_ok h
  obtain ⟨_,t,_,h⟩ := bind_ok h
  obtain ⟨_,v,hw,h⟩ := bind_ok h
  obtain ⟨_,rfl⟩ := write_ok (wrapping_ok.mp hw)
  obtain ⟨rfl,rfl⟩ : _ = added ∧ _ = w' := by simpa using h
  refine ⟨newGroupConfig subscriptionHost (c.lastGroupId+1) name url,⟨?_,rfl,?_⟩,hn,hs⟩
  · exact groupAt_store (newGroupConfig subscriptionHost (c.lastGroupId+1) name url) t
  · simp [newGroupConfig,hn]

/-- One call: the stored labels follow the provider name when the call's write
goes through, and are as before otherwise. -/
theorem call_run {g : Group} {w : World} (h : Shows gid name g w) (hn : name ≠ "") (c : Call) :
    ∃ g', groupAt gid (c.run subscriptionHost gid name w).disk
        (c.run subscriptionHost gid name w).key = some g' ∧ g'.id = gid ∧
      labels g' = (labels g).follow
        (if c.valid && writable w then c.providerName subscriptionHost else none) := by
  have hne : g.name ≠ "" := h.name ▸ hn
  have hload := load_run gid h.config
  have hsave : ∀ g' : Group, g'.id = g.id →
      labels g' = (labels g).follow (c.providerName subscriptionHost) → c.valid = true →
      ∀ w', w' = (updateGroup g' w).2 →
      ∃ g', groupAt gid w'.disk w'.key = some g' ∧ g'.id = gid ∧
        labels g' = (labels g).follow
          (if c.valid && writable w then c.providerName subscriptionHost else none) := by
    intro g' hid hl hv w' hw'
    subst hw'
    rcases updateGroup_run gid (hid.trans h.id) w with ⟨hw,_,hg⟩ | ⟨hw,_,hd,hk⟩
    · exact ⟨g',hg,hid.trans h.id,by simpa [hv,hw] using hl⟩
    · exact ⟨g,by rw [hd,hk,h.config],h.id,by simp [hw,Labels.follow]⟩
  cases c with
  | merge f =>
    obtain ⟨hl,hid⟩ := labels_mergedFields subscriptionHost hne f
    refine hsave _ hid hl rfl _ ?_
    rw [Call.run,mergeSubscriptionFields,bind_of_ok hload]
    rw [bind_run]
    rcases updateGroup (mergedFields g f) w with ⟨e | u,w'⟩ <;> rfl
  | edit url autoUpdate updateInterval =>
    cases hv : (Call.edit url autoUpdate updateInterval).valid with
    | false =>
      obtain ⟨e,he⟩ := @editedGroup_error subscriptionHost g gid name _ _ _ hv
      rw [Call.run,updateGroupConfig,bind_of_ok (wrapping_ok.mpr hload),he]
      exact ⟨g,h.config,h.id,rfl⟩
    | true =>
      obtain ⟨g',hg',hl,hid⟩ := @labels_editedGroup subscriptionHost _ gid _ _ _ hne hv
      rw [h.name] at hg'
      obtain ⟨g'',hc,hi,hf⟩ := hsave g' hid hl hv _ rfl
      refine ⟨g'',?_,hi,by simpa [hv] using hf⟩
      have hrun : Call.run subscriptionHost gid name (.edit url autoUpdate updateInterval) w =
          (updateGroup g' w).2 := by
        rw [Call.run,updateGroupConfig,bind_of_ok (wrapping_ok.mpr hload),hg']
        change ((updateGroup g' >>= fun _ => pure g' : DBM Group) w).2 = _
        rw [bind_run]
        rcases updateGroup g' w with ⟨e | u,w'⟩ <;> rfl
      rw [hrun,hc]

/-- Over a history, the stored name is kept exactly while the labels are stable
under the received provider names. -/
theorem name_kept_iff_stable (hn : name ≠ "") (calls : List Call) {g : Group} {w : World}
    (h : Shows gid name g w) :
    (∀ pre, pre <+: calls → nameAt gid (runCalls subscriptionHost gid name pre w) = some name) ↔
      Stable name (labels g) (received subscriptionHost gid name calls w) := by
  induction calls generalizing g w with
  | nil => simp [received,Stable,labels,h.name,nameAt,runCalls,h.config]
  | cons c cs ih =>
    obtain ⟨g',hc,hid,hl⟩ := call_run subscriptionHost gid name h hn c
    have hsplit : (∀ pre, pre <+: c::cs →
        nameAt gid (runCalls subscriptionHost gid name pre w) = some name) ↔
        ∀ pre, pre <+: cs → nameAt gid (runCalls subscriptionHost gid name pre
          (c.run subscriptionHost gid name w)) = some name := by
      refine ⟨fun hall pre hp => hall (c::pre) (by simpa using hp),fun hall pre hp => ?_⟩
      cases pre with
      | nil => simp [runCalls,nameAt,h.config,h.name]
      | cons d ds =>
        obtain ⟨rfl,hd⟩ := List.cons_prefix_cons.mp hp
        exact hall ds hd
    have hrest : (∀ pre, pre <+: cs → nameAt gid (runCalls subscriptionHost gid name pre
          (c.run subscriptionHost gid name w)) = some name) ↔
        Stable name (labels g')
          (received subscriptionHost gid name cs (c.run subscriptionHost gid name w)) := by
      by_cases hname : g'.name = name
      · exact ih ⟨hc,hid,hname⟩
      · refine iff_of_false (fun hall => hname ?_) (fun hs => hname ?_)
        · have hnil := hall [] List.nil_prefix
          simpa [runCalls,nameAt,hc] using hnil
        · cases hr : received subscriptionHost gid name cs (c.run subscriptionHost gid name w) with
          | nil =>
            rw [hr] at hs
            exact hs
          | cons a as =>
            rw [hr] at hs
            exact hs.1
    rw [hsplit,hrest,hl,received]
    cases hp : (if c.valid && writable w then c.providerName subscriptionHost else none) with
    | none =>
      have hnil : (if c.valid && writable w then (c.providerName subscriptionHost).toList
          else []) = [] := by
        split at hp <;> simp_all
      rw [hnil]
      rfl
    | some a =>
      have hcons : (if c.valid && writable w then (c.providerName subscriptionHost).toList
          else []) = [a] := by
        split at hp <;> simp_all
      rw [hcons]
      exact ⟨fun hs => ⟨h.name,hs⟩,fun hs => hs.2⟩

/-- A manual name survives a history exactly when no provider name equal to it
is received before a different one. -/
theorem manual_name_survives_iff (w : World) (h : ManualName gid name w) (calls : List Call) :
    (∀ pre, pre <+: calls → nameAt gid (runCalls subscriptionHost gid name pre w) = some name) ↔
      (received subscriptionHost gid name calls w).Pairwise (fun a b => a = name → b = name) := by
  obtain ⟨g,hg,hn,hs⟩ := h
  rw [name_kept_iff_stable subscriptionHost gid name hn calls hg]
  exact stable_iff_pairwise hg.name hs _

/-- A merge that brings only a title. -/
def titled (title : String) : Call :=
  .merge
    { providerInterval := none
      lastUpdated := none
      title := some title
      upload := none
      download := none
      total := none
      expires := none
      format := none }

/-- The group "g" of an otherwise empty database after the user named it "n". -/
def renamedGroup : World :=
  (updateGroupConfig id 1 "n" "" none none (worldOf (newGroup 1 "g" 0) [] [])).2

theorem renamedGroup_manual : ManualName 1 "n" renamedGroup :=
  ⟨{ newGroup 1 "n" 0 with name := "n" },⟨by decide,rfl,rfl⟩,by decide,by decide⟩

/-- A title that coincides with the user's name hands the name to the next
title. -/
theorem coinciding_title_relinks :
    ManualName 1 "n" renamedGroup ∧
      nameAt 1 (runCalls id 1 "n" [titled "n",titled "m"] renamedGroup) = some "m" :=
  ⟨renamedGroup_manual,by decide⟩

/-- A title other than the user's name leaves it alone. -/
theorem other_title_keeps_name :
    nameAt 1 (runCalls id 1 "n" [titled "m"] renamedGroup) = some "n" :=
  (manual_name_survives_iff id 1 "n" renamedGroup renamedGroup_manual [titled "m"]).mpr
    (by decide) [titled "m"] (List.prefix_refl _)

end Histories

end Whoisthat.GroupNames
