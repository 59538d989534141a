import Whoisthat.GroupFiles

/-!
# Group operations

Creating, deleting, editing and reordering groups, and the merge of the fields
a subscription response carries. The host name of a URL comes from the URL
parser of the standard library, a parameter here.
-/

set_option autoImplicit false

namespace Whoisthat.GroupStore
open Whoisthat.FileStore Whoisthat.FallibleState Whoisthat.Records Whoisthat.Database
open Whoisthat.GroupFiles

def saveGroup (group : Group) : DBM Unit := updateGroup group

def dropFromGroupOrder (gid : ℤ) : DBM Unit := do
  match ← attempt loadDBConfig with
  | .error _ => pure ()
  | .ok c =>
    let _ ← attempt (saveDBConfig { c with groupOrder := c.groupOrder.filter (fun g => g ≠ gid) })
    pure ()

def deleteGroup (gid : ℤ) : DBM Unit := do
  osRemoveAll (inGroupDir gid)
  dropFromGroupOrder gid

/-- The name a group shows when the user gave none. -/
def defaultName (subName : String) (gid : ℤ) : String :=
  if subName = "" then "Group " ++ toString gid else subName

def newGroupConfig (subscriptionHost : String → String) (gid : ℤ) (name url : String) : Group :=
  { id := gid
    subscriptionUrl := url
    name := if name = "" then defaultName (subscriptionHost url) gid else name
    lastId := 0
    subLastUpdated := 0
    subExpires := 0
    subUpload := 0
    subDownload := 0
    subTotal := 0
    subUpdateInterval := 0
    subUpdateIntervalOverride := 0
    subAutoUpdateDisabled := false
    profileOrder := []
    routingMode := ""
    manualRoutingMode := ""
    activeRoutingProfileId := ""
    pendingActiveRoutingProfileId := ""
    subName := subscriptionHost url
    subscriptionFormat := "" }

def addGroup (subscriptionHost : String → String) (name url : String) : DBM GroupAdded := do
  let c ← loadDBConfig
  let gid := c.lastGroupId+1
  saveDBConfig { lastGroupId := gid, groupOrder := c.groupOrder ++ [gid] }
  osRemoveAll (inGroupDir gid)
  osMkdirAll (.groupDir gid)
  let group := newGroupConfig subscriptionHost gid name url
  wrapping (.writeFile (.groupConfig gid)) (writeEncryptedJSON (.groupConfig gid) (.group group))
  pure { id := gid, subscriptionUrl := url, name := group.name }

def reorderGroups (ids : List ℤ) : DBM Unit := do
  let c ← wrapping .loadDBConfig loadDBConfig
  saveDBConfig { c with groupOrder := ids }

/-- The checks and edits of `UpdateGroupConfig` on the loaded group. -/
def editedGroup (subscriptionHost : String → String) (group : Group) (gid : ℤ) (name url : String)
    (autoUpdate : Option Bool) (updateInterval : Option ℤ) : Except DBError Group :=
  let disabled := match autoUpdate with
    | none => group.subAutoUpdateDisabled
    | some on => !on
  let override := match updateInterval with
    | none => group.subUpdateIntervalOverride
    | some seconds => seconds
  match updateInterval.filter (fun seconds => seconds < 0) with
  | some seconds => .error (.badInterval seconds)
  | none =>
    let autoNamed := group.name = "" ∨ group.name = group.subName
    let host := subscriptionHost url
    let subName := if url ≠ "" ∧ host ≠ "" then host else group.subName
    let subscriptionUrl := if url ≠ "" then url else group.subscriptionUrl
    let newName :=
      if name = "" ∨ (autoNamed ∧ name = group.name) then defaultName subName gid else name
    .ok { group with
      subAutoUpdateDisabled := disabled
      subUpdateIntervalOverride := override
      subName := subName
      subscriptionUrl := subscriptionUrl
      name := newName }

def updateGroupConfig (subscriptionHost : String → String) (gid : ℤ) (name url : String)
    (autoUpdate : Option Bool) (updateInterval : Option ℤ) : DBM Group := do
  let group ← wrapping (.loadingGroup gid) (loadGroupConfig gid)
  match editedGroup subscriptionHost group gid name url autoUpdate updateInterval with
  | .error e => fail e
  | .ok group =>
    updateGroup group
    pure group

structure SubscriptionFields where
  providerInterval : Option ℤ
  lastUpdated : Option ℤ
  title : Option String
  upload : Option ℤ
  download : Option ℤ
  total : Option ℤ
  expires : Option ℤ
  format : Option String

/-- The title step of `MergeSubscriptionFields`: the name follows the provider
title while it is empty or equal to the previous one. -/
def retitled (group : Group) (title : Option String) : Group :=
  match title.map trimSpace with
  | none => group
  | some title =>
    if title = "" then group
    else { group with
      name := if group.name = "" ∨ group.name = group.subName then title else group.name
      subName := title }

def mergedFields (group : Group) (f : SubscriptionFields) : Group :=
  retitled { group with
    subUpdateInterval := f.providerInterval.getD group.subUpdateInterval
    subLastUpdated := f.lastUpdated.getD group.subLastUpdated
    subUpload := f.upload.getD group.subUpload
    subDownload := f.download.getD group.subDownload
    subTotal := f.total.getD group.subTotal
    subExpires := f.expires.getD group.subExpires
    subscriptionFormat := f.format.getD group.subscriptionFormat } f.title

theorem mergedFields_id (g : Group) (f : SubscriptionFields) : (mergedFields g f).id = g.id := by
  unfold mergedFields retitled
  split
  · rfl
  · split_ifs <;> rfl

theorem mergedFields_lastId (g : Group) (f : SubscriptionFields) :
    (mergedFields g f).lastId = g.lastId := by
  unfold mergedFields retitled
  split
  · rfl
  · split_ifs <;> rfl

theorem editedGroup_id {subscriptionHost : String → String} {g g' : Group} {gid : ℤ}
    {name url : String} {autoUpdate : Option Bool} {updateInterval : Option ℤ}
    (h : editedGroup subscriptionHost g gid name url autoUpdate updateInterval = .ok g') :
    g'.id = g.id := by
  unfold editedGroup at h
  simp only at h
  split at h
  · simp at h
  · rw [← Except.ok.inj h]

def mergeSubscriptionFields (gid : ℤ) (f : SubscriptionFields) : DBM Group := do
  let group ← loadGroupConfig gid
  let group := mergedFields group f
  updateGroup group
  pure group

end Whoisthat.GroupStore
