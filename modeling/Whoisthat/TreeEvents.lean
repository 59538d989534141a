import Mathlib.Data.Finset.Erase
import Whoisthat.FirstFound
import Whoisthat.TreeView

/-!
# What changes the tree

The notifications of the core, the keys and the mouse, each as the client applies
it. Where the client rebuilds a list from a hash map, the order in which the map
gives up what is left in it is a parameter of the step.
-/

set_option autoImplicit false

namespace Whoisthat.TreeEvents
open Whoisthat.FirstFound (modifyFirst)
open Whoisthat.Protocol (Group Profile ProfileID GroupWithProfiles RoutingProfileInfo)
open Whoisthat.TreeView

section Labels

/-- `char::is_control` -/
def isControl (c : Char) : Bool := c.val < 0x20 || (0x7F ≤ c.val && c.val ≤ 0x9F)

def cleanLabel (s : String) : String :=
  String.ofList ((s.toList.filter fun c => !isControl c).take 200)

def cleanGroup (g : Group) : Group := { g with name := cleanLabel g.name }

def cleanProfile (p : Profile) : Profile :=
  { p with
    name := cleanLabel p.name
    address := cleanLabel p.address
    host := cleanLabel p.host }

def cleanRoutingProfile (r : RoutingProfileInfo) : RoutingProfileInfo :=
  { r with
    name := cleanLabel r.name
    lastError := cleanLabel r.lastError
    remoteDns := cleanLabel r.remoteDns
    domesticDns := cleanLabel r.domesticDns }

end Labels

section Cursor

variable (toLowercase : String → String)

def clampCursor (s : App) : App :=
  let len := s.treeLen toLowercase
  if len = 0 then { s with cursor := 0 }
  else if len ≤ s.cursor then { s with cursor := len-1 }
  else s

def cursorDown (s : App) : App :=
  let len := s.treeLen toLowercase
  if len = 0 ∨ len ≤ s.cursor+1 then s else { s with cursor := s.cursor+1 }

def cursorUp (s : App) : App := if 0 < s.cursor then { s with cursor := s.cursor-1 } else s

def cursorTop (s : App) : App := { s with cursor := 0 }

def cursorBottom (s : App) : App :=
  let len := s.treeLen toLowercase
  if 0 < len then { s with cursor := len-1 } else s

def cursorPageDown (step : ℕ) (s : App) : App :=
  let len := s.treeLen toLowercase
  if len = 0 then s else { s with cursor := min (s.cursor+step) (len-1) }

def cursorPageUp (step : ℕ) (s : App) : App := { s with cursor := s.cursor-step }

def toggleGroupCollapsed (groupId : Int32) (s : App) : App :=
  clampCursor toLowercase { s with
    collapsedGroups := if groupId ∈ s.collapsedGroups then s.collapsedGroups.erase groupId
      else insert groupId s.collapsedGroups }

def collapseGroup (groupId : Int32) (s : App) : App :=
  if groupId ∈ s.collapsedGroups then s
  else clampCursor toLowercase { s with collapsedGroups := insert groupId s.collapsedGroups }

def expandGroup (groupId : Int32) (s : App) : App :=
  if groupId ∈ s.collapsedGroups then
    clampCursor toLowercase { s with collapsedGroups := s.collapsedGroups.erase groupId }
  else s

def parentGroupCursor (s : App) : Option ℕ :=
  (s.treeNodeAt toLowercase s.cursor).bind fun node => s.cursorForGroup node.groupIndex

/-- `slice::swap`, for indices of the list. -/
def swap {α : Type} (xs : List α) (i j : ℕ) : List α :=
  match xs[i]?,xs[j]? with
  | some a,some b => (xs.set i b).set j a
  | _,_ => xs

/-- The cursor goes to a row where there is one. -/
def follow (row : Option ℕ) (s : App) : App := { s with cursor := row.getD s.cursor }

def swapGroups (gi gj : ℕ) (s : App) : App :=
  let s' := { s with groups := swap s.groups gi gj }
  follow (s'.cursorForGroup gj) s'

def swapProfiles (gi pi pj : ℕ) (s : App) : App :=
  let s' := { s with
    groups := s.groups.modify gi fun g => { g with profiles := swap g.profiles pi pj } }
  follow (s'.cursorForNode (.profile gi pj)) s'

def moveItemUp (s : App) : App :=
  if s.searchQuery.isSome then s
  else
    match s.treeNodeAt toLowercase s.cursor with
    | none => s
    | some (.group gi) => if gi = 0 then s else swapGroups gi (gi-1) s
    | some (.profile gi pi) => if pi = 0 then s else swapProfiles gi pi (pi-1) s

def moveItemDown (s : App) : App :=
  if s.searchQuery.isSome then s
  else
    match s.treeNodeAt toLowercase s.cursor with
    | none => s
    | some (.group gi) => if s.groups.length ≤ gi+1 then s else swapGroups gi (gi+1) s
    | some (.profile gi pi) =>
      match s.groups[gi]? with
      | none => s
      | some g => if g.profiles.length ≤ pi+1 then s else swapProfiles gi pi (pi+1) s

end Cursor

section Notifications

/-- The order in which hash maps give up their entries. -/
structure HashOrder where
  groups : List GroupWithProfiles → List GroupWithProfiles
  profiles : List Profile → List Profile
  groups_perm : ∀ l, (groups l).Perm l
  profiles_perm : ∀ l, (profiles l).Perm l

section Rebuild

variable {α : Type} (key : α → Int32)

/-- The entries of a hash map into which a list is drained: the last one of each key. -/
def mapOf : List α → List α
  | [] => []
  | x::xs => if xs.any (fun y => key y = key x) then mapOf xs else x::mapOf xs

/-- What a list of keys takes out of a map, and what stays in it. -/
def takeInOrder : List Int32 → List α → List α × List α
  | [],m => ([],m)
  | i::ids,m =>
    match m.find? (fun x => key x = i) with
    | none => takeInOrder ids m
    | some x =>
      let (taken,rest) := takeInOrder ids (m.filter fun y => key y ≠ i)
      (x::taken,rest)

def rebuild (order : List α → List α) (ids : List Int32) (xs : List α) : List α :=
  let (taken,rest) := takeInOrder key ids (mapOf key xs)
  taken ++ order rest

end Rebuild

variable (toLowercase : String → String)

def applyState (groups : List GroupWithProfiles) (s : App) : App :=
  clampCursor toLowercase { s with
    groups := groups.map fun g => ⟨cleanGroup g.group,g.profiles.map cleanProfile,
      g.routingProfiles.map cleanRoutingProfile⟩ }

/-- The group with an id is changed where there is one. -/
def modifyGroup (id : Int32) (f : GroupWithProfiles → GroupWithProfiles) (s : App) : App :=
  { s with groups := modifyFirst (fun g => g.group.id = id) f s.groups }

def pushProfile (p : Profile) (g : GroupWithProfiles) : GroupWithProfiles :=
  { g with profiles := g.profiles ++ [p] }

def retainProfiles (keep : Profile → Bool) (g : GroupWithProfiles) : GroupWithProfiles :=
  { g with profiles := g.profiles.filter keep }

def applyProfilesAdded (profiles : List Profile) (s : App) : App :=
  profiles.foldl (fun s p => modifyGroup p.groupId (pushProfile (cleanProfile p)) s) s

def applyProfilesDeleted (deleted : List ProfileID) (s : App) : App :=
  clampCursor toLowercase
    (deleted.foldl (fun s d => modifyGroup d.groupId (retainProfiles fun p => p.id ≠ d.id) s) s)

def applySubscriptionUpdated (group : Group) (profiles : List Profile)
    (routingProfiles : List RoutingProfileInfo) (s : App) : App :=
  clampCursor toLowercase (modifyGroup group.id (fun _ => ⟨cleanGroup group,
    profiles.map cleanProfile,routingProfiles.map cleanRoutingProfile⟩) s)

def replaceProfile (p : Profile) (g : GroupWithProfiles) : GroupWithProfiles :=
  { g with profiles := modifyFirst (fun pr => pr.id = p.id) (fun _ => p) g.profiles }

def applyProfileUpdated (p : Profile) (s : App) : App :=
  modifyGroup p.groupId (replaceProfile (cleanProfile p)) s

def markPending (groupId profileId : Int32) (s : App) : App :=
  modifyGroup groupId (fun g => { g with
    profiles := modifyFirst (fun p => p.id = profileId) (fun p => { p with testResult := -2 })
      g.profiles }) s

def applyGroupAdded (g : Group) (s : App) : App :=
  { s with groups := s.groups ++ [⟨cleanGroup g,[],[]⟩] }

def applyGroupDeleted (id : Int32) (s : App) : App :=
  clampCursor toLowercase { s with
    groups := s.groups.filter fun g => g.group.id ≠ id
    collapsedGroups := s.collapsedGroups.erase id }

def applyGroupUpdated (g : Group) (s : App) : App :=
  modifyGroup g.id (fun gw => { gw with group := cleanGroup g }) s

def applyProfilesReordered (order : HashOrder) (groupId : Int32) (profileIds : List Int32)
    (s : App) : App :=
  clampCursor toLowercase (modifyGroup groupId (fun g => { g with
    profiles := rebuild Profile.id order.profiles profileIds g.profiles }) s)

def applyGroupsReordered (order : HashOrder) (groupIds : List Int32) (s : App) : App :=
  clampCursor toLowercase { s with
    groups := rebuild (fun g => g.group.id) order.groups groupIds s.groups }

def applyProfileMoved (old : ProfileID) (newP : Profile) (s : App) : App :=
  clampCursor toLowercase (modifyGroup newP.groupId (pushProfile newP)
    (modifyGroup old.groupId (retainProfiles fun p => p.id ≠ old.id) s))

end Notifications

section Keys

inductive Edit where
  | char (c : Char)
  | paste (clip : Option String)
  | backspace

/-- `edit_text_field` with the cursor at the end. -/
def editTextField (s : String) : Edit → String
  | .char c => s.push c
  | .paste clip => s ++ clip.getD ""
  | .backspace => String.ofList s.toList.dropLast

inductive SearchKey where
  | esc
  | enter
  | down
  | up
  | edit (e : Edit)

inductive AppAction where
  | connect
  | toggleGroup
  | moveItemDown
  | moveItemUp
  | startSearch
  | dismiss
  | toggleFocus
  | cursorDown
  | cursorUp
  | cursorLeft
  | cursorRight
  | scrollTop
  | scrollBottom
  | pageDown
  | pageUp

variable (toLowercase : String → String)

/-- The search ends and the cursor goes to the top. -/
def leaveSearch (s : App) : App :=
  clampCursor toLowercase { s with
    searchQuery := none
    searchInput := ""
    cursor := 0 }

def handleSearchKey (s : App) : SearchKey → App
  | .esc => leaveSearch toLowercase { s with searchMode := false }
  | .enter =>
    let s := { s with searchMode := false }
    if s.searchInput = "" then
      clampCursor toLowercase { s with
        searchQuery := none
        cursor := 0 }
    else s
  | .down => cursorDown toLowercase s
  | .up => cursorUp s
  | .edit e =>
    let input := editTextField s.searchInput e
    { s with
      searchInput := input
      searchQuery := some input
      cursor := 0 }

def inLeftPanel (s : App) : Bool := s.tab = .profiles && s.focus = .leftPanel

/-- The group under the cursor is collapsed or expanded. -/
def toggleAtCursor (s : App) : App :=
  match s.treeNodeAt toLowercase s.cursor with
  | some (.group gi) =>
    match s.groups[gi]? with
    | some g => toggleGroupCollapsed toLowercase g.group.id s
    | none => s
  | _ => s

def toggleFocus (s : App) : App :=
  if s.tab = .profiles then
    match s.focus with
    | .leftPanel =>
      if (s.treeNodeAt toLowercase s.cursor).isSome then { s with focus := .rightPanel } else s
    | .rightPanel => { s with focus := .leftPanel }
    | .popup => s
  else s

def moveLeft (s : App) : App :=
  if s.tab = .profiles then
    match s.focus with
    | .leftPanel =>
      match s.treeNodeAt toLowercase s.cursor with
      | some (.group gi) =>
        match s.groups[gi]? with
        | some g => collapseGroup toLowercase g.group.id s
        | none => s
      | _ => follow (parentGroupCursor toLowercase s) s
    | .rightPanel => { s with focus := .leftPanel }
    | .popup => s
  else s

def moveRight (s : App) : App :=
  if inLeftPanel s then
    match s.treeNodeAt toLowercase s.cursor with
    | some (.group gi) =>
      match s.groups[gi]? with
      | some g =>
        if s.isGroupCollapsed g.group.id then expandGroup toLowercase g.group.id s
        else if g.profiles ≠ [] then cursorDown toLowercase s
        else s
      | none => s
    | some (.profile _ _) => { s with focus := .rightPanel }
    | none => s
  else s

def handleAction (s : App) : AppAction → App
  | .connect => toggleAtCursor toLowercase s
  | .toggleGroup => toggleAtCursor toLowercase s
  | .moveItemDown => moveItemDown toLowercase s
  | .moveItemUp => moveItemUp toLowercase s
  | .startSearch => { s with
      searchMode := true
      searchInput := ""
      searchQuery := some ""
      cursor := 0 }
  | .dismiss =>
    if s.focus = .rightPanel then { s with focus := .leftPanel }
    else if s.searchQuery.isSome then leaveSearch toLowercase s
    else s
  | .toggleFocus => toggleFocus toLowercase s
  | .cursorDown => if inLeftPanel s then cursorDown toLowercase s else s
  | .cursorUp => if inLeftPanel s then cursorUp s else s
  | .cursorLeft => moveLeft toLowercase s
  | .cursorRight => moveRight toLowercase s
  | .scrollTop => if inLeftPanel s then cursorTop s else s
  | .scrollBottom => if inLeftPanel s then cursorBottom toLowercase s else s
  | .pageDown => if inLeftPanel s then cursorPageDown toLowercase 10 s else s
  | .pageUp => if inLeftPanel s then cursorPageUp 10 s else s

/-- A click into the tree, on the row it hits. -/
def handleClick (targetIdx : ℕ) (s : App) : App :=
  let s := { s with focus := .leftPanel }
  if targetIdx < s.treeLen toLowercase then
    if s.cursor = targetIdx then toggleAtCursor toLowercase s else { s with cursor := targetIdx }
  else s

end Keys

section Events

inductive Event where
  | applicationState (groups : List GroupWithProfiles)
  | profilesAdded (profiles : List Profile)
  | profilesDeleted (deleted : List ProfileID)
  | subscriptionUpdated (group : Group) (profiles : List Profile)
      (routingProfiles : List RoutingProfileInfo)
  | profileUpdated (p : Profile)
  | testStarted (groupId profileId : Int32)
  | groupAdded (g : Group)
  | groupDeleted (id : Int32)
  | groupUpdated (g : Group)
  | profilesReordered (groupId : Int32) (profileIds : List Int32)
  | groupsReordered (groupIds : List Int32)
  | profileMoved (old : ProfileID) (newP : Profile)
  | key (k : Option SearchKey) (a : Option AppAction)
  | wheel (down : Bool)
  | click (targetIdx : ℕ)
  | view (tab : ActiveTab) (focus : Focus)

variable (toLowercase : String → String)

/-- One event. A key is read as a search key while a search is typed, else by its action,
and has no effect where it has no meaning; tabs, popups and panels change by themselves. -/
def Event.apply (order : HashOrder) (s : App) : Event → App
  | .applicationState groups => applyState toLowercase groups s
  | .profilesAdded profiles => applyProfilesAdded profiles s
  | .profilesDeleted deleted => applyProfilesDeleted toLowercase deleted s
  | .subscriptionUpdated group profiles routingProfiles =>
    applySubscriptionUpdated toLowercase group profiles routingProfiles s
  | .profileUpdated p => applyProfileUpdated p s
  | .testStarted groupId profileId => markPending groupId profileId s
  | .groupAdded g => applyGroupAdded g s
  | .groupDeleted id => applyGroupDeleted toLowercase id s
  | .groupUpdated g => applyGroupUpdated g s
  | .profilesReordered groupId profileIds =>
    applyProfilesReordered toLowercase order groupId profileIds s
  | .groupsReordered groupIds => applyGroupsReordered toLowercase order groupIds s
  | .profileMoved old newP => applyProfileMoved toLowercase old newP s
  | .key k a =>
    if s.searchMode && inLeftPanel s then k.elim s (handleSearchKey toLowercase s)
    else a.elim s (handleAction toLowercase s)
  | .wheel down =>
    if s.tab = .profiles then if down then cursorDown toLowercase s else cursorUp s else s
  | .click targetIdx =>
    if s.tab = .profiles then handleClick toLowercase targetIdx s else s
  | .view tab focus => { s with
      tab := tab
      focus := focus }

/-- The event may lead from one state to the other. -/
def Step (s : App) (e : Event) (s' : App) : Prop :=
  ∃ order : HashOrder, s' = e.apply toLowercase order s

/-- Events, each with the state it leads to. -/
def IsRun (s : App) : List (Event × App) → Prop
  | [] => True
  | (e,s')::rest => Step toLowercase s e s' ∧ IsRun s' rest

end Events

end Whoisthat.TreeEvents
