import Whoisthat.ClientMirror
import Whoisthat.TreeCursor

/-!
# Moving items in the tree

A key that moves a group or a profile changes the list of the client at once, and the
request that follows asks the core for the order the client has then. Until the core has
answered the client is ahead of it; with the answer both agree, and the list of the client
stays as the key made it. What else a user does in the tree leaves the list alone.
-/

set_option autoImplicit false

namespace Whoisthat.MovedItems
open Whoisthat.FileStore Whoisthat.Records Whoisthat.Database Whoisthat.CoreBooks
open Whoisthat.MirroredOrders Whoisthat.MirroredBooks Whoisthat.ClientMirror
open Whoisthat.TreeView Whoisthat.TreeEvents
open Whoisthat.TreeCursor (swap_perm)
open Whoisthat.WireRecords (Slice.items)

section Source

variable (toLowercase : String → String)

def reorderGroups (s : App) : Command := .reorderGroups (s.groups.map fun g => g.group.id)

def reorderProfiles (gi : ℕ) (s : App) : Option Command :=
  s.groups[gi]?.map fun g => .reorderProfiles g.group.id (g.profiles.map fun p => p.id)

/-- The `ItemMoveAction` of `move_item_up` as the request that is sent for it. -/
def requestUp (s : App) : Option Command :=
  if s.searchQuery.isSome then none
  else
    match s.treeNodeAt toLowercase s.cursor with
    | none => none
    | some (.group gi) => if gi = 0 then none else some (reorderGroups (swapGroups gi (gi-1) s))
    | some (.profile gi pi) =>
      if pi = 0 then none else reorderProfiles gi (swapProfiles gi pi (pi-1) s)

def requestDown (s : App) : Option Command :=
  if s.searchQuery.isSome then none
  else
    match s.treeNodeAt toLowercase s.cursor with
    | none => none
    | some (.group gi) =>
      if s.groups.length ≤ gi+1 then none else some (reorderGroups (swapGroups gi (gi+1) s))
    | some (.profile gi pi) =>
      match s.groups[gi]? with
      | none => none
      | some g =>
        if g.profiles.length ≤ pi+1 then none
        else reorderProfiles gi (swapProfiles gi pi (pi+1) s)

def moveItem (up : Bool) (s : App) : App :=
  if up then moveItemUp toLowercase s else moveItemDown toLowercase s

def request (up : Bool) (s : App) : Option Command :=
  if up then requestUp toLowercase s else requestDown toLowercase s

end Source

section Settling

variable {subscriptionHost toLowercase : String → String} {order : HashOrder}
  {requestId : String} {w : World} {s s' : App}

/-- The request of a client that is ahead of the core: what it does to the core is what the
client shows already, and the notification leaves it so. -/
structure Settles (subscriptionHost toLowercase : String → String) (order : HashOrder)
    (requestId : String) (w : World) (s : App) (c : Command) : Prop where
  careful : c.Careful (bookOf w)
  inStep : InStep (c.run subscriptionHost w).2
    (hear toLowercase order requestId (c.run subscriptionHost w).1 s)
  ahead : Mirrored (bookOf (c.run subscriptionHost w).2) s.groups

theorem groups_settle (h : InStep w s) (hperm : s'.groups.Perm s.groups) :
    Settles subscriptionHost toLowercase order requestId w s' (reorderGroups s') := by
  have hnums : (s'.groups.map fun g => g.group.id).map Int32.toInt =
      s'.groups.map fun g => g.group.id.toInt := List.map_map
  have hperm' := hperm.map fun g => g.group.id.toInt
  have hids : ∀ gid, gid ∈ (s'.groups.map fun g => g.group.id).map Int32.toInt ↔
      ((bookOf w).group gid).isSome = true := by
    intro gid
    rw [hnums,hperm'.mem_iff]
    exact h.mirrored.listed.all gid
  cases hconfig : (bookOf w).config with
  | none =>
    -- a group that is shown would have its number in the order
    have hnil : s.groups = [] := by
      rw [List.eq_nil_iff_forall_not_mem]
      intro x hx
      obtain ⟨g,hshows⟩ := h.mirrored.shows x hx
      have hin := (h.sound.groups _ g hshows.stored).2
      rw [Book.order,hconfig] at hin
      exact absurd hin List.not_mem_nil
    rw [hnil] at hperm
    have hm : Mirrored (bookOf w) s'.groups := hperm.eq_nil ▸ hnil ▸ h.mirrored
    have hl := leads_reorderGroups_missing h.healthy
      ((s'.groups.map fun g => g.group.id).map Int32.toInt) hconfig
    refine ⟨hids,inStep_refused ⟨h.healthy,h.sound,hm⟩ hl,?_⟩
    change Mirrored (bookOf (GroupStore.reorderGroups _ w).2) _
    rw [hl.book]
    exact hm
  | some c =>
    have hl := leads_reorderGroups h.healthy
      ((s'.groups.map fun g => g.group.id).map Int32.toInt) hconfig
    have hs := sound_order h.sound hconfig hids
    have hm : Mirrored ((bookOf w).setConfig { c with
        groupOrder := (s'.groups.map fun g => g.group.id).map Int32.toInt }) s'.groups := by
      constructor
      · rw [order_config rfl]
        dsimp only
        rw [hnums]
        refine listed_self (hperm'.nodup_iff.mpr h.mirrored.listed.once) fun gid => ?_
        rw [← hnums]
        exact hids gid
      · intro x hx
        obtain ⟨g,hshows⟩ := h.mirrored.shows x (hperm.subset hx)
        exact ⟨g,hshows.stored,hshows.group,hshows.listed,hshows.profiles⟩
    have hseen : treeEvent (Dispatch.seen
        (.groupsReordered (some ((s'.groups.map fun g => g.group.id).map goInt)))) =
          some (.groupsReordered (s'.groups.map fun g => g.group.id)) := by
      simp [Dispatch.seen,Slice.items,treeEvent,Function.comp_def]
    refine ⟨hids,inStep_heard hl hs (made_goInt _) hseen ?_,?_⟩
    · change Mirrored _ (clampCursor _ _).groups
      rw [clampCursor_groups]
      exact mirrored_order hm hids order
    · change Mirrored (bookOf (GroupStore.reorderGroups _ w).2) _
      rw [hl.book]
      exact hm

theorem profiles_settle (h : InStep w s) {gi : ℕ} {x : Protocol.GroupWithProfiles}
    (hx : s.groups[gi]? = some x) {f : List Protocol.Profile → List Protocol.Profile}
    (hperm : ∀ ps, (f ps).Perm ps)
    (hs' : s'.groups = s.groups.modify gi fun g => { g with profiles := f g.profiles }) :
    ∃ c, reorderProfiles gi s' = some c ∧
      Settles subscriptionHost toLowercase order requestId w s' c := by
  have hmem : x ∈ s.groups := List.mem_of_getElem? hx
  have hkeys : (s.groups.map fun g => g.group.id).Nodup := nodup_keys h.mirrored.listed
  obtain ⟨g,hshows⟩ := h.mirrored.shows x hmem
  have hg := hshows.stored
  have hsg := (h.sound.groups _ g hg).1
  have hnums : ((f x.profiles).map fun p => p.id).map Int32.toInt =
      (f x.profiles).map fun p => p.id.toInt := List.map_map
  have hperm' := (hperm x.profiles).map fun p => p.id.toInt
  have hids : ∀ n, n ∈ ((f x.profiles).map fun p => p.id).map Int32.toInt ↔
      ((bookOf w).profile x.group.id.toInt n).isSome = true := by
    intro n
    rw [hnums,hperm'.mem_iff]
    exact hshows.listed.all n
  have hrequest : reorderProfiles gi s' =
      some (.reorderProfiles x.group.id ((f x.profiles).map fun p => p.id)) := by
    rw [reorderProfiles,hs',List.getElem?_modify_eq,hx]
    rfl
  have hin : ∀ n ∈ ((f x.profiles).map fun p => p.id).map Int32.toInt, n ∈ g.profileOrder := by
    intro n hn
    obtain ⟨p,hp⟩ := Option.isSome_iff_exists.mp ((hids n).mp hn)
    exact (hsg.profiles n p hp).2.2.2
  have hl := leads_reorderProfiles h.healthy
    (((f x.profiles).map fun p => p.id).map Int32.toInt) hg hsg.id
  have hs : Sound ((bookOf w).setGroup x.group.id.toInt { g with
      profileOrder := ((f x.profiles).map fun p => p.id).map Int32.toInt }) :=
    sound_edit h.sound hg rfl rfl hin fun n p hp => (hids n).mpr (by rw [hp]; rfl)
  have hm : Mirrored ((bookOf w).setGroup x.group.id.toInt { g with
      profileOrder := ((f x.profiles).map fun p => p.id).map Int32.toInt }) s'.groups := by
    rw [hs',modify_eq_modifyFirst hkeys hx]
    refine mirrored_apart h.mirrored (apart_setGroup _ _ _) rfl hg (Function.update_self _ _ _) rfl
      (fun y hy hyx hshows' => ?_) fun y hy => hy
    obtain rfl := List.inj_on_of_nodup_map hkeys hy hmem hyx
    constructor
    · exact Function.update_self _ _ _
    · exact hshows'.group.trans (shown_counted _ g.lastId _).symm
    · dsimp only
      rw [hnums]
      refine listed_self (hperm'.nodup_iff.mpr hshows.listed.once) fun n => ?_
      rw [← hnums]
      exact hids n
    · intro p hp
      exact hshows.profiles p ((hperm y.profiles).subset hp)
  have hfits : Dispatch.fits (.profilesReordered
      ⟨goInt x.group.id,some (((f x.profiles).map fun p => p.id).map goInt)⟩) = true :=
    Bool.and_eq_true_iff.mpr ⟨small_goInt _,made_goInt _⟩
  have hseen : treeEvent (Dispatch.seen (.profilesReordered
      ⟨goInt x.group.id,some (((f x.profiles).map fun p => p.id).map goInt)⟩)) =
        some (.profilesReordered x.group.id ((f x.profiles).map fun p => p.id)) := by
    simp [Dispatch.seen,Slice.items,treeEvent,Function.comp_def]
  refine ⟨_,hrequest,fun _ => hids,inStep_heard hl hs hfits hseen ?_,?_⟩
  · change Mirrored _ (clampCursor _ _).groups
    rw [clampCursor_groups]
    have hagain := mirrored_rearrange hm (Function.update_self _ _ _) rfl hids order
    rwa [Book.setGroup_twice] at hagain
  · change Mirrored (bookOf (ProfileStore.reorderProfiles _ _ w).2) _
    rw [hl.book]
    exact hm

/-- What a key that moves an item can do: nothing, or an exchange of two groups or of two
profiles of a group. -/
theorem moveItem_cases (toLowercase : String → String) (up : Bool) (s : App) :
    (request toLowercase up s = none ∧ (moveItem toLowercase up s).groups = s.groups) ∨
    (∃ gi gj, (moveItem toLowercase up s).groups = swap s.groups gi gj ∧
      request toLowercase up s = some (reorderGroups (moveItem toLowercase up s))) ∨
    ∃ gi pi pj, (moveItem toLowercase up s).groups = s.groups.modify gi (fun g =>
        { g with profiles := swap g.profiles pi pj }) ∧
      request toLowercase up s = reorderProfiles gi (moveItem toLowercase up s) := by
  cases up with
  | true =>
    simp only [request,moveItem,requestUp,moveItemUp,if_true]
    split_ifs with hq
    · exact .inl ⟨rfl,rfl⟩
    · cases s.treeNodeAt toLowercase s.cursor with
      | none => exact .inl ⟨rfl,rfl⟩
      | some node =>
        cases node with
        | group gi =>
          dsimp only
          split_ifs
          · exact .inl ⟨rfl,rfl⟩
          · exact .inr (.inl ⟨gi,gi-1,rfl,rfl⟩)
        | profile gi pi =>
          dsimp only
          split_ifs
          · exact .inl ⟨rfl,rfl⟩
          · exact .inr (.inr ⟨gi,pi,pi-1,rfl,rfl⟩)
  | false =>
    simp only [request,moveItem,requestDown,moveItemDown,Bool.false_eq_true,if_false]
    split_ifs with hq
    · exact .inl ⟨rfl,rfl⟩
    · cases s.treeNodeAt toLowercase s.cursor with
      | none => exact .inl ⟨rfl,rfl⟩
      | some node =>
        cases node with
        | group gi =>
          dsimp only
          split_ifs
          · exact .inl ⟨rfl,rfl⟩
          · exact .inr (.inl ⟨gi,gi+1,rfl,rfl⟩)
        | profile gi pi =>
          dsimp only
          cases s.groups[gi]? with
          | none => exact .inl ⟨rfl,rfl⟩
          | some g =>
            dsimp only
            split_ifs
            · exact .inl ⟨rfl,rfl⟩
            · exact .inr (.inr ⟨gi,pi,pi+1,rfl,rfl⟩)

/-- A key without a request moves nothing, and a request settles. -/
theorem moveItem_settles (h : InStep w s) (up : Bool) :
    (request toLowercase up s = none ∧ (moveItem toLowercase up s).groups = s.groups) ∨
    ∃ c, request toLowercase up s = some c ∧
      Settles subscriptionHost toLowercase order requestId w (moveItem toLowercase up s) c := by
  obtain hnone | ⟨gi,gj,hgroups,hr⟩ | ⟨gi,pi,pj,hgroups,hr⟩ := moveItem_cases toLowercase up s
  · exact .inl hnone
  · exact .inr ⟨_,hr,groups_settle h (hgroups ▸ swap_perm s.groups gi gj)⟩
  · cases hx : s.groups[gi]? with
    | none =>
      have hsame : (moveItem toLowercase up s).groups = s.groups := by
        rw [hgroups]
        exact List.modify_eq_self (List.getElem?_eq_none_iff.mp hx)
      left
      refine ⟨?_,hsame⟩
      rw [hr,reorderProfiles,hsame,hx]
      rfl
    | some x =>
      obtain ⟨c,hc,hsettles⟩ := profiles_settle h hx (fun ps => swap_perm ps pi pj) hgroups
      exact .inr ⟨c,hr.trans hc,hsettles⟩

end Settling

section Inputs

variable {toLowercase : String → String} (s : App)

theorem follow_groups (row : Option ℕ) : (follow row s).groups = s.groups := rfl

theorem cursorDown_groups : (cursorDown toLowercase s).groups = s.groups := by
  unfold cursorDown
  dsimp only
  split_ifs <;> rfl

theorem cursorUp_groups : (cursorUp s).groups = s.groups := by
  unfold cursorUp
  split_ifs <;> rfl

theorem cursorBottom_groups : (cursorBottom toLowercase s).groups = s.groups := by
  unfold cursorBottom
  dsimp only
  split_ifs <;> rfl

theorem cursorPageDown_groups (step : ℕ) :
    (cursorPageDown toLowercase step s).groups = s.groups := by
  unfold cursorPageDown
  dsimp only
  split_ifs <;> rfl

theorem collapseGroup_groups (groupId : Int32) :
    (collapseGroup toLowercase groupId s).groups = s.groups := by
  unfold collapseGroup
  split_ifs
  · rfl
  · exact clampCursor_groups _

theorem expandGroup_groups (groupId : Int32) :
    (expandGroup toLowercase groupId s).groups = s.groups := by
  unfold expandGroup
  split_ifs
  · exact clampCursor_groups _
  · rfl

theorem toggleAtCursor_groups : (toggleAtCursor toLowercase s).groups = s.groups := by
  unfold toggleAtCursor
  split
  · split
    · exact clampCursor_groups _
    · rfl
  · rfl

theorem handleSearchKey_groups (k : SearchKey) :
    (handleSearchKey toLowercase s k).groups = s.groups := by
  cases k with
  | esc => exact clampCursor_groups _
  | enter =>
    unfold handleSearchKey
    dsimp only
    split_ifs
    · exact clampCursor_groups _
    · rfl
  | down => exact cursorDown_groups s
  | up => exact cursorUp_groups s
  | edit e => rfl

theorem toggleFocus_groups : (toggleFocus toLowercase s).groups = s.groups := by
  unfold toggleFocus
  split
  · split
    · split <;> rfl
    · rfl
    · rfl
  · rfl

theorem moveLeft_groups : (moveLeft toLowercase s).groups = s.groups := by
  unfold moveLeft
  split
  · split
    · split
      · split
        · exact collapseGroup_groups s _
        · rfl
      · exact follow_groups s _
    · rfl
    · rfl
  · rfl

theorem moveRight_groups : (moveRight toLowercase s).groups = s.groups := by
  unfold moveRight
  split
  · split
    · split
      · split_ifs
        · exact expandGroup_groups s _
        · exact cursorDown_groups s
        · rfl
      · rfl
    · rfl
    · rfl
  · rfl

/-- Of all actions only the moves of items touch the groups. -/
theorem handleAction_groups {a : AppAction} (hdown : a ≠ .moveItemDown) (hup : a ≠ .moveItemUp) :
    (handleAction toLowercase s a).groups = s.groups := by
  cases a with
  | connect => exact toggleAtCursor_groups s
  | toggleGroup => exact toggleAtCursor_groups s
  | moveItemDown => exact absurd rfl hdown
  | moveItemUp => exact absurd rfl hup
  | startSearch => rfl
  | dismiss =>
    unfold handleAction
    dsimp only
    split_ifs
    · rfl
    · exact clampCursor_groups _
    · rfl
  | toggleFocus => exact toggleFocus_groups s
  | cursorDown =>
    unfold handleAction
    dsimp only
    split_ifs
    · exact cursorDown_groups s
    · rfl
  | cursorUp =>
    unfold handleAction
    dsimp only
    split_ifs
    · exact cursorUp_groups s
    · rfl
  | cursorLeft => exact moveLeft_groups s
  | cursorRight => exact moveRight_groups s
  | scrollTop =>
    unfold handleAction
    dsimp only
    split_ifs <;> rfl
  | scrollBottom =>
    unfold handleAction
    dsimp only
    split_ifs
    · exact cursorBottom_groups s
    · rfl
  | pageDown =>
    unfold handleAction
    dsimp only
    split_ifs
    · exact cursorPageDown_groups s 10
    · rfl
  | pageUp =>
    unfold handleAction
    dsimp only
    split_ifs <;> rfl

theorem handleClick_groups (targetIdx : ℕ) :
    (handleClick toLowercase targetIdx s).groups = s.groups := by
  unfold handleClick
  dsimp only
  split_ifs
  · exact toggleAtCursor_groups _
  · rfl
  · rfl

/-- Keys that move no item, the mouse, and changes of tab and focus. -/
def Quiet : Event → Prop
  | .key _ a => a ≠ some .moveItemDown ∧ a ≠ some .moveItemUp
  | .wheel _ => True
  | .click _ => True
  | .view _ _ => True
  | _ => False

theorem quiet_groups {e : Event} (h : Quiet e) (order : HashOrder) :
    (e.apply toLowercase order s).groups = s.groups := by
  cases e with
  | key k a =>
    unfold Event.apply
    dsimp only
    split
    · cases k with
      | none => rfl
      | some k => exact handleSearchKey_groups s k
    · cases a with
      | none => rfl
      | some a => exact handleAction_groups s (mt (congrArg some) h.1) (mt (congrArg some) h.2)
  | wheel down =>
    unfold Event.apply
    dsimp only
    split_ifs
    · exact cursorDown_groups s
    · exact cursorUp_groups s
    · rfl
  | click targetIdx =>
    unfold Event.apply
    dsimp only
    split_ifs
    · exact handleClick_groups s targetIdx
    · rfl
  | view tab focus => rfl
  | _ => exact h.elim

end Inputs

section Runs

variable (subscriptionHost toLowercase : String → String)

/-- What happens to the core and one of its clients: a command of any client, of which this
one hears; a key of this one that moves an item, with the request that it sends and the
notification that comes back; any other input of its user. -/
inductive Turn where
  | command (t : ClientMirror.Turn)
  | move (up : Bool) (requestId : String) (order : HashOrder)
  | input (e : Event) (order : HashOrder)

def Turn.run : Turn → World → App → World × App
  | .command t,w,s => ((t.command.run subscriptionHost w).2,
      hear toLowercase t.order t.requestId (t.command.run subscriptionHost w).1 s)
  | .move up requestId order,w,s =>
    match request toLowercase up s with
    | none => (w,moveItem toLowercase up s)
    | some c => ((c.run subscriptionHost w).2,
        hear toLowercase order requestId (c.run subscriptionHost w).1 (moveItem toLowercase up s))
  | .input e order,w,s => (w,e.apply toLowercase order s)

/-- Commands are careful, keys that move items need no care. -/
def Turn.Careful (w : World) : Turn → Prop
  | .command t => t.command.Careful (bookOf w)
  | .move _ _ _ => True
  | .input e _ => Quiet e

/-- What the user saw after the key stays when the answer comes. -/
def Turn.Steady (w : World) (s : App) : Turn → Prop
  | .move up requestId order =>
    ((Turn.move up requestId order).run subscriptionHost toLowercase w s).2.groups.map page =
      (moveItem toLowercase up s).groups.map page
  | _ => True

/-- Before the first turn and after each the client shows what the core lists. -/
def Settled : List Turn → World → App → Prop
  | [],w,s => Follows w s
  | t::turns,w,s => Follows w s ∧ t.Steady subscriptionHost toLowercase w s ∧
      Settled turns (t.run subscriptionHost toLowercase w s).1
        (t.run subscriptionHost toLowercase w s).2

def CarefulTurns : List Turn → World → App → Prop
  | [],_,_ => True
  | t::turns,w,s => t.Careful w ∧ CarefulTurns turns (t.run subscriptionHost toLowercase w s).1
      (t.run subscriptionHost toLowercase w s).2

variable {subscriptionHost toLowercase} {w : World} {s : App}

theorem inStep_groups {s' : App} (h : InStep w s) (hs : s'.groups = s.groups) : InStep w s' :=
  ⟨h.healthy,h.sound,hs ▸ h.mirrored⟩

theorem run_move_none {up : Bool} {requestId : String} {order : HashOrder}
    (hr : request toLowercase up s = none) :
    (Turn.move up requestId order).run subscriptionHost toLowercase w s =
      (w,moveItem toLowercase up s) := by
  rw [Turn.run,hr]

theorem run_move_some {up : Bool} {requestId : String} {order : HashOrder} {c : Command}
    (hr : request toLowercase up s = some c) :
    (Turn.move up requestId order).run subscriptionHost toLowercase w s =
      ((c.run subscriptionHost w).2,hear toLowercase order requestId
        (c.run subscriptionHost w).1 (moveItem toLowercase up s)) := by
  rw [Turn.run,hr]

theorem turn_inStep (t : Turn) (h : InStep w s) (hc : t.Careful w) :
    InStep (t.run subscriptionHost toLowercase w s).1 (t.run subscriptionHost toLowercase w s).2 ∧
      t.Steady subscriptionHost toLowercase w s := by
  cases t with
  | command t => exact ⟨command_inStep t.command h hc,trivial⟩
  | move up requestId order =>
    obtain ⟨hr,hsame⟩ | ⟨c,hr,hsettles⟩ := moveItem_settles h up
    · rw [Turn.Steady,run_move_none hr]
      exact ⟨inStep_groups h hsame,rfl⟩
    · rw [Turn.Steady,run_move_some hr]
      exact ⟨hsettles.inStep,mirrored_unique hsettles.inStep.mirrored hsettles.ahead⟩
  | input e order => exact ⟨inStep_groups h (quiet_groups s hc order),trivial⟩

end Runs

end Whoisthat.MovedItems
