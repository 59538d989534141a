import Whoisthat.TreeEvents

/-!
# The cursor of the tree

After every event the cursor is on a visible row, or at the top of an empty tree,
as long as no update of a profile takes the last row of a search away from under
it. One lemma for each event says how the length changes; those that clamp the
cursor need none.
-/

set_option autoImplicit false

namespace Whoisthat.TreeCursor
open Whoisthat.FirstFound
open Whoisthat.Protocol (Group Profile ProfileID GroupWithProfiles)
open Whoisthat.TreeView
open Whoisthat.TreeEvents

section Range

variable {len len' c : ℕ}

/-- 0 where there is nothing to point at, and otherwise below the length. -/
structure InRange (len c : ℕ) : Prop where
  empty : len = 0 → c = 0
  inside : len ≠ 0 → c < len

theorem inRange_iff : InRange len c ↔ c = 0 ∨ c < len := by
  constructor
  · rintro ⟨hempty,hinside⟩
    by_cases h : len = 0
    · exact .inl (hempty h)
    · exact .inr (hinside h)
  · intro h
    exact ⟨fun _ => by omega,fun _ => by omega⟩

theorem inRange_zero : InRange len 0 := inRange_iff.mpr (.inl rfl)

theorem inRange_lt (h : c < len) : InRange len c := inRange_iff.mpr (.inr h)

theorem inRange_mono (h : InRange len c) (hlen : len ≤ len') : InRange len' c :=
  inRange_iff.mpr ((inRange_iff.mp h).imp_right fun hc => hc.trans_le hlen)

theorem inRange_le {c' : ℕ} (h : InRange len c) (hc : c' ≤ c) : InRange len c' := by
  rw [inRange_iff] at h ⊢
  omega

/-- One row less is felt on the last row alone. -/
theorem inRange_less : InRange len c ↔ c = 0 ∨ c+1 < len+1 := by
  rw [inRange_iff]
  omega

end Range

section Moves

variable {toLowercase : String → String} {s : App}

/-- The cursor is in the range of the tree. -/
def Valid (toLowercase : String → String) (s : App) : Prop :=
  InRange (s.treeLen toLowercase) s.cursor

/-- A tree that grows keeps the cursor. -/
theorem valid_grown {s' : App} (h : Valid toLowercase s)
    (hlen : s.treeLen toLowercase ≤ s'.treeLen toLowercase) (hc : s'.cursor = s.cursor) :
    Valid toLowercase s' := by
  rw [Valid,hc]
  exact inRange_mono h hlen

theorem clampCursor_valid (s : App) : Valid toLowercase (clampCursor toLowercase s) := by
  rw [clampCursor]
  split_ifs with hempty hover
  · exact inRange_zero
  · refine inRange_lt ?_
    show s.treeLen toLowercase-1 < s.treeLen toLowercase
    omega
  · exact inRange_lt (by omega)

theorem cursorDown_valid (h : Valid toLowercase s) :
    Valid toLowercase (cursorDown toLowercase s) := by
  rw [cursorDown]
  split_ifs with hend
  · exact h
  · refine inRange_lt ?_
    show s.cursor+1 < s.treeLen toLowercase
    omega

theorem cursorUp_valid (h : Valid toLowercase s) : Valid toLowercase (cursorUp s) := by
  rw [cursorUp]
  split_ifs
  · exact inRange_le h (Nat.sub_le s.cursor 1)
  · exact h

theorem cursorBottom_valid (h : Valid toLowercase s) :
    Valid toLowercase (cursorBottom toLowercase s) := by
  rw [cursorBottom]
  split_ifs with hlen
  · exact inRange_lt (Nat.sub_lt hlen Nat.one_pos)
  · exact h

theorem cursorPageDown_valid (step : ℕ) (h : Valid toLowercase s) :
    Valid toLowercase (cursorPageDown toLowercase step s) := by
  rw [cursorPageDown]
  split_ifs with hlen
  · exact h
  · refine inRange_lt ?_
    show min (s.cursor+step) (s.treeLen toLowercase-1) < s.treeLen toLowercase
    omega

theorem cursorPageUp_valid (step : ℕ) (h : Valid toLowercase s) :
    Valid toLowercase (cursorPageUp step s) := inRange_le h (Nat.sub_le s.cursor step)

theorem collapseGroup_valid (groupId : Int32) (h : Valid toLowercase s) :
    Valid toLowercase (collapseGroup toLowercase groupId s) := by
  rw [collapseGroup]
  split_ifs
  · exact h
  · exact clampCursor_valid _

theorem expandGroup_valid (groupId : Int32) (h : Valid toLowercase s) :
    Valid toLowercase (expandGroup toLowercase groupId s) := by
  rw [expandGroup]
  split_ifs
  · exact clampCursor_valid _
  · exact h

theorem follow_valid {row : Option ℕ} (hrow : ∀ r ∈ row, r < s.treeLen toLowercase)
    (h : Valid toLowercase s) : Valid toLowercase (follow row s) := by
  cases row with
  | none => exact h
  | some r => exact inRange_lt (hrow r rfl)

theorem swap_perm {α : Type} (xs : List α) (i j : ℕ) : (swap xs i j).Perm xs := by
  rw [swap]
  rcases hi : xs[i]? with _ | a
  · exact .refl xs
  rcases hj : xs[j]? with _ | b
  · exact .refl xs
  obtain ⟨hilt,rfl⟩ := List.getElem?_eq_some_iff.mp hi
  obtain ⟨hjlt,rfl⟩ := List.getElem?_eq_some_iff.mp hj
  exact List.set_set_perm hilt hjlt

theorem treeLen_sum (s : App) :
    s.treeLen toLowercase = (s.groups.map (s.height toLowercase)).sum :=
  (treeLen_eq s).trans (length_rows s)

theorem swapGroups_valid (gi gj : ℕ) (h : Valid toLowercase s) :
    Valid toLowercase (swapGroups gi gj s) := by
  have hlen : ({ s with groups := swap s.groups gi gj } : App).treeLen toLowercase =
      s.treeLen toLowercase := by
    rw [treeLen_sum,treeLen_sum]
    exact ((swap_perm s.groups gi gj).map _).sum_eq
  refine follow_valid (fun r hr => ?_) ?_
  · rw [cursorForGroup_eq] at hr
    exact cursorForNode_lt hr
  · exact valid_grown h hlen.ge rfl

theorem map_modify {α : Type} {w : α → ℕ} {f : α → α} (h : ∀ x, w (f x) = w x) (xs : List α)
    (i : ℕ) : (xs.modify i f).map w = xs.map w := by
  induction xs generalizing i with
  | nil => cases i <;> rfl
  | cons x xs ih =>
    cases i with
    | zero => exact congrArg (· :: xs.map w) (h x)
    | succ i => exact congrArg (w x::·) (ih i)

theorem swapProfiles_valid (hq : s.searchQuery = none) (gi pi pj : ℕ) (h : Valid toLowercase s) :
    Valid toLowercase (swapProfiles gi pi pj s) := by
  have hheight : ∀ g : GroupWithProfiles,
      s.height toLowercase { g with profiles := swap g.profiles pi pj } = s.height toLowercase g :=
    fun g => by
      rw [App.height,App.height,hq]
      simp only [(swap_perm g.profiles pi pj).length_eq]
  refine follow_valid (fun r hr => cursorForNode_lt hr) ?_
  have hlen : ({ s with groups := s.groups.modify gi fun g =>
      { g with profiles := swap g.profiles pi pj } } : App).treeLen toLowercase =
        s.treeLen toLowercase := by
    rw [treeLen_sum,treeLen_sum]
    exact congrArg List.sum (map_modify hheight s.groups gi)
  exact valid_grown h hlen.ge rfl

theorem moveItemUp_valid (h : Valid toLowercase s) :
    Valid toLowercase (moveItemUp toLowercase s) := by
  rw [moveItemUp]
  rcases hq : s.searchQuery with _ | q
  · rw [if_neg (by simp)]
    split
    · exact h
    · split_ifs
      · exact h
      · exact swapGroups_valid _ _ h
    · split_ifs
      · exact h
      · exact swapProfiles_valid hq _ _ _ h
  · exact h

theorem moveItemDown_valid (h : Valid toLowercase s) :
    Valid toLowercase (moveItemDown toLowercase s) := by
  rw [moveItemDown]
  rcases hq : s.searchQuery with _ | q
  · rw [if_neg (by simp)]
    split
    · exact h
    · split_ifs
      · exact h
      · exact swapGroups_valid _ _ h
    · split
      · exact h
      · split_ifs
        · exact h
        · exact swapProfiles_valid hq _ _ _ h
  · exact h

end Moves

section Keys

variable {toLowercase : String → String} {s : App}

theorem toggleAtCursor_valid (h : Valid toLowercase s) :
    Valid toLowercase (toggleAtCursor toLowercase s) := by
  rw [toggleAtCursor]
  split
  · split
    · exact clampCursor_valid _
    · exact h
  · exact h

theorem handleSearchKey_valid (k : SearchKey) (h : Valid toLowercase s) :
    Valid toLowercase (handleSearchKey toLowercase s k) := by
  cases k with
  | esc => exact clampCursor_valid _
  | enter =>
    rw [handleSearchKey]
    split_ifs
    · exact clampCursor_valid _
    · exact h
  | down => exact cursorDown_valid h
  | up => exact cursorUp_valid h
  | edit e => exact inRange_zero

theorem toggleFocus_valid (h : Valid toLowercase s) :
    Valid toLowercase (toggleFocus toLowercase s) := by
  rw [toggleFocus]
  split
  · split
    · split
      · exact h
      · exact h
    · exact h
    · exact h
  · exact h

/-- The row of the group above is one of the tree. -/
theorem parentGroupCursor_lt {r : ℕ} (h : r ∈ parentGroupCursor toLowercase s) :
    r < s.treeLen toLowercase := by
  obtain ⟨node,-,hr⟩ := Option.bind_eq_some_iff.mp h
  rw [cursorForGroup_eq] at hr
  exact cursorForNode_lt hr

theorem moveLeft_valid (h : Valid toLowercase s) : Valid toLowercase (moveLeft toLowercase s) := by
  rw [moveLeft]
  split_ifs
  · split
    · split
      · split
        · exact collapseGroup_valid _ h
        · exact h
      · exact follow_valid (fun r hr => parentGroupCursor_lt hr) h
    · exact h
    · exact h
  · exact h

theorem moveRight_valid (h : Valid toLowercase s) :
    Valid toLowercase (moveRight toLowercase s) := by
  rw [moveRight]
  split_ifs
  · split
    · split
      · split_ifs
        · exact expandGroup_valid _ h
        · exact cursorDown_valid h
        · exact h
      · exact h
    · exact h
    · exact h
  · exact h

theorem handleAction_valid (a : AppAction) (h : Valid toLowercase s) :
    Valid toLowercase (handleAction toLowercase s a) := by
  have hgated : ∀ s' : App, Valid toLowercase s' →
      Valid toLowercase (if inLeftPanel s then s' else s) := fun s' h' => by
    split_ifs
    · exact h'
    · exact h
  cases a with
  | connect => exact toggleAtCursor_valid h
  | toggleGroup => exact toggleAtCursor_valid h
  | moveItemDown => exact moveItemDown_valid h
  | moveItemUp => exact moveItemUp_valid h
  | startSearch => exact inRange_zero
  | dismiss =>
    rw [handleAction]
    split_ifs
    · exact h
    · exact clampCursor_valid _
    · exact h
  | toggleFocus => exact toggleFocus_valid h
  | cursorDown => exact hgated _ (cursorDown_valid h)
  | cursorUp => exact hgated _ (cursorUp_valid h)
  | cursorLeft => exact moveLeft_valid h
  | cursorRight => exact moveRight_valid h
  | scrollTop => exact hgated _ inRange_zero
  | scrollBottom => exact hgated _ (cursorBottom_valid h)
  | pageDown => exact hgated _ (cursorPageDown_valid 10 h)
  | pageUp => exact hgated _ (cursorPageUp_valid 10 h)

theorem handleClick_valid (targetIdx : ℕ) (h : Valid toLowercase s) :
    Valid toLowercase (handleClick toLowercase targetIdx s) := by
  rw [handleClick]
  split_ifs with hlt
  · exact toggleAtCursor_valid h
  · exact inRange_lt hlt
  · exact h

end Keys

section Notifications

variable {toLowercase : String → String} {s : App} {f : GroupWithProfiles → GroupWithProfiles}

theorem modifyGroup_grows (id : Int32)
    (h : ∀ g, s.height toLowercase g ≤ s.height toLowercase (f g)) :
    s.treeLen toLowercase ≤ (modifyGroup id f s).treeLen toLowercase := by
  rw [treeLen_sum,treeLen_sum]
  exact sum_modifyFirst_le h

theorem modifyGroup_keeps (id : Int32) (h : ∀ g ∈ s.groups, g.group.id = id →
    s.height toLowercase (f g) = s.height toLowercase g) :
    (modifyGroup id f s).treeLen toLowercase = s.treeLen toLowercase := by
  rw [treeLen_sum,treeLen_sum]
  exact sum_modifyFirst_eq fun g hg hid => h g hg (by simpa using hid)

theorem pushProfile_grows (p : Profile) (g : GroupWithProfiles) :
    s.height toLowercase g ≤ s.height toLowercase (pushProfile p g) := by
  have hgroup : (pushProfile p g).group = g.group := rfl
  rw [App.height,App.height,hgroup]
  split
  · split_ifs
    · exact Nat.le_refl 1
    · simp [pushProfile]
  · exact (List.sublist_append_left g.profiles [p]).countP_le

theorem applyProfilesAdded_valid (profiles : List Profile) (h : Valid toLowercase s) :
    Valid toLowercase (applyProfilesAdded profiles s) := by
  induction profiles generalizing s with
  | nil => exact h
  | cons p profiles ih =>
    exact ih (valid_grown h (modifyGroup_grows p.groupId fun g => pushProfile_grows _ g) rfl)

theorem applyGroupAdded_valid (g : Group) (h : Valid toLowercase s) :
    Valid toLowercase (applyGroupAdded g s) := by
  refine valid_grown h ?_ rfl
  rw [treeLen_sum,treeLen_sum]
  have hsum : ∀ gs : List GroupWithProfiles, ((s.groups ++ gs).map (s.height toLowercase)).sum =
      (s.groups.map (s.height toLowercase)).sum+(gs.map (s.height toLowercase)).sum := fun gs => by
    rw [List.map_append,List.sum_append]
  exact (Nat.le_add_right _ _).trans (hsum [⟨cleanGroup g,[],[]⟩]).ge

/-- The height of a group depends on its id and on its profiles. -/
theorem height_congr {g g' : GroupWithProfiles} (hid : g'.group.id = g.group.id)
    (hlen : g'.profiles.length = g.profiles.length)
    (hcount : ∀ accepts : Profile → Bool, (∃ q, accepts = profileMatches toLowercase q) →
      g'.profiles.countP accepts = g.profiles.countP accepts) :
    s.height toLowercase g' = s.height toLowercase g := by
  rw [App.height,App.height,hid,hlen]
  split
  · rfl
  · exact hcount _ ⟨_,rfl⟩

theorem applyGroupUpdated_valid (g : Group) (h : Valid toLowercase s) :
    Valid toLowercase (applyGroupUpdated g s) := by
  refine valid_grown h (modifyGroup_keeps g.id fun gw _ hid => ?_).ge rfl
  exact height_congr hid.symm rfl fun _ _ => rfl

theorem countP_sum (accepts : Profile → Bool) (ps : List Profile) :
    ps.countP accepts = (ps.map fun p => (accepts p).toNat).sum := by
  induction ps with
  | nil => rfl
  | cons p ps ih =>
    rw [List.countP_cons,List.map_cons,List.sum_cons,ih]
    cases accepts p <;> simp [Nat.add_comm]

theorem length_modifyFirst {α : Type} (p : α → Bool) (f : α → α) (xs : List α) :
    (modifyFirst p f xs).length = xs.length := by
  induction xs with
  | nil => rfl
  | cons x xs ih =>
    cases hx : p x with
    | true => rw [modifyFirst_cons_pos hx,List.length_cons,List.length_cons]
    | false => rw [modifyFirst_cons_neg hx,List.length_cons,List.length_cons,ih]

theorem markPending_valid (groupId profileId : Int32) (h : Valid toLowercase s) :
    Valid toLowercase (markPending groupId profileId s) := by
  refine valid_grown h (modifyGroup_keeps groupId fun g _ _ => ?_).ge rfl
  refine height_congr rfl (length_modifyFirst _ _ _) ?_
  rintro accepts ⟨q,rfl⟩
  rw [countP_sum,countP_sum]
  exact sum_modifyFirst_eq fun p _ _ => rfl

end Notifications

section Updates

variable {toLowercase : String → String} {s : App}

/-- The profile that an update replaces. -/
def found (p : Profile) (s : App) : Option Profile :=
  (s.groups.find? fun g => g.group.id = p.groupId).bind fun g =>
    g.profiles.find? fun pr => pr.id = p.id

/-- The search shows the profile, and no longer what it is updated to. -/
def losesMatch (toLowercase : String → String) (p : Profile) (s : App) : Bool :=
  match s.searchQuery with
  | none => false
  | some q => (found p s).any fun old => profileMatches toLowercase (toLowercase q) old &&
      !profileMatches toLowercase (toLowercase q) (cleanProfile p)

theorem height_replaceProfile {p : Profile} {g : GroupWithProfiles} (hq : s.searchQuery = none) :
    s.height toLowercase (replaceProfile p g) = s.height toLowercase g := by
  rw [App.height,App.height,hq]
  simp only [replaceProfile,length_modifyFirst]

/-- Outside a search, or where there is no such profile, the length stays. -/
theorem applyProfileUpdated_missing {p : Profile} (h : s.searchQuery = none ∨ found p s = none) :
    (applyProfileUpdated p s).treeLen toLowercase = s.treeLen toLowercase := by
  rcases h with hq | hfound
  · exact modifyGroup_keeps p.groupId fun g _ _ => height_replaceProfile hq
  · rcases hg : s.groups.find? (fun g => g.group.id = p.groupId) with _ | g
    · rw [applyProfileUpdated,modifyGroup,modifyFirst_none hg]
    · rw [found,hg,Option.bind_some] at hfound
      rw [treeLen_sum,treeLen_sum]
      have hsum := @sum_modifyFirst _ _ (replaceProfile (cleanProfile p)) _ _
        (s.height toLowercase) hg
      have hprofiles : modifyFirst (fun pr => pr.id = (cleanProfile p).id)
          (fun _ => cleanProfile p) g.profiles = g.profiles := modifyFirst_none hfound
      have hsame : replaceProfile (cleanProfile p) g = g := by rw [replaceProfile,hprofiles]
      rw [hsame] at hsum
      exact Nat.add_right_cancel hsum

/-- In a search the row of the profile is exchanged for that of its update. -/
theorem applyProfileUpdated_found {p old : Profile} {q : String} (hq : s.searchQuery = some q)
    (hfound : found p s = some old) :
    (applyProfileUpdated p s).treeLen toLowercase+
        (profileMatches toLowercase (toLowercase q) old).toNat =
      s.treeLen toLowercase+
        (profileMatches toLowercase (toLowercase q) (cleanProfile p)).toNat := by
  obtain ⟨g,hg,hold⟩ := Option.bind_eq_some_iff.mp hfound
  obtain ⟨w,hw⟩ : ∃ w : Profile → ℕ,
      w = fun p => (profileMatches toLowercase (toLowercase q) p).toNat := ⟨_,rfl⟩
  have hheight : ∀ g : GroupWithProfiles, s.height toLowercase g = (g.profiles.map w).sum :=
    fun g => by
      rw [App.height,hq,hw]
      exact countP_sum _ _
  have hgroups : (applyProfileUpdated p s).treeLen toLowercase+s.height toLowercase g =
      s.treeLen toLowercase+s.height toLowercase (replaceProfile (cleanProfile p) g) := by
    rw [treeLen_sum,treeLen_sum]
    exact sum_modifyFirst hg
  have hprofiles : ((replaceProfile (cleanProfile p) g).profiles.map w).sum+w old =
      (g.profiles.map w).sum+w (cleanProfile p) :=
    @sum_modifyFirst _ _ (fun _ => cleanProfile p) _ _ w hold
  rw [hheight,hheight] at hgroups
  have hsum : (applyProfileUpdated p s).treeLen toLowercase+w old =
      s.treeLen toLowercase+w (cleanProfile p) := by omega
  rwa [hw] at hsum

/-- An update of a profile keeps the cursor valid, save where it takes the last row away. -/
theorem applyProfileUpdated_valid (p : Profile) (h : Valid toLowercase s) :
    Valid toLowercase (applyProfileUpdated p s) ↔ (losesMatch toLowercase p s = true →
      s.cursor = 0 ∨ s.cursor+1 < (s.rows toLowercase).length) := by
  rw [← treeLen_eq]
  have hkept : found p s = none ∨ s.searchQuery = none → losesMatch toLowercase p s = false := by
    rintro (hfound | hq)
    · rw [losesMatch,hfound]
      cases s.searchQuery <;> rfl
    · rw [losesMatch,hq]
  have hidle : ∀ {P Q : Prop}, P → (P ↔ (false = true → Q)) := fun hp =>
    ⟨fun _ hf => absurd hf Bool.false_ne_true,fun _ => hp⟩
  rcases hq : s.searchQuery with _ | q
  · have hlen := @applyProfileUpdated_missing toLowercase s p (.inl hq)
    rw [hkept (.inr hq)]
    exact hidle (valid_grown h hlen.ge rfl)
  rcases hfound : found p s with _ | old
  · have hlen := @applyProfileUpdated_missing toLowercase s p (.inr hfound)
    rw [hkept (.inl hfound)]
    exact hidle (valid_grown h hlen.ge rfl)
  have hlen := @applyProfileUpdated_found toLowercase s p old q hq hfound
  have hloses : losesMatch toLowercase p s = (profileMatches toLowercase (toLowercase q) old &&
      !profileMatches toLowercase (toLowercase q) (cleanProfile p)) := by
    rw [losesMatch,hq,hfound]
    rfl
  rw [hloses]
  cases hold : profileMatches toLowercase (toLowercase q) old with
  | false =>
    rw [hold,Bool.toNat_false,Nat.add_zero] at hlen
    exact hidle (valid_grown h (hlen ▸ Nat.le_add_right _ _) rfl)
  | true =>
    cases hnew : profileMatches toLowercase (toLowercase q) (cleanProfile p) with
    | true =>
      rw [hold,hnew] at hlen
      exact hidle (valid_grown h (Nat.add_right_cancel hlen).ge rfl)
    | false =>
      rw [hold,hnew] at hlen
      have hless : s.treeLen toLowercase = (applyProfileUpdated p s).treeLen toLowercase+1 :=
        hlen.symm
      rw [hless]
      exact (@inRange_less _ _).trans ⟨fun hr _ => hr,fun hr => hr rfl⟩

end Updates

section Property

variable (toLowercase : String → String)

/-- Length, indexing, inverse lookup and drawing agree about the cursor. -/
structure Located (s : App) : Prop where
  cursor : InRange (s.treeLen toLowercase) s.cursor
  nodes : ∀ i, (s.treeNodeAt toLowercase i).isSome = true ↔ i < s.treeLen toLowercase
  inverse : s.searchQuery = none → ∀ i < s.treeLen toLowercase,
    (s.treeNodeAt toLowercase i).bind s.cursorForNode = some i
  applied : s.highlighted toLowercase = s.treeNodeAt toLowercase s.cursor

/-- An updated profile does not leave a search from under a cursor in its last row. -/
def Keeps (s : App) : Event → Prop
  | .profileUpdated p => losesMatch toLowercase p s = true →
      s.cursor = 0 ∨ s.cursor+1 < (s.rows toLowercase).length
  | _ => True

def KeepsRun (s : App) : List (Event × App) → Prop
  | [] => True
  | (e,s')::rest => Keeps toLowercase s e ∧ KeepsRun s' rest

end Property

section Runs

variable {toLowercase : String → String} {s s' : App}

theorem located_iff : Located toLowercase s ↔ Valid toLowercase s := by
  refine ⟨fun h => h.cursor,fun h => ⟨h,treeNodeAt_isSome s,fun hq i hi =>
    cursorForNode_treeNodeAt hq hi,?_⟩⟩
  rw [highlighted_eq,treeNodeAt_eq]
  rw [Valid,treeLen_eq,inRange_iff] at h
  split_ifs with hin
  · rfl
  · rw [h.resolve_right hin]

/-- What one event preserves. -/
theorem apply_valid (order : HashOrder) (e : Event) (h : Valid toLowercase s) :
    Valid toLowercase (e.apply toLowercase order s) ↔ Keeps toLowercase s e := by
  have hidle : ∀ {P : Prop}, P → (P ↔ True) := fun hp => iff_true_intro hp
  cases e with
  | applicationState groups => exact hidle (clampCursor_valid _)
  | profilesAdded profiles => exact hidle (applyProfilesAdded_valid profiles h)
  | profilesDeleted deleted => exact hidle (clampCursor_valid _)
  | subscriptionUpdated group profiles routingProfiles => exact hidle (clampCursor_valid _)
  | profileUpdated p => exact applyProfileUpdated_valid p h
  | testStarted groupId profileId => exact hidle (markPending_valid groupId profileId h)
  | groupAdded g => exact hidle (applyGroupAdded_valid g h)
  | groupDeleted id => exact hidle (clampCursor_valid _)
  | groupUpdated g => exact hidle (applyGroupUpdated_valid g h)
  | profilesReordered groupId profileIds => exact hidle (clampCursor_valid _)
  | groupsReordered groupIds => exact hidle (clampCursor_valid _)
  | profileMoved old newP => exact hidle (clampCursor_valid _)
  | key k a =>
    refine hidle ?_
    rw [Event.apply]
    split
    · cases k with
      | none => exact h
      | some k => exact handleSearchKey_valid k h
    · cases a with
      | none => exact h
      | some a => exact handleAction_valid a h
  | wheel down =>
    refine hidle ?_
    rw [Event.apply]
    split_ifs
    · exact cursorDown_valid h
    · exact cursorUp_valid h
    · exact h
  | click targetIdx =>
    refine hidle ?_
    rw [Event.apply]
    split
    · exact handleClick_valid targetIdx h
    · exact h
  | view tab focus => exact hidle h

theorem step_valid {e : Event} (h : Valid toLowercase s) (hstep : Step toLowercase s e s') :
    Valid toLowercase s' ↔ Keeps toLowercase s e := by
  obtain ⟨order,rfl⟩ := hstep
  exact apply_valid order e h

/-- From a state with a valid cursor on. -/
theorem run_located {run : List (Event × App)} (h : Valid toLowercase s)
    (hrun : IsRun toLowercase s run) :
    (∀ s' ∈ run.map Prod.snd, Located toLowercase s') ↔ KeepsRun toLowercase s run := by
  induction run generalizing s with
  | nil => simp [KeepsRun]
  | cons x rest ih =>
    obtain ⟨e,s'⟩ := x
    obtain ⟨hstep,hrest⟩ := hrun
    have hvalid := step_valid h hstep
    rw [List.map_cons,List.forall_mem_cons,KeepsRun,located_iff,hvalid]
    exact and_congr_right fun hkeeps => ih (hvalid.mpr hkeeps) hrest

/-- In a run from the start every state has the cursor where it belongs exactly when no
update takes the last row of a search from under it. -/
theorem cursor_located (toLowercase : String → String) (run : List (Event × App))
    (hrun : IsRun toLowercase App.new run) :
    (∀ s ∈ App.new::run.map Prod.snd, Located toLowercase s) ↔
      KeepsRun toLowercase App.new run := by
  have hnew : Valid toLowercase App.new := inRange_zero
  rw [List.forall_mem_cons,run_located hnew hrun]
  exact and_iff_right (located_iff.mpr hnew)

/-- The run that a list of events makes. -/
def runOf (toLowercase : String → String) (order : HashOrder) (s : App) :
    List Event → List (Event × App)
  | [] => []
  | e::es => (e,e.apply toLowercase order s)::
      runOf toLowercase order (e.apply toLowercase order s) es

theorem isRun_runOf (order : HashOrder) (s : App) (events : List Event) :
    IsRun toLowercase s (runOf toLowercase order s events) := by
  induction events generalizing s with
  | nil => trivial
  | cons e es ih => exact ⟨⟨order,rfl⟩,ih (e.apply toLowercase order s)⟩

/-- The lower case of ASCII letters. -/
def asciiLower (s : String) : String := String.ofList (s.toList.map Char.toLower)

/-- Maps that give up their entries as they came. -/
def insertionOrder : HashOrder := ⟨id,id,fun l => .refl l,fun l => .refl l⟩

def namedProfile (id : Int32) (name : String) : Profile :=
  ⟨id,1,name,"vless","","h","",0,0,0,0,443,false,""⟩

/-- Two profiles, a search for `a` that shows both, the cursor moved as told, and the
second profile renamed to `b`. -/
def renamedInSearch (down : Bool) : List (Event × App) :=
  runOf asciiLower insertionOrder App.new
    [.groupAdded { Group.default with id := 1 },
      .profilesAdded [namedProfile 1 "ab",namedProfile 2 "ac"],
      .key none (some .startSearch),
      .key (some (.edit (.char 'a'))) none,
      .key (if down then some .down else none) none,
      .profileUpdated (namedProfile 2 "b")]

theorem upper_row_kept : Located asciiLower ((renamedInSearch false).map Prod.snd)[5] :=
  (cursor_located asciiLower (renamedInSearch false) (isRun_runOf _ _ _)).mpr
    ⟨trivial,trivial,trivial,trivial,trivial,fun _ => .inl rfl,trivial⟩ _
    (List.mem_cons_of_mem _ (List.getElem_mem _))

/-- The cursor stays behind on the row that is gone. -/
theorem last_row_lost : IsRun asciiLower App.new (renamedInSearch true) ∧
    ∃ s ∈ (renamedInSearch true).map Prod.snd, s.treeLen asciiLower = 1 ∧ s.cursor = 1 ∧
      s.treeNodeAt asciiLower s.cursor = none ∧
      s.highlighted asciiLower = some (.profile 0 0) ∧ ¬Located asciiLower s := by
  refine ⟨isRun_runOf _ _ _,((renamedInSearch true).map Prod.snd)[5],List.getElem_mem _,?_⟩
  have hlen : App.treeLen asciiLower ((renamedInSearch true).map Prod.snd)[5] = 1 := by
    decide +kernel
  have hcursor : ((renamedInSearch true).map Prod.snd)[5].cursor = 1 := by decide +kernel
  refine ⟨hlen,hcursor,by decide +kernel,by decide +kernel,fun h => ?_⟩
  have hinside := h.cursor.inside (by rw [hlen]; decide)
  rw [hlen,hcursor] at hinside
  exact Nat.lt_irrefl 1 hinside

end Runs

end Whoisthat.TreeCursor
