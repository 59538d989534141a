import Mathlib.Data.Finset.Insert
import Whoisthat.Protocol
import Whoisthat.FirstFound

/-!
# The tree of groups and profiles

Three traversals of the groups: how many rows are visible, which node stands in a
row, and in which row a node stands. They walk the groups with a running position;
beside them stands the list of visible rows they all speak about.
-/

set_option autoImplicit false

namespace Whoisthat.TreeView
open Whoisthat.Protocol (Group Profile GroupWithProfiles)

section Source

inductive TreeNode where
  | group (gi : ℕ)
  | profile (gi pi : ℕ)
  deriving DecidableEq

inductive ActiveTab where
  | profiles
  | routing
  | traffic
  | logs
  | settings
  deriving DecidableEq

inductive Focus where
  | leftPanel
  | rightPanel
  | popup
  deriving DecidableEq

structure App where
  groups : List GroupWithProfiles
  tab : ActiveTab
  focus : Focus
  cursor : ℕ
  searchQuery : Option String
  searchInput : String
  searchMode : Bool
  collapsedGroups : Finset Int32

def App.new : App where
  groups := []
  tab := .profiles
  focus := .leftPanel
  cursor := 0
  searchQuery := none
  searchInput := ""
  searchMode := false
  collapsedGroups := ∅

variable (toLowercase : String → String)

/-- `str::contains` -/
def contains (s query : String) : Bool := query.toList <:+: s.toList

def profileMatches (query : String) (p : Profile) : Bool :=
  contains (toLowercase p.name) query || contains (toLowercase p.protocol) query ||
    contains (toLowercase p.address) query || contains (toLowercase p.host) query

def App.isGroupCollapsed (s : App) (groupId : Int32) : Bool := groupId ∈ s.collapsedGroups

def App.treeLen (s : App) : ℕ :=
  match s.searchQuery with
  | none => s.groups.foldl (fun n g =>
      if s.isGroupCollapsed g.group.id then n+1 else n+1+g.profiles.length) 0
  | some q =>
    let ql := toLowercase q
    s.groups.foldl (fun n g => g.profiles.foldl (fun n p =>
      if profileMatches toLowercase ql p then n+1 else n) n) 0

/-- The walk over the groups, at group `gi` and position `pos`. -/
def App.nodeFrom (s : App) (cursor : ℕ) : List GroupWithProfiles → ℕ → ℕ → Option TreeNode
  | [],_,_ => none
  | g::gs,gi,pos =>
    if pos = cursor then some (.group gi)
    else
      let pos := pos+1
      if s.isGroupCollapsed g.group.id then s.nodeFrom cursor gs (gi+1) pos
      else if cursor < pos+g.profiles.length then some (.profile gi (cursor-pos))
      else s.nodeFrom cursor gs (gi+1) (pos+g.profiles.length)

/-- The walk over the profiles of one group: the node, or the position behind them. -/
def matchIn (accepts : Profile → Bool) (cursor gi : ℕ) : List Profile → ℕ → ℕ → TreeNode ⊕ ℕ
  | [],_,pos => .inr pos
  | p::ps,pi,pos =>
    if accepts p then
      if pos = cursor then .inl (.profile gi pi) else matchIn accepts cursor gi ps (pi+1) (pos+1)
    else matchIn accepts cursor gi ps (pi+1) pos

def matchFrom (accepts : Profile → Bool) (cursor : ℕ) :
    List GroupWithProfiles → ℕ → ℕ → Option TreeNode
  | [],_,_ => none
  | g::gs,gi,pos =>
    match matchIn accepts cursor gi g.profiles 0 pos with
    | .inl node => some node
    | .inr pos => matchFrom accepts cursor gs (gi+1) pos

def App.treeNodeAt (s : App) (cursor : ℕ) : Option TreeNode :=
  match s.searchQuery with
  | none => s.nodeFrom cursor s.groups 0 0
  | some q => matchFrom (profileMatches toLowercase (toLowercase q)) cursor s.groups 0 0

def App.groupCursorFrom (s : App) (targetGi : ℕ) : List GroupWithProfiles → ℕ → ℕ → Option ℕ
  | [],_,_ => none
  | g::gs,gi,pos =>
    if gi = targetGi then some pos
    else
      let pos := pos+1
      s.groupCursorFrom targetGi gs (gi+1)
        (if s.isGroupCollapsed g.group.id then pos else pos+g.profiles.length)

def App.cursorForGroup (s : App) (targetGi : ℕ) : Option ℕ :=
  if s.searchQuery.isSome then none else s.groupCursorFrom targetGi s.groups 0 0

def App.nodeCursorFrom (s : App) (target : TreeNode) :
    List GroupWithProfiles → ℕ → ℕ → Option ℕ
  | [],_,_ => none
  | g::gs,gi,pos =>
    if target = .group gi then some pos
    else
      let pos := pos+1
      if s.isGroupCollapsed g.group.id then s.nodeCursorFrom target gs (gi+1) pos
      else
        match target with
        | .profile tgi tpi =>
          if tgi = gi then if tpi < g.profiles.length then some (pos+tpi) else none
          else s.nodeCursorFrom target gs (gi+1) (pos+g.profiles.length)
        | .group _ => s.nodeCursorFrom target gs (gi+1) (pos+g.profiles.length)

def App.cursorForNode (s : App) (target : TreeNode) : Option ℕ :=
  if s.searchQuery.isSome then none else s.nodeCursorFrom target s.groups 0 0

/-- The list that is drawn, and the index of its selected item. -/
structure Drawing where
  items : List TreeNode
  cursorPosInList : ℕ
  pos : ℕ

def Drawing.push (cursor : ℕ) (d : Drawing) (node : TreeNode) : Drawing where
  items := d.items ++ [node]
  cursorPosInList := if d.pos = cursor then d.items.length else d.cursorPosInList
  pos := d.pos+1

def App.renderTreeNormal (s : App) : List GroupWithProfiles → ℕ → Drawing → Drawing
  | [],_,d => d
  | g::gs,gi,d =>
    let d := d.push s.cursor (.group gi)
    let d := if s.isGroupCollapsed g.group.id then d
      else (List.range g.profiles.length).foldl (fun d pi => d.push s.cursor (.profile gi pi)) d
    s.renderTreeNormal gs (gi+1) d

def drawMatches (accepts : Profile → Bool) (cursor gi : ℕ) : List Profile → ℕ → Drawing → Drawing
  | [],_,d => d
  | p::ps,pi,d =>
    drawMatches accepts cursor gi ps (pi+1) (if accepts p then d.push cursor (.profile gi pi) else d)

def renderSearchResults (accepts : Profile → Bool) (cursor : ℕ) :
    List GroupWithProfiles → ℕ → Drawing → Drawing
  | [],_,d => d
  | g::gs,gi,d =>
    renderSearchResults accepts cursor gs (gi+1) (drawMatches accepts cursor gi g.profiles 0 d)

def App.renderTree (s : App) : Drawing :=
  match s.searchQuery with
  | none => s.renderTreeNormal s.groups 0 ⟨[],0,0⟩
  | some q => renderSearchResults (profileMatches toLowercase (toLowercase q)) s.cursor s.groups 0
      ⟨[],0,0⟩

/-- The node in the selected item of the list, if one is drawn. -/
def App.highlighted (s : App) : Option TreeNode :=
  let d := s.renderTree toLowercase
  d.items[d.cursorPosInList]?

end Source

section Rows

variable (toLowercase : String → String)

/-- The rows of the profiles that a search accepts. -/
def matchRows (accepts : Profile → Bool) (gi : ℕ) : List Profile → ℕ → List TreeNode
  | [],_ => []
  | p::ps,pi =>
    if accepts p then .profile gi pi::matchRows accepts gi ps (pi+1)
    else matchRows accepts gi ps (pi+1)

def App.groupRows (s : App) (gi : ℕ) (g : GroupWithProfiles) : List TreeNode :=
  match s.searchQuery with
  | none => .group gi::(if s.isGroupCollapsed g.group.id then []
      else (List.range g.profiles.length).map (.profile gi))
  | some q => matchRows (profileMatches toLowercase (toLowercase q)) gi g.profiles 0

def App.rowsFrom (s : App) : List GroupWithProfiles → ℕ → List TreeNode
  | [],_ => []
  | g::gs,gi => s.groupRows toLowercase gi g ++ s.rowsFrom gs (gi+1)

/-- The visible rows, from the top. -/
def App.rows (s : App) : List TreeNode := s.rowsFrom toLowercase s.groups 0

/-- The number of rows of one group. -/
def App.height (s : App) (g : GroupWithProfiles) : ℕ :=
  match s.searchQuery with
  | none => if s.isGroupCollapsed g.group.id then 1 else 1+g.profiles.length
  | some q => g.profiles.countP (profileMatches toLowercase (toLowercase q))

end Rows

section Length

variable {toLowercase : String → String} {s : App}

theorem length_matchRows (accepts : Profile → Bool) (gi : ℕ) (ps : List Profile) (pi : ℕ) :
    (matchRows accepts gi ps pi).length = ps.countP accepts := by
  induction ps generalizing pi with
  | nil => rfl
  | cons p ps ih =>
    rw [matchRows,List.countP_cons]
    cases accepts p with
    | true => simp [ih]
    | false => simp [ih]

theorem length_groupRows (s : App) (gi : ℕ) (g : GroupWithProfiles) :
    (s.groupRows toLowercase gi g).length = s.height toLowercase g := by
  rw [App.groupRows,App.height]
  cases s.searchQuery with
  | none => cases s.isGroupCollapsed g.group.id <;> simp [Nat.add_comm]
  | some q => exact length_matchRows _ gi g.profiles 0

theorem length_rowsFrom (s : App) (gs : List GroupWithProfiles) (gi : ℕ) :
    (s.rowsFrom toLowercase gs gi).length = (gs.map (s.height toLowercase)).sum := by
  induction gs generalizing gi with
  | nil => rfl
  | cons g gs ih =>
    rw [App.rowsFrom,List.length_append,length_groupRows,ih,List.map_cons,List.sum_cons]

theorem length_rows (s : App) :
    (s.rows toLowercase).length = (s.groups.map (s.height toLowercase)).sum :=
  length_rowsFrom s s.groups 0

theorem foldl_height {step : ℕ → GroupWithProfiles → ℕ} {height : GroupWithProfiles → ℕ}
    (h : ∀ n g, step n g = n+height g) (gs : List GroupWithProfiles) (n : ℕ) :
    gs.foldl step n = n+(gs.map height).sum := by
  induction gs generalizing n with
  | nil => rfl
  | cons g gs ih => rw [List.foldl_cons,ih,h,List.map_cons,List.sum_cons,Nat.add_assoc]

theorem foldl_countP (accepts : Profile → Bool) (ps : List Profile) (n : ℕ) :
    ps.foldl (fun n p => if accepts p then n+1 else n) n = n+ps.countP accepts := by
  induction ps generalizing n with
  | nil => rfl
  | cons p ps ih =>
    rw [List.foldl_cons,ih,List.countP_cons]
    cases accepts p with
    | true => simp [Nat.add_comm,Nat.add_left_comm]
    | false => simp

/-- The length counts the visible rows. -/
theorem treeLen_eq (s : App) : s.treeLen toLowercase = (s.rows toLowercase).length := by
  rw [length_rows,App.treeLen]
  rcases hq : s.searchQuery with _ | q
  · refine (foldl_height (fun n g => ?_) s.groups 0).trans (Nat.zero_add _)
    rw [App.height,hq]
    show _ = n+(if s.isGroupCollapsed g.group.id = true then 1 else 1+g.profiles.length)
    cases s.isGroupCollapsed g.group.id with
    | true => rfl
    | false => exact Nat.add_assoc n 1 _
  · refine (foldl_height (fun n g => ?_) s.groups 0).trans (Nat.zero_add _)
    rw [App.height,hq]
    exact foldl_countP _ g.profiles n

end Length

section Index

variable {toLowercase : String → String} {s : App}

/-- A row of the second list, behind those of the first. -/
theorem getElem_behind {α : Type} {a b : List α} {k : ℕ} (h : a.length ≤ k) :
    (a ++ b)[k]? = b[k-a.length]? := List.getElem?_append_right h

theorem matchIn_eq (accepts : Profile → Bool) (cursor gi : ℕ) (ps : List Profile) (pi : ℕ) {pos : ℕ}
    (hpos : pos ≤ cursor) : matchIn accepts cursor gi ps pi pos =
      match (matchRows accepts gi ps pi)[cursor-pos]? with
      | some node => .inl node
      | none => .inr (pos+(matchRows accepts gi ps pi).length) := by
  induction ps generalizing pi pos with
  | nil => rfl
  | cons p ps ih =>
    rw [matchIn,matchRows]
    cases accepts p with
    | false => exact ih (pi+1) hpos
    | true =>
      by_cases heq : pos = cursor
      · subst heq
        simp
      · have hnext : cursor-pos = (cursor-(pos+1))+1 := by omega
        simp only [if_true,if_neg heq,hnext,List.getElem?_cons_succ,List.length_cons]
        rw [ih (pi+1) (by omega)]
        cases (matchRows accepts gi ps (pi+1))[cursor-(pos+1)]? with
        | none => exact congrArg Sum.inr (by omega)
        | some node => rfl

theorem matchFrom_eq {q : String} (hq : s.searchQuery = some q) (cursor : ℕ)
    (gs : List GroupWithProfiles) (gi : ℕ) {pos : ℕ} (hpos : pos ≤ cursor) :
    matchFrom (profileMatches toLowercase (toLowercase q)) cursor gs gi pos =
      (s.rowsFrom toLowercase gs gi)[cursor-pos]? := by
  induction gs generalizing gi pos with
  | nil => rfl
  | cons g gs ih =>
    have hrows : s.groupRows toLowercase gi g =
        matchRows (profileMatches toLowercase (toLowercase q)) gi g.profiles 0 := by
      rw [App.groupRows,hq]
    rw [matchFrom,App.rowsFrom,hrows,matchIn_eq _ cursor gi g.profiles 0 hpos]
    generalize matchRows (profileMatches toLowercase (toLowercase q)) gi g.profiles 0 = rows
    by_cases hin : cursor-pos < rows.length
    · rw [List.getElem?_append_left hin,List.getElem?_eq_getElem hin]
    · rw [List.getElem?_eq_none (by omega),getElem_behind (by omega)]
      show matchFrom _ cursor gs (gi+1) (pos+rows.length) = _
      rw [ih (gi+1) (by omega)]
      congr 1
      omega

theorem groupRows_normal (hq : s.searchQuery = none) (gi : ℕ) (g : GroupWithProfiles) :
    s.groupRows toLowercase gi g = .group gi::(if s.isGroupCollapsed g.group.id then []
      else (List.range g.profiles.length).map (.profile gi)) := by
  rw [App.groupRows,hq]

theorem nodeFrom_eq (hq : s.searchQuery = none) (cursor : ℕ) (gs : List GroupWithProfiles)
    (gi : ℕ) {pos : ℕ} (hpos : pos ≤ cursor) :
    s.nodeFrom cursor gs gi pos = (s.rowsFrom toLowercase gs gi)[cursor-pos]? := by
  induction gs generalizing gi pos with
  | nil => rfl
  | cons g gs ih =>
    rw [App.nodeFrom,App.rowsFrom,groupRows_normal hq,List.cons_append]
    by_cases heq : pos = cursor
    · subst heq
      simp
    · have hnext : cursor-pos = (cursor-(pos+1))+1 := by omega
      rw [if_neg heq,hnext,List.getElem?_cons_succ]
      cases s.isGroupCollapsed g.group.id with
      | true => exact ih (gi+1) (by omega)
      | false =>
        have hlength : ((List.range g.profiles.length).map (TreeNode.profile gi)).length =
            g.profiles.length := by rw [List.length_map,List.length_range]
        by_cases hin : cursor < pos+1+g.profiles.length
        · have hlt : cursor-(pos+1) < g.profiles.length := by omega
          simp [hin,hlt,List.getElem?_append_left]
        · simp only [Bool.false_eq_true,if_false,if_neg hin]
          rw [getElem_behind (by rw [hlength]; omega),hlength,ih (gi+1) (by omega)]
          congr 1
          omega

/-- Indexing finds what stands in the row. -/
theorem treeNodeAt_eq (s : App) (i : ℕ) :
    s.treeNodeAt toLowercase i = (s.rows toLowercase)[i]? := by
  rcases hq : s.searchQuery with _ | q
  · rw [App.treeNodeAt,hq]
    exact nodeFrom_eq hq i s.groups 0 (Nat.zero_le i)
  · rw [App.treeNodeAt,hq]
    exact matchFrom_eq hq i s.groups 0 (Nat.zero_le i)

theorem treeNodeAt_isSome (s : App) (i : ℕ) :
    (s.treeNodeAt toLowercase i).isSome = true ↔ i < s.treeLen toLowercase := by
  rw [treeNodeAt_eq,treeLen_eq]
  simp

end Index

section Inverse

variable {toLowercase : String → String} {s : App}

/-- The group a node belongs to. -/
def TreeNode.groupIndex : TreeNode → ℕ
  | .group gi => gi
  | .profile gi _ => gi

/-- The rows of a group and of those behind it name no group in front of it. -/
theorem groupIndex_ge (hq : s.searchQuery = none) {gs : List GroupWithProfiles} {gi : ℕ}
    {node : TreeNode} (h : node ∈ s.rowsFrom toLowercase gs gi) : gi ≤ node.groupIndex := by
  induction gs generalizing gi with
  | nil => cases h
  | cons g gs ih =>
    rw [App.rowsFrom,groupRows_normal hq] at h
    rcases List.mem_append.mp h with h | h
    · rcases List.mem_cons.mp h with rfl | h
      · exact Nat.le_refl gi
      · split at h
        · cases h
        · obtain ⟨pi,-,rfl⟩ := List.mem_map.mp h
          exact Nat.le_refl gi
    · exact Nat.le_of_succ_le (ih h)

/-- The walk for a node reaches it in the row where it stands. -/
theorem nodeCursorFrom_eq (hq : s.searchQuery = none) {node : TreeNode}
    {gs : List GroupWithProfiles} {gi k : ℕ} (pos : ℕ)
    (h : (s.rowsFrom toLowercase gs gi)[k]? = some node) :
    s.nodeCursorFrom node gs gi pos = some (pos+k) := by
  induction gs generalizing gi pos k with
  | nil => cases h
  | cons g gs ih =>
    rw [App.rowsFrom,groupRows_normal hq,List.cons_append] at h
    rw [App.nodeCursorFrom]
    cases k with
    | zero =>
      rw [List.getElem?_cons_zero] at h
      rw [if_pos (Option.some.inj h).symm]
      rfl
    | succ k =>
      rw [List.getElem?_cons_succ] at h
      cases hc : s.isGroupCollapsed g.group.id with
      | true =>
        rw [hc] at h
        have hbehind : gi+1 ≤ node.groupIndex := groupIndex_ge hq (List.mem_of_getElem? h)
        have hne : node ≠ .group gi := by
          rintro rfl
          exact Nat.not_succ_le_self gi hbehind
        rw [if_neg hne]
        exact (ih (pos+1) h).trans (congrArg some (by omega))
      | false =>
        rw [hc] at h
        by_cases hin : k < g.profiles.length
        · have hnode : node = .profile gi k := by
            rw [List.getElem?_append_left (by simpa using hin)] at h
            simpa [hin] using h.symm
          subst hnode
          simp [hin]
          omega
        · have hlength : ((List.range g.profiles.length).map (TreeNode.profile gi)).length =
              g.profiles.length := by rw [List.length_map,List.length_range]
          simp only [Bool.false_eq_true,if_false] at h ⊢
          rw [getElem_behind (by rw [hlength]; omega),hlength] at h
          have hbehind : gi+1 ≤ node.groupIndex := groupIndex_ge hq (List.mem_of_getElem? h)
          have hrest := ih (pos+1+g.profiles.length) h
          have hsum : pos+1+g.profiles.length+(k-g.profiles.length) = pos+(k+1) := by omega
          rw [hsum] at hrest
          cases node with
          | group gj =>
            have hne : TreeNode.group gj ≠ .group gi := by
              rintro ⟨⟩
              exact Nat.not_succ_le_self gi hbehind
            rw [if_neg hne]
            exact hrest
          | profile gj pj =>
            have hne : gj ≠ gi := by
              rintro rfl
              exact Nat.not_succ_le_self gj hbehind
            rw [if_neg (by simp)]
            exact (if_neg hne).trans hrest

/-- Outside a search the row of the node in a row is that row. -/
theorem cursorForNode_treeNodeAt (hq : s.searchQuery = none) {i : ℕ} (h : i < s.treeLen toLowercase) :
    (s.treeNodeAt toLowercase i).bind s.cursorForNode = some i := by
  have hlt : i < (s.rows toLowercase).length := by rwa [treeLen_eq] at h
  have hget : (s.rows toLowercase)[i]? = some (s.rows toLowercase)[i] := List.getElem?_eq_getElem hlt
  rw [treeNodeAt_eq,hget,Option.bind_some,App.cursorForNode,hq]
  exact (nodeCursorFrom_eq hq 0 hget).trans (congrArg some (Nat.zero_add i))

end Inverse

section Reached

variable {toLowercase : String → String} {s : App}

/-- What the walk for a node answers is a row in which the node stands. -/
theorem nodeCursorFrom_reached (hq : s.searchQuery = none) {node : TreeNode}
    {gs : List GroupWithProfiles} {gi pos r : ℕ} (h : s.nodeCursorFrom node gs gi pos = some r) :
    r < pos+(gs.map (s.height toLowercase)).sum := by
  induction gs generalizing gi pos with
  | nil => cases h
  | cons g gs ih =>
    have hheight : s.height toLowercase g =
        if s.isGroupCollapsed g.group.id then 1 else 1+g.profiles.length := by
      rw [App.height,hq]
    rw [App.nodeCursorFrom] at h
    rw [List.map_cons,List.sum_cons,hheight]
    split at h
    · obtain rfl := Option.some.inj h
      split <;> omega
    · cases hc : s.isGroupCollapsed g.group.id with
      | true =>
        rw [hc] at h
        have hrest := ih h
        simp only [if_true]
        omega
      | false =>
        rw [hc] at h
        simp only [Bool.false_eq_true,if_false] at h ⊢
        cases node with
        | group gj =>
          have hrest := ih h
          omega
        | profile gj pj =>
          simp only at h
          split at h
          · split at h
            · obtain rfl := Option.some.inj h
              omega
            · cases h
          · have hrest := ih h
            omega

theorem groupCursorFrom_eq (target : ℕ) (gs : List GroupWithProfiles) (gi pos : ℕ) :
    s.groupCursorFrom target gs gi pos = s.nodeCursorFrom (.group target) gs gi pos := by
  induction gs generalizing gi pos with
  | nil => rfl
  | cons g gs ih =>
    rw [App.groupCursorFrom,App.nodeCursorFrom]
    by_cases heq : gi = target
    · subst heq
      simp
    · have hne : TreeNode.group target ≠ .group gi := by
        rintro ⟨⟩
        exact heq rfl
      rw [if_neg heq,if_neg hne,ih]
      cases s.isGroupCollapsed g.group.id <;> rfl

/-- The row of a group is that of its node. -/
theorem cursorForGroup_eq (target : ℕ) :
    s.cursorForGroup target = s.cursorForNode (.group target) := by
  rw [App.cursorForGroup,App.cursorForNode,groupCursorFrom_eq]

theorem cursorForNode_lt {node : TreeNode} {r : ℕ} (h : s.cursorForNode node = some r) :
    r < s.treeLen toLowercase := by
  rw [App.cursorForNode] at h
  rcases hq : s.searchQuery with _ | q
  · rw [hq] at h
    have hr := @nodeCursorFrom_reached toLowercase s hq node s.groups 0 0 r h
    rw [treeLen_eq,length_rows]
    omega
  · rw [hq] at h
    cases h

end Reached

section Drawn

variable {toLowercase : String → String} {s : App}

theorem renderTreeNormal_eq (hq : s.searchQuery = none) (gs : List GroupWithProfiles) (gi : ℕ)
    (d : Drawing) : s.renderTreeNormal gs gi d =
      (s.rowsFrom toLowercase gs gi).foldl (Drawing.push s.cursor) d := by
  induction gs generalizing gi d with
  | nil => rfl
  | cons g gs ih =>
    rw [App.renderTreeNormal,App.rowsFrom,groupRows_normal hq,List.foldl_append,List.foldl_cons,ih]
    cases s.isGroupCollapsed g.group.id with
    | true => rfl
    | false =>
      simp only [Bool.false_eq_true,if_false]
      rw [List.foldl_map]

theorem drawMatches_eq (accepts : Profile → Bool) (cursor gi : ℕ) (ps : List Profile) (pi : ℕ)
    (d : Drawing) : drawMatches accepts cursor gi ps pi d =
      (matchRows accepts gi ps pi).foldl (Drawing.push cursor) d := by
  induction ps generalizing pi d with
  | nil => rfl
  | cons p ps ih =>
    rw [drawMatches,matchRows,ih]
    cases accepts p <;> rfl

theorem renderSearchResults_eq {q : String} (hq : s.searchQuery = some q)
    (gs : List GroupWithProfiles) (gi : ℕ) (d : Drawing) :
    renderSearchResults (profileMatches toLowercase (toLowercase q)) s.cursor gs gi d =
      (s.rowsFrom toLowercase gs gi).foldl (Drawing.push s.cursor) d := by
  induction gs generalizing gi d with
  | nil => rfl
  | cons g gs ih =>
    rw [renderSearchResults,App.rowsFrom,List.foldl_append,ih,drawMatches_eq,App.groupRows,hq]

theorem renderTree_eq (s : App) : s.renderTree toLowercase =
    (s.rows toLowercase).foldl (Drawing.push s.cursor) ⟨[],0,0⟩ := by
  rcases hq : s.searchQuery with _ | q
  · rw [App.renderTree,hq]
    exact renderTreeNormal_eq hq s.groups 0 _
  · rw [App.renderTree,hq]
    exact renderSearchResults_eq hq s.groups 0 _

theorem foldl_push (cursor : ℕ) (rows : List TreeNode) (d : Drawing) (hd : d.pos = d.items.length) :
    (rows.foldl (Drawing.push cursor) d).items = d.items ++ rows ∧
      (rows.foldl (Drawing.push cursor) d).cursorPosInList =
        if d.pos ≤ cursor ∧ cursor < d.pos+rows.length then cursor else d.cursorPosInList := by
  induction rows generalizing d with
  | nil => simp
  | cons node rows ih =>
    obtain ⟨hitems,hselected⟩ := ih (d.push cursor node) (by simp [Drawing.push,hd])
    rw [List.foldl_cons]
    refine ⟨by rw [hitems,Drawing.push,List.append_assoc]; rfl,?_⟩
    rw [hselected]
    simp only [Drawing.push,List.length_cons]
    by_cases hhere : d.pos = cursor
    · have hbehind : ¬(d.pos+1 ≤ cursor ∧ cursor < d.pos+1+rows.length) := by omega
      have hin : d.pos ≤ cursor ∧ cursor < d.pos+(rows.length+1) := by omega
      have hindex : d.items.length = cursor := hd.symm.trans hhere
      exact (if_neg hbehind).trans ((if_pos hhere).trans (hindex.trans (if_pos hin).symm))
    · have hiff : d.pos+1 ≤ cursor ∧ cursor < d.pos+1+rows.length ↔
          d.pos ≤ cursor ∧ cursor < d.pos+(rows.length+1) := by omega
      rw [if_neg hhere]
      exact if_congr hiff rfl rfl

/-- The selected item is that of the cursor, or the first where the cursor is outside. -/
theorem highlighted_eq (s : App) : s.highlighted toLowercase =
    (s.rows toLowercase)[if s.cursor < (s.rows toLowercase).length then s.cursor else 0]? := by
  obtain ⟨hitems,hselected⟩ := foldl_push s.cursor (s.rows toLowercase) ⟨[],0,0⟩ rfl
  rw [App.highlighted,renderTree_eq]
  simp only [hitems,hselected,List.nil_append,Nat.zero_le,true_and,Nat.zero_add]

end Drawn

end Whoisthat.TreeView
