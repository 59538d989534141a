import Mathlib.Data.List.Infix
import Mathlib.Data.List.Sublists
import Whoisthat.Protocol

/-!
# Selectors of the command line

A selector is looked for among the ids, then among the names, then among the
parts of names; the first of these classes in which anything is found decides, and
it must hold one candidate. A pair of ids is taken as it stands, and what else
was asked for is not looked at.
-/

set_option autoImplicit false

namespace Whoisthat.Resolve
open Whoisthat.Protocol (Group Profile GroupWithProfiles RoutingProfileInfo)

section Classes

variable {α : Type}

/-- The candidates in the first class that has any. -/
def winning (items : List α) : List (α → Bool) → List α
  | [] => []
  | m::ms => if items.filter m = [] then winning items ms else items.filter m

variable {items : List α} {m : α → Bool} {ms : List (α → Bool)}

theorem winning_hit (h : items.filter m ≠ []) : winning items (m::ms) = items.filter m := if_neg h

theorem winning_miss (h : items.filter m = []) : winning items (m::ms) = winning items ms :=
  if_pos h

theorem winning_one : winning items [m] = items.filter m := by
  rw [winning]
  split
  · next h => rw [h]; rfl
  · rfl

theorem winning_two (n : α → Bool) :
    winning items [m,n] = if items.filter m = [] then items.filter n else items.filter m := by
  rw [winning,winning_one]

/-- Whatever wins is one of the items and meets one of the classes. -/
theorem winning_mem {x : α} (h : x ∈ winning items ms) : x ∈ items ∧ ∃ m ∈ ms, m x = true := by
  induction ms with
  | nil => cases h
  | cons m ms ih =>
    by_cases hm : items.filter m = []
    · rw [winning_miss hm] at h
      obtain ⟨hx,n,hn,hnx⟩ := ih h
      exact ⟨hx,n,List.mem_cons_of_mem m hn,hnx⟩
    · rw [winning_hit hm] at h
      obtain ⟨hx,hmx⟩ := List.mem_filter.mp h
      exact ⟨hx,m,List.mem_cons_self,hmx⟩

end Classes

section Source

inductive CliError where
  | usage (text : String)
  deriving DecidableEq

abbrev Result := Except CliError

/-- `str::parse::<u32>` without its bound, for at least one digit. -/
def readDigits (ds : List Char) : Option ℕ :=
  if ds = [] then none
  else ds.foldlM (fun n c => if c.isDigit then some (10*n+(c.toNat-0x30)) else none) 0

/-- `str::parse::<i32>` -/
def parseI32 (s : List Char) : Option Int32 :=
  let (negative,ds) := match s with
    | '-' :: ds => (true,ds)
    | '+' :: ds => (false,ds)
    | ds => (false,ds)
  (readDigits ds).bind fun n =>
    let v : ℤ := if negative then -n else n
    if -2^31 ≤ v ∧ v < 2^31 then some (Int32.ofInt v) else none

/-- The two ids of a selector `group:profile`. -/
def parsePair (selector : String) : Option (Int32 × Int32) :=
  match selector.toList.span (· ≠ ':') with
  | (g,_::p) => (parseI32 g).bind fun gid => (parseI32 p).map fun pid => (gid,pid)
  | (_,[]) => none

def eqIgnoreAsciiCase (a b : String) : Bool :=
  a.toList.map Char.toLower = b.toList.map Char.toLower

variable (toLowercase : String → String)

/-- The lower case of a name contains the lower case of a selector. -/
def contains (name selector : String) : Bool :=
  (toLowercase selector).toList <:+: (toLowercase name).toList

def ambiguous (selector : String) (items : List String) : CliError :=
  .usage ("ambiguous selector '" ++ selector ++ "': " ++ String.intercalate " | " items)

def groupLine (g : Group) : String := "#" ++ toString g.id ++ " " ++ g.name

def findGroup (groups : List GroupWithProfiles) (selector : String) : Result Group :=
  match parseI32 selector.toList with
  | some id =>
    match groups.find? (fun g => g.group.id = id) with
    | some g => .ok g.group
    | none => .error (.usage ("group #" ++ toString id ++ " not found"))
  | none =>
    match (groups.map (·.group)).filter (fun g => eqIgnoreAsciiCase g.name selector) with
    | [g] => .ok g
    | exact@(_::_::_) => .error (ambiguous selector (exact.map groupLine))
    | [] =>
      match (groups.map (·.group)).filter (fun g => contains toLowercase g.name selector) with
      | [g] => .ok g
      | [] => .error (.usage ("group '" ++ selector ++ "' not found; run `whoisthat sub list`"))
      | loose => .error (ambiguous selector (loose.map groupLine))

def profileLine (hit : Group × Profile) : String :=
  toString hit.1.id ++ ":" ++ toString hit.2.id ++ " " ++ hit.2.name

def oneProfile (selector : String) : List (Group × Profile) → Result (Group × Profile)
  | [hit] => .ok hit
  | hits => .error (ambiguous selector (hits.map profileLine))

/-- The profiles of some groups, each with its group. -/
def profilesOf (groups : List GroupWithProfiles) : List (Group × Profile) :=
  groups.flatMap fun g => g.profiles.map fun p => (g.group,p)

/-- The groups that a filter leaves. -/
def scopedGroups (groups : List GroupWithProfiles) : Option String → Result (List GroupWithProfiles)
  | some sel => (findGroup toLowercase groups sel).map fun g => groups.filter (·.group.id = g.id)
  | none => .ok groups

def findProfile (groups : List GroupWithProfiles) (selector : String)
    (groupFilter : Option String) : Result (Group × Profile) :=
  match parsePair selector with
  | some (gid,pid) =>
    match groups.find? (fun g => g.group.id = gid) with
    | some g =>
      match g.profiles.find? (fun p => p.id = pid) with
      | some p => .ok (g.group,p)
      | none => .error (.usage
          ("profile " ++ toString gid ++ ":" ++ toString pid ++ " not found"))
    | none => .error (.usage ("profile " ++ toString gid ++ ":" ++ toString pid ++ " not found"))
  | none => do
    let scope ← scopedGroups toLowercase groups groupFilter
    match parseI32 selector.toList with
    | some id => oneProfile selector ((profilesOf scope).filter (·.2.id = id))
    | none =>
      let exact := (profilesOf scope).filter (fun x => eqIgnoreAsciiCase x.2.name selector)
      if exact ≠ [] then oneProfile selector exact
      else
        match (profilesOf scope).filter (fun x => contains toLowercase x.2.name selector) with
        | [] => .error (.usage
            ("profile '" ++ selector ++ "' not found; run `whoisthat profile list`"))
        | loose => oneProfile selector loose

def routingLine (p : RoutingProfileInfo) : String := p.id ++ " " ++ p.name

def findRoutingProfile (group : GroupWithProfiles) (selector : String) :
    Result RoutingProfileInfo :=
  match group.routingProfiles.find? (fun p => p.id = selector) with
  | some p => .ok p
  | none =>
    match group.routingProfiles.filter (fun p => eqIgnoreAsciiCase p.name selector) with
    | [p] => .ok p
    | _ =>
      match group.routingProfiles.filter (fun p => contains toLowercase p.name selector) with
      | [p] => .ok p
      | [] => .error (.usage ("routing profile '" ++ selector ++ "' not found in group #" ++
          toString group.group.id))
      | loose => .error (ambiguous selector (loose.map routingLine))

end Source

section Meaning

variable (toLowercase : String → String)

/-- What a selector denotes among the groups: an id, or else a name. -/
def groupClasses (selector : String) : List (Group → Bool) :=
  match parseI32 selector.toList with
  | some id => [fun g => g.id = id]
  | none => [fun g => eqIgnoreAsciiCase g.name selector,
      fun g => contains toLowercase g.name selector]

/-- What a selector denotes among the profiles: a pair of ids, an id, or else a name. -/
def profileClasses (selector : String) : List (Group × Profile → Bool) :=
  match parsePair selector with
  | some (gid,pid) => [fun x => x.1.id = gid ∧ x.2.id = pid]
  | none =>
    match parseI32 selector.toList with
    | some id => [fun x => x.2.id = id]
    | none => [fun x => eqIgnoreAsciiCase x.2.name selector,
        fun x => contains toLowercase x.2.name selector]

/-- What a selector denotes among routing profiles, whose ids are texts. -/
def routingClasses (selector : String) : List (RoutingProfileInfo → Bool) :=
  [fun p => p.id = selector,fun p => eqIgnoreAsciiCase p.name selector,
    fun p => contains toLowercase p.name selector]

/-- The profiles in the group that the filter selects. -/
def inScope (groups : List GroupWithProfiles) (groupFilter : Option String) :
    List (Group × Profile) :=
  match scopedGroups toLowercase groups groupFilter with
  | .ok scope => profilesOf scope
  | .error _ => []

/-- Only a sole candidate of the deciding class is returned. -/
def Sole {α : Type} (result : Result α) (candidates : List α) : Prop :=
  ∀ x, result = .ok x → candidates = [x]

/-- And it is returned. -/
def Found {α : Type} (result : Result α) (candidates : List α) : Prop :=
  ∀ x, candidates = [x] → result = .ok x

/-- The three lookups for one selector, in any state. -/
structure Resolved (groups : List GroupWithProfiles) (owner : GroupWithProfiles)
    (selector : String) (groupFilter : Option String) : Prop where
  groupSole : Sole (findGroup toLowercase groups selector)
    (winning (groups.map (·.group)) (groupClasses toLowercase selector))
  groupFound : Found (findGroup toLowercase groups selector)
    (winning (groups.map (·.group)) (groupClasses toLowercase selector))
  profileSole : Sole (findProfile toLowercase groups selector groupFilter)
    (winning (inScope toLowercase groups groupFilter) (profileClasses toLowercase selector))
  profileFound : parsePair selector = none →
    Found (findProfile toLowercase groups selector groupFilter)
      (winning (inScope toLowercase groups groupFilter) (profileClasses toLowercase selector))
  routingSole : Sole (findRoutingProfile toLowercase owner selector)
    (winning owner.routingProfiles (routingClasses toLowercase selector))
  routingFound : Found (findRoutingProfile toLowercase owner selector)
    (winning owner.routingProfiles (routingClasses toLowercase selector))

/-- The profiles that a pair of ids names, filter or no filter. -/
def named (groups : List GroupWithProfiles) (gid pid : Int32) : List (Group × Profile) :=
  (profilesOf groups).filter fun x => x.1.id = gid ∧ x.2.id = pid

/-- A filter is the id of the groups with an id, or the name of one of them alone. -/
def Selects (groups : List GroupWithProfiles) (f : String) (gid : Int32) : Prop :=
  match parseI32 f.toList with
  | some id => id = gid ∧ ∃ g ∈ groups, g.group.id = gid
  | none => ∃ g, winning (groups.map (·.group)) (groupClasses toLowercase f) = [g] ∧ g.id = gid

/-- No id that is asked for stands twice, and a pair of ids names a profile in the group
that the filter selects, if it names one at all. -/
structure Clear (groups : List GroupWithProfiles) (owner : GroupWithProfiles)
    (selector : String) (groupFilter : Option String) : Prop where
  groupIds : ∀ id, parseI32 selector.toList = some id →
    (groups.filter (·.group.id = id)).length ≤ 1
  routingIds : (owner.routingProfiles.filter (·.id = selector)).length ≤ 1
  pairIds : ∀ gid pid, parsePair selector = some (gid,pid) →
    ∀ g, groups.find? (·.group.id = gid) = some g → (∃ p ∈ g.profiles, p.id = pid) →
      (named groups gid pid).length = 1 ∧
      ∀ f, groupFilter = some f → Selects toLowercase groups f gid

end Meaning

section Lists

variable {α : Type} {l : List α}

/-- Taking the first one is taking the only one just when there is no second. -/
theorem head_sole : (∀ x, l.head? = some x → l = [x]) ↔ l.length ≤ 1 := by
  cases l with
  | nil => exact iff_of_true (fun x h => nomatch h) (Nat.zero_le 1)
  | cons a t =>
    constructor
    · intro h
      rw [h a rfl]
      exact Nat.le_refl 1
    · intro h x hx
      cases hx
      rw [List.eq_nil_of_length_eq_zero (Nat.le_zero.mp (Nat.le_of_succ_le_succ h))]

theorem head_found {x : α} (h : l = [x]) : l.head? = some x := by
  rw [h]
  rfl

end Lists

section Groups

variable {toLowercase : String → String} {groups : List GroupWithProfiles} {selector : String}

theorem findGroup_id {id : Int32} (h : parseI32 selector.toList = some id) (x : Group) :
    findGroup toLowercase groups selector = .ok x ↔
      ((groups.map (·.group)).filter (·.id = id)).head? = some x := by
  have hmap : (groups.map (·.group)).filter (fun g => g.id = id) =
      (groups.filter (·.group.id = id)).map (·.group) := List.filter_map
  unfold findGroup
  rw [h,hmap,List.head?_map,List.head?_filter]
  simp only
  generalize groups.find? (fun g => g.group.id = id) = found
  rcases found with _ | g
  · exact iff_of_false nofun nofun
  · exact ⟨fun hx => congrArg some (Except.ok.inj hx),fun hx => congrArg _ (Option.some.inj hx)⟩

/-- A name is looked for as it says. -/
theorem findGroup_name (h : parseI32 selector.toList = none) (x : Group) :
    findGroup toLowercase groups selector = .ok x ↔
      winning (groups.map (·.group)) (groupClasses toLowercase selector) = [x] := by
  unfold findGroup groupClasses
  rw [h]
  simp only [winning_two]
  generalize (groups.map (·.group)).filter (fun g => eqIgnoreAsciiCase g.name selector) = whole
  generalize (groups.map (·.group)).filter (fun g => contains toLowercase g.name selector) = loose
  rcases whole with _ | ⟨g,_ | ⟨g',gs⟩⟩
  · rw [if_pos rfl]
    rcases loose with _ | ⟨g,_ | ⟨g',gs⟩⟩
    · exact iff_of_false nofun nofun
    · exact ⟨fun hx => by cases hx; rfl,fun hx => by cases hx; rfl⟩
    · exact iff_of_false nofun nofun
  · rw [if_neg (List.cons_ne_nil g [])]
    exact ⟨fun hx => by cases hx; rfl,fun hx => by cases hx; rfl⟩
  · rw [if_neg (List.cons_ne_nil g (g'::gs))]
    exact iff_of_false nofun nofun

end Groups

section Profiles

variable {toLowercase : String → String} {groups : List GroupWithProfiles} {selector : String}
  {groupFilter : Option String} {gid pid : Int32} {x : Group × Profile}

theorem oneProfile_ok {hits : List (Group × Profile)} :
    oneProfile selector hits = .ok x ↔ hits = [x] := by
  rcases hits with _ | ⟨hit,_ | ⟨hit',more⟩⟩
  · exact iff_of_false nofun nofun
  · exact ⟨fun hx => by cases hx; rfl,fun hx => by cases hx; rfl⟩
  · exact iff_of_false nofun nofun

theorem winning_nil {α : Type} (ms : List (α → Bool)) : winning [] ms = [] := by
  induction ms with
  | nil => rfl
  | cons m ms ih => exact ih

theorem mem_profilesOf :
    x ∈ profilesOf groups ↔ ∃ g ∈ groups, ∃ p ∈ g.profiles, (g.group,p) = x := by
  simp only [profilesOf,List.mem_flatMap,List.mem_map]

/-- The profiles of the groups with an id are the profiles whose group has it. -/
theorem profilesOf_filter (groups : List GroupWithProfiles) (n : Int32) :
    profilesOf (groups.filter (·.group.id = n)) = (profilesOf groups).filter (·.1.id = n) := by
  induction groups with
  | nil => rfl
  | cons g groups ih =>
    have hrest : profilesOf (g::groups) =
        g.profiles.map (fun p => (g.group,p)) ++ profilesOf groups := rfl
    have hown : (g.profiles.map fun p => (g.group,p)).filter (·.1.id = n) =
        if g.group.id = n then g.profiles.map fun p => (g.group,p) else [] := by
      split
      · next hg =>
        refine List.filter_eq_self.mpr fun y hy => ?_
        obtain ⟨p,-,rfl⟩ := List.mem_map.mp hy
        exact decide_eq_true hg
      · next hg =>
        refine List.filter_eq_nil_iff.mpr fun y hy hin => ?_
        obtain ⟨p,-,rfl⟩ := List.mem_map.mp hy
        exact hg (of_decide_eq_true hin)
    rw [hrest,List.filter_append,← ih,hown]
    by_cases hg : g.group.id = n
    · simp only [List.filter_cons,hg,decide_true,if_true]
      rfl
    · simp only [List.filter_cons,hg,decide_false,if_false,Bool.false_eq_true]
      rfl

/-- An id or a name is looked for in the groups that the filter leaves. -/
theorem findProfile_plain (h : parsePair selector = none) :
    findProfile toLowercase groups selector groupFilter = .ok x ↔
      winning (inScope toLowercase groups groupFilter) (profileClasses toLowercase selector) =
        [x] := by
  unfold findProfile inScope profileClasses
  rw [h]
  simp only
  generalize scopedGroups toLowercase groups groupFilter = left
  rcases left with e | scope
  · rw [winning_nil]
    exact iff_of_false nofun nofun
  · rcases hid : parseI32 selector.toList with _ | id
    · simp only [winning_two]
      show (if _ then _ else _) = _ ↔ _
      generalize (profilesOf scope).filter (fun x => eqIgnoreAsciiCase x.2.name selector) = whole
      generalize (profilesOf scope).filter (fun x => contains toLowercase x.2.name selector) = loose
      by_cases hwhole : whole = []
      · rw [if_neg (not_not_intro hwhole),if_pos hwhole]
        rcases loose with _ | ⟨hit,more⟩
        · exact iff_of_false nofun nofun
        · exact oneProfile_ok
      · rw [if_pos hwhole,if_neg hwhole]
        exact oneProfile_ok
    · rw [winning_one]
      exact oneProfile_ok

/-- A pair of ids is looked up without the filter. -/
theorem findProfile_pair (h : parsePair selector = some (gid,pid)) :
    findProfile toLowercase groups selector groupFilter = .ok x ↔
      ∃ g, groups.find? (·.group.id = gid) = some g ∧
        ∃ p, g.profiles.find? (·.id = pid) = some p ∧ (g.group,p) = x := by
  unfold findProfile
  rw [h]
  simp only
  generalize groups.find? (fun g => g.group.id = gid) = found
  rcases found with _ | g
  · exact iff_of_false nofun nofun
  · simp only
    generalize hp : g.profiles.find? (fun p => p.id = pid) = taken
    rcases taken with _ | p
    · refine iff_of_false nofun ?_
      rintro ⟨g',hg,p,hfound,-⟩
      cases hg
      cases hp.symm.trans hfound
    · constructor
      · intro hx
        cases hx
        exact ⟨g,rfl,p,hp,rfl⟩
      · rintro ⟨g',hg,p',hfound,rfl⟩
        cases hg
        cases hp.symm.trans hfound
        rfl

end Profiles

section Routing

variable {toLowercase : String → String} {owner : GroupWithProfiles} {selector : String}

theorem findRoutingProfile_id (h : owner.routingProfiles.filter (·.id = selector) ≠ [])
    (x : RoutingProfileInfo) :
    findRoutingProfile toLowercase owner selector = .ok x ↔
      (owner.routingProfiles.filter (·.id = selector)).head? = some x := by
  have hsome := mt List.head?_eq_none_iff.mp h
  rw [List.head?_filter] at hsome ⊢
  unfold findRoutingProfile
  generalize owner.routingProfiles.find? (fun p => p.id = selector) = found at hsome ⊢
  rcases found with _ | p
  · exact absurd rfl hsome
  · exact ⟨fun hx => congrArg some (Except.ok.inj hx),fun hx => congrArg _ (Option.some.inj hx)⟩

/-- Names that are equal up to the case of ASCII letters contain each other. -/
theorem exact_contains
    (hlower : ∀ a b, eqIgnoreAsciiCase a b = true → toLowercase a = toLowercase b)
    (name : String) (h : eqIgnoreAsciiCase name selector = true) :
    contains toLowercase name selector = true := by
  rw [contains,hlower name selector h]
  exact decide_eq_true (List.infix_refl _)

/-- Several whole names are several parts of names, so that looking on does no harm. -/
theorem findRoutingProfile_name
    (hlower : ∀ a b, eqIgnoreAsciiCase a b = true → toLowercase a = toLowercase b)
    (h : owner.routingProfiles.filter (·.id = selector) = []) (x : RoutingProfileInfo) :
    findRoutingProfile toLowercase owner selector = .ok x ↔
      winning owner.routingProfiles (routingClasses toLowercase selector) = [x] := by
  have hsub := List.monotone_filter_right owner.routingProfiles
    fun p => @exact_contains toLowercase selector hlower p.name
  have hfind : owner.routingProfiles.find? (fun p => p.id = selector) = none := by
    rw [← List.head?_filter,h]
    rfl
  unfold findRoutingProfile routingClasses
  rw [winning_miss h,winning_two,hfind]
  simp only
  generalize owner.routingProfiles.filter (fun p => eqIgnoreAsciiCase p.name selector) = whole
    at hsub ⊢
  generalize owner.routingProfiles.filter (fun p => contains toLowercase p.name selector) = loose
    at hsub ⊢
  rcases whole with _ | ⟨p,_ | ⟨p',ps⟩⟩
  · rw [if_pos rfl]
    rcases loose with _ | ⟨p,_ | ⟨p',ps⟩⟩
    · exact iff_of_false nofun nofun
    · exact ⟨fun hx => by cases hx; rfl,fun hx => by cases hx; rfl⟩
    · exact iff_of_false nofun nofun
  · rw [if_neg (List.cons_ne_nil p [])]
    exact ⟨fun hx => by cases hx; rfl,fun hx => by cases hx; rfl⟩
  · have hlength := hsub.length_le
    rw [if_neg (List.cons_ne_nil p (p'::ps))]
    rcases loose with _ | ⟨q,_ | ⟨q',qs⟩⟩
    · exact iff_of_false nofun nofun
    · simp only [List.length_cons,List.length_nil] at hlength
      omega
    · exact iff_of_false nofun nofun

end Routing

section Result

variable {toLowercase : String → String} {groups : List GroupWithProfiles}
  {owner : GroupWithProfiles} {selector : String} {groupFilter : Option String}

theorem sole_found {α : Type} {result : Result α} {candidates : List α}
    (h : ∀ x, result = .ok x ↔ candidates = [x]) :
    Sole result candidates ∧ Found result candidates :=
  ⟨fun x => (h x).mp,fun x => (h x).mpr⟩

/-- What is returned so exists and meets the selector. -/
theorem sole_mem {α : Type} {result : Result α} {items : List α} {ms : List (α → Bool)} {x : α}
    (h : Sole result (winning items ms)) (hx : result = .ok x) :
    x ∈ items ∧ ∃ m ∈ ms, m x = true :=
  winning_mem (h x hx ▸ List.mem_singleton_self x)

/-- Where the first candidate is taken it is the only one just when there is no second. -/
theorem sole_head {α : Type} {result : Result α} {candidates : List α}
    (h : ∀ x, result = .ok x ↔ candidates.head? = some x) :
    (Sole result candidates ∧ Found result candidates) ↔ candidates.length ≤ 1 := by
  rw [← head_sole]
  exact ⟨fun hs x hx => hs.1 x ((h x).mpr hx),
    fun hs => ⟨fun x hx => hs x ((h x).mp hx),fun x hx => (h x).mpr (head_found hx)⟩⟩

theorem group_iff :
    (Sole (findGroup toLowercase groups selector)
        (winning (groups.map (·.group)) (groupClasses toLowercase selector)) ∧
      Found (findGroup toLowercase groups selector)
        (winning (groups.map (·.group)) (groupClasses toLowercase selector))) ↔
      ∀ id, parseI32 selector.toList = some id →
        (groups.filter (·.group.id = id)).length ≤ 1 := by
  rcases hid : parseI32 selector.toList with _ | id
  · exact iff_of_true (sole_found (findGroup_name hid)) fun id h => nomatch h
  · have hclass : groupClasses toLowercase selector = [fun g : Group => decide (g.id = id)] := by
      rw [groupClasses,hid]
    have hmap : (groups.map (·.group)).filter (fun g => g.id = id) =
        (groups.filter (·.group.id = id)).map (·.group) := List.filter_map
    rw [hclass,winning_one,sole_head (findGroup_id hid),hmap,List.length_map]
    constructor
    · intro h id' hid'
      cases hid'
      exact h
    · intro h
      exact h id rfl

theorem routing_iff
    (hlower : ∀ a b, eqIgnoreAsciiCase a b = true → toLowercase a = toLowercase b) :
    (Sole (findRoutingProfile toLowercase owner selector)
        (winning owner.routingProfiles (routingClasses toLowercase selector)) ∧
      Found (findRoutingProfile toLowercase owner selector)
        (winning owner.routingProfiles (routingClasses toLowercase selector))) ↔
      (owner.routingProfiles.filter (·.id = selector)).length ≤ 1 := by
  by_cases hid : owner.routingProfiles.filter (·.id = selector) = []
  · refine iff_of_true (sole_found (findRoutingProfile_name hlower hid)) ?_
    rw [hid]
    exact Nat.zero_le 1
  · have hwin : winning owner.routingProfiles (routingClasses toLowercase selector) =
        owner.routingProfiles.filter (·.id = selector) := winning_hit hid
    rw [hwin]
    exact sole_head (findRoutingProfile_id hid)

theorem mem_inScope {x : Group × Profile} (h : x ∈ inScope toLowercase groups groupFilter)
    {f : String} (hf : groupFilter = some f) :
    ∃ g, findGroup toLowercase groups f = .ok g ∧ g.id = x.1.id := by
  rw [inScope,hf,scopedGroups] at h
  rcases hg : findGroup toLowercase groups f with e | g
  · rw [hg] at h
    cases h
  · rw [hg] at h
    refine ⟨g,rfl,?_⟩
    have hx : x ∈ profilesOf (groups.filter (·.group.id = g.id)) := h
    rw [profilesOf_filter] at hx
    exact (of_decide_eq_true (List.mem_filter.mp hx).2).symm

/-- A filter that selects a group leaves every profile of that group. -/
theorem named_inScope {gid pid : Int32}
    (h : ∀ f, groupFilter = some f → ∃ g, findGroup toLowercase groups f = .ok g ∧ g.id = gid) :
    (inScope toLowercase groups groupFilter).filter (fun x => x.1.id = gid ∧ x.2.id = pid) =
      named groups gid pid := by
  rcases groupFilter with _ | f
  · rfl
  · obtain ⟨g,hg,hgid⟩ := h f rfl
    have hscope : inScope toLowercase groups (some f) =
        profilesOf (groups.filter (·.group.id = g.id)) := by
      rw [inScope,scopedGroups,hg]
      rfl
    rw [hscope,profilesOf_filter,hgid,List.filter_filter,named]
    refine List.filter_congr fun x _ => ?_
    by_cases hx : x.1.id = gid <;> simp [hx]

/-- It is what the lookup of the group finds. -/
theorem selects_iff {f : String} {gid : Int32} : Selects toLowercase groups f gid ↔
    ∃ g, findGroup toLowercase groups f = .ok g ∧ g.id = gid := by
  rw [Selects]
  rcases hid : parseI32 f.toList with _ | id
  · simp only [findGroup_name hid]
  · simp only [findGroup_id hid]
    constructor
    · rintro ⟨rfl,g,hg,hgid⟩
      have hin : g.group ∈ (groups.map (·.group)).filter (·.id = id) :=
        List.mem_filter.mpr ⟨List.mem_map_of_mem hg,decide_eq_true hgid⟩
      obtain ⟨x,hx⟩ := Option.isSome_iff_exists.mp
        (List.isSome_head?.mpr (List.ne_nil_of_mem hin))
      have hmem := (List.mem_filter.mp (List.mem_of_head? hx)).2
      exact ⟨x,hx,of_decide_eq_true hmem⟩
    · rintro ⟨g,hg,rfl⟩
      obtain ⟨hin,hgid⟩ := List.mem_filter.mp (List.mem_of_head? hg)
      obtain ⟨g',hg',rfl⟩ := List.mem_map.mp hin
      exact ⟨(of_decide_eq_true hgid).symm,g',hg',rfl⟩

/-- A pair of ids goes to the profile it names just when that is in the scope of the
filter, and the only one. -/
theorem pair_iff {gid pid : Int32} (h : parsePair selector = some (gid,pid)) :
    Sole (findProfile toLowercase groups selector groupFilter)
      (winning (inScope toLowercase groups groupFilter) (profileClasses toLowercase selector)) ↔
      ∀ g, groups.find? (·.group.id = gid) = some g → (∃ p ∈ g.profiles, p.id = pid) →
        (named groups gid pid).length = 1 ∧
        ∀ f, groupFilter = some f → Selects toLowercase groups f gid := by
  simp only [selects_iff]
  have hclass : profileClasses toLowercase selector =
      [fun x : Group × Profile => decide (x.1.id = gid ∧ x.2.id = pid)] := by
    rw [profileClasses,h]
  rw [hclass,winning_one]
  constructor
  · intro hsole g hg ⟨p,hp,hpid⟩
    have hsome : (g.profiles.find? (fun p => p.id = pid)).isSome = true :=
      List.find?_isSome.mpr ⟨p,hp,decide_eq_true hpid⟩
    obtain ⟨q,hq⟩ := Option.isSome_iff_exists.mp hsome
    have honly := hsole (g.group,q) ((findProfile_pair h).mpr ⟨g,hg,q,hq,rfl⟩)
    have hin : (g.group,q) ∈ inScope toLowercase groups groupFilter :=
      (List.mem_filter.mp (honly ▸ List.mem_singleton_self (g.group,q))).1
    have hgid : g.group.id = gid := by simpa using List.find?_some hg
    have hselects : ∀ f, groupFilter = some f →
        ∃ g', findGroup toLowercase groups f = .ok g' ∧ g'.id = gid := fun f hf => by
      obtain ⟨g',hg',hsame⟩ := mem_inScope hin hf
      exact ⟨g',hg',hsame.trans hgid⟩
    rw [named_inScope hselects] at honly
    exact ⟨by rw [honly]; rfl,hselects⟩
  · intro hclear x hx
    obtain ⟨g,hg,p,hp,rfl⟩ := (findProfile_pair h).mp hx
    have hgid : g.group.id = gid := by simpa using List.find?_some hg
    have hpid : p.id = pid := by simpa using List.find?_some hp
    have hpin := List.mem_of_find?_eq_some hp
    obtain ⟨hone,hselects⟩ := hclear g hg ⟨p,hpin,hpid⟩
    have hnamed : (g.group,p) ∈ named groups gid pid :=
      List.mem_filter.mpr ⟨mem_profilesOf.mpr ⟨g,List.mem_of_find?_eq_some hg,p,hpin,rfl⟩,
        decide_eq_true ⟨hgid,hpid⟩⟩
    obtain ⟨y,hy⟩ := List.length_eq_one_iff.mp hone
    rw [hy] at hnamed
    rw [named_inScope hselects,hy,List.mem_singleton.mp hnamed]

/-- In every state the three lookups return nothing but the sole candidate of the class
that decides, just when no id asked for stands twice and a filter selects the group of
a profile that a pair of ids names. -/
theorem resolved_iff
    (hlower : ∀ a b, eqIgnoreAsciiCase a b = true → toLowercase a = toLowercase b) :
    Resolved toLowercase groups owner selector groupFilter ↔
      Clear toLowercase groups owner selector groupFilter := by
  constructor
  · intro h
    refine ⟨group_iff.mp ⟨h.groupSole,h.groupFound⟩,
      (routing_iff hlower).mp ⟨h.routingSole,h.routingFound⟩,fun gid pid hpair => ?_⟩
    exact (pair_iff hpair).mp h.profileSole
  · intro h
    obtain ⟨hgroup,hgroupFound⟩ := group_iff.mpr h.groupIds
    obtain ⟨hrouting,hroutingFound⟩ := (routing_iff hlower).mpr h.routingIds
    have hplain (hpair : parsePair selector = none) :
        Sole (findProfile toLowercase groups selector groupFilter) (winning
          (inScope toLowercase groups groupFilter) (profileClasses toLowercase selector)) ∧
        Found (findProfile toLowercase groups selector groupFilter) (winning
          (inScope toLowercase groups groupFilter) (profileClasses toLowercase selector)) :=
      sole_found fun _ => findProfile_plain hpair
    refine ⟨hgroup,hgroupFound,?_,fun hpair => (hplain hpair).2,hrouting,hroutingFound⟩
    rcases hpair : parsePair selector with _ | ⟨gid,pid⟩
    · exact (hplain hpair).1
    · exact (pair_iff hpair).mpr (h.pairIds gid pid hpair)

def lowercase (s : String) : String := String.ofList (s.toList.map Char.toLower)

def profile (id gid : Int32) (name : String) : Profile :=
  ⟨id,gid,name,"","","","",0,0,0,0,0,false,""⟩

def group (id : Int32) (name : String) (profiles : List Profile) : GroupWithProfiles :=
  ⟨{ Group.default with id := id, name := name },profiles,[]⟩

def work : GroupWithProfiles :=
  group 1 "Work" [profile 10 1 "Berlin",profile 11 1 "Berlin-2"]

def home : GroupWithProfiles := group 2 "Home" [profile 10 2 "Paris"]

theorem pair_in_filter_resolved :
    Resolved lowercase [work,home] work "1:11" (some "work") := by
  refine (resolved_iff fun a b h => ?_).mpr ⟨?_,?_,?_⟩
  · exact congrArg String.ofList (of_decide_eq_true h)
  · intro id hid
    cases (by decide : parseI32 "1:11".toList = none).symm.trans hid
  · exact Nat.zero_le 1
  · intro gid pid hpair
    cases (by decide : parsePair "1:11" = some (1,11)).symm.trans hpair
    intro g _ _
    refine ⟨by decide,fun f hf => ?_⟩
    cases hf
    exact ⟨work.group,by decide,rfl⟩

/-- The profile of another group than the one that the filter selects. -/
theorem pair_past_filter :
    ¬Resolved lowercase [work,home] work "1:11" (some "home") := by
  intro h
  have hpast := h.profileSole (work.group,profile 11 1 "Berlin-2") rfl
  exact absurd hpast (by decide)

end Result

end Whoisthat.Resolve
