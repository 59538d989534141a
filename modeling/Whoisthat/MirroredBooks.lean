import Whoisthat.ClientAgreement
import Whoisthat.CoreBooks
import Whoisthat.MirroredOrders

/-!
# A client's list as a mirror of the database

What a client shows of groups and profiles, compared with what is stored of them: the
same groups in the same order, each with the same profiles in the same order. Every
change of the database has its counterpart on the list, which keeps the two alike as long
as the numbers of the stored files are sound.
-/

set_option autoImplicit false

namespace Whoisthat.MirroredBooks
open Whoisthat.FileStore Whoisthat.Records Whoisthat.Database Whoisthat.CoreBooks
open Whoisthat.MirroredOrders Whoisthat.TreeEvents
open Whoisthat.FirstFound (modifyFirst modifyFirst_none)
open Whoisthat.WireRecords (narrow small Slice.items)
open Whoisthat.ClientAgreement (seenProfile seenGroup fitsProfile fitsGroup)
open Whoisthat.Listings (ListedBy)

section Sent

/-- A profile as a notification carries it. -/
def goProfile (p : Profile) : Structs.Profile where
  id := Int64.ofInt p.id
  groupId := Int64.ofInt p.groupId
  nanoID := p.nanoID
  name := p.name
  protocol := p.protocol
  uri := p.uri
  address := p.address
  host := p.host
  testResult := Int64.ofInt p.testResult
  testedAt := Int64.ofInt p.testedAt
  lossPct := Int64.ofInt p.lossPct
  jitterMs := Int64.ofInt p.jitterMs
  port := Int64.ofInt p.port
  managed := p.managed
  providerKey := p.providerKey

def goGroup (g : Group) : Structs.Group where
  id := Int64.ofInt g.id
  subscriptionUrl := g.subscriptionUrl
  name := g.name
  lastId := Int64.ofInt g.lastId
  subLastUpdated := Int64.ofInt g.subLastUpdated
  subExpires := Int64.ofInt g.subExpires
  subUpload := Int64.ofInt g.subUpload
  subDownload := Int64.ofInt g.subDownload
  subTotal := Int64.ofInt g.subTotal
  subUpdateInterval := Int64.ofInt g.subUpdateInterval
  subUpdateIntervalOverride := Int64.ofInt g.subUpdateIntervalOverride
  subAutoUpdateDisabled := g.subAutoUpdateDisabled
  profileOrder := some (g.profileOrder.map Int64.ofInt)
  routingMode := g.routingMode
  manualRoutingMode := g.manualRoutingMode
  activeRoutingProfileId := g.activeRoutingProfileId
  pendingActiveRoutingProfileId := g.pendingActiveRoutingProfileId
  subName := g.subName
  subscriptionFormat := g.subscriptionFormat

/-- A profile as the client reads it. -/
def sentProfile (p : Profile) : Protocol.Profile := seenProfile (goProfile p)

def sentGroup (g : Group) : Protocol.Group := seenGroup (goGroup g)

/-- A number that keeps its value in the client's width. -/
def FitsInt32 (n : ℤ) : Prop := -2147483648 ≤ n ∧ n ≤ 2147483647

structure Fits (p : Profile) : Prop where
  id : FitsInt32 p.id
  groupId : FitsInt32 p.groupId
  testResult : FitsInt32 p.testResult
  lossPct : FitsInt32 p.lossPct
  jitterMs : FitsInt32 p.jitterMs
  port : FitsInt32 p.port

structure FitsGroup (g : Group) : Prop where
  id : FitsInt32 g.id
  lastId : FitsInt32 g.lastId
  profileOrder : ∀ n ∈ g.profileOrder, FitsInt32 n

variable {n : ℤ} {p : Profile} {g : Group}

theorem ofInt_small (h : FitsInt32 n) : (Int64.ofInt n).toInt = n := by
  obtain ⟨hlo,hhi⟩ := h
  exact Int64.toInt_ofInt_of_le (by omega) (by omega)

theorem narrow_small (h : FitsInt32 n) : (narrow (Int64.ofInt n)).toInt = n := by
  rw [narrow,ofInt_small h]
  obtain ⟨hlo,hhi⟩ := h
  exact Int32.toInt_ofInt_of_le (by omega) (by omega)

theorem small_small (h : FitsInt32 n) : small (Int64.ofInt n) = true := by
  rw [small,narrow_small h,ofInt_small h]
  exact decide_eq_true rfl

theorem small_toInt (i : Int32) : FitsInt32 i.toInt := by
  have hlo := i.le_toInt
  have hhi := i.toInt_lt
  exact ⟨by omega,by omega⟩

/-- A number of the client in the core. -/
def goInt (i : Int32) : Int64 := Int64.ofInt i.toInt

@[simp] theorem small_goInt (i : Int32) : small (goInt i) = true := small_small (small_toInt i)

@[simp] theorem narrow_goInt (i : Int32) : narrow (goInt i) = i :=
  Int32.toInt_inj.mp (narrow_small (small_toInt i))

theorem sent_id (h : Fits p) : (sentProfile p).id.toInt = p.id := narrow_small h.id

theorem fits_profile (h : Fits p) : fitsProfile (goProfile p) = true := by
  simp [fitsProfile,goProfile,small_small h.id,small_small h.groupId,small_small h.testResult,
    small_small h.lossPct,small_small h.jitterMs,small_small h.port]

theorem fits_group (h : FitsGroup g) : fitsGroup (goGroup g) = true := by
  have horder : ∀ n ∈ g.profileOrder, small (Int64.ofInt n) = true :=
    fun n hn => small_small (h.profileOrder n hn)
  simpa [fitsGroup,goGroup,Slice.items,small_small h.id,small_small h.lastId] using horder

end Sent

section Invariants

/-- The numbers of a group and of its profiles. -/
structure SoundGroup (gid : ℤ) (g : Group) (profile : ℤ → Option Profile) : Prop where
  id : g.id = gid
  fits : FitsGroup g
  profiles : ∀ n p, profile n = some p →
    p.groupId = gid ∧ p.id = n ∧ Fits p ∧ n ∈ g.profileOrder
  last : ∀ n ∈ g.profileOrder, n ≤ g.lastId

/-- Every file carries its own number, every order mentions all that is stored, the
counters are not behind, and the client can read all of it. -/
structure Sound (b : Book) : Prop where
  groups : ∀ gid g, b.group gid = some g → SoundGroup gid g (b.profile gid) ∧ gid ∈ b.order
  orphans : ∀ gid, b.group gid = none → ∀ n, b.profile gid n = none
  last : ∀ c, b.config = some c → ∀ gid ∈ c.groupOrder, gid ≤ c.lastGroupId

/-- A group as it is shown: a client does not follow the counter and the order, of which
it has no use. -/
def shownGroup (g : Protocol.Group) : Protocol.Group :=
  { cleanGroup g with
    lastId := 0
    profileOrder := [] }

theorem shown_counted (g : Group) (last : ℤ) (order : List ℤ) :
    shownGroup (sentGroup { g with
      lastId := last
      profileOrder := order }) = shownGroup (sentGroup g) := by
  simp only [shownGroup,cleanGroup,sentGroup,seenGroup,goGroup]

/-- A group of the client with its profiles, and what is stored of it. -/
structure Shows (b : Book) (g : Group) (x : Protocol.GroupWithProfiles) : Prop where
  stored : b.group x.group.id.toInt = some g
  group : shownGroup x.group = shownGroup (sentGroup g)
  listed : ListedBy (fun n => (b.profile x.group.id.toInt n).isSome = true) g.profileOrder
    (x.profiles.map fun p => p.id.toInt)
  profiles : ∀ p ∈ x.profiles, ∃ q, b.profile x.group.id.toInt p.id.toInt = some q ∧
    cleanProfile p = cleanProfile (sentProfile q)

structure Mirrored (b : Book) (xs : List Protocol.GroupWithProfiles) : Prop where
  listed : ListedBy (fun gid => (b.group gid).isSome = true) b.order
    (xs.map fun x => x.group.id.toInt)
  shows : ∀ x ∈ xs, ∃ g, Shows b g x

/-- A change of one group and its profiles. -/
structure Apart (gid : ℤ) (b b' : Book) : Prop where
  group : ∀ i, i ≠ gid → b'.group i = b.group i
  profile : ∀ i, i ≠ gid → b'.profile i = b.profile i

variable {b b' : Book} {gid n : ℤ} {g g' : Group} {x : Protocol.GroupWithProfiles}
  {xs : List Protocol.GroupWithProfiles}

theorem apart_setGroup (b : Book) (gid : ℤ) (g : Group) : Apart gid b (b.setGroup gid g) :=
  ⟨fun _ hi => Function.update_of_ne hi _ _,fun _ _ => rfl⟩

theorem apart_setProfile (b : Book) (gid n : ℤ) (p : Option Profile) :
    Apart gid b (b.setProfile gid n p) :=
  ⟨fun _ _ => rfl,fun _ hi => Function.update_of_ne hi _ _⟩

theorem apart_clear (b : Book) (gid : ℤ) : Apart gid b (b.clear gid) :=
  ⟨fun _ hi => Function.update_of_ne hi _ _,fun _ hi => Function.update_of_ne hi _ _⟩

theorem apart_config (b : Book) (gid : ℤ) (c : DBConfig) : Apart gid b (b.setConfig c) :=
  ⟨fun _ _ => rfl,fun _ _ => rfl⟩

theorem apart_trans {u v w : Book} (h : Apart gid u v) (h' : Apart gid v w) : Apart gid u w :=
  ⟨fun i hi => (h'.group i hi).trans (h.group i hi),
    fun i hi => (h'.profile i hi).trans (h.profile i hi)⟩

theorem sound_apart (hs : Sound b) (ha : Apart gid b b') (hc : b'.config = b.config)
    (hg : b.group gid = some g) (hg' : b'.group gid = some g')
    (hsound : SoundGroup gid g' (b'.profile gid)) : Sound b' := by
  have horder : b'.order = b.order := by rw [Book.order,Book.order,hc]
  constructor
  · intro i gi hi
    rw [horder]
    by_cases he : i = gid
    · subst he
      obtain rfl := Option.some.inj (hg'.symm.trans hi)
      exact ⟨hsound,(hs.groups i g hg).2⟩
    · rw [ha.group i he] at hi
      rw [ha.profile i he]
      exact hs.groups i gi hi
  · intro i hi
    have he : i ≠ gid := by
      rintro rfl
      rw [hg'] at hi
      cases hi
    rw [ha.group i he] at hi
    rw [ha.profile i he]
    exact hs.orphans i hi
  · rw [hc]
    exact hs.last

theorem shows_apart (ha : Apart gid b b') (hx : x.group.id.toInt ≠ gid) (h : Shows b g x) :
    Shows b' g x := by
  constructor
  · rw [ha.group _ hx]
    exact h.stored
  · exact h.group
  · rw [ha.profile _ hx]
    exact h.listed
  · rw [ha.profile _ hx]
    exact h.profiles

/-- A change of one group that the client makes as the core does. -/
theorem mirrored_apart (hm : Mirrored b xs) (ha : Apart gid b b') (hc : b'.config = b.config)
    (hg : b.group gid = some g) (hg' : b'.group gid = some g') {i : Int32} (hi : i.toInt = gid)
    {f : Protocol.GroupWithProfiles → Protocol.GroupWithProfiles}
    (hf : ∀ x ∈ xs, x.group.id = i → Shows b g x → Shows b' g' (f x))
    (hid : ∀ x, x.group.id = i → (f x).group.id = i) :
    Mirrored b' (modifyFirst (fun x => x.group.id = i) f xs) := by
  have horder : b'.order = b.order := by rw [Book.order,Book.order,hc]
  have hkeys : (modifyFirst (fun x => x.group.id = i) f xs).map (fun x => x.group.id) = _ :=
    keys_modifyFirst hid
  constructor
  · rw [horder,numbers_of_keys hkeys]
    refine Listings.listedBy_congr hm.listed fun j => ?_
    by_cases hj : j = gid
    · simp [hj,hg,hg']
    · rw [ha.group j hj]
  · intro y hy
    cases mem_modifyFirst (nodup_keys hm.listed) hy with
    | inl h =>
      obtain ⟨gy,hshows⟩ := hm.shows y h.1
      refine ⟨gy,shows_apart ha (fun he => h.2 ?_) hshows⟩
      exact Int32.toInt_inj.mp (he.trans hi.symm)
    | inr h =>
      obtain ⟨z,hz,hk,rfl⟩ := h
      obtain ⟨gz,hshows⟩ := hm.shows z hz
      have hsame : gz = g := by
        have hstored := hshows.stored
        rw [hk,hi,hg] at hstored
        exact (Option.some.inj hstored).symm
      exact ⟨g',hf z hz hk (hsame ▸ hshows)⟩

/-- What the client shows is determined by what is stored. -/
theorem mirrored_unique {ys : List Protocol.GroupWithProfiles} (h : Mirrored b xs)
    (h' : Mirrored b ys) :
    (xs.map fun x => (shownGroup x.group,x.profiles.map cleanProfile)) =
      ys.map fun x => (shownGroup x.group,x.profiles.map cleanProfile) := by
  apply map_eq_of_keys (listed_unique h.listed h'.listed)
  intro x hx y hy hxy
  obtain ⟨g,hg⟩ := h.shows x hx
  obtain ⟨g',hg'⟩ := h'.shows y hy
  have hsame : g' = g := by
    have hstored := hg'.stored
    rw [← hxy,hg.stored] at hstored
    exact (Option.some.inj hstored).symm
  subst hsame
  have hlisted := hg'.listed
  rw [← hxy] at hlisted
  rw [hg.group,hg'.group]
  congr 1
  apply map_eq_of_keys (listed_unique hg.listed hlisted)
  intro p hp q hq hpq
  obtain ⟨u,hu,hpu⟩ := hg.profiles p hp
  obtain ⟨v,hv,hqv⟩ := hg'.profiles q hq
  rw [← hxy,← hpq,hu] at hv
  rw [hpu,hqv,Option.some.inj hv]

end Invariants

section Labels

theorem cleanLabel_idem (s : String) : cleanLabel (cleanLabel s) = cleanLabel s := by
  unfold cleanLabel
  rw [String.toList_ofList]
  congr 1
  rw [List.filter_eq_self.mpr fun c hc => ?_,List.take_take,min_self]
  exact (List.mem_filter.mp (List.mem_of_mem_take hc)).2

theorem cleanProfile_idem (p : Protocol.Profile) :
    cleanProfile (cleanProfile p) = cleanProfile p := by
  simp only [cleanProfile,cleanLabel_idem]

theorem shownGroup_idem (g : Protocol.Group) : shownGroup (cleanGroup g) = shownGroup g := by
  simp only [shownGroup,cleanGroup,cleanLabel_idem]

end Labels

section Changes

variable {b : Book} {gid n : ℤ} {g : Group} {x : Protocol.GroupWithProfiles}
  {xs : List Protocol.GroupWithProfiles} {i : Int32}

theorem apart_push (b : Book) (gid : ℤ) (g : Group) (p : Profile) :
    Apart gid b (b.push gid g p) :=
  apart_trans (apart_setGroup _ _ _) (apart_setProfile _ _ _ _)

theorem profile_push (b : Book) (gid : ℤ) (g : Group) (p : Profile) (m : ℤ) :
    (b.push gid g p).profile gid m = if m = g.lastId+1 then some p else b.profile gid m := by
  simp [Book.push,Book.setProfile,Book.setGroup,Function.update_apply]

theorem group_push (b : Book) (gid : ℤ) (g : Group) (p : Profile) :
    (b.push gid g p).group gid = some { g with
      lastId := g.lastId+1
      profileOrder := g.profileOrder++[g.lastId+1] } := Function.update_self _ _ _

/-- The number behind the last one is free. -/
theorem fresh_number (h : SoundGroup gid g (b.profile gid)) : g.lastId+1 ∉ g.profileOrder := by
  intro hin
  have hle := h.last _ hin
  omega

theorem sound_push (hs : Sound b) (hg : b.group gid = some g) {p : Profile}
    (hgid : p.groupId = gid) (hid : p.id = g.lastId+1) (hfits : Fits p) :
    Sound (b.push gid g p) := by
  have hsg := (hs.groups gid g hg).1
  refine sound_apart hs (apart_push b gid g p) rfl hg (group_push b gid g p) ?_
  have hsmall : FitsInt32 (g.lastId+1) := hid ▸ hfits.id
  constructor
  · exact hsg.id
  · refine ⟨hsg.fits.id,hsmall,fun n hn => ?_⟩
    cases List.mem_append.mp hn with
    | inl h => exact hsg.fits.profileOrder n h
    | inr h => exact List.mem_singleton.mp h ▸ hsmall
  · intro n q hq
    rw [profile_push] at hq
    split_ifs at hq with hn
    · subst hn
      obtain rfl := Option.some.inj hq
      exact ⟨hgid,hid,hfits,by simp⟩
    · obtain ⟨h₁,h₂,h₃,h₄⟩ := hsg.profiles n q hq
      exact ⟨h₁,h₂,h₃,List.mem_append_left _ h₄⟩
  · intro n hn
    cases List.mem_append.mp hn with
    | inl h => exact (hsg.last n h).trans (by simp)
    | inr h => exact (List.mem_singleton.mp h).le

theorem mirrored_push (hm : Mirrored b xs) (hs : Sound b) (hg : b.group gid = some g)
    {p : Profile} (hi : i.toInt = gid) {q : Protocol.Profile} (hnumber : q.id.toInt = g.lastId+1)
    (hclean : cleanProfile q = cleanProfile (sentProfile p)) :
    Mirrored (b.push gid g p) (modifyFirst (fun x => x.group.id = i) (pushProfile q) xs) := by
  have hsg := (hs.groups gid g hg).1
  refine mirrored_apart hm (apart_push b gid g p) rfl hg (group_push b gid g p) hi ?_
    fun x hx => hx
  intro x _ hx hshows
  have hkey : x.group.id.toInt = gid := hx ▸ hi
  have hold := hshows.listed
  rw [hkey] at hold
  constructor
  · change (b.push gid g p).group x.group.id.toInt = _
    rw [hkey]
    exact group_push b gid g p
  · exact hshows.group.trans (shown_counted g _ _).symm
  · have hpush := listed_push hold (n := g.lastId+1) (fun m hm => by
      obtain ⟨u,hu⟩ := Option.isSome_iff_exists.mp hm
      exact (hsg.profiles m u hu).2.2.2) (fresh_number hsg)
    change ListedBy (fun m => ((b.push gid g p).profile x.group.id.toInt m).isSome = true) _
      ((x.profiles++[q]).map fun p => p.id.toInt)
    rw [hkey,List.map_append,List.map_singleton,hnumber]
    refine Listings.listedBy_congr hpush fun m => ?_
    rw [profile_push]
    split_ifs with h <;> simp [h]
  · change ∀ u ∈ x.profiles++[q], ∃ v, (b.push gid g p).profile x.group.id.toInt u.id.toInt = _ ∧ _
    intro u hu
    rw [hkey,profile_push]
    cases List.mem_append.mp hu with
    | inl h =>
      obtain ⟨v,hv,hclean⟩ := hshows.profiles u h
      rw [hkey] at hv
      have hne : u.id.toInt ≠ g.lastId+1 := fun he =>
        fresh_number hsg (he ▸ (hsg.profiles _ v hv).2.2.2)
      rw [if_neg hne]
      exact ⟨v,hv,hclean⟩
    | inr h =>
      obtain rfl := List.mem_singleton.mp h
      rw [if_pos hnumber]
      exact ⟨p,rfl,hclean⟩

theorem drop_missing (hs : Sound b) (hg : b.group gid = none) (n : ℤ) : b.drop gid n = b := by
  have hsame : Function.update (b.profile gid) n none = b.profile gid := by
    rw [← hs.orphans gid hg n]
    exact Function.update_eq_self n _
  rw [Book.drop,hg,Option.elim_none,Book.setProfile,hsame,Function.update_eq_self]

theorem drop_stored (hg : b.group gid = some g) (n : ℤ) :
    b.drop gid n = (b.setProfile gid n none).setGroup gid { g with
      profileOrder := g.profileOrder.filter (· ≠ n) } := by
  rw [Book.drop,hg]
  rfl

theorem apart_drop (hg : b.group gid = some g) (n : ℤ) : Apart gid b (b.drop gid n) := by
  rw [drop_stored hg]
  exact apart_trans (apart_setProfile _ _ _ _) (apart_setGroup _ _ _)

theorem profile_drop (hg : b.group gid = some g) (n m : ℤ) :
    (b.drop gid n).profile gid m = if m = n then none else b.profile gid m := by
  rw [drop_stored hg]
  simp [Book.setProfile,Book.setGroup,Function.update_apply]

theorem group_drop (hg : b.group gid = some g) (n : ℤ) :
    (b.drop gid n).group gid = some { g with
      profileOrder := g.profileOrder.filter (· ≠ n) } := by
  rw [drop_stored hg]
  exact Function.update_self _ _ _

theorem config_drop (b : Book) (gid n : ℤ) : (b.drop gid n).config = b.config := by
  unfold Book.drop
  cases b.group gid <;> rfl

theorem sound_drop (hs : Sound b) (gid n : ℤ) : Sound (b.drop gid n) := by
  cases hg : b.group gid with
  | none => rwa [drop_missing hs hg]
  | some g =>
    have hsg := (hs.groups gid g hg).1
    refine sound_apart hs (apart_drop hg n) (config_drop b gid n) hg (group_drop hg n) ?_
    constructor
    · exact hsg.id
    · exact ⟨hsg.fits.id,hsg.fits.lastId,fun m hm =>
        hsg.fits.profileOrder m (List.mem_filter.mp hm).1⟩
    · intro m q hq
      rw [profile_drop hg] at hq
      split_ifs at hq with hm
      obtain ⟨h₁,h₂,h₃,h₄⟩ := hsg.profiles m q hq
      exact ⟨h₁,h₂,h₃,List.mem_filter.mpr ⟨h₄,by simpa using hm⟩⟩
    · intro m hm
      exact hsg.last m (List.mem_filter.mp hm).1

/-- A group the core does not have, the client does not show. -/
theorem find_missing (hm : Mirrored b xs) (hg : b.group gid = none) (hi : i.toInt = gid) :
    xs.find? (fun x => x.group.id = i) = none := by
  rw [List.find?_eq_none]
  intro x hx he
  obtain ⟨g,hshows⟩ := hm.shows x hx
  have hstored := hshows.stored
  rw [of_decide_eq_true he,hi,hg] at hstored
  cases hstored

theorem mirrored_drop (hm : Mirrored b xs) (hs : Sound b) (hi : i.toInt = gid) {j : Int32}
    (hj : j.toInt = n) :
    Mirrored (b.drop gid n) (modifyFirst (fun x => x.group.id = i)
      (retainProfiles fun p => p.id ≠ j) xs) := by
  cases hg : b.group gid with
  | none => rwa [drop_missing hs hg,modifyFirst_none (find_missing hm hg hi)]
  | some g =>
    refine mirrored_apart hm (apart_drop hg n) (config_drop b gid n) hg (group_drop hg n) hi ?_
      fun x hx => hx
    intro x _ hx hshows
    have hkey : x.group.id.toInt = gid := hx ▸ hi
    have hold := hshows.listed
    rw [hkey] at hold
    have hne : ∀ p : Protocol.Profile, p.id.toInt ≠ n ↔ p.id ≠ j := fun p => by
      rw [← hj,ne_eq,Int32.toInt_inj]
    constructor
    · change (b.drop gid n).group x.group.id.toInt = _
      rw [hkey]
      exact group_drop hg n
    · exact hshows.group.trans (shown_counted g g.lastId _).symm
    · have hnums : ((x.profiles.filter fun p => p.id ≠ j).map fun p => p.id.toInt) =
          (x.profiles.map fun p => p.id.toInt).filter (· ≠ n) := by
        rw [List.filter_map]
        congr 1
        apply List.filter_congr
        intro p _
        simp [← hne p]
      change ListedBy (fun m => ((b.drop gid n).profile x.group.id.toInt m).isSome = true) _
        ((x.profiles.filter fun p => p.id ≠ j).map fun p => p.id.toInt)
      rw [hkey,hnums]
      refine Listings.listedBy_congr (listed_drop hold n) fun m => ?_
      rw [profile_drop hg]
      split_ifs with h <;> simp [h]
    · change ∀ p ∈ x.profiles.filter (fun p => p.id ≠ j),
        ∃ q, (b.drop gid n).profile x.group.id.toInt p.id.toInt = _ ∧ _
      intro p hp
      obtain ⟨hmem,hpj⟩ := List.mem_filter.mp hp
      have hpn : p.id.toInt ≠ n := (hne p).mpr (by simpa using hpj)
      rw [hkey,profile_drop hg,if_neg hpn,← hkey]
      exact hshows.profiles p hmem

end Changes

section Edits

variable {b : Book} {gid n : ℤ} {g g' : Group} {c : DBConfig}
  {xs : List Protocol.GroupWithProfiles} {i : Int32}

theorem sound_replace (hs : Sound b) (hg : b.group gid = some g) {p p' : Profile}
    (hp : b.profile gid n = some p) (hgid : p'.groupId = gid) (hid : p'.id = n)
    (hfits : Fits p') : Sound (b.setProfile gid n (some p')) := by
  have hsg := (hs.groups gid g hg).1
  refine sound_apart hs (apart_setProfile _ _ _ _) rfl hg hg ⟨hsg.id,hsg.fits,?_,hsg.last⟩
  intro m q hq
  simp only [Book.setProfile,Function.update_self,Function.update_apply] at hq
  split_ifs at hq with hm
  · subst hm
    obtain rfl := Option.some.inj hq
    exact ⟨hgid,hid,hfits,(hsg.profiles m p hp).2.2.2⟩
  · exact hsg.profiles m q hq

theorem mirrored_replace (hm : Mirrored b xs) (hg : b.group gid = some g) {p p' : Profile}
    (hp : b.profile gid n = some p) (hi : i.toInt = gid) (hid : (sentProfile p').id.toInt = n) :
    Mirrored (b.setProfile gid n (some p')) (modifyFirst (fun x => x.group.id = i)
      (replaceProfile (cleanProfile (sentProfile p'))) xs) := by
  refine mirrored_apart hm (apart_setProfile _ _ _ _) rfl hg hg hi ?_ fun x hx => hx
  intro x _ hx hshows
  have hkey : x.group.id.toInt = gid := hx ▸ hi
  have hnew : ∀ m, (b.setProfile gid n (some p')).profile gid m =
      if m = n then some p' else b.profile gid m := by
    intro m
    simp [Book.setProfile,Function.update_apply]
  have hkeys : (replaceProfile (cleanProfile (sentProfile p')) x).profiles.map (·.id) =
      x.profiles.map (·.id) := keys_modifyFirst fun q _ => rfl
  constructor
  · exact hshows.stored
  · exact hshows.group
  · change ListedBy (fun m =>
      ((b.setProfile gid n (some p')).profile x.group.id.toInt m).isSome = true) _ _
    rw [numbers_of_keys hkeys,hkey]
    have hold := hshows.listed
    rw [hkey] at hold
    refine Listings.listedBy_congr hold fun m => ?_
    rw [hnew]
    split_ifs with h <;> simp [h,hp]
  · intro q hq
    change ∃ v, (b.setProfile gid n (some p')).profile x.group.id.toInt q.id.toInt = _ ∧ _
    rw [hkey,hnew]
    cases mem_modifyFirst (nodup_keys hshows.listed) hq with
    | inl h =>
      have hne : q.id.toInt ≠ n := fun he => h.2 (Int32.toInt_inj.mp (he.trans hid.symm))
      rw [if_neg hne,← hkey]
      exact hshows.profiles q h.1
    | inr h =>
      obtain ⟨r,-,-,rfl⟩ := h
      have he : (cleanProfile (sentProfile p')).id.toInt = n := hid
      rw [if_pos he]
      exact ⟨p',rfl,cleanProfile_idem _⟩

/-- A group that is edited keeps its number, its counter and its profiles; its order stays
or is given anew for all that is stored. -/
theorem sound_edit (hs : Sound b) (hg : b.group gid = some g) (hid : g'.id = g.id)
    (hlast : g'.lastId = g.lastId) (horder : ∀ m, m ∈ g'.profileOrder → m ∈ g.profileOrder)
    (hall : ∀ m p, b.profile gid m = some p → m ∈ g'.profileOrder) :
    Sound (b.setGroup gid g') := by
  have hsg := (hs.groups gid g hg).1
  refine sound_apart hs (apart_setGroup _ _ _) rfl hg (Function.update_self _ _ _) ?_
  constructor
  · exact hid.trans hsg.id
  · exact ⟨hid ▸ hsg.fits.id,hlast ▸ hsg.fits.lastId,fun m hm =>
      hsg.fits.profileOrder m (horder m hm)⟩
  · intro m p hp
    obtain ⟨h₁,h₂,h₃,-⟩ := hsg.profiles m p hp
    exact ⟨h₁,h₂,h₃,hall m p hp⟩
  · intro m hm
    rw [hlast]
    exact hsg.last m (horder m hm)

theorem mirrored_edit (hm : Mirrored b xs) (hg : b.group gid = some g)
    (horder : g'.profileOrder = g.profileOrder) (hi : i.toInt = gid)
    (hid : (sentGroup g').id = i) :
    Mirrored (b.setGroup gid g') (modifyFirst (fun x => x.group.id = i)
      (fun x => { x with group := cleanGroup (sentGroup g') }) xs) := by
  refine mirrored_apart hm (apart_setGroup _ _ _) rfl hg (Function.update_self _ _ _) hi ?_
    fun x _ => hid
  intro x _ hx hshows
  have hkey : (cleanGroup (sentGroup g')).id = x.group.id := hid.trans hx.symm
  constructor
  · change Function.update b.group gid (some g') (cleanGroup (sentGroup g')).id.toInt = _
    rw [hkey,hx,hi]
    exact Function.update_self _ _ _
  · exact shownGroup_idem _
  · change ListedBy (fun m => (b.profile (cleanGroup (sentGroup g')).id.toInt m).isSome = true)
      g'.profileOrder _
    rw [hkey,horder]
    exact hshows.listed
  · change ∀ p ∈ x.profiles,
      ∃ q, b.profile (cleanGroup (sentGroup g')).id.toInt p.id.toInt = _ ∧ _
    rw [hkey]
    exact hshows.profiles

theorem mirrored_rearrange (hm : Mirrored b xs) (hg : b.group gid = some g) (hi : i.toInt = gid)
    {ids : List Int32} (hids : ∀ m, m ∈ ids.map Int32.toInt ↔ (b.profile gid m).isSome = true)
    (order : HashOrder) :
    Mirrored (b.setGroup gid { g with profileOrder := ids.map Int32.toInt })
      (modifyFirst (fun x => x.group.id = i) (fun x => { x with
        profiles := rebuild Protocol.Profile.id order.profiles ids x.profiles }) xs) := by
  refine mirrored_apart hm (apart_setGroup _ _ _) rfl hg (Function.update_self _ _ _) hi ?_
    fun x hx => hx
  intro x _ hx hshows
  have hkey : x.group.id.toInt = gid := hx ▸ hi
  have hids' : ∀ m, m ∈ ids.map Int32.toInt ↔ (b.profile x.group.id.toInt m).isSome = true := by
    rw [hkey]
    exact hids
  obtain ⟨hperm,hlisted⟩ := listed_rebuild hshows.listed hids'
    (List.Perm.eq_nil (order.profiles_perm []))
  constructor
  · change Function.update b.group gid _ x.group.id.toInt = _
    rw [hkey]
    exact Function.update_self _ _ _
  · exact hshows.group.trans (shown_counted g g.lastId _).symm
  · exact hlisted
  · intro p hp
    exact hshows.profiles p (hperm.subset hp)

theorem order_config (hc : b.config = some c) : b.order = c.groupOrder := by
  rw [Book.order,hc]
  rfl

/-- The number of a new group is not in use. -/
theorem fresh_group (hs : Sound b) (hc : b.config = some c) :
    c.lastGroupId+1 ∉ c.groupOrder ∧ b.group (c.lastGroupId+1) = none := by
  have hfresh : c.lastGroupId+1 ∉ c.groupOrder := by
    intro hin
    have hle := hs.last c hc _ hin
    omega
  refine ⟨hfresh,?_⟩
  cases hg : b.group (c.lastGroupId+1) with
  | none => rfl
  | some g => exact absurd (order_config hc ▸ (hs.groups _ g hg).2) hfresh

theorem apart_open (b : Book) (c : DBConfig) (g : Group) :
    Apart (c.lastGroupId+1) b (b.openGroup c g) :=
  apart_trans (apart_trans (apart_config _ _ _) (apart_clear _ _)) (apart_setGroup _ _ _)

theorem profile_open (b : Book) (c : DBConfig) (g : Group) (m : ℤ) :
    (b.openGroup c g).profile (c.lastGroupId+1) m = none := by
  simp [Book.openGroup,Book.setGroup,Book.clear]

theorem group_open (b : Book) (c : DBConfig) (g : Group) :
    (b.openGroup c g).group (c.lastGroupId+1) = some g := Function.update_self _ _ _

theorem order_open (b : Book) (c : DBConfig) (g : Group) :
    (b.openGroup c g).order = c.groupOrder++[c.lastGroupId+1] := rfl

theorem sound_open (hs : Sound b) (hc : b.config = some c) (hid : g.id = c.lastGroupId+1)
    (hfits : FitsGroup g) (horder : g.profileOrder = []) : Sound (b.openGroup c g) := by
  constructor
  · intro i gi hi
    by_cases he : i = c.lastGroupId+1
    · subst he
      rw [group_open] at hi
      obtain rfl := Option.some.inj hi
      refine ⟨⟨hid,hfits,fun m p hp => ?_,by simp [horder]⟩,by simp [order_open]⟩
      rw [profile_open] at hp
      cases hp
    · rw [(apart_open b c g).group i he] at hi
      rw [(apart_open b c g).profile i he,order_open]
      obtain ⟨hsg,hin⟩ := hs.groups i gi hi
      exact ⟨hsg,List.mem_append_left _ (order_config hc ▸ hin)⟩
  · intro i hi
    by_cases he : i = c.lastGroupId+1
    · subst he
      rw [group_open] at hi
      cases hi
    · rw [(apart_open b c g).group i he] at hi
      rw [(apart_open b c g).profile i he]
      exact hs.orphans i hi
  · intro c' hc' i hi
    obtain rfl := Option.some.inj hc'
    cases List.mem_append.mp hi with
    | inl h => exact (hs.last c hc i h).trans (by simp)
    | inr h => exact (List.mem_singleton.mp h).le

theorem mirrored_open (hm : Mirrored b xs) (hs : Sound b) (hc : b.config = some c)
    {sent : Protocol.Group} (hkey : sent.id.toInt = c.lastGroupId+1)
    (hsent : shownGroup sent = shownGroup (sentGroup g)) :
    Mirrored (b.openGroup c g) (xs++[⟨sent,[],[]⟩]) := by
  obtain ⟨hfresh,hnone⟩ := fresh_group hs hc
  have hin : ∀ m, (b.group m).isSome = true → m ∈ c.groupOrder := by
    intro m hm
    obtain ⟨gm,hgm⟩ := Option.isSome_iff_exists.mp hm
    exact order_config hc ▸ (hs.groups m gm hgm).2
  have hold := hm.listed
  rw [order_config hc] at hold
  constructor
  · rw [order_open,List.map_append,List.map_singleton,hkey]
    refine Listings.listedBy_congr (listed_push hold hin hfresh) fun m => ?_
    by_cases he : m = c.lastGroupId+1
    · simp [he,group_open]
    · rw [(apart_open b c g).group m he]
      simp [he]
  · intro x hx
    cases List.mem_append.mp hx with
    | inl h =>
      obtain ⟨gx,hshows⟩ := hm.shows x h
      refine ⟨gx,shows_apart (apart_open b c g) (fun he => ?_) hshows⟩
      have hstored := hshows.stored
      rw [he,hnone] at hstored
      cases hstored
    | inr h =>
      obtain rfl := List.mem_singleton.mp h
      refine ⟨g,?_,hsent,?_,fun p hp => absurd hp List.not_mem_nil⟩
      · rw [hkey]
        exact group_open b c g
      · apply listed_nil
        intro m
        rw [hkey,profile_open]
        simp

theorem group_close (b : Book) (gid : ℤ) :
    (b.close gid).group = Function.update b.group gid none := by
  unfold Book.close
  cases b.config <;> rfl

theorem profile_close (b : Book) (gid : ℤ) :
    (b.close gid).profile = Function.update b.profile gid fun _ => none := by
  unfold Book.close
  cases b.config <;> rfl

theorem apart_close (b : Book) (gid : ℤ) : Apart gid b (b.close gid) := by
  constructor
  · intro i hi
    rw [group_close,Function.update_of_ne hi]
  · intro i hi
    rw [profile_close,Function.update_of_ne hi]

theorem order_close (b : Book) (gid : ℤ) : (b.close gid).order = b.order.filter (· ≠ gid) := by
  unfold Book.close Book.order
  cases h : b.config with
  | none => simp [Book.clear,h]
  | some c => rfl

theorem sound_close (hs : Sound b) (gid : ℤ) : Sound (b.close gid) := by
  constructor
  · intro i gi hi
    by_cases he : i = gid
    · rw [he,group_close,Function.update_self] at hi
      cases hi
    · rw [(apart_close b gid).group i he] at hi
      rw [(apart_close b gid).profile i he,order_close]
      obtain ⟨hsg,hin⟩ := hs.groups i gi hi
      exact ⟨hsg,List.mem_filter.mpr ⟨hin,by simpa using he⟩⟩
  · intro i hi
    by_cases he : i = gid
    · rw [he,profile_close,Function.update_self]
      exact fun _ => rfl
    · rw [(apart_close b gid).group i he] at hi
      rw [(apart_close b gid).profile i he]
      exact hs.orphans i hi
  · intro c' hc' i hi
    unfold Book.close at hc'
    cases h : b.config with
    | none =>
      rw [h] at hc'
      exact absurd (h.symm.trans hc') (by simp)
    | some c =>
      rw [h] at hc'
      obtain rfl := Option.some.inj hc'
      exact hs.last c h i (List.mem_filter.mp hi).1

theorem mirrored_close (hm : Mirrored b xs) (hi : i.toInt = gid) :
    Mirrored (b.close gid) (xs.filter fun x => x.group.id ≠ i) := by
  have hne : ∀ x : Protocol.GroupWithProfiles, x.group.id.toInt ≠ gid ↔ x.group.id ≠ i :=
    fun x => by rw [← hi,ne_eq,Int32.toInt_inj]
  constructor
  · have hnums : ((xs.filter fun x => x.group.id ≠ i).map fun x => x.group.id.toInt) =
        (xs.map fun x => x.group.id.toInt).filter (· ≠ gid) := by
      rw [List.filter_map]
      congr 1
      apply List.filter_congr
      intro x _
      simp [← hne x]
    rw [order_close,hnums]
    refine Listings.listedBy_congr (listed_drop hm.listed gid) fun m => ?_
    rw [group_close,Function.update_apply]
    split_ifs with h <;> simp [h]
  · intro x hx
    obtain ⟨hmem,hxi⟩ := List.mem_filter.mp hx
    obtain ⟨g,hshows⟩ := hm.shows x hmem
    exact ⟨g,shows_apart (apart_close b gid) ((hne x).mpr (by simpa using hxi)) hshows⟩

theorem sound_order (hs : Sound b) (hc : b.config = some c) {ids : List ℤ}
    (hids : ∀ m, m ∈ ids ↔ (b.group m).isSome = true) :
    Sound (b.setConfig { c with groupOrder := ids }) := by
  constructor
  · intro i gi hi
    exact ⟨(hs.groups i gi hi).1,(hids i).mpr (Option.isSome_of_eq_some hi)⟩
  · exact hs.orphans
  · intro c' hc' i hi
    obtain rfl := Option.some.inj hc'
    obtain ⟨gi,hgi⟩ := Option.isSome_iff_exists.mp ((hids i).mp hi)
    exact hs.last c hc i (order_config hc ▸ (hs.groups i gi hgi).2)

theorem mirrored_order (hm : Mirrored b xs) {ids : List Int32}
    (hids : ∀ m, m ∈ ids.map Int32.toInt ↔ (b.group m).isSome = true) (order : HashOrder) :
    Mirrored (b.setConfig { c with groupOrder := ids.map Int32.toInt })
      (rebuild (fun x => x.group.id) order.groups ids xs) := by
  obtain ⟨hperm,hlisted⟩ := listed_rebuild hm.listed hids
    (List.Perm.eq_nil (order.groups_perm []))
  refine ⟨hlisted,fun x hx => ?_⟩
  obtain ⟨g,hshows⟩ := hm.shows x (hperm.subset hx)
  exact ⟨g,hshows.stored,hshows.group,hshows.listed,hshows.profiles⟩

end Edits

end Whoisthat.MirroredBooks
