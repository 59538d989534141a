import Whoisthat.GeoTraces

/-!
# The gate on `LastUpdated`

Imports of Happ links into one group, beside deletions of its profiles. The links
of one name that were stored are recorded, newest first. The gate compares two
stamps and stores the stamp it lets through, so it keeps the order of the
stamps as long as no link without one replaces a profile that has one.
-/

set_option autoImplicit false

namespace Whoisthat.LastUpdatedGate
open Whoisthat.FileStore Whoisthat.FallibleState Whoisthat.Records Whoisthat.Database
open Whoisthat.GroupFiles Whoisthat.RoutingStore Whoisthat.FiledRecords Whoisthat.GroupIds
open Whoisthat.HappImport Whoisthat.GeoWorkers Whoisthat.GeoOrigins

section Model

/-- `UpsertFromLink` on a link that parsed; no profile is returned for "off". -/
def upsertFromLink (gid : ℤ) (newID : String) (now : ℤ) :
    ParsedLink → DBM (Option RoutingProfile)
  | .off => do
    let _ ← attempt (setActiveRoutingProfile gid "")
    pure none
  | .profile action hp => do
    match ← attempt (findRoutingProfileByName gid hp.name) with
    | .ok existing =>
      if hp.older existing then pure (some existing)
      else do
        let p := updatedProfile existing hp now
        saveRoutingProfile p
        selectImported gid action false p
        pure (some p)
    | .error _ => do
      let p := newProfile gid newID hp now
      saveRoutingProfile p
      selectImported gid action true p
      pure (some p)

/-- The gate skips the link. -/
def gates (gid : ℤ) (hp : HappProfile) (w : World) : Bool :=
  match (findRoutingProfileByName gid hp.name w).1 with
  | .ok existing => hp.older existing
  | .error _ => false

inductive Event where
  /-- An import, `none` for a link that does not parse or has no configuration. -/
  | upsert (newID : String) (now : ℤ) (link : Option ParsedLink)
  | delete (id : String)

/-- The database and the links of a name that were stored, newest first. -/
structure History where
  world : World
  accepted : List HappProfile

variable (gid : ℤ) (name : String)

def History.step (s : History) : Event → History
  | .upsert _ _ none => s
  | .upsert newID now (some .off) =>
    { s with world := (upsertFromLink gid newID now .off s.world).2 }
  | .upsert newID now (some (.profile action hp)) =>
    let r := upsertFromLink gid newID now (.profile action hp) s.world
    { world := r.2
      accepted :=
        if r.1.toOption.isSome ∧ gates gid hp s.world = false ∧ toLower hp.name = toLower name
          then hp::s.accepted else s.accepted }
  | .delete id =>
    let r := mayDelete gid id s.world
    { s with world := if granted r.1 then (deleteRoutingProfile gid id r.2).2 else r.2 }

def History.run (s : History) : List Event → History
  | [] => s
  | e::es => (s.step gid name e).run es

/-- `gonanoid.Must` makes a name that is not in use, and the profile of the name
is not deleted. -/
def Legal (w : World) : Event → Prop
  | .upsert newID _ _ => Plain newID ∧ (w.disk.lookup (.routingProfile gid newID)).isNone
  | .delete id => (profileOn w gid id).all fun p => toLower p.name ≠ toLower name

instance (w : World) (e : Event) : Decidable (Legal gid name w e) := by
  unfold Legal
  split <;> infer_instance

/-- No link without a stamp replaces a profile of the name that has one. -/
def Stamped (w : World) : Event → Prop
  | .upsert _ _ (some (.profile _ hp)) =>
    match (findRoutingProfileByName gid hp.name w).1 with
    | .ok existing =>
      toLower hp.name = toLower name → 0 < hp.lastUpdated ∨ existing.lastUpdated ≤ 0
    | .error _ => True
  | _ => True

instance (w : World) (e : Event) : Decidable (Stamped gid name w e) := by
  unfold Stamped
  split
  · split <;> infer_instance
  · infer_instance

def LegalRun (s : History) : List Event → Prop
  | [] => True
  | e::es => Legal gid name s.world e ∧ LegalRun (s.step gid name e) es

def StampedRun (s : History) : List Event → Prop
  | [] => True
  | e::es => Stamped gid name s.world e ∧ StampedRun (s.step gid name e) es

instance : (es : List Event) → (s : History) → Decidable (LegalRun gid name s es)
  | [], _ => isTrue trivial
  | e::es, s =>
    have : Decidable (LegalRun gid name (s.step gid name e) es) :=
      instDecidableLegalRun es (s.step gid name e)
    inferInstanceAs (Decidable (Legal gid name s.world e ∧ LegalRun gid name _ es))

instance : (es : List Event) → (s : History) → Decidable (StampedRun gid name s es)
  | [], _ => isTrue trivial
  | e::es, s =>
    have : Decidable (StampedRun gid name (s.step gid name e) es) :=
      instDecidableStampedRun es (s.step gid name e)
    inferInstanceAs (Decidable (Stamped gid name s.world e ∧ StampedRun gid name _ es))

/-- The content of a profile is that of the link. -/
structure Carries (p : RoutingProfile) (hp : HappProfile) : Prop where
  rawJSON : p.rawJSON = hp.rawJSON
  rules : p.rules = hp.config.rules
  domainStrategy : p.domainStrategy = hp.config.domainStrategy
  globalProxy : p.globalProxy = hp.globalProxy.getD true
  dns : p.dns = hp.config.dns
  lastUpdated : p.lastUpdated = hp.lastUpdated

/-- What is stored under the name comes from the last link that was stored, and a
positive stamp of it is not below the stamps of the links before. -/
def NoRollback (s : History) : Prop :=
  ∀ i p, profileOn s.world gid i = some p → toLower p.name = toLower name →
    ∃ hp earlier, s.accepted = hp::earlier ∧ Carries p hp ∧
      (0 < hp.lastUpdated → ∀ h ∈ earlier, h.lastUpdated ≤ hp.lastUpdated)

end Model

section Lookup

variable {gid : ℤ} {w w' : World}

theorem find_name {name : String} {p : RoutingProfile}
    (h : findRoutingProfileByName gid name w = (.ok p,w')) : toLower p.name = toLower name := by
  obtain ⟨profiles,w₁,_,hfind⟩ := bind_ok h
  rcases hexact : profiles.find? (fun q => q.name = name) with _ | q
  · rcases hfold : profiles.find? (fun q => toLower q.name = toLower name) with _ | q <;>
      simp only [hexact,hfold] at hfind
    · simp at hfind
    · obtain rfl : q = p := Except.ok.inj (Prod.mk.inj hfind).1
      simpa using List.find?_some hfold
  · simp only [hexact] at hfind
    obtain rfl : q = p := Except.ok.inj (Prod.mk.inj hfind).1
    have hn : q.name = name := by simpa using List.find?_some hexact
    rw [hn]

/-- A name that is not found is not stored in any case of its letters. -/
theorem find_error {name : String} {e : DBError}
    (h : findRoutingProfileByName gid name w = (.error e,w')) {i : String} {p : RoutingProfile}
    (hp : profileOn w gid i = some p) : toLower p.name ≠ toLower name := by
  intro hn
  have hv := (readsAs_listRoutingProfiles gid w).2
  rcases hlist : listRoutingProfiles gid w with ⟨err | profiles,w₁⟩ <;> rw [hlist] at hv
  · cases hv
  · have hmem : p ∈ profiles := by
      rw [Option.some.inj hv,List.mem_insertionSort,List.mem_map]
      refine ⟨(i,p),List.mem_filterMap.mpr ⟨i,mem_listing _ _ _ |>.mpr
        ⟨.routingProfile gid i,?_,by simp [routingProfileName]⟩,?_⟩,rfl⟩
      · obtain ⟨b,hb,_⟩ := Option.bind_eq_some_iff.mp hp
        rw [lookup_of_readFile hb]
        rfl
      · exact Option.map_eq_some_iff.mpr ⟨p,hp,rfl⟩
    rw [findRoutingProfileByName,bind_of_ok hlist] at h
    rcases hfold : profiles.find? (fun q => toLower q.name = toLower name) with _ | q
    · have := List.find?_eq_none.mp hfold p hmem
      simp [hn] at this
    · rcases hexact : profiles.find? (fun q => q.name = name) with _ | q' <;>
        simp only [hexact,hfold] at h <;> cases h

end Lookup

section Effects

variable {gid : ℤ} {w : World} {newID : String} {now : ℤ} {action : Action} {hp : HappProfile}

/-- What a link that passes the gate is made into. -/
inductive Made (gid : ℤ) (newID : String) (now : ℤ) (hp : HappProfile) (w : World) :
    RoutingProfile → Prop
  | updated {existing : RoutingProfile} {w' : World}
      (h : findRoutingProfileByName gid hp.name w = (.ok existing,w'))
      (hnew : hp.older existing = false) : Made gid newID now hp w (updatedProfile existing hp now)
  | created {e : DBError} {w' : World}
      (h : findRoutingProfileByName gid hp.name w = (.error e,w')) :
      Made gid newID now hp w (newProfile gid newID hp now)

/-- Only `p` is written, and it has the new content. -/
def Puts (p : RoutingProfile) (w w' : World) : Prop :=
  ∀ g i, profileOn w' g i = if g = p.groupId ∧ i = p.id then some p else profileOn w g i

/-- The save of an import and the selection that follows it. -/
def put (gid : ℤ) (action : Action) (isNew : Bool) (p : RoutingProfile) :
    DBM (Option RoutingProfile) :=
  saveRoutingProfile p >>= fun _ => selectImported gid action isNew p >>= fun _ => pure (some p)

theorem selectImported_ok (gid : ℤ) (action : Action) (isNew : Bool)
    (p : RoutingProfile) (w : World) : (selectImported gid action isNew p w).1 = .ok () := by
  unfold selectImported
  split
  · rw [bind_of_ok (attempt_run _ w)]
    cases (loadGroupConfig gid w).1 with
    | error e => rfl
    | ok group =>
      dsimp only
      split
      · rw [bind_of_ok (attempt_run _ _)]
        rfl
      · rfl
  · split
    · rw [bind_of_ok (attempt_run _ w)]
      rfl
    · rfl

theorem put_spec (hw : Filed w) (gid : ℤ) (action : Action) (isNew : Bool) (p : RoutingProfile) :
    let r := put gid action isNew p w
    Filed r.2 ∧ ((r.1.toOption = none ∧ ∀ g i, profileOn r.2 g i = profileOn w g i) ∨
      (r.1.toOption.isSome ∧ Puts p w r.2)) := by
  have hs := saves_saveRoutingProfile p hw
  unfold put
  rcases hr : saveRoutingProfile p w with ⟨e | u,w₁⟩ <;> rw [hr] at hs
  · rw [bind_of_error hr]
    exact ⟨hs.filed,.inl ⟨rfl,fun g i => profileOn_congr hs.key (hs.other g i (by
      simp [Except.toOption]))⟩⟩
  · rw [bind_of_ok hr]
    have hsel : Selects w₁ (selectImported gid action isNew p w₁).2 :=
      selects_selectImported hs.filed action isNew p
    have hok := selectImported_ok gid action isNew p w₁
    rcases hq : selectImported gid action isNew p w₁ with ⟨e | u',w₂⟩ <;> rw [hq] at hsel hok
    · cases hok
    · rw [bind_of_ok hq]
      refine ⟨hsel.filed,.inr ⟨rfl,fun g i => ?_⟩⟩
      have hstep : profileOn w₂ g i = profileOn w₁ g i := hsel.profiles g i
      show profileOn w₂ g i = _
      rw [hstep]
      split
      · rename_i he
        rw [he.1,he.2]
        exact hs.own rfl
      · rename_i he
        exact profileOn_congr hs.key (hs.other g i fun h => he h.2)

theorem upsert_missing {e : DBError} {w' : World}
    (h : findRoutingProfileByName gid hp.name w = (.error e,w')) :
    upsertFromLink gid newID now (.profile action hp) w =
      put gid action true (newProfile gid newID hp now) w' := by
  simp only [upsertFromLink,bind_of_ok (attempt_run _ w),h]
  rfl

theorem upsert_found {existing : RoutingProfile} {w' : World}
    (h : findRoutingProfileByName gid hp.name w = (.ok existing,w')) :
    upsertFromLink gid newID now (.profile action hp) w =
      if hp.older existing then (.ok (some existing),w')
      else put gid action false (updatedProfile existing hp now) w' := by
  simp only [upsertFromLink,bind_of_ok (attempt_run _ w),h]
  split <;> rfl

/-- A link is skipped, fails, or is stored. -/
theorem upsert_profile (hw : Filed w) :
    let r := upsertFromLink gid newID now (.profile action hp) w
    Filed r.2 ∧
      (((r.1.toOption = none ∨ gates gid hp w = true) ∧
          ∀ g i, profileOn r.2 g i = profileOn w g i) ∨
        (r.1.toOption.isSome ∧ gates gid hp w = false ∧
          ∃ p, Made gid newID now hp w p ∧ Puts p w r.2)) := by
  have hreads := reads_find gid hp.name w
  rcases hf : findRoutingProfileByName gid hp.name w with ⟨e | existing,w₁⟩ <;> rw [hf] at hreads
  all_goals
    have hfiled : Filed w₁ := primitive_filed.reads _ _ hreads hw
    have hsame : ∀ g i, profileOn w₁ g i = profileOn w g i := fun g i =>
      profileOn_congr hreads.key (by rw [hreads.disk])
  · rw [upsert_missing hf]
    obtain ⟨hf₂,hcase⟩ := put_spec hfiled gid action true
      (newProfile gid newID hp now)
    refine ⟨hf₂,hcase.imp (fun ⟨hn,h⟩ => ⟨.inl hn,fun g i => (h g i).trans (hsame g i)⟩)
      fun ⟨hok,hp⟩ => ⟨hok,by rw [gates,hf],_,.created hf,fun g i => ?_⟩⟩
    rw [hp g i,hsame]
  · rw [upsert_found hf]
    by_cases ho : hp.older existing = true
    · rw [if_pos ho]
      exact ⟨hfiled,.inl ⟨.inr (by rwa [gates,hf]),hsame⟩⟩
    · rw [if_neg ho]
      have hnew : hp.older existing = false := by simpa using ho
      obtain ⟨hf₂,hcase⟩ := put_spec hfiled gid action false
        (updatedProfile existing hp now)
      refine ⟨hf₂,hcase.imp (fun ⟨hn,h⟩ => ⟨.inl hn,fun g i => (h g i).trans (hsame g i)⟩)
        fun ⟨hok,hp⟩ => ⟨hok,by rwa [gates,hf],_,.updated hf hnew,fun g i => ?_⟩⟩
      rw [hp g i,hsame]

end Effects

section Invariant

variable {gid : ℤ} {name : String}

/-- A profile that is stored under the name. -/
def Holds (gid : ℤ) (name : String) (w : World) (i : String) (p : RoutingProfile) : Prop :=
  profileOn w gid i = some p ∧ toLower p.name = toLower name

structure Inv (gid : ℤ) (name : String) (s : History) : Prop where
  filed : Filed s.world
  plain : ∀ i p, profileOn s.world gid i = some p → Plain i
  single : ∀ i j p q, Holds gid name s.world i p → Holds gid name s.world j q → i = j
  /-- The stored stamp is the largest one, where there is one. -/
  newest : ∀ i p, Holds gid name s.world i p → ∃ hp earlier, s.accepted = hp::earlier ∧
    Carries p hp ∧ ∀ h ∈ earlier, h.lastUpdated ≤ max hp.lastUpdated 0
  kept : s.accepted ≠ [] → ∃ i p, Holds gid name s.world i p

variable {s : History}

theorem noRollback_of_inv (hi : Inv gid name s) : NoRollback gid name s := by
  intro i p hp hn
  obtain ⟨hp,earlier,hs,hc,hle⟩ := hi.newest i p ⟨hp,hn⟩
  exact ⟨hp,earlier,hs,hc,fun hpos h hm => (max_eq_left hpos.le) ▸ hle h hm⟩

/-- Profiles of other names may come and go. -/
theorem inv_same (hi : Inv gid name s) {w : World} (hw : Filed w)
    (hplain : ∀ i p, profileOn w gid i = some p → Plain i)
    (h : ∀ i p, Holds gid name w i p ↔ Holds gid name s.world i p) :
    Inv gid name { s with world := w } where
  filed := hw
  plain := hplain
  single i j p q hp hq := hi.single i j p q ((h i p).mp hp) ((h j q).mp hq)
  newest i p hp := hi.newest i p ((h i p).mp hp)
  kept ha := by
    obtain ⟨i,p,hp⟩ := hi.kept ha
    exact ⟨i,p,(h i p).mpr hp⟩

theorem inv_quiet (hi : Inv gid name s) {w : World} (hw : Filed w)
    (h : ∀ i, profileOn w gid i = profileOn s.world gid i) : Inv gid name { s with world := w } :=
  inv_same hi hw (fun i p hp => hi.plain i p (h i ▸ hp)) fun i p => by rw [Holds,Holds,h i]

theorem carries_made {newID : String} {now : ℤ} {hp : HappProfile} {w : World} {p : RoutingProfile}
    (h : Made gid newID now hp w p) : Carries p hp := by
  cases h <;> exact ⟨rfl,rfl,rfl,rfl,rfl,rfl⟩

theorem made_groupId {newID : String} {now : ℤ} {hp : HappProfile} {w : World} {p : RoutingProfile}
    (hw : Filed w) (h : Made gid newID now hp w p) : p.groupId = gid := by
  cases h with
  | updated h hnew =>
    obtain ⟨i,hi⟩ := find_stored h
    exact (filed_routingProfile hw hi).1
  | created h => rfl

theorem made_name {newID : String} {now : ℤ} {hp : HappProfile} {w : World} {p : RoutingProfile}
    (h : Made gid newID now hp w p) : toLower p.name = toLower hp.name := by
  cases h with
  | @updated existing w' h hnew => exact (find_name h : toLower existing.name = _)
  | created h => rfl

/-- The name a link is stored under was plain, and is not that of another name. -/
theorem made_place {newID : String} {now : ℤ} {hp : HappProfile} {p : RoutingProfile}
    (hi : Inv gid name s) (hid : Plain newID)
    (hfresh : s.world.disk.lookup (.routingProfile gid newID) = none)
    (h : Made gid newID now hp s.world p) :
    Plain p.id ∧ ∀ q, profileOn s.world gid p.id = some q → toLower q.name = toLower hp.name := by
  cases h with
  | updated h hnew =>
    obtain ⟨i,hs⟩ := find_stored h
    obtain ⟨-,rfl⟩ := filed_routingProfile hi.filed hs
    refine ⟨hi.plain _ _ hs,fun q hq => ?_⟩
    obtain rfl := Option.some.inj (hs.symm.trans hq)
    exact find_name h
  | created h =>
    refine ⟨hid,fun q hq => ?_⟩
    rw [newProfile,profileOn_none hfresh] at hq
    exact nomatch hq

/-- A link that passes the gate has the largest stamp, or none was stored. -/
theorem newest_made {newID : String} {now : ℤ} {hp : HappProfile} {p : RoutingProfile}
    {action : Action} (hi : Inv gid name s) (hn : toLower hp.name = toLower name)
    (hs : Stamped gid name s.world (.upsert newID now (some (.profile action hp))))
    (h : Made gid newID now hp s.world p) :
    ∀ h ∈ s.accepted, h.lastUpdated ≤ max hp.lastUpdated 0 := by
  cases h with
  | @updated existing w' h hnew =>
    obtain ⟨i,hst⟩ := find_stored h
    obtain ⟨hp₀,earlier,ha,hc,hle⟩ := hi.newest i existing ⟨hst,(find_name h).trans hn⟩
    simp only [Stamped,h] at hs
    have hstamp := hs hn
    have hlast := hc.lastUpdated
    simp only [HappProfile.older,Bool.and_eq_false_iff,decide_eq_false_iff_not] at hnew
    have hhead : max hp₀.lastUpdated 0 ≤ max hp.lastUpdated 0 := by omega
    intro h hm
    rw [ha] at hm
    rcases List.mem_cons.mp hm with rfl | hm
    · exact (le_max_left _ _).trans hhead
    · exact (hle h hm).trans hhead
  | created h =>
    have hnone : s.accepted = [] := by
      by_contra hne
      obtain ⟨i,q,hq⟩ := hi.kept hne
      exact find_error h hq.1 (hq.2.trans hn.symm)
    rw [hnone]
    exact nofun

/-- The profile of the name is the one that is replaced. -/
theorem holds_made {newID : String} {now : ℤ} {hp : HappProfile} {p : RoutingProfile}
    (hi : Inv gid name s) (hn : toLower hp.name = toLower name)
    (h : Made gid newID now hp s.world p) {i : String} {q : RoutingProfile}
    (hq : Holds gid name s.world i q) : i = p.id := by
  cases h with
  | @updated existing w' h hnew =>
    obtain ⟨j,hst⟩ := find_stored h
    obtain ⟨-,rfl⟩ := filed_routingProfile hi.filed hst
    exact hi.single _ _ _ _ hq ⟨hst,(find_name h).trans hn⟩
  | created h => exact absurd (hq.2.trans hn.symm) (find_error h hq.1)

theorem inv_put {newID : String} {now : ℤ} {action : Action} {hp : HappProfile} {w : World}
    {p : RoutingProfile} (hi : Inv gid name s) (hid : Plain newID)
    (hfresh : s.world.disk.lookup (.routingProfile gid newID) = none)
    (hs : Stamped gid name s.world (.upsert newID now (some (.profile action hp))))
    (h : Made gid newID now hp s.world p) (hw : Filed w) (hputs : Puts p s.world w) :
    Inv gid name ⟨w,if toLower hp.name = toLower name then hp::s.accepted else s.accepted⟩ := by
  have hgid := made_groupId hi.filed h
  obtain ⟨hpid,hplace⟩ := made_place hi hid hfresh h
  have hself : profileOn w gid p.id = some p := by rw [hputs,if_pos ⟨hgid.symm,rfl⟩]
  have hother : ∀ i, i ≠ p.id → profileOn w gid i = profileOn s.world gid i := fun i hne => by
    rw [hputs,if_neg fun h => hne h.2]
  have hplain : ∀ i q, profileOn w gid i = some q → Plain i := by
    intro i q hq
    by_cases hne : i = p.id
    · exact hne ▸ hpid
    · exact hi.plain i q (hother i hne ▸ hq)
  by_cases hn : toLower hp.name = toLower name
  · rw [if_pos hn]
    have hhere : Holds gid name w p.id p := ⟨hself,(made_name h).trans hn⟩
    have honly : ∀ i q, Holds gid name w i q → i = p.id := by
      intro i q hq
      by_contra hne
      exact hne (holds_made hi hn h ⟨hother i hne ▸ hq.1,hq.2⟩)
    refine ⟨hw,hplain,fun i j q r hq hr => (honly i q hq).trans (honly j r hr).symm,
      fun i q hq => ?_,fun _ => ⟨p.id,p,hhere⟩⟩
    obtain rfl := honly i q hq
    obtain rfl := Option.some.inj (hself.symm.trans hq.1)
    exact ⟨hp,s.accepted,rfl,carries_made h,newest_made hi hn hs h⟩
  · rw [if_neg hn]
    refine inv_same hi hw hplain fun i q => ?_
    by_cases hne : i = p.id
    · subst hne
      constructor
      · intro hq
        obtain rfl := Option.some.inj (hself.symm.trans hq.1)
        exact absurd ((made_name h).symm.trans hq.2) hn
      · exact fun hq => absurd ((hplace q hq.1).symm.trans hq.2) hn
    · rw [Holds,Holds,hother i hne]

end Invariant

section Deletions

variable {gid : ℤ} {w : World} {id : String}

theorem joinPath_single (dir : List String) {part : String} (hslash : '/' ∉ part.toList)
    (hempty : part.toList ≠ []) (hdot : part.toList ≠ ['.']) (hdots : part.toList ≠ ['.','.']) :
    joinPath dir part = dir ++ [part] := by
  rw [joinPath,List.splitOn_eq_singleton hslash,List.foldl_cons,List.foldl_nil,if_neg,if_neg hdots,
    String.ofList_toList]
  exact fun h => h.elim hempty hdot

/-- Under a plain name a deletion removes one profile. -/
theorem deleted_profile (hid : Plain id) {j : String}
    (h : RoutingWrites.Deleted w gid id (.routingProfile gid j)) : j = id := by
  have hjson : joinPath (getRoutingDir w.root gid ++ ["profiles"]) (id ++ ".json") =
      getRoutingDir w.root gid ++ ["profiles"] ++ [id ++ ".json"] := by
    refine joinPath_single _ ?_ ?_ ?_ ?_ <;> rw [String.toList_append]
    · simpa using hid.2.1
    · simp
    · intro h
      have := congrArg List.length h
      simp at this
    · intro h
      have := congrArg List.length h
      simp at this
  have hgeo : joinPath (getRoutingDir w.root gid ++ ["geo"]) id =
      getRoutingDir w.root gid ++ ["geo"] ++ [id] := by
    refine joinPath_single _ hid.2.1 hid.1 ?_ ?_
    · exact fun h => hid.2.2 (by rw [h]; simp)
    · exact fun h => hid.2.2 (by rw [h]; simp)
  rcases h with h | h
  · rw [hjson] at h
    simpa [getRoutingDir,Path.components] using h
  · rw [hgeo] at h
    simp [getRoutingDir,Path.components] at h

theorem profileOn_delete (hw : Filed w) (hid : Plain id) (j : String) :
    profileOn (deleteRoutingProfile gid id w).2 gid j = profileOn w gid j ∨
      (j = id ∧ profileOn (deleteRoutingProfile gid id w).2 gid j = none) := by
  have he := @RoutingWrites.effects_deleteRoutingProfile w gid id hw
  have hkey := Footprints.effects_key he
  rcases Footprints.effects_lookup he
    (fun p (hp : RoutingWrites.DeleteWrites w gid id (.routingProfile gid j) p) => nomatch hp)
    nofun with hl | ⟨hd,hl⟩
  · exact .inl (profileOn_congr hkey hl)
  · exact .inr ⟨deleted_profile hid hd,profileOn_none hl⟩

theorem filed_delete (hw : Filed w) : Filed (deleteRoutingProfile gid id w).2 :=
  (dropping_deleteRoutingProfile gid id w hw).filed

theorem reads_mayDelete (gid : ℤ) (id : String) : Keeps Reads (mayDelete gid id) := by
  refine reads_bind (keeps_attempt fun w => (readsAs_loadGroupConfig gid w).1) fun r => ?_
  cases r with
  | error e => exact keeps_pure reads_refl _
  | ok group =>
    dsimp only
    split
    · exact keeps_pure reads_refl _
    · exact reads_bind (keeps_attempt fun w => (readsAs_readEncryptedJSON _ _ w).1) fun _ =>
        keeps_pure reads_refl _

/-- A deletion is only carried out for a profile that is stored. -/
theorem granted_stored (h : granted (mayDelete gid id w).1 = true) :
    ∃ p, profileOn w gid id = some p := by
  have hreads := (readsAs_loadGroupConfig gid w).1
  rw [mayDelete,bind_of_ok (attempt_run _ w)] at h
  rcases hl : loadGroupConfig gid w with ⟨e | group,w₁⟩ <;> rw [hl] at h hreads
  · exact nomatch h
  · dsimp only at h
    split at h
    · exact nomatch h
    · rw [bind_of_ok (attempt_run _ w₁)] at h
      rcases hp : loadRoutingProfile gid id w₁ with ⟨e | p,w₂⟩ <;> rw [hp] at h
      · exact nomatch h
      · exact ⟨p,(profileOn_congr hreads.key (by rw [hreads.disk])).symm.trans (load_ok hp).2⟩

end Deletions

section Runs

variable {gid : ℤ} {name : String} {s : History}

theorem inv_upsert (hi : Inv gid name s) {newID : String} {now : ℤ} {action : Action}
    {hp : HappProfile} (hl : Legal gid name s.world (.upsert newID now (some (.profile action hp))))
    (hs : Stamped gid name s.world (.upsert newID now (some (.profile action hp)))) :
    Inv gid name (s.step gid name (.upsert newID now (some (.profile action hp)))) := by
  obtain ⟨hw,hsame | ⟨hok,hgate,p,hmade,hputs⟩⟩ := @upsert_profile gid s.world newID now action
    hp hi.filed
  · have hstep : s.step gid name (.upsert newID now (some (.profile action hp))) = { s with
        world := (upsertFromLink gid newID now (.profile action hp) s.world).2 } := by
      unfold History.step
      dsimp only
      rw [if_neg]
      rintro ⟨hok,hgate,-⟩
      rcases hsame.1 with h | h
      · simp [h] at hok
      · simp [h] at hgate
    rw [hstep]
    exact inv_quiet hi hw fun i => hsame.2 gid i
  · have hstep : s.step gid name (.upsert newID now (some (.profile action hp))) =
        ⟨(upsertFromLink gid newID now (.profile action hp) s.world).2,
          if toLower hp.name = toLower name then hp::s.accepted else s.accepted⟩ := by
      unfold History.step
      dsimp only
      simp only [hok,hgate,true_and]
    rw [hstep]
    exact inv_put hi hl.1 (Option.isNone_iff_eq_none.mp hl.2) hs hmade hw hputs

theorem inv_delete (hi : Inv gid name s) {id : String} (hl : Legal gid name s.world (.delete id)) :
    Inv gid name (s.step gid name (.delete id)) := by
  have hreads := reads_mayDelete gid id s.world
  have hquiet : Inv gid name { s with world := (mayDelete gid id s.world).2 } :=
    inv_quiet hi (primitive_filed.reads _ _ hreads hi.filed) fun i =>
      profileOn_congr hreads.key (by rw [hreads.disk])
  unfold History.step
  dsimp only
  split
  · rename_i hg
    obtain ⟨p,hp⟩ := granted_stored hg
    have hsame : profileOn (mayDelete gid id s.world).2 gid id = some p :=
      (profileOn_congr hreads.key (by rw [hreads.disk])).trans hp
    have hother : toLower p.name ≠ toLower name := by
      simpa [Legal,hp] using hl
    have hdel := fun j => @profileOn_delete gid _ id hquiet.filed (hi.plain id p hp) j
    refine inv_same hquiet (filed_delete hquiet.filed) (fun i q hq => ?_) fun i q => ?_
    · rcases hdel i with h | ⟨-,h⟩
      · exact hquiet.plain i q (h.symm.trans hq)
      · exact nomatch h.symm.trans hq
    · rcases hdel i with h | ⟨rfl,h⟩
      · rw [Holds,Holds,h]
      · constructor
        · exact fun hq => nomatch h.symm.trans hq.1
        · intro hq
          obtain rfl := Option.some.inj (hsame.symm.trans hq.1)
          exact absurd hq.2 hother
  · exact hquiet

theorem inv_step (hi : Inv gid name s) (e : Event) (hl : Legal gid name s.world e)
    (hs : Stamped gid name s.world e) : Inv gid name (s.step gid name e) := by
  cases e with
  | upsert newID now link =>
    cases link with
    | none => exact hi
    | some link =>
      cases link with
      | off =>
        have hsel : Selects s.world (upsertFromLink gid newID now .off s.world).2 :=
          selects_setActive hi.filed ""
        exact inv_quiet hi hsel.filed fun i => hsel.profiles gid i
      | profile action hp => exact inv_upsert hi hl hs
  | delete id => exact inv_delete hi hl

theorem inv_run (es : List Event) (hi : Inv gid name s) (hl : LegalRun gid name s es)
    (hs : StampedRun gid name s es) : Inv gid name (s.run gid name es) := by
  induction es generalizing s with
  | nil => exact hi
  | cons e es ih => exact ih (inv_step hi e hl.1 hs.1) hl.2 hs.2

/-- A link of the profile "ru" that sends one site to `direct`. -/
def siteLink (stamp : ℤ) (site : String) : HappProfile :=
  { name := "ru"
    globalProxy := none
    geoipurl := ""
    geositeurl := ""
    lastUpdated := stamp
    rawJSON := "\x7b\"Name\":\"ru\",\"DirectSites\":[\"" ++ site ++ "\"]\x7d"
    config := ⟨"IPIfNonMatch",[⟨"field",site,"","","","","direct",true⟩],none⟩ }

def importAt (newID : String) (now stamp : ℤ) (site : String) : Event :=
  .upsert newID now (some (.profile .add (siteLink stamp site)))

def rising : List Event :=
  [importAt "k3" 1 10 "b.ru",importAt "k4" 2 5 "a.ru",importAt "k5" 3 11 "c.ru"]

/-- A link without a stamp opens the gate for an older one. -/
def reopened : List Event :=
  [importAt "k3" 1 10 "b.ru",importAt "k4" 2 0 "b.ru",importAt "k5" 3 5 "a.ru"]

end Runs

end Whoisthat.LastUpdatedGate
