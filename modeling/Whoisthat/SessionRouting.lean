import Whoisthat.CliRouting
import Whoisthat.CoreConfig
import Whoisthat.ProfileStore

/-!
# The routing of a connected profile

What Connect and reloadCoreLocked read from the database for a profile, and the
configuration the core is started with. Both read the same names; what they
find is a function of the stored files.
-/

set_option autoImplicit false

namespace Whoisthat.SessionRouting
open Whoisthat.FileStore Whoisthat.FallibleState Whoisthat.Records Whoisthat.Database
open Whoisthat.GroupFiles Whoisthat.RoutingStore Whoisthat.RoutingResolution
open Whoisthat.CoreConfig (Host Start Baseline startedConfig)
open Whoisthat.CliRouting (listedRoutingAt returns_unreadable returns_loaded returns_inherited)

section Program

/-- The check of `ResolveGroupGeoDir` -/
def geoOf (p : RoutingProfile) : DBM (Option (List String)) := do
  let found ← disk.geoAssets p
  pure found.join

def firstGeo : List RoutingProfile → DBM (Option (List String))
  | [] => pure none
  | p::ps => do
    match ← geoOf p with
    | some dir => pure (some dir)
    | none => firstGeo ps

def activeGeo (gid : ℤ) (id : String) : DBM (Option (List String)) :=
  if id = "" then pure none
  else do
    match ← attempt (GroupFiles.loadRoutingProfile gid id) with
    | .error _ => pure none
    | .ok p => geoOf p

/-- The geo files of the active profile, else those of the first profile that
has any, whether it is selected or not. -/
def resolveGroupGeoDir (gid : ℤ) : DBM (Option (List String)) := do
  let group ← loadGroupConfig gid
  match ← activeGeo gid group.activeRoutingProfileId with
  | some dir => pure (some dir)
  | none => do
    let profiles ← listRoutingProfiles gid
    firstGeo profiles

variable (parseRawJSON : RawMessage → Option HappDNSConfig)

/-- A managed profile gets its document with the manual rules and geo files of
its group, another one what `ResolveRouting` selects. -/
def readBaseline (p : Profile) : DBM Baseline :=
  if p.managed then do
    let document ← loadProfileXrayConfig p.groupId p.id
    let manual ← loadEffectiveManualRouting p.groupId
    let r ← attempt (resolveGroupGeoDir p.groupId)
    pure (.managed document manual.1 r.toOption.join)
  else do
    let selection ← resolveRouting parseRawJSON p.groupId
    pure (.shareLink (some selection))

/-- What stays the same for as long as a profile is connected: settings,
resolved addresses, TUN and statistics port. -/
structure Setup where
  host : Host
  tunName : String
  tunEnabled : Bool
  apiPort : ℤ
  hosts : List (String × List String)
  parseRawJSON : RawMessage → Option HappDNSConfig

def Setup.start (setup : Setup) (p : Profile) : Start :=
  { uri := p.uri
    tunName := setup.tunName
    tunEnabled := setup.tunEnabled
    apiPort := setup.apiPort
    hosts := setup.hosts }

def assetDir : Baseline → Option (List String)
  | .managed _ _ geoDir => geoDir
  | .shareLink selection => selection.bind RoutingSelection.geoDir

/-- The arguments of `XrayCore.Start` -/
structure Started where
  config : Json.Fields
  geoDir : Option (List String)

def render (setup : Setup) (p : Profile) (b : Baseline) : Option Started :=
  (startedConfig setup.host (setup.start p) b).map fun config => ⟨config,assetDir b⟩

/-- What a Connect to a stored profile starts the core with. -/
def freshConfig (setup : Setup) (gid id : ℤ) : DBM (Option Started) := do
  let p ← getProfile gid id
  let b ← readBaseline setup.parseRawJSON p
  pure (render setup p b)

end Program

section Outcomes

variable {α β ι : Type} {w : World}

/-- Over the files of `w` the program succeeds with this value, or fails for
`none`, and leaves the files alone. -/
def Yields (w : World) (m : DBM α) (o : Option α) : Prop :=
  ∀ u, SameFiles w u → (m u).1.toOption = o ∧ SameFiles w (m u).2

theorem yields_returns {m : DBM α} {a : α} : Yields w m (some a) ↔ Returns w m a := by
  constructor <;> intro h u hu <;> obtain ⟨hv,hs⟩ := h u hu <;> refine ⟨?_,hs⟩
  · cases hr : (m u).1 with
    | error e => rw [hr] at hv; simp [Except.toOption] at hv
    | ok b => rw [hr] at hv; exact congrArg Except.ok (Option.some.inj hv)
  · rw [hv]
    rfl

theorem yields_bind {m : DBM α} {f : α → DBM β} {o : Option α} {g : α → Option β}
    (hm : Yields w m o) (hf : ∀ a, o = some a → Yields w (f a) (g a)) :
    Yields w (m >>= f) (o.bind g) := by
  intro u hu
  obtain ⟨hv,hs⟩ := hm u hu
  rcases hr : m u with ⟨e | a,v⟩ <;> rw [hr] at hv hs
  · rw [bind_of_error hr,← hv]
    exact ⟨rfl,hs⟩
  · rw [bind_of_ok hr,← hv]
    exact hf a hv.symm v hs

theorem yields_map {m : DBM α} {f : α → DBM β} {o : Option α} {g : α → β}
    (hm : Yields w m o) (hf : ∀ a, o = some a → Returns w (f a) (g a)) :
    Yields w (m >>= f) (o.map g) := by
  rw [Option.map_eq_bind]
  exact yields_bind hm fun a ha => yields_returns.mpr (hf a ha)

theorem yields_attempt {m : DBM α} {f : Except DBError α → DBM β} {o : Option α} {b : Option β}
    (hm : Yields w m o) (hf : ∀ r, r.toOption = o → Yields w (f r) b) :
    Yields w (attempt m >>= f) b := by
  intro u hu
  obtain ⟨hv,hs⟩ := hm u hu
  rw [bind_of_ok (attempt_run m u)]
  exact hf _ hv _ hs

theorem yields_read (path : Path) (target : Payload → Option α) :
    Yields w (readEncryptedJSON path target) (stored path target w) :=
  fun _ hu => ⟨stored_eq_read hu,sameFiles_read hu⟩

theorem yields_wrapping {m : DBM α} {o : Option α} (wrap : DBError → DBError)
    (hm : Yields w m o) : Yields w (wrapping wrap m) o := by
  intro u hu
  obtain ⟨hv,hs⟩ := hm u hu
  unfold wrapping
  rcases hr : m u with ⟨e | a,v⟩ <;> rw [hr] at hv hs <;> exact ⟨hv,hs⟩

theorem yields_gather {read : ι → DBM α} {v : ι → Option α} (hr : ∀ i, Yields w (read i) (v i))
    (is : List ι) :
    Returns w (gather read is) (is.filterMap fun i => (v i).map (Prod.mk i)) := by
  induction is with
  | nil => exact returns_pure w []
  | cons i is ih =>
    rw [← yields_returns] at ih ⊢
    refine yields_attempt (hr i) fun r hv => ?_
    have hstep := yields_bind ih fun rest _ => yields_returns.mpr
      (returns_pure w ((r.toOption.map (Prod.mk i)).toList ++ rest))
    rw [hv] at hstep ⊢
    cases h : v i <;> simpa [h] using hstep

theorem returns_readDir (name : Path → Option ι) :
    Returns w (readDir name) (listing name w.disk) := fun _ hu =>
  ⟨congrArg (fun t => Except.ok (listing name t)) hu.disk,hu⟩

end Outcomes

section Views

variable (w : World) (gid : ℤ)

def storedGroup : Option Group := groupAt gid w.disk w.key

def customAt : Bool :=
  gid ≠ 0 && (storedGroup w gid).any fun g => g.manualRoutingMode = manualRoutingCustom

/-- The file the manual rules of a group are read from. -/
def rulesPath : Path := if customAt w gid then .groupRouting gid else .routing

def manualAt : RoutingConfig := (stored (rulesPath w gid) Payload.asRouting w).getD defaultRouting

def storedRoutingProfile (id : String) : Option RoutingProfile :=
  stored (.routingProfile gid id) Payload.asRoutingProfile w

def geoAt (p : RoutingProfile) : Option (List String) :=
  if GeoPresent w p then profileGeoDir w p else none

def activeGeoAt (id : String) : Option (List String) :=
  if id = "" then none else (storedRoutingProfile w gid id).bind (geoAt w)

def groupGeoAt (g : Group) : Option (List String) :=
  (activeGeoAt w gid g.activeRoutingProfileId).or
    ((listedRoutingAt gid w.disk w.key).findSome? (geoAt w))

def geoDirAt : Option (List String) := (storedGroup w gid).bind (groupGeoAt w gid)

def rowAt (parseRawJSON : RawMessage → Option HappDNSConfig) (g : Group) : RoutingSelection :=
  match modeOf g.routingMode,usableProfile w gid g with
  | .manual,_ => manualSelection (manualAt w gid)
  | _,some p => happSelection parseRawJSON p (profileGeoDir w p)
  | .auto,none => manualSelection (manualAt w gid)
  | .subscription,none => lanSelection

def selectionAt (parseRawJSON : RawMessage → Option HappDNSConfig) : RoutingSelection :=
  match (storedGroup w gid).filter fun _ => gid ≠ 0 with
  | none => manualSelection (manualAt w gid)
  | some g => rowAt w gid parseRawJSON g

def documentOf (p : Profile) : Option RawMessage :=
  stored (.profileXrayConfig p.groupId p.id) Payload.asRaw w

/-- The baseline of a profile with the routing of a group. -/
def baselineIn (parseRawJSON : RawMessage → Option HappDNSConfig) (p : Profile) :
    Option Baseline :=
  if p.managed then (documentOf w p).map fun d => .managed d (manualAt w gid) (geoDirAt w gid)
  else some (.shareLink (some (selectionAt w gid parseRawJSON)))

/-- What the core would be started with for the profile in a group. -/
def startedIn (setup : Setup) (p : Profile) : Option Started :=
  (baselineIn w gid setup.parseRawJSON p).bind (render setup p)

end Views

section Reading

variable {w : World} {gid : ℤ} {group : Group}

theorem customAt_group (hgid : gid ≠ 0) (hg : storedGroup w gid = some group) :
    customAt w gid = decide (group.manualRoutingMode = manualRoutingCustom) := by
  simp [customAt,hgid,hg]

theorem customAt_other (h : gid = 0 ∨ storedGroup w gid = none) : customAt w gid = false := by
  rcases h with h | h <;> simp [customAt,h]

theorem manualAt_group (hgid : gid ≠ 0) (hg : storedGroup w gid = some group) :
    manualAt w gid = manualRules w gid group := by
  unfold manualAt rulesPath manualRules
  rw [customAt_group hgid hg]
  simp only [decide_eq_true_eq]

theorem manualAt_other (h : gid = 0 ∨ storedGroup w gid = none) :
    manualAt w gid = (stored .routing Payload.asRouting w).getD defaultRouting := by
  rw [manualAt,rulesPath,customAt_other h]
  rfl

theorem returns_manualAt (w : World) (gid : ℤ) :
    ∃ source, Returns w (loadEffectiveManualRouting gid) (manualAt w gid,source) := by
  by_cases h : gid = 0 ∨ storedGroup w gid = none
  · rw [manualAt_other h]
    exact ⟨_,(returns_inherited h fun _ => none).2⟩
  · obtain ⟨hgid,hg⟩ := not_or.mp h
    obtain ⟨group,hg⟩ := Option.ne_none_iff_exists'.mp hg
    rw [manualAt_group hgid hg]
    exact ⟨_,returns_effective hgid hg⟩

theorem contributes_rowAt (parseRawJSON : RawMessage → Option HappDNSConfig) (hgid : gid ≠ 0)
    (hg : storedGroup w gid = some group) :
    Contributes parseRawJSON w gid group
      (effectiveSource (modeOf group.routingMode) (∃ p, Usable w gid group p))
      (rowAt w gid parseRawJSON group) := by
  have hmanual : Contributes parseRawJSON w gid group .manual
      (manualSelection (manualAt w gid)) := by
    rw [manualAt_group hgid hg]
    exact .manual
  have husable : decide (∃ p, Usable w gid group p) = (usableProfile w gid group).isSome := by
    rw [Bool.eq_iff_iff,decide_eq_true_iff]
    exact usable_iff_isSome
  rw [husable]
  unfold rowAt
  cases hu : usableProfile w gid group with
  | none => cases modeOf group.routingMode <;> first | exact hmanual | exact .lanOnly
  | some p =>
    have hhapp := @Contributes.happ parseRawJSON w gid group p (usableProfile_iff.mp hu)
    cases modeOf group.routingMode <;> first | exact hmanual | exact hhapp

theorem returns_selectionAt (parseRawJSON : RawMessage → Option HappDNSConfig) (w : World)
    (gid : ℤ) : Returns w (resolveRouting parseRawJSON gid) (selectionAt w gid parseRawJSON) := by
  unfold selectionAt
  by_cases h : gid = 0 ∨ storedGroup w gid = none
  · have hnone : ((storedGroup w gid).filter fun _ => gid ≠ 0) = none := by
      rcases h with h | h <;> simp [h]
    rw [hnone,manualAt_other h]
    exact (returns_inherited h parseRawJSON).1
  · obtain ⟨hgid,hg⟩ := not_or.mp h
    obtain ⟨group,hg⟩ := Option.ne_none_iff_exists'.mp hg
    obtain ⟨selection,hsel,hcon⟩ := returns_row parseRawJSON hgid hg
    have hsome : ((storedGroup w gid).filter fun _ => gid ≠ 0) = some group := by
      simp [hg,hgid]
    rw [hsome]
    rw [contributes_unique hcon (contributes_rowAt parseRawJSON hgid hg)] at hsel
    exact hsel

theorem returns_geoOf (w : World) (p : RoutingProfile) : Returns w (geoOf p) (geoAt w p) := by
  have h := returns_map Option.join (returns_geoAssets w p)
  unfold geoAt
  by_cases hg : GeoPresent w p
  · simp only [hg,if_true] at h ⊢
    exact h
  · simp only [hg,if_false] at h ⊢
    exact h

theorem returns_firstGeo (w : World) (ps : List RoutingProfile) :
    Returns w (firstGeo ps) (ps.findSome? (geoAt w)) := by
  induction ps with
  | nil => exact returns_pure w none
  | cons p ps ih =>
    rw [List.findSome?_cons]
    refine returns_bind (returns_geoOf w p) ?_
    cases geoAt w p with
    | none => exact ih
    | some dir => exact returns_pure w (some dir)

theorem returns_activeGeo (w : World) (gid : ℤ) (id : String) :
    Returns w (activeGeo gid id) (activeGeoAt w gid id) := by
  unfold activeGeo activeGeoAt
  split
  · exact returns_pure w none
  · rw [← yields_returns]
    refine yields_attempt (yields_read _ _) fun r hv => ?_
    rw [yields_returns,storedRoutingProfile,← hv]
    cases r with
    | error e => exact returns_pure w none
    | ok p => exact returns_geoOf w p

theorem returns_listRoutingProfiles (w : World) (gid : ℤ) :
    Returns w (listRoutingProfiles gid) (listedRoutingAt gid w.disk w.key) :=
  returns_bind (returns_readDir _) (returns_bind (yields_gather (fun _ => yields_read _ _) _)
    (returns_pure w _))

theorem yields_groupGeo (w : World) (gid : ℤ) :
    Yields w (resolveGroupGeoDir gid) ((storedGroup w gid).map (groupGeoAt w gid)) := by
  refine yields_map (yields_wrapping _ (yields_read _ _)) fun g _ => ?_
  refine returns_bind (returns_activeGeo w gid g.activeRoutingProfileId) ?_
  rw [groupGeoAt]
  cases activeGeoAt w gid g.activeRoutingProfileId with
  | none => exact returns_bind (returns_listRoutingProfiles w gid) (returns_firstGeo w _)
  | some dir => exact returns_pure w (some dir)

theorem yields_baseline (parseRawJSON : RawMessage → Option HappDNSConfig) (w : World)
    (p : Profile) :
    Yields w (readBaseline parseRawJSON p) (baselineIn w p.groupId parseRawJSON p) := by
  unfold readBaseline baselineIn
  split
  · obtain ⟨source,hmanual⟩ := returns_manualAt w p.groupId
    refine yields_map (yields_read _ _) fun document _ => returns_bind hmanual ?_
    rw [← yields_returns]
    refine yields_attempt (yields_groupGeo w p.groupId) fun r hv => ?_
    have hgeo : r.toOption.join = geoDirAt w p.groupId := by
      rw [hv,geoDirAt]
      cases storedGroup w p.groupId <;> rfl
    rw [hgeo]
    exact yields_returns.mpr (returns_pure w _)
  · exact yields_returns.mpr (returns_bind (returns_selectionAt parseRawJSON w p.groupId)
      (returns_pure w _))

/-- A fresh Connect is decided by the stored profile and the routing of its group. -/
theorem yields_fresh (setup : Setup) (w : World) (gid id : ℤ) :
    Yields w (freshConfig setup gid id)
      ((stored (.profile gid id) Payload.asProfile w).bind fun p =>
        (baselineIn w p.groupId setup.parseRawJSON p).map (render setup p)) := by
  refine yields_bind (yields_wrapping _ (yields_read _ _)) fun p _ => ?_
  exact yields_map (yields_baseline _ w p) fun b _ => returns_pure w _

end Reading

end Whoisthat.SessionRouting
