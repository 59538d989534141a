import Whoisthat.GroupStore
import Whoisthat.RoutingStore

/-!
# Resolution of the routing of a group

`resolveRouting` with the manual rules it falls back to, written over any way
of reading the database directory; the encrypted directory is one such way.
The table of the routing reference is stated on its own: which source a mode
selects, when a Happ profile is usable, and what each source contributes.
-/

set_option autoImplicit false

namespace Whoisthat.RoutingResolution
open Whoisthat.FileStore Whoisthat.FallibleState Whoisthat.Records Whoisthat.Database
open Whoisthat.GroupFiles Whoisthat.RoutingStore

structure RoutingSelection where
  config : RoutingConfig
  source : String
  profileId : String
  /-- The components of the absolute directory, `none` for the global assets. -/
  geoDir : Option (List String)
  globalProxy : Bool
  bootstrapHosts : List (String × List String)
  deriving DecidableEq

/-- How a program of the database reads below `db.Path`. -/
structure Files (σ : Type) where
  path : Prog σ DBError (List String)
  read : {α : Type} → Path → (Payload → Option α) → Prog σ DBError α
  stat : List String → Prog σ DBError Bool

def disk : Files World where
  path := fun w => (.ok w.root,w)
  read := fun path target => readEncryptedJSON path target
  stat := fun target w => (.ok (existsAt target w),w)

section Program

variable {σ : Type} (F : Files σ) (parseRawJSON : RawMessage → Option HappDNSConfig)

def Files.loadGroupConfig (gid : ℤ) : Prog σ DBError Group := do
  match ← attempt (F.read (.groupConfig gid) Payload.asGroup) with
  | .ok group => pure group
  | .error e => fail (.loadGroup gid e)

def Files.readRouting (path : Path) : Prog σ DBError RoutingConfig := do
  match ← attempt (F.read path Payload.asRouting) with
  | .ok cfg => pure cfg
  | .error _ => pure defaultRouting

def Files.loadRouting : Prog σ DBError RoutingConfig := F.readRouting .routing

def Files.loadGroupRouting (gid : ℤ) : Prog σ DBError RoutingConfig :=
  F.readRouting (.groupRouting gid)

def Files.loadRoutingProfile (gid : ℤ) (id : String) : Prog σ DBError RoutingProfile :=
  F.read (.routingProfile gid id) Payload.asRoutingProfile

def routingSourceGlobal : String := "global"
def routingSourceCustom : String := "custom"

def Files.loadEffectiveManualRouting (gid : ℤ) : Prog σ DBError (RoutingConfig × String) :=
  let inherited := do
    let cfg ← F.loadRouting
    pure (cfg,routingSourceGlobal)
  if gid = 0 then inherited
  else do
    match ← attempt (F.loadGroupConfig gid) with
    | .error _ => inherited
    | .ok group =>
      if group.manualRoutingMode = manualRoutingCustom then do
        let cfg ← F.loadGroupRouting gid
        pure (cfg,routingSourceCustom)
      else inherited

/-- A broken raw payload means no DNS section. -/
def dnsForProfile (p : RoutingProfile) : Option HappDNSConfig :=
  match p.dns with
  | some cfg => some cfg
  | none => if p.rawJSON = "" then none else parseRawJSON p.rawJSON

def manualSelection (cfg : RoutingConfig) : RoutingSelection :=
  { config := cfg
    source := "manual"
    profileId := ""
    geoDir := none
    globalProxy := false
    bootstrapHosts := [] }

def happSelection (p : RoutingProfile) (geoDir : Option (List String)) : RoutingSelection :=
  { config := ⟨p.domainStrategy,p.rules,dnsForProfile parseRawJSON p⟩
    source := "happ"
    profileId := p.id
    geoDir := geoDir
    globalProxy := p.globalProxy
    bootstrapHosts := [] }

/-- Strict subscription mode: the LAN stays direct and no manual rule applies. -/
def lanSelection : RoutingSelection :=
  { config :=
      { domainStrategy := "IPIfNonMatch"
        rules :=
          [{ type := "field"
             domain := ""
             ip := lanRuleIP
             protocol := ""
             port := ""
             network := ""
             outboundTag := "direct"
             enabled := true }]
        dns := none }
    source := "happ"
    profileId := ""
    geoDir := none
    globalProxy := true
    bootstrapHosts := [] }

/-- The absolute geo directory of a profile, `none` when a file is missing. -/
def Files.geoAssets (p : RoutingProfile) : Prog σ DBError (Option (Option (List String))) :=
  if p.geoDir = "" then pure (some none)
  else do
    let root ← F.path
    let absGeoDir := joinPath root p.geoDir
    let geoip ← F.stat (absGeoDir ++ ["geoip.dat"])
    let geosite ← F.stat (absGeoDir ++ ["geosite.dat"])
    pure (if geoip && geosite then some (some absGeoDir) else none)

def Files.activeSelection (gid : ℤ) (id : String) : Prog σ DBError (Option RoutingSelection) :=
  if id = "" then pure none
  else do
    match ← attempt (F.loadRoutingProfile gid id) with
    | .error _ => pure none
    | .ok p =>
      if p.groupId = gid ∧ p.rules ≠ [] then do
        let assets ← F.geoAssets p
        pure (assets.map (happSelection parseRawJSON p))
      else pure none

def Files.manualRouting (gid : ℤ) : Prog σ DBError RoutingSelection := do
  let found ← F.loadEffectiveManualRouting gid
  pure (manualSelection found.1)

def Files.resolveRouting (gid : ℤ) : Prog σ DBError RoutingSelection :=
  let global := do
    let cfg ← F.loadRouting
    pure (manualSelection cfg)
  if gid = 0 then global
  else do
    match ← attempt (F.loadGroupConfig gid) with
    | .error _ => global
    | .ok group =>
      let mode := if group.routingMode = "" then "auto" else group.routingMode
      if mode = "manual" then F.manualRouting gid
      else do
        match ← F.activeSelection parseRawJSON gid group.activeRoutingProfileId with
        | some selection => pure selection
        | none => if mode = "auto" then F.manualRouting gid else pure lanSelection

end Program

def loadEffectiveManualRouting (gid : ℤ) : DBM (RoutingConfig × String) :=
  disk.loadEffectiveManualRouting gid

def resolveRouting (parseRawJSON : RawMessage → Option HappDNSConfig) (gid : ℤ) :
    DBM RoutingSelection :=
  disk.resolveRouting parseRawJSON gid

theorem disk_loadGroupConfig (gid : ℤ) :
    disk.loadGroupConfig gid = GroupFiles.loadGroupConfig gid := by
  funext w
  unfold Files.loadGroupConfig GroupFiles.loadGroupConfig wrapping
  rw [bind_of_ok (attempt_run _ w)]
  rcases h : readEncryptedJSON (.groupConfig gid) Payload.asGroup w with ⟨e | group,u⟩ <;>
    simp [disk,h]

theorem disk_readRouting (path : Path) : disk.readRouting path = RoutingStore.readRouting path :=
  rfl

theorem disk_loadRoutingProfile (gid : ℤ) (id : String) :
    disk.loadRoutingProfile gid id = GroupFiles.loadRoutingProfile gid id := rfl

section Table

/-- What a program finds in a file now. -/
def stored {α : Type} (path : Path) (target : Payload → Option α) (w : World) : Option α :=
  fileAt path target w.disk w.key

inductive Mode where
  | manual
  | auto
  | subscription
  deriving DecidableEq

/-- The mode a stored text stands for; a text no command stores is read as
the strict one. -/
def modeOf (text : String) : Mode :=
  if text = "" ∨ text = "auto" then .auto
  else if text = "manual" then .manual
  else .subscription

inductive Source where
  | manual
  | happ
  | lanOnly
  deriving DecidableEq

/-- The rows of the table: the mode, and whether the active Happ profile is usable. -/
def effectiveSource : Mode → Bool → Source
  | .manual,_ => .manual
  | .auto,true => .happ
  | .auto,false => .manual
  | .subscription,true => .happ
  | .subscription,false => .lanOnly

/-- Both files of a directory the profile refers to are on disk. -/
def GeoPresent (w : World) (p : RoutingProfile) : Prop :=
  p.geoDir ≠ "" → ∀ file ∈ ["geoip.dat","geosite.dat"],
    existsAt (joinPath w.root p.geoDir ++ [file]) w = true

instance (w : World) (p : RoutingProfile) : Decidable (GeoPresent w p) := by
  unfold GeoPresent
  infer_instance

/-- `p` is the active Happ profile of the group, and it can be applied. -/
structure Usable (w : World) (gid : ℤ) (group : Group) (p : RoutingProfile) : Prop where
  active : group.activeRoutingProfileId ≠ ""
  readable : stored (.routingProfile gid group.activeRoutingProfileId) Payload.asRoutingProfile w
    = some p
  owned : p.groupId = gid
  rules : p.rules ≠ []
  geo : GeoPresent w p

def usableProfile (w : World) (gid : ℤ) (group : Group) : Option RoutingProfile :=
  if group.activeRoutingProfileId = "" then none
  else (stored (.routingProfile gid group.activeRoutingProfileId) Payload.asRoutingProfile w).filter
    fun p => decide (p.groupId = gid ∧ p.rules ≠ [] ∧ GeoPresent w p)

/-- Global rules, or the group's own file once it is `custom`; a file that is
absent or cannot be read stands for the defaults. -/
def manualRules (w : World) (gid : ℤ) (group : Group) : RoutingConfig :=
  (stored (if group.manualRoutingMode = manualRoutingCustom then .groupRouting gid else .routing)
    Payload.asRouting w).getD defaultRouting

def profileGeoDir (w : World) (p : RoutingProfile) : Option (List String) :=
  if p.geoDir = "" then none else some (joinPath w.root p.geoDir)

/-- What each source contributes to the selection. -/
inductive Contributes (parseRawJSON : RawMessage → Option HappDNSConfig) (w : World) (gid : ℤ)
    (group : Group) : Source → RoutingSelection → Prop
  | manual :
      Contributes parseRawJSON w gid group .manual (manualSelection (manualRules w gid group))
  | happ (p : RoutingProfile) (h : Usable w gid group p) :
      Contributes parseRawJSON w gid group .happ
        (happSelection parseRawJSON p (profileGeoDir w p))
  | lanOnly : Contributes parseRawJSON w gid group .lanOnly lanSelection

theorem usableProfile_iff {w : World} {gid : ℤ} {group : Group} {p : RoutingProfile} :
    usableProfile w gid group = some p ↔ Usable w gid group p := by
  unfold usableProfile
  by_cases ha : group.activeRoutingProfileId = ""
  · simp only [ha,if_true]
    constructor
    · exact fun h => nomatch h
    · exact fun h => absurd ha h.active
  · simp only [ha,if_false,Option.filter_eq_some_iff,decide_eq_true_eq]
    exact ⟨fun ⟨hp,ho,hr,hg⟩ => ⟨ha,hp,ho,hr,hg⟩,
      fun h => ⟨h.readable,h.owned,h.rules,h.geo⟩⟩

theorem usable_iff_isSome {w : World} {gid : ℤ} {group : Group} :
    (∃ p, Usable w gid group p) ↔ (usableProfile w gid group).isSome := by
  simp only [Option.isSome_iff_exists,usableProfile_iff]

instance (w : World) (gid : ℤ) (group : Group) : Decidable (∃ p, Usable w gid group p) :=
  decidable_of_iff _ usable_iff_isSome.symm

end Table

section Reads

/-- Reading may set the read-only flag and changes nothing else. -/
structure SameFiles (w u : World) : Prop where
  disk : u.disk = w.disk
  key : u.key = w.key
  root : u.root = w.root

theorem sameFiles_refl (w : World) : SameFiles w w := ⟨rfl,rfl,rfl⟩

/-- Over the files of `w` the program returns `a` and leaves the files alone. -/
def Returns {α : Type} (w : World) (m : DBM α) (a : α) : Prop :=
  ∀ u, SameFiles w u → (m u).1 = .ok a ∧ SameFiles w (m u).2

variable {α β : Type} {w : World} {path : Path} {target : Payload → Option α}

theorem returns_pure (w : World) (a : α) : Returns w (pure a) a := fun _ hu => ⟨rfl,hu⟩

theorem returns_bind {m : DBM α} {f : α → DBM β} {a : α} {b : β} (hm : Returns w m a)
    (hf : Returns w (f a) b) : Returns w (m >>= f) b := by
  intro u hu
  obtain ⟨ha,hs⟩ := hm u hu
  rw [bind_of_ok (run_of_fst ha)]
  exact hf _ hs

theorem returns_map {m : DBM α} {a : α} (f : α → β) (hm : Returns w m a) :
    Returns w (do let x ← m; pure (f x)) (f a) := returns_bind hm (returns_pure w _)

theorem returns_path (w : World) : Returns w disk.path w.root := fun _ hu =>
  ⟨congrArg Except.ok hu.root,hu⟩

theorem returns_stat (w : World) (target : List String) :
    Returns w (disk.stat target) (existsAt target w) := by
  intro u hu
  refine ⟨?_,hu⟩
  show Except.ok (existsAt target u) = _
  rw [existsAt,existsAt,hu.disk,hu.root]

theorem sameFiles_read {u : World} (hu : SameFiles w u) :
    SameFiles w (readEncryptedJSON path target u).2 := by
  unfold readEncryptedJSON
  split
  · exact hu
  · split
    · split <;> exact hu
    · split
      · exact ⟨hu.disk,hu.key,hu.root⟩
      · exact hu

theorem stored_eq_read {u : World} (hu : SameFiles w u) :
    (readEncryptedJSON path target u).1.toOption = stored path target w := by
  rw [stored,← hu.disk,← hu.key]
  exact (readsAs_readEncryptedJSON path target u).2

theorem returns_found {a : α} (h : stored path target w = some a) :
    Returns w (attempt (disk.read path target)) (.ok a) := by
  intro u hu
  refine ⟨?_,@sameFiles_read α w path target u hu⟩
  have hread := (stored_eq_read hu).trans h
  rw [attempt_run]
  cases hr : (disk.read path target u).1 with
  | ok b =>
    have hb : some b = some a := by rw [← hread]; exact (congrArg Except.toOption hr).symm
    rw [Option.some.inj hb]
  | error e =>
    have he : none = some a := by rw [← hread]; exact (congrArg Except.toOption hr).symm
    exact nomatch he

/-- A failing read decides like every other failing read. -/
theorem returns_missing {f : Except DBError α → DBM β} {b : β}
    (h : stored path target w = none) (hf : ∀ e, Returns w (f (.error e)) b) :
    Returns w (attempt (disk.read path target) >>= f) b := by
  intro u hu
  rw [bind_of_ok (attempt_run _ u)]
  cases hr : (disk.read path target u).1 with
  | ok a =>
    have ha : some a = none := by
      rw [← h,← stored_eq_read hu]
      exact (congrArg Except.toOption hr).symm
    exact nomatch ha
  | error e => exact hf e _ (sameFiles_read hu)

theorem returns_readRouting (w : World) (path : Path) :
    Returns w (disk.readRouting path) ((stored path Payload.asRouting w).getD defaultRouting) := by
  unfold Files.readRouting
  cases h : stored path Payload.asRouting w with
  | some cfg => exact returns_bind (returns_found h) (returns_pure w cfg)
  | none => exact returns_missing h fun _ => returns_pure w _

theorem returns_group {gid : ℤ} {group : Group}
    (h : stored (.groupConfig gid) Payload.asGroup w = some group) :
    Returns w (disk.loadGroupConfig gid) group :=
  returns_bind (returns_found h) (returns_pure w group)

theorem returns_attempt {m : DBM α} {a : α} (h : Returns w m a) :
    Returns w (attempt m) (.ok a) := fun u hu =>
  ⟨congrArg Except.ok (h u hu).1,(h u hu).2⟩

end Reads

section Resolution

variable {w : World} {gid : ℤ} {group : Group}
  (parseRawJSON : RawMessage → Option HappDNSConfig)

theorem returns_effective (hgid : gid ≠ 0)
    (h : stored (.groupConfig gid) Payload.asGroup w = some group) :
    Returns w (disk.loadEffectiveManualRouting gid) (manualRules w gid group,
      if group.manualRoutingMode = manualRoutingCustom then routingSourceCustom
      else routingSourceGlobal) := by
  have hcfg := returns_attempt (returns_group h)
  unfold Files.loadEffectiveManualRouting manualRules
  simp only [hgid,if_false]
  refine returns_bind hcfg ?_
  by_cases hc : group.manualRoutingMode = manualRoutingCustom
  · simp only [hc,if_true]
    exact returns_map (·,routingSourceCustom) (returns_readRouting w _)
  · simp only [hc,if_false]
    exact returns_map (·,routingSourceGlobal) (returns_readRouting w _)

theorem returns_manual (hgid : gid ≠ 0)
    (h : stored (.groupConfig gid) Payload.asGroup w = some group) :
    Returns w (disk.manualRouting gid) (manualSelection (manualRules w gid group)) :=
  returns_map (fun found : RoutingConfig × String => manualSelection found.1)
    (returns_effective hgid h)

theorem returns_geoAssets (w : World) (p : RoutingProfile) :
    Returns w (disk.geoAssets p) (if GeoPresent w p then some (profileGeoDir w p) else none) := by
  unfold Files.geoAssets profileGeoDir
  by_cases hg : p.geoDir = ""
  · have hp : GeoPresent w p := fun h => absurd hg h
    simp only [hg,hp,if_true]
    exact returns_pure w _
  · have hp : GeoPresent w p ↔ (existsAt (joinPath w.root p.geoDir ++ ["geoip.dat"]) w &&
        existsAt (joinPath w.root p.geoDir ++ ["geosite.dat"]) w) = true := by
      simp [GeoPresent,hg]
    simp only [hg,if_false,hp]
    exact returns_bind (returns_path w) (returns_bind (returns_stat w _)
      (returns_map _ (returns_stat w _)))

theorem returns_activeSelection (w : World) (gid : ℤ) (group : Group) :
    Returns w (disk.activeSelection parseRawJSON gid group.activeRoutingProfileId)
      ((usableProfile w gid group).map fun p =>
        happSelection parseRawJSON p (profileGeoDir w p)) := by
  unfold Files.activeSelection usableProfile
  by_cases ha : group.activeRoutingProfileId = ""
  · simp only [ha,if_true]
    exact returns_pure w none
  · simp only [ha,if_false]
    cases hp : stored (.routingProfile gid group.activeRoutingProfileId)
        Payload.asRoutingProfile w with
    | none => exact returns_missing hp fun _ => returns_pure w none
    | some p =>
      refine returns_bind (returns_found hp) ?_
      by_cases ho : p.groupId = gid ∧ p.rules ≠ []
      · simp only [ho,ne_eq,not_false_eq_true,and_self,if_true]
        have hassets := returns_map (Option.map (happSelection parseRawJSON p))
          (returns_geoAssets w p)
        by_cases hg : GeoPresent w p <;> simpa [Option.filter,hg,ho] using hassets
      · have hf : ¬(p.groupId = gid ∧ p.rules ≠ [] ∧ GeoPresent w p) :=
          fun h => ho ⟨h.1,h.2.1⟩
        simp only [ho,if_false,Option.filter,hf,decide_false,Bool.false_eq_true,Option.map_none]
        exact returns_pure w none

theorem returns_global (w : World) :
    Returns w (disk.resolveRouting parseRawJSON 0)
      (manualSelection ((stored .routing Payload.asRouting w).getD defaultRouting)) :=
  returns_map manualSelection (returns_readRouting w .routing)

/-- The active profile when it is usable, else what the fallback contributes. -/
theorem returns_active_or {fallback : DBM RoutingSelection} {other : RoutingSelection}
    (hf : Returns w fallback other) :
    ∃ selection,
      Returns w (do
        match ← disk.activeSelection parseRawJSON gid group.activeRoutingProfileId with
        | some selection => pure selection
        | none => fallback) selection ∧
      ∀ mode source, effectiveSource mode true = .happ → effectiveSource mode false = source →
        Contributes parseRawJSON w gid group source other →
        Contributes parseRawJSON w gid group
          (effectiveSource mode (∃ p, Usable w gid group p)) selection := by
  have hactive := returns_activeSelection parseRawJSON w gid group
  cases hu : usableProfile w gid group with
  | some p =>
    have hp := usableProfile_iff.mp hu
    rw [hu] at hactive
    refine ⟨_,returns_bind hactive (returns_pure w _),fun mode source hhapp _ _ => ?_⟩
    rw [decide_eq_true ⟨p,hp⟩,hhapp]
    exact .happ p hp
  | none =>
    have hnone : ¬∃ p, Usable w gid group p := by
      rw [usable_iff_isSome,hu]
      exact Bool.false_ne_true
    rw [hu] at hactive
    refine ⟨other,returns_bind hactive hf,fun mode source _ hother hcon => ?_⟩
    rw [decide_eq_false hnone,hother]
    exact hcon

/-- One row of the table for every readable group. -/
theorem returns_row (hgid : gid ≠ 0)
    (h : stored (.groupConfig gid) Payload.asGroup w = some group) :
    ∃ selection, Returns w (disk.resolveRouting parseRawJSON gid) selection ∧
      Contributes parseRawJSON w gid group
        (effectiveSource (modeOf group.routingMode) (∃ p, Usable w gid group p)) selection := by
  have hcfg := returns_attempt (returns_group h)
  have hmanual := returns_manual hgid h
  unfold Files.resolveRouting modeOf
  simp only [hgid,if_false]
  by_cases hm : group.routingMode = "manual"
  · refine ⟨manualSelection (manualRules w gid group),returns_bind hcfg ?_,?_⟩
    · simpa [hm] using hmanual
    · simpa [hm,effectiveSource] using Contributes.manual
  · by_cases ha : group.routingMode = "" ∨ group.routingMode = "auto"
    · have hmode : (if group.routingMode = "" then "auto" else group.routingMode) = "auto" := by
        rcases ha with ha | ha <;> simp [ha]
      obtain ⟨selection,hsel,hcon⟩ := returns_active_or parseRawJSON hmanual
      refine ⟨selection,returns_bind hcfg ?_,?_⟩
      · simpa [hmode] using hsel
      · rw [if_pos ha]
        exact hcon .auto .manual rfl rfl .manual
    · have hmode : (if group.routingMode = "" then "auto" else group.routingMode) =
          group.routingMode := if_neg fun h => ha (.inl h)
      have hauto : group.routingMode ≠ "auto" := fun h => ha (.inr h)
      obtain ⟨selection,hsel,hcon⟩ := returns_active_or parseRawJSON
        (returns_pure w lanSelection)
      refine ⟨selection,returns_bind hcfg ?_,?_⟩
      · simpa [hmode,hm,hauto] using hsel
      · rw [if_neg ha,if_neg hm]
        exact hcon .subscription .lanOnly rfl rfl .lanOnly

end Resolution

section Samples

def emptyDirectory : World :=
  { root := ["db"], disk := ∅, key := [], degraded := false, nonce := 0, faults := [] }

/-- A strict group with rules of its own and an active profile that is not there. -/
def strictGroup : Group :=
  { GroupStore.newGroupConfig (fun _ => "") 1 "work" "" with
    routingMode := "subscription"
    manualRoutingMode := manualRoutingCustom
    activeRoutingProfileId := "gone" }

def strictDirectory : World :=
  store (.groupRouting 1) (.routing ⟨"AsIs",[],none⟩)
    (store (.groupConfig 1) (.group strictGroup) emptyDirectory)

end Samples

section Isolation

variable {w u : World} {gid : ℤ} {group : Group}
  {parseRawJSON : RawMessage → Option HappDNSConfig}

/-- The two directories differ at most in what other groups store. -/
structure SeesAlike (gid : ℤ) (w u : World) : Prop where
  root : u.root = w.root
  key : u.key = w.key
  files : ∀ path : Path, path.group? = none ∨ path.group? = some gid →
    readFile path u.disk = readFile path w.disk
  assets : ∀ target, existsAt target u = existsAt target w

theorem SeesAlike.stored_eq {α : Type} (h : SeesAlike gid w u) {path : Path}
    (target : Payload → Option α) (hp : path.group? = none ∨ path.group? = some gid) :
    stored path target u = stored path target w := by
  rw [stored,stored,fileAt,fileAt,h.files path hp,h.key]

theorem SeesAlike.symm (h : SeesAlike gid w u) : SeesAlike gid u w :=
  ⟨h.root.symm,h.key.symm,fun path hp => (h.files path hp).symm,fun target => (h.assets target).symm⟩

theorem SeesAlike.usable (h : SeesAlike gid w u) {p : RoutingProfile}
    (hp : Usable u gid group p) : Usable w gid group p where
  active := hp.active
  readable := (h.stored_eq _ (.inr rfl)).symm.trans hp.readable
  owned := hp.owned
  rules := hp.rules
  geo hg file hf := by
    rw [← h.assets,← h.root]
    exact hp.geo hg file hf

theorem SeesAlike.contributes (h : SeesAlike gid w u) {source : Source}
    {selection : RoutingSelection} (hc : Contributes parseRawJSON u gid group source selection) :
    Contributes parseRawJSON w gid group source selection := by
  cases hc with
  | manual =>
    have hrules : manualRules u gid group = manualRules w gid group := by
      unfold manualRules
      rw [h.stored_eq _ (by split <;> simp [Path.group?])]
    exact hrules ▸ .manual
  | happ p hp =>
    have hdir : profileGeoDir u p = profileGeoDir w p := by rw [profileGeoDir,profileGeoDir,h.root]
    exact hdir ▸ .happ p (h.usable hp)
  | lanOnly => exact .lanOnly

theorem contributes_unique {source : Source} {s t : RoutingSelection}
    (hs : Contributes parseRawJSON w gid group source s)
    (ht : Contributes parseRawJSON w gid group source t) : s = t := by
  cases hs with
  | manual => cases ht; rfl
  | happ p hp =>
    cases ht with
    | happ q hq => rw [Option.some.inj (hp.readable.symm.trans hq.readable)]
  | lanOnly => cases ht; rfl

/-- Nothing another group stores changes the routing of a readable group. -/
theorem resolveRouting_ignores_other_groups (h : SeesAlike gid w u) (hgid : gid ≠ 0)
    (hg : stored (.groupConfig gid) Payload.asGroup w = some group) :
    (resolveRouting parseRawJSON gid u).1 = (resolveRouting parseRawJSON gid w).1 := by
  have hu := (h.stored_eq Payload.asGroup (.inr rfl)).trans hg
  obtain ⟨s,hs,hcs⟩ := returns_row parseRawJSON hgid hu
  obtain ⟨t,ht,hct⟩ := returns_row parseRawJSON hgid hg
  have hiff : (∃ p, Usable u gid group p) ↔ ∃ p, Usable w gid group p :=
    ⟨fun ⟨p,hp⟩ => ⟨p,h.usable hp⟩,fun ⟨p,hp⟩ => ⟨p,h.symm.usable hp⟩⟩
  have hrow := h.contributes hcs
  rw [decide_eq_decide.mpr hiff] at hrow
  calc
    _ = Except.ok s := (hs u (sameFiles_refl u)).1
    _ = Except.ok t := by rw [contributes_unique hrow hct]
    _ = _ := (ht w (sameFiles_refl w)).1.symm

end Isolation

end Whoisthat.RoutingResolution
