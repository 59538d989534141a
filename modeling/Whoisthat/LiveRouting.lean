import Whoisthat.RoutingWrites
import Whoisthat.Session

/-!
# The live routing of a connected profile

Six commands change what the routing of a connected profile is read from, and
each decides on its own whether the running core is reloaded. Commands run one
after another; any write may fail and any reload may be refused or bring the
core down. A session is live when its core was started with what a fresh Connect
to the same profile would start it with.
-/

set_option autoImplicit false

namespace Whoisthat.LiveRouting
open Whoisthat.FileStore Whoisthat.FallibleState Whoisthat.Records Whoisthat.Database
open Whoisthat.GroupFiles Whoisthat.RoutingStore Whoisthat.FiledRecords Whoisthat.ProfileStore
open Whoisthat.RoutingResolution Whoisthat.SessionRouting Whoisthat.Footprints
open Whoisthat.RoutingWrites
open Whoisthat.GeoWorkers (jsonSubscription)
open Whoisthat.Session (Reload)

section Program

/-- A warning sent to the client; its text may end in an error. -/
structure Warning where
  key : String
  content : String
  cause : Option DBError
  deriving DecidableEq

/-- `status.Profile` of a connected status, and what its core was started with. -/
structure Session where
  profile : Profile
  started : Started

structure State where
  world : World
  session : Option Session
  /-- A command about the connected routing has failed after it changed a file,
  or its reload was refused, since the core was started. Nothing reads this. -/
  unapplied : Bool

def orWarn {α : Type} (m : DBM α) (warning : DBError → Warning) : Prog World Warning α := fun w =>
  match m w with
  | (.ok a,w) => (.ok a,w)
  | (.error e,w) => (.error (warning e),w)

variable (setup : Setup)

/-- `ReloadRouting`; the outcome covers the validation and the start of the new
core. -/
def reloadRouting (r : Reload) (s : State) : State × Bool :=
  match s.session with
  | none => (s,true)
  | some c =>
    match readBaseline setup.parseRawJSON c.profile s.world with
    | (.error _,w) => ({ s with world := w },false)
    | (.ok b,w) =>
      match render setup c.profile b,r with
      | none,_ => ({ s with world := w },false)
      | some _,.refused => ({ s with world := w },false)
      | some _,.notStarted => (⟨w,none,false⟩,false)
      | some started,.done => (⟨w,some ⟨c.profile,started⟩,false⟩,true)

/-- A reload whose error is reported. -/
def reloadReported (r : Reload) (s : State) : State × Option Warning :=
  match reloadRouting setup r s with
  | (s,true) => (s,none)
  | (s,false) =>
    ({ s with unapplied := true },
      some ⟨"update-routing-failed","failed to reload routing: ",none⟩)

def reloadRoutingIfNeeded (r : Reload) (changedGroupID : ℤ) (s : State) :
    State × Option Warning :=
  match s.session with
  | none => (s,none)
  | some c =>
    let connectedGroupID := c.profile.groupId
    if connectedGroupID = 0 then (s,none)
    else if changedGroupID ≠ 0 ∧ changedGroupID ≠ connectedGroupID then (s,none)
    else if changedGroupID = 0 then
      match loadGroupConfig connectedGroupID s.world with
      | (.ok group,w) =>
        if group.manualRoutingMode = manualRoutingCustom then ({ s with world := w },none)
        else reloadReported setup r { s with world := w }
      | (.error _,w) => reloadReported setup r { s with world := w }
    else reloadReported setup r s

/-- The reload of the routing profile commands, whose error is dropped. -/
def reloadConnected (r : Reload) (gid : ℤ) (s : State) : State :=
  match s.session with
  | none => s
  | some c => if c.profile.groupId = gid then (reloadRouting setup r s).1 else s

def updateRoutingFailed (content : String) (cause : Option DBError) : Warning :=
  ⟨"update-routing-failed",content,cause⟩

/-- Editing an inheriting group turns it into a custom one. -/
def updateRouting (gid : ℤ) (cfg : RoutingConfig) : Prog World Warning Unit :=
  if gid < 0 then fail (updateRoutingFailed "Invalid group id" none)
  else if gid = 0 then
    orWarn (saveRouting cfg) fun _ => updateRoutingFailed "failed to save routing config" none
  else do
    let group ← orWarn (loadGroupConfig gid) fun _ => updateRoutingFailed "Group not found" none
    when (group.manualRoutingMode ≠ manualRoutingCustom)
      (orWarn (setManualRoutingSource gid manualRoutingCustom) fun e =>
        updateRoutingFailed "failed to enable custom routing: " (some e))
    orWarn (saveGroupRouting gid cfg) fun _ =>
      updateRoutingFailed "failed to save routing config" none

def setSource (gid : ℤ) (source : String) : Prog World Warning Unit :=
  if gid = 0 then
    fail ⟨"set-manual-routing-source-failed","Global routing has no manual source",none⟩
  else
    orWarn (setManualRoutingSource gid source) fun e =>
      ⟨"set-manual-routing-source-failed","Failed to change routing source: ",some e⟩

/-- The group of a routing profile command; provider-managed ones are refused. -/
def editableGroup (gid : ℤ) (key refusal : String) : Prog World Warning Group := do
  let group ← orWarn (loadGroupConfig gid) fun _ => ⟨key,"Group not found",none⟩
  if jsonSubscription group then fail ⟨key,refusal,none⟩ else pure group

def setMode (gid : ℤ) (mode : String) : Prog World Warning Unit :=
  let mode := toLower (trimSpace mode)
  if mode ≠ "auto" ∧ mode ≠ "manual" ∧ mode ≠ "subscription" then
    fail ⟨"set-group-routing-mode-failed",
      "Invalid routing mode (must be auto, manual, or subscription)",none⟩
  else do
    let _ ← editableGroup gid "set-group-routing-mode-failed"
      "Routing mode is provider-managed for JSON subscriptions"
    orWarn (setGroupRoutingMode gid mode) fun e =>
      ⟨"set-group-routing-mode-failed","Failed to set routing mode: ",some e⟩

def setActive (gid : ℤ) (id : String) : Prog World Warning Unit := do
  let _ ← editableGroup gid "set-active-routing-profile-failed"
    "Provider routing is immutable for JSON subscriptions"
  orWarn (setActiveRoutingProfile gid (if id = "off" then "" else id)) fun e =>
    ⟨"set-active-routing-profile-failed","Failed to set active routing profile: ",some e⟩

/-- Whether the deleted profile was the active one. -/
def deleteProfile (gid : ℤ) (id : String) : Prog World Warning Bool := do
  let group ← editableGroup gid "delete-routing-profile-failed"
    "Provider routing is immutable for JSON subscriptions"
  let _ ← orWarn (GroupFiles.loadRoutingProfile gid id) fun _ =>
    ⟨"delete-routing-profile-failed","Routing profile not found",none⟩
  orWarn (deleteRoutingProfile gid id) fun e =>
    ⟨"delete-routing-profile-failed","Failed to delete routing profile: ",some e⟩
  pure (group.activeRoutingProfileId = id)

def updateMovedProfile (gid id : ℤ) (moved : Profile) (s : State) : State :=
  match s.session with
  | none => s
  | some c =>
    if c.profile.id = id ∧ c.profile.groupId = gid then { s with session := some ⟨moved,c.started⟩ }
    else s

inductive Command where
  | updateRouting (gid : ℤ) (cfg : RoutingConfig) (r : Reload)
  | setManualRoutingSource (gid : ℤ) (source : String) (r : Reload)
  | setGroupRoutingMode (gid : ℤ) (mode : String) (r : Reload)
  | setActiveRoutingProfile (gid : ℤ) (id : String) (r : Reload)
  | deleteRoutingProfile (gid : ℤ) (id : String) (r : Reload)
  | moveProfile (fromGroup toGroup id : ℤ)

/-- The global rules, or the group of the connected profile. -/
def State.concerns (s : State) (gid : ℤ) : Bool :=
  s.session.any fun c => gid = 0 || c.profile.groupId = gid

/-- The writes of a command, then what follows when they succeed. -/
def andThen {α : Type} (concerned : Bool) (writes : Prog World Warning α)
    (next : α → State → State × Option Warning) (s : State) : State × Option Warning :=
  match writes s.world with
  | (.error warning,w) =>
    ({ s with world := w, unapplied := s.unapplied || (concerned && w.disk ≠ s.world.disk) },
      some warning)
  | (.ok a,w) => next a { s with world := w }

def moveFailed (e : DBError) : Warning := ⟨"move-profile-failed","failed to move profile: ",some e⟩

/-- One command, and the warning it ends with. -/
def Command.step (s : State) : Command → State × Option Warning
  | .updateRouting gid cfg r =>
    andThen (s.concerns gid) (LiveRouting.updateRouting gid cfg)
      (fun _ => reloadRoutingIfNeeded setup r gid) s
  | .setManualRoutingSource gid source r =>
    andThen (s.concerns gid) (setSource gid source) (fun _ => reloadRoutingIfNeeded setup r gid) s
  | .setGroupRoutingMode gid mode r =>
    andThen (s.concerns gid) (setMode gid mode) (fun _ s => (reloadConnected setup r gid s,none)) s
  | .setActiveRoutingProfile gid id r =>
    andThen (s.concerns gid) (setActive gid id) (fun _ s => (reloadConnected setup r gid s,none)) s
  | .deleteRoutingProfile gid id r =>
    andThen (s.concerns gid) (deleteProfile gid id)
      (fun wasActive s => (if wasActive then reloadConnected setup r gid s else s,none)) s
  | .moveProfile fromGroup toGroup id =>
    andThen false (orWarn (ProfileStore.moveProfile fromGroup toGroup id) moveFailed)
      (fun moved s => (updateMovedProfile fromGroup id moved s,none)) s

end Program

section Meaning

variable (setup : Setup)

/-- The running core has what a fresh Connect to the profile would give it. -/
def Live (s : State) : Prop := ∀ c, s.session = some c →
  (freshConfig setup c.profile.groupId c.profile.id s.world).1 = .ok (some c.started)

/-- A Connect to a stored profile has just started the core. -/
inductive Connected (subscriptionHost : String → String) : State → Prop
  | intro {w : World} {p : Profile} {started : Started} (hw : Built subscriptionHost w)
      (hp : (getProfile p.groupId p.id w).1 = .ok p)
      (hs : (freshConfig setup p.groupId p.id w).1 = .ok (some started)) :
      Connected subscriptionHost
        ⟨(freshConfig setup p.groupId p.id w).2,some ⟨p,started⟩,false⟩

/-- Changed manual rules are loaded for a profile of this group. -/
def Reloads (w : World) (connected changed : ℤ) : Prop :=
  connected ≠ 0 ∧ (changed = connected ∨ changed = 0 ∧ customAt w connected = false)

/-- What keeps a command from leaving the connected profile with stale routing. -/
def Careful (s : State) (p : Profile) : Command → Prop
  | .updateRouting gid _ _ =>
    Reloads s.world p.groupId gid ∨ s.unapplied = false ∧ (gid = 0 → p.groupId ≠ 0)
  | .setManualRoutingSource gid _ _ => Reloads s.world p.groupId gid ∨ s.unapplied = false
  | .setGroupRoutingMode gid _ r =>
    if gid = p.groupId then r ≠ .refused else s.unapplied = false
  | .setActiveRoutingProfile gid _ r =>
    if gid = p.groupId then r ≠ .refused else s.unapplied = false
  | .deleteRoutingProfile gid id r =>
    (∀ path, Deleted s.world gid id path →
      path ≠ .profile p.groupId p.id ∧ path ≠ .profileXrayConfig p.groupId p.id) ∧
    if gid = p.groupId ∧ (storedGroup s.world gid).any fun g => g.activeRoutingProfileId = id then
      r ≠ .refused
    else s.unapplied = false ∧
      ∀ path, Deleted s.world gid id path → ¬Feeds s.world p.groupId p.managed path
  | .moveProfile fromGroup toGroup id =>
    s.unapplied = false ∧ (toGroup = p.groupId → nextId s.world toGroup ≠ p.id) ∧
    (fromGroup = p.groupId → id = p.id →
      startedIn s.world toGroup setup p = startedIn s.world p.groupId setup p)

def CarefulIn (s : State) (c : Command) : Prop :=
  ∀ session, s.session = some session → Careful setup s session.profile c

/-- The states a run of careful commands goes through. -/
inductive CarefulRun (s₀ : State) : State → Prop
  | start : CarefulRun s₀ s₀
  | step {s : State} (c : Command) (h : CarefulRun s₀ s) (hc : CarefulIn setup s c) :
      CarefulRun s₀ (c.step setup s).1

end Meaning

section Invariant

variable {setup : Setup} {s : State}

/-- The connected profile is stored under its numbers, and a core can be
started for it. -/
structure Base (setup : Setup) (s : State) : Prop where
  filed : Filed s.world
  own : ∀ c, s.session = some c →
    stored (.profile c.profile.groupId c.profile.id) Payload.asProfile s.world = some c.profile
  starts : ∀ c, s.session = some c →
    (startedIn s.world c.profile.groupId setup c.profile).isSome

structure Inv (setup : Setup) (s : State) : Prop extends Base setup s where
  applied : ∀ c, s.session = some c → s.unapplied = false →
    startedIn s.world c.profile.groupId setup c.profile = some c.started

theorem fresh_of_stored {w : World} {p : Profile}
    (hp : stored (.profile p.groupId p.id) Payload.asProfile w = some p) :
    Yields w (freshConfig setup p.groupId p.id)
      ((baselineIn w p.groupId setup.parseRawJSON p).map (render setup p)) := by
  have h := yields_fresh setup w p.groupId p.id
  rwa [hp] at h

theorem live_of_inv (h : Inv setup s) (hu : s.session.isSome → s.unapplied = false) :
    Live setup s := by
  intro c hc
  have hstart := h.applied c hc (hu (by rw [hc]; rfl))
  obtain ⟨b,hb,hr⟩ := Option.bind_eq_some_iff.mp hstart
  have hfresh := @fresh_of_stored setup _ _ (h.own c hc)
  rw [hb,Option.map_some,hr,yields_returns] at hfresh
  exact (hfresh s.world (sameFiles_refl _)).1

theorem sameFiles_symm {u v : World} (h : SameFiles u v) : SameFiles v u :=
  ⟨h.disk.symm,h.key.symm,h.root.symm⟩

theorem filed_sameFiles {u v : World} (hu : Filed u) (h : SameFiles u v) : Filed v :=
  filed_of_files (fun path b hb => by rwa [h.disk] at hb) hu

/-- A Connect establishes the invariant. -/
theorem inv_connected {subscriptionHost : String → String} (h : Connected setup subscriptionHost s) :
    Inv setup s := by
  obtain ⟨hw,hp,hs⟩ := h
  rename_i w p started
  have hread := yields_wrapping (.readProfile p.groupId p.id)
    (yields_read (.profile p.groupId p.id) Payload.asProfile) w (sameFiles_refl w)
  have hstored : stored (.profile p.groupId p.id) Payload.asProfile w = some p := by
    rw [← hread.1]
    exact congrArg Except.toOption hp
  obtain ⟨hv,hsame⟩ := @fresh_of_stored setup _ _ hstored w (sameFiles_refl w)
  rw [hs] at hv
  obtain ⟨b,hb,hr⟩ := Option.map_eq_some_iff.mp hv.symm
  have hstart : startedIn w p.groupId setup p = some started := by
    rw [startedIn,hb,Option.bind_some,hr]
  refine ⟨⟨filed_sameFiles (filed_built hw) hsame,?_,?_⟩,?_⟩
  · rintro c ⟨⟩
    exact (stored_of_files hsame).trans hstored
  · rintro c ⟨⟩
    rw [started_of_files hsame,hstart]
    rfl
  · rintro c ⟨⟩ -
    rw [started_of_files hsame,hstart]

/-- Whether a core can be started depends on the document alone. -/
theorem render_document (p : Profile) (d : RawMessage) (m m' : RoutingConfig)
    (g g' : Option (List String)) :
    (render setup p (.managed d m g)).isSome = (render setup p (.managed d m' g')).isSome := by
  simp only [render,Option.isSome_map,CoreConfig.startedConfig,CoreConfig.prepareManagedConfig]
  cases setup.host.parseText d with
  | none => rfl
  | some raw =>
    simp only [Option.bind_some,ProviderConfig.prepare]
    cases Json.unmarshalMap raw with
    | none => rfl
    | some config =>
      dsimp only
      split_ifs <;> rfl

theorem render_link (p : Profile) (x y : RoutingSelection) :
    (render setup p (.shareLink (some x))).isSome =
      (render setup p (.shareLink (some y))).isSome := by
  simp only [render,Option.isSome_map,CoreConfig.startedConfig,CoreConfig.shareLinkConfig]

theorem starts_of_document {w u : World} {gid gid' : ℤ} {p q : Profile}
    (hd : documentOf u q = documentOf w p) (hm : q.managed = p.managed) (hu : q.uri = p.uri)
    (h : (startedIn w gid setup p).isSome) : (startedIn u gid' setup q).isSome := by
  unfold startedIn baselineIn at h ⊢
  rw [render_of_uri hu,hd,hm]
  cases hmanaged : p.managed with
  | false =>
    rw [hmanaged] at h
    simpa [render_link p _ (selectionAt w gid setup.parseRawJSON)] using h
  | true =>
    rw [hmanaged] at h
    cases hdoc : documentOf w p with
    | none => simp [hdoc] at h
    | some d => simpa [hdoc,render_document p d _ (manualAt w gid) _ (geoDirAt w gid)] using h

/-- The invariant holds, and a command without a warning leaves nothing unapplied. -/
def Good (setup : Setup) (r : State × Option Warning) : Prop :=
  Inv setup r.1 ∧ (r.2 = none → r.1.session.isSome → r.1.unapplied = false)

theorem base_files (h : Base setup s) {w : World} (hs : SameFiles s.world w) (f : Bool) :
    Base setup { s with world := w, unapplied := f } where
  filed := filed_sameFiles h.filed hs
  own c hc := (stored_of_files hs).trans (h.own c hc)
  starts c hc := by
    rw [started_of_files hs]
    exact h.starts c hc

theorem inv_files (h : Inv setup s) {w : World} (hs : SameFiles s.world w) :
    Inv setup { s with world := w } where
  toBase := base_files h.toBase hs s.unapplied
  applied c hc hu := by
    rw [started_of_files hs]
    exact h.applied c hc hu

theorem inv_unapplied (h : Base setup s) (hu : s.unapplied = true) : Inv setup s :=
  ⟨h,fun _ _ hf => absurd (hu.symm.trans hf) nofun⟩

theorem inv_disconnected {w : World} (h : Filed w) (f : Bool) : Inv setup ⟨w,none,f⟩ :=
  ⟨⟨h,(fun _ hc => nomatch hc),fun _ hc => nomatch hc⟩,fun _ hc => nomatch hc⟩

/-- What a reload starts is what the files give now. -/
theorem reload_cases (h : Base setup s) {c : Session} (hc : s.session = some c) (r : Reload) :
    ∃ w started, SameFiles s.world w ∧
      startedIn s.world c.profile.groupId setup c.profile = some started ∧
      reloadRouting setup r s = match r with
        | .refused => ({ s with world := w },false)
        | .notStarted => (⟨w,none,false⟩,false)
        | .done => (⟨w,some ⟨c.profile,started⟩,false⟩,true) := by
  obtain ⟨started,hstart⟩ := Option.isSome_iff_exists.mp (h.starts c hc)
  obtain ⟨b,hb,hr⟩ := Option.bind_eq_some_iff.mp hstart
  obtain ⟨hv,hs⟩ := yields_baseline setup.parseRawJSON s.world c.profile s.world (sameFiles_refl _)
  rw [hb] at hv
  rcases hrun : readBaseline setup.parseRawJSON c.profile s.world with ⟨e | b',w⟩ <;>
    rw [hrun] at hv hs
  · exact absurd hv nofun
  · obtain rfl := Option.some.inj hv
    refine ⟨w,started,hs,hstart,?_⟩
    unfold reloadRouting
    rw [hc]
    dsimp only
    rw [hrun]
    dsimp only
    rw [hr]
    cases r <;> rfl

theorem inv_reloaded (h : Base setup s) {c : Session} (hc : s.session = some c) {w : World}
    {started : Started} (hs : SameFiles s.world w)
    (hstart : startedIn s.world c.profile.groupId setup c.profile = some started) :
    Inv setup ⟨w,some ⟨c.profile,started⟩,false⟩ := by
  refine ⟨⟨filed_sameFiles h.filed hs,?_,?_⟩,?_⟩
  · rintro d ⟨⟩
    exact (stored_of_files hs).trans (h.own c hc)
  · rintro d ⟨⟩
    rw [started_of_files hs,hstart]
    rfl
  · rintro d ⟨⟩ -
    rw [started_of_files hs,hstart]

theorem good_reported (h : Base setup s) {c : Session} (hc : s.session = some c) (r : Reload) :
    Good setup (reloadReported setup r s) := by
  obtain ⟨w,started,hs,hstart,hrun⟩ := reload_cases h hc r
  unfold reloadReported
  rw [hrun]
  cases r with
  | refused => exact ⟨inv_unapplied (base_files h hs true) rfl,nofun⟩
  | notStarted => exact ⟨inv_disconnected (filed_sameFiles h.filed hs) true,nofun⟩
  | done => exact ⟨inv_reloaded h hc hs hstart,fun _ _ => rfl⟩

theorem good_connected (h : Base setup s) {c : Session} (hc : s.session = some c) {r : Reload}
    (hr : r ≠ .refused) {gid : ℤ} (hgid : gid = c.profile.groupId) :
    Good setup (reloadConnected setup r gid s,none) := by
  obtain ⟨w,started,hs,hstart,hrun⟩ := reload_cases h hc r
  unfold reloadConnected
  rw [hc]
  dsimp only
  rw [if_pos hgid.symm,hrun]
  cases r with
  | refused => exact absurd rfl hr
  | notStarted => exact ⟨inv_disconnected (filed_sameFiles h.filed hs) false,fun _ _ => rfl⟩
  | done => exact ⟨inv_reloaded h hc hs hstart,fun _ _ => rfl⟩

theorem good_of_inv (h : Inv setup s) (hu : s.session.isSome → s.unapplied = false)
    (o : Option Warning) : Good setup (s,o) := ⟨h,fun _ => hu⟩

/-- The reload of changed manual rules happens for the groups that use them. -/
theorem ifNeeded_cases {c : Session} (hc : s.session = some c) (r : Reload) (gid : ℤ) :
    ∃ w, SameFiles s.world w ∧
      ((Reloads s.world c.profile.groupId gid ∧
        reloadRoutingIfNeeded setup r gid s = reloadReported setup r { s with world := w }) ∨
      (¬Reloads s.world c.profile.groupId gid ∧
        reloadRoutingIfNeeded setup r gid s = ({ s with world := w },none))) := by
  unfold reloadRoutingIfNeeded Reloads
  rw [hc]
  dsimp only
  by_cases hown : c.profile.groupId = 0
  · refine ⟨s.world,sameFiles_refl _,.inr ⟨fun h => h.1 hown,?_⟩⟩
    rw [if_pos hown,← hc]
  · rw [if_neg hown]
    by_cases hother : gid ≠ 0 ∧ gid ≠ c.profile.groupId
    · refine ⟨s.world,sameFiles_refl _,.inr ⟨fun h => ?_,?_⟩⟩
      · rcases h.2 with h | h
        · exact hother.2 h
        · exact hother.1 h.1
      · rw [if_pos hother,← hc]
    · rw [if_neg hother]
      by_cases hgid : gid = 0
      · rw [if_pos hgid]
        obtain ⟨hv,hs⟩ := yields_wrapping (.loadGroup c.profile.groupId)
          (yields_read (.groupConfig c.profile.groupId) Payload.asGroup) s.world (sameFiles_refl _)
        have hcustom : customAt s.world c.profile.groupId =
            (storedGroup s.world c.profile.groupId).any fun g =>
              g.manualRoutingMode = manualRoutingCustom := by simp [customAt,hown]
        rcases hl : loadGroupConfig c.profile.groupId s.world with ⟨e | g,w⟩
        · rw [loadGroupConfig] at hl
          rw [hl] at hv hs
          have hnone : customAt s.world c.profile.groupId = false := by
            rw [hcustom,storedGroup,groupAt,← stored,← hv]
            rfl
          exact ⟨w,hs,.inl ⟨⟨hown,.inr ⟨hgid,hnone⟩⟩,rfl⟩⟩
        · rw [loadGroupConfig] at hl
          rw [hl] at hv hs
          have hsome : customAt s.world c.profile.groupId =
              decide (g.manualRoutingMode = manualRoutingCustom) := by
            rw [hcustom,storedGroup,groupAt,← stored,← hv]
            rfl
          refine ⟨w,hs,?_⟩
          by_cases hm : g.manualRoutingMode = manualRoutingCustom
          · refine .inr ⟨fun h => ?_,by simp [hm]⟩
            rcases h.2 with h | h
            · exact hown (h.symm.trans hgid)
            · simp [hsome,hm] at h
          · exact .inl ⟨⟨hown,.inr ⟨hgid,by simp [hsome,hm]⟩⟩,by simp [hm]⟩
      · have hgid' : gid = c.profile.groupId := by
          by_contra hne
          exact hother ⟨hgid,hne⟩
        refine ⟨s.world,sameFiles_refl _,.inl ⟨⟨hown,.inl hgid'⟩,?_⟩⟩
        rw [if_neg hgid,← hc]

end Invariant

section Steps

variable {setup : Setup} {s : State} {W : Path → Payload → Prop} {D : Path → Prop} {w : World}

/-- The profile of the connection and its document are left alone. -/
structure SparesOwn (W : Path → Payload → Prop) (D : Path → Prop) (p : Profile) : Prop where
  written : ∀ x, ¬W (.profile p.groupId p.id) x ∧ ¬W (.profileXrayConfig p.groupId p.id) x
  removed : ¬D (.profile p.groupId p.id) ∧ ¬D (.profileXrayConfig p.groupId p.id)

theorem own_document (h : Effects W D s.world w) {p : Profile} (ho : SparesOwn W D p) :
    documentOf w p = documentOf s.world p :=
  effects_stored h (fun x => (ho.written x).2) ho.removed.2 nofun _

theorem base_effects (hb : Base setup s) (h : Effects W D s.world w)
    (hfits : ∀ path p, W path p → Fits path p)
    (ho : ∀ c, s.session = some c → SparesOwn W D c.profile) (f : Bool) :
    Base setup { s with world := w, unapplied := f } where
  filed := effects_filed hfits h hb.filed
  own c hc := by
    have ho := ho c hc
    exact (effects_stored h (fun x => (ho.written x).1) ho.removed.1 nofun _).trans (hb.own c hc)
  starts c hc := starts_of_document (own_document h (ho c hc)) rfl rfl (hb.starts c hc)

/-- Effects apart from what the connected profile is routed by keep it live. -/
theorem inv_effects (hi : Inv setup s) (h : Effects W D s.world w)
    (hfits : ∀ path p, W path p → Fits path p)
    (ho : ∀ c, s.session = some c → SparesOwn W D c.profile)
    (ha : ∀ c, s.session = some c → Apart s.world c.profile.groupId c.profile.managed W D)
    {f : Bool} (hf : f = false → s.unapplied = false) :
    Inv setup { s with world := w, unapplied := f } where
  toBase := base_effects hi.toBase h hfits ho f
  applied c hc hu := by
    rw [started_of_effects h (ha c hc) (fun _ => own_document h (ho c hc)) rfl rfl]
    exact hi.applied c hc (hf hu)

/-- A command that fails is unapplied, is apart, or has changed no file. -/
theorem good_andThen {α : Type} {concerned : Bool} {writes : Prog World Warning α}
    {next : α → State → State × Option Warning} (hi : Inv setup s)
    (h : Effects W D s.world (writes s.world).2) (hfits : ∀ path p, W path p → Fits path p)
    (ho : ∀ c, s.session = some c → SparesOwn W D c.profile)
    (he : ∀ c, s.session = some c → concerned = true ∨
      Apart s.world c.profile.groupId c.profile.managed W D)
    (hnext : ∀ a w, writes s.world = (.ok a,w) → Good setup (next a { s with world := w })) :
    Good setup (andThen concerned writes next s) := by
  unfold andThen
  rcases hrun : writes s.world with ⟨warning | a,w⟩
  · rw [hrun] at h
    refine ⟨⟨base_effects hi.toBase h hfits ho _,fun c hc hu => ?_⟩,nofun⟩
    obtain ⟨hsame,hdisk⟩ : s.unapplied = false ∧ (concerned && w.disk ≠ s.world.disk) = false :=
      Bool.or_eq_false_iff.mp hu
    rcases he c hc with hcon | ha
    · have hfiles : SameFiles s.world w :=
        ⟨by simpa [hcon] using hdisk,effects_key h,effects_root h⟩
      show startedIn w _ _ _ = _
      rw [started_of_files hfiles]
      exact hi.applied c hc hsame
    · show startedIn w _ _ _ = _
      rw [started_of_effects h ha (fun _ => own_document h (ho c hc)) rfl rfl]
      exact hi.applied c hc hsame
  · exact hnext a w hrun

theorem concerns_or {c : Session} (hc : s.session = some c) (gid : ℤ) :
    s.concerns gid = true ∨ gid ≠ 0 ∧ gid ≠ c.profile.groupId := by
  by_cases h : gid = 0 ∨ c.profile.groupId = gid
  · exact .inl (by simpa [State.concerns,hc] using h)
  · rw [not_or] at h
    exact .inr ⟨h.1,fun he => h.2 he.symm⟩

theorem inside_orWarn {α : Type} {u : World} {m : DBM α} {warning : DBError → Warning}
    (h : Inside W D u m) : Inside W D u (orWarn m warning) := by
  intro v hv
  have hm := h v hv
  unfold orWarn
  rcases hr : m v with ⟨e | a,v'⟩ <;> rw [hr] at hm <;> exact hm

theorem spares_group (gid : ℤ) (p : Profile) : SparesOwn (GroupWrites gid) Nothing p :=
  ⟨fun _ => ⟨nofun,nofun⟩,id,id⟩

theorem spares_global (p : Profile) : SparesOwn GlobalWrites Nothing p :=
  ⟨fun _ => ⟨nofun,nofun⟩,id,id⟩

theorem fits_globalWrites (path : Path) (p : Payload) (h : GlobalWrites path p) : Fits path p := by
  cases h
  trivial

theorem inside_group {u : World} (gid : ℤ) : Inside W D u (loadGroupConfig gid) :=
  inside_read fun _ => yields_wrapping _ (yields_read _ _)

theorem effects_updateRouting (hw : Filed w) {gid : ℤ} (hgid : gid ≠ 0) (cfg : RoutingConfig) :
    Effects (GroupWrites gid) Nothing w (updateRouting gid cfg w).2 := by
  unfold updateRouting
  split
  · exact .start
  · exact inside_run (inside_bind (inside_orWarn (inside_group gid)) fun _ =>
      inside_bind (inside_when (inside_orWarn (inside_setManualRoutingSource hw _))) fun _ =>
        inside_orWarn (inside_saveGroupRouting cfg)) .start

theorem effects_updateGlobal (cfg : RoutingConfig) :
    Effects GlobalWrites Nothing w (updateRouting 0 cfg w).2 :=
  inside_run (inside_orWarn (inside_write (.rules cfg))) .start

theorem effects_setSource (hw : Filed w) (gid : ℤ) (source : String) :
    Effects (GroupWrites gid) Nothing w (setSource gid source w).2 := by
  unfold setSource
  split
  · exact .start
  · exact inside_run (inside_orWarn (inside_setManualRoutingSource hw source)) .start

theorem inside_editableGroup {u : World} (gid : ℤ) (key refusal : String) :
    Inside W D u (editableGroup gid key refusal) := by
  refine inside_bind (inside_orWarn (inside_group gid)) fun g => ?_
  split
  · exact inside_fail _
  · exact inside_pure _

theorem effects_setMode (hw : Filed w) (gid : ℤ) (mode : String) :
    Effects (GroupWrites gid) Nothing w (setMode gid mode w).2 := by
  unfold setMode
  generalize toLower (trimSpace mode) = mode
  split
  · exact .start
  · have hmode := @inside_setGroupRoutingMode gid w hw mode
    generalize setGroupRoutingMode gid mode = writes at hmode
    exact inside_run (inside_bind (inside_editableGroup gid _ _) fun _ => inside_orWarn hmode) .start

theorem effects_setActive (hw : Filed w) (gid : ℤ) (id : String) :
    Effects (GroupWrites gid) Nothing w (setActive gid id w).2 :=
  inside_run (inside_bind (inside_editableGroup gid _ _) fun _ =>
    inside_orWarn (inside_setActiveRoutingProfile hw _)) .start

/-- Changed manual rules are applied where they are used. -/
theorem good_ifNeeded (hb : Base setup s) (r : Reload) (gid : ℤ)
    (h : ∀ c, s.session = some c → Reloads s.world c.profile.groupId gid ∨
      Inv setup s ∧ s.unapplied = false) :
    Good setup (reloadRoutingIfNeeded setup r gid s) := by
  cases hc : s.session with
  | none =>
    unfold reloadRoutingIfNeeded
    rw [hc]
    have hi : Inv setup s := ⟨hb,fun c hs => absurd (hc.symm.trans hs) nofun⟩
    exact ⟨hi,fun _ hs => absurd hs (by simp [hc])⟩
  | some c =>
    obtain ⟨w,hs,⟨-,hrun⟩ | ⟨hno,hrun⟩⟩ := @ifNeeded_cases setup _ _ hc r gid
    · rw [hrun]
      exact good_reported (base_files hb hs s.unapplied) (c := c) hc r
    · obtain ⟨hi,hu⟩ := (h c hc).resolve_left hno
      rw [hrun]
      exact good_of_inv (inv_files hi hs) (fun _ => hu) none

/-- The session is the only thing a write leaves out. -/
theorem base_next (hi : Inv setup s) (h : Effects W D s.world w)
    (hfits : ∀ path p, W path p → Fits path p)
    (ho : ∀ c, s.session = some c → SparesOwn W D c.profile) :
    Base setup { s with world := w } := base_effects hi.toBase h hfits ho s.unapplied

theorem customAt_global {u : World} (h : Effects GlobalWrites Nothing w u) (gid : ℤ) :
    customAt u gid = customAt w gid := by
  have hfree : ∀ p, ¬GlobalWrites (.groupConfig gid) p := fun p hp => by cases hp
  have hgroup : storedGroup u gid = storedGroup w gid :=
    effects_stored h hfree (fun hf => hf) (fun _ he => nomatch he) Payload.asGroup
  rw [customAt,customAt,hgroup]

theorem good_updateRouting (hi : Inv setup s) (gid : ℤ) (cfg : RoutingConfig) (r : Reload)
    (hc : CarefulIn setup s (.updateRouting gid cfg r)) :
    Good setup ((Command.updateRouting gid cfg r).step setup s) := by
  by_cases hgid : gid = 0
  · subst hgid
    have heff := @effects_updateGlobal s.world cfg
    refine good_andThen hi heff fits_globalWrites (fun c _ => spares_global c.profile)
      (fun c hs => .inl ((concerns_or hs 0).resolve_right fun h => h.1 rfl)) fun a w hrun => ?_
    rw [hrun] at heff
    refine good_ifNeeded (base_next hi heff fits_globalWrites fun c _ => spares_global c.profile)
      r 0 fun c hs => ?_
    rcases hc c hs with h | ⟨hu,hown⟩
    · exact .inl ⟨h.1,h.2.imp_right fun h => ⟨h.1,(customAt_global heff _).trans h.2⟩⟩
    · by_cases hcustom : customAt s.world c.profile.groupId = true
      · refine .inr ⟨inv_effects hi heff fits_globalWrites (fun c _ => spares_global c.profile)
          (fun d hd => ?_) id,hu⟩
        obtain rfl := Option.some.inj (hs.symm.trans hd)
        exact apart_global hcustom
      · refine .inl ⟨hown rfl,.inr ⟨rfl,?_⟩⟩
        rw [customAt_global heff]
        simpa using hcustom
  · have heff := effects_updateRouting hi.filed hgid cfg
    refine good_andThen hi heff fits_groupWrites (fun c _ => spares_group gid c.profile)
      (fun c hs => (concerns_or hs gid).imp_right fun h => apart_group h.2) fun a w hrun => ?_
    rw [hrun] at heff
    refine good_ifNeeded (base_next hi heff fits_groupWrites fun c _ => spares_group gid c.profile)
      r gid fun c hs => ?_
    rcases hc c hs with ⟨hown,h⟩ | ⟨hu,-⟩
    · exact .inl ⟨hown,.inl (h.resolve_right fun h => hgid h.1)⟩
    · by_cases hsame : gid = c.profile.groupId
      · exact .inl ⟨hsame ▸ hgid,.inl hsame⟩
      · refine .inr ⟨inv_effects hi heff fits_groupWrites (fun c _ => spares_group gid c.profile)
          (fun d hd => ?_) id,hu⟩
        obtain rfl := Option.some.inj (hs.symm.trans hd)
        exact apart_group hsame

/-- The mode is settled before anything is written. -/
theorem setMode_step (gid : ℤ) (mode : String) (r : Reload) : ∃ writes : Prog World Warning Unit,
    (Filed s.world → Effects (GroupWrites gid) Nothing s.world (writes s.world).2) ∧
    (Command.setGroupRoutingMode gid mode r).step setup s = andThen (s.concerns gid) writes
      (fun _ s => (reloadConnected setup r gid s,none)) s :=
  ⟨setMode gid mode,fun hw => effects_setMode hw gid mode,rfl⟩

theorem good_setSource (hi : Inv setup s) (gid : ℤ) (source : String) (r : Reload)
    (hc : CarefulIn setup s (.setManualRoutingSource gid source r)) :
    Good setup ((Command.setManualRoutingSource gid source r).step setup s) := by
  have heff := effects_setSource hi.filed gid source
  refine good_andThen hi heff fits_groupWrites (fun c _ => spares_group gid c.profile)
    (fun c hs => (concerns_or hs gid).imp_right fun h => apart_group h.2) fun a w hrun => ?_
  have hgid : gid ≠ 0 := by
    rintro rfl
    exact nomatch (Prod.mk.inj hrun).1
  rw [hrun] at heff
  refine good_ifNeeded (base_next hi heff fits_groupWrites fun c _ => spares_group gid c.profile)
    r gid fun c hs => ?_
  rcases hc c hs with ⟨hown,h⟩ | hu
  · exact .inl ⟨hown,.inl (h.resolve_right fun h => hgid h.1)⟩
  · by_cases hsame : gid = c.profile.groupId
    · exact .inl ⟨hsame ▸ hgid,.inl hsame⟩
    · refine .inr ⟨inv_effects hi heff fits_groupWrites (fun c _ => spares_group gid c.profile)
        (fun d hd => ?_) id,hu⟩
      obtain rfl := Option.some.inj (hs.symm.trans hd)
      exact apart_group hsame

theorem inv_absent (hb : Base setup s) (hs : s.session = none) (o : Option Warning) :
    Good setup (s,o) :=
  ⟨⟨hb,fun _ h => absurd (hs.symm.trans h) nofun⟩,fun _ h => absurd h (by simp [hs])⟩

theorem connected_other {gid : ℤ} (r : Reload)
    (h : ∀ c, s.session = some c → c.profile.groupId ≠ gid) : reloadConnected setup r gid s = s := by
  unfold reloadConnected
  cases hs : s.session with
  | none => rfl
  | some c => exact if_neg (h c hs)

/-- A command of the routing profiles: its own group is reloaded, another is apart. -/
theorem good_profileCommand {writes : Prog World Warning Unit} (hi : Inv setup s) (gid : ℤ)
    (r : Reload) (heff : Effects (GroupWrites gid) Nothing s.world (writes s.world).2)
    (hc : ∀ c, s.session = some c →
      if gid = c.profile.groupId then r ≠ .refused else s.unapplied = false) :
    Good setup (andThen (s.concerns gid) writes
      (fun _ s => (reloadConnected setup r gid s,none)) s) := by
  refine good_andThen hi heff fits_groupWrites (fun c _ => spares_group gid c.profile)
    (fun c hs => (concerns_or hs gid).imp_right fun h => apart_group h.2) fun a w hrun => ?_
  rw [hrun] at heff
  have hb := base_next hi heff fits_groupWrites fun c _ => spares_group gid c.profile
  rcases Option.eq_none_or_eq_some s.session with hs | ⟨c,hs⟩
  · rw [connected_other (s := { s with world := w }) r fun c h => absurd (hs.symm.trans h) nofun]
    exact inv_absent hb hs none
  · have hcare := hc c hs
    split at hcare
    · rename_i hsame
      exact good_connected hb hs hcare hsame
    · rename_i hother
      have hsession : ∀ d, s.session = some d → d = c := fun d hd =>
        Option.some.inj (hd.symm.trans hs)
      rw [connected_other (s := { s with world := w }) r fun d hd => hsession d hd ▸ Ne.symm hother]
      refine good_of_inv (inv_effects hi heff fits_groupWrites
        (fun c _ => spares_group gid c.profile) (fun d hd => ?_) id) (fun _ => hcare) none
      rw [hsession d hd]
      exact apart_group hother

/-- What a read of the group by a routing profile command ends with. -/
theorem editableGroup_cases (u : World) (gid : ℤ) (key refusal : String) :
    ∃ v, SameFiles u v ∧ ((∃ e, editableGroup gid key refusal u = (.error e,v)) ∨
      ∃ g, storedGroup u gid = some g ∧ editableGroup gid key refusal u = (.ok g,v)) := by
  have hread := yields_wrapping (.loadGroup gid)
    (yields_read (.groupConfig gid) Payload.asGroup) u (sameFiles_refl u)
  unfold editableGroup
  rcases hr : loadGroupConfig gid u with ⟨e | g,v⟩
  · rw [loadGroupConfig] at hr
    rw [hr] at hread
    exact ⟨v,hread.2,.inl ⟨_,bind_of_error (by rw [orWarn,loadGroupConfig,hr])⟩⟩
  · rw [loadGroupConfig] at hr
    rw [hr] at hread
    have hload : orWarn (loadGroupConfig gid) (fun _ => (⟨key,"Group not found",none⟩ : Warning)) u =
        (.ok g,v) := by rw [orWarn,loadGroupConfig,hr]
    refine ⟨v,hread.2,?_⟩
    rw [bind_of_ok hload]
    split
    · exact .inl ⟨_,rfl⟩
    · exact .inr ⟨g,hread.1.symm,rfl⟩

theorem deleteWrites_files {u v : World} (h : SameFiles u v) {gid : ℤ} {id : String}
    (he : Effects (DeleteWrites v gid id) (Deleted v gid id) v w) :
    Effects (DeleteWrites u gid id) (Deleted u gid id) u w := by
  have hstored : storedGroup v gid = storedGroup u gid := stored_of_files h
  refine effects_trans (.same .start h) (effects_mono (fun path p hp => ?_) (fun path hp => ?_) he)
  · cases hp with
    | config g hg => exact .config g (hstored ▸ hg)
  · rwa [Deleted,h.root] at hp

theorem deleteProfile_run (hw : Filed w) (gid : ℤ) (id : String) :
    Effects (DeleteWrites w gid id) (Deleted w gid id) w (deleteProfile gid id w).2 ∧
      ∀ wasActive v, deleteProfile gid id w = (.ok wasActive,v) →
        wasActive = (storedGroup w gid).any fun g => g.activeRoutingProfileId = id := by
  unfold deleteProfile
  obtain ⟨u,hu,⟨e,he⟩ | ⟨g,hg,he⟩⟩ := editableGroup_cases w gid "delete-routing-profile-failed"
    "Provider routing is immutable for JSON subscriptions"
  · rw [bind_of_error he]
    exact ⟨.same .start hu,nofun⟩
  · rw [bind_of_ok he]
    have hread := yields_read (.routingProfile gid id) Payload.asRoutingProfile u (sameFiles_refl u)
    rcases hl : GroupFiles.loadRoutingProfile gid id u with ⟨e | p,v⟩
    · rw [GroupFiles.loadRoutingProfile] at hl
      rw [hl] at hread
      rw [bind_of_error (by rw [orWarn,GroupFiles.loadRoutingProfile,hl])]
      exact ⟨.same .start (sameFiles_trans hu hread.2),nofun⟩
    · rw [GroupFiles.loadRoutingProfile] at hl
      rw [hl] at hread
      have hv := sameFiles_trans hu hread.2
      have hrun := deleteWrites_files hv
        (@effects_deleteRoutingProfile v gid id (filed_sameFiles hw hv))
      have hload : orWarn (GroupFiles.loadRoutingProfile gid id) (fun _ =>
          (⟨"delete-routing-profile-failed","Routing profile not found",none⟩ : Warning)) u =
          (.ok p,v) := by rw [orWarn,GroupFiles.loadRoutingProfile,hl]
      rw [bind_of_ok hload]
      rcases hd : deleteRoutingProfile gid id v with ⟨e | x,t⟩ <;> rw [hd] at hrun
      · rw [bind_of_error (by rw [orWarn,hd])]
        exact ⟨hrun,nofun⟩
      · rw [bind_of_ok (a := ()) (by rw [orWarn,hd])]
        refine ⟨hrun,fun wasActive t' h => ?_⟩
        obtain ⟨hout,-⟩ := Prod.mk.inj h
        rw [hg,← Except.ok.inj hout]
        rfl

theorem fits_deleteWrites (hw : Filed w) {gid : ℤ} {id : String} (path : Path) (p : Payload)
    (h : DeleteWrites w gid id path p) : Fits path p := by
  cases h with
  | config g hg => exact (filed_group hw hg : g.id = gid)

theorem good_delete (hi : Inv setup s) (gid : ℤ) (id : String) (r : Reload)
    (hc : CarefulIn setup s (.deleteRoutingProfile gid id r)) :
    Good setup ((Command.deleteRoutingProfile gid id r).step setup s) := by
  obtain ⟨heff,hactive⟩ := deleteProfile_run hi.filed gid id
  have hfits := @fits_deleteWrites s.world hi.filed gid id
  have hspares : ∀ c, s.session = some c →
      SparesOwn (DeleteWrites s.world gid id) (Deleted s.world gid id) c.profile := fun c hs =>
    ⟨fun _ => ⟨nofun,nofun⟩,fun h => ((hc c hs).1 _ h).1 rfl,fun h => ((hc c hs).1 _ h).2 rfl⟩
  refine good_andThen hi heff hfits hspares (fun c hs => ?_) fun wasActive w hrun => ?_
  · refine (concerns_or hs gid).imp_right fun h => apart_delete (fun he => absurd he h.2) ?_
    have hcare := (hc c hs).2
    rw [if_neg fun h' => h.2 h'.1] at hcare
    exact hcare.2
  · have hwas := hactive wasActive w hrun
    rw [hrun] at heff
    have hb := base_next hi heff hfits hspares
    rcases Option.eq_none_or_eq_some s.session with hs | ⟨c,hs⟩
    · have hstay : reloadConnected setup r gid { s with world := w } = { s with world := w } :=
        connected_other r fun c h => absurd (hs.symm.trans h) nofun
      rw [hstay,ite_self]
      exact inv_absent hb hs none
    · have hcare := (hc c hs).2
      have hsession : ∀ d, s.session = some d → d = c := fun d hd =>
        Option.some.inj (hd.symm.trans hs)
      by_cases hown : gid = c.profile.groupId ∧ wasActive = true
      · rw [if_pos ⟨hown.1,hwas ▸ hown.2⟩] at hcare
        rw [if_pos hown.2]
        exact good_connected hb hs hcare hown.1
      · rw [if_neg fun h => hown ⟨h.1,hwas.trans h.2⟩] at hcare
        have hstay : (if wasActive = true then reloadConnected setup r gid { s with world := w }
            else { s with world := w }) = { s with world := w } := by
          split
          · rename_i hwasActive
            exact connected_other r fun d hd he => hown ⟨hsession d hd ▸ he.symm,hwasActive⟩
          · rfl
        rw [hstay]
        refine good_of_inv (inv_effects hi heff hfits hspares (fun d hd => ?_) fun h => h)
          (fun _ => hcare.1) none
        rw [hsession d hd]
        refine apart_delete (fun he g hg ha => hown ⟨he,?_⟩) hcare.2
        rw [hwas,hg]
        simpa using ha

theorem orWarn_ok {α : Type} {m : DBM α} {warning : DBError → Warning} {a : α} {v : World}
    (h : orWarn m warning w = (.ok a,v)) : m w = (.ok a,v) := by
  unfold orWarn at h
  rcases hm : m w with ⟨e | b,t⟩ <;> rw [hm] at h
  · exact nomatch (Prod.mk.inj h).1
  · dsimp only at h
    rw [← Except.ok.inj (Prod.mk.inj h).1,(Prod.mk.inj h).2]

theorem orWarn_error {α : Type} {m : DBM α} {warning : DBError → Warning} {x : Warning}
    {v : World} (h : orWarn m warning w = (.error x,v)) : ∃ e, m w = (.error e,v) := by
  unfold orWarn at h
  rcases hm : m w with ⟨e | b,t⟩ <;> rw [hm] at h
  · exact ⟨e,by rw [(Prod.mk.inj h).2]⟩
  · exact nomatch (Prod.mk.inj h).1

variable {fromGroup toGroup id : ℤ}

/-- The new place of a moved profile is not the place of this one. -/
theorem spares_moveWrites {p : Profile} (hp : toGroup = p.groupId → nextId s.world toGroup ≠ p.id)
    (hd : ¬D (.profile p.groupId p.id) ∧ ¬D (.profileXrayConfig p.groupId p.id)) :
    SparesOwn (MoveWrites s.world fromGroup toGroup (nextId s.world toGroup)) D p where
  written x := by
    constructor <;> intro h <;> generalize hn : nextId s.world toGroup = n at h <;> cases h
    · exact hp rfl hn
    · exact hp rfl hn
  removed := hd

theorem apart_mono {D' : Path → Prop} {gid : ℤ} {managed : Bool}
    (h : Apart w gid managed W D) (hd : ∀ path, D' path → D path) : Apart w gid managed W D' where
  group := h.group
  rules := h.rules
  profiles := h.profiles
  assets := h.assets
  spared path hp := h.spared path (hd path hp)

/-- The connected profile is at its new place, and started as it would be there. -/
theorem good_ownMove (hi : Inv setup s) {c : Session} (hs : s.session = some c) {moved : Profile}
    (hw : ProfileStore.moveProfile c.profile.groupId toGroup c.profile.id s.world = (.ok moved,w))
    (hu : s.unapplied = false)
    (hsame : startedIn s.world toGroup setup c.profile =
      startedIn s.world c.profile.groupId setup c.profile) :
    Good setup ({ s with world := w, session := some ⟨moved,c.started⟩ },none) := by
  have heff := @effects_moveProfile s.world c.profile.groupId toGroup c.profile.id hi.filed
  rw [hw] at heff
  obtain ⟨old,hold,hmoved,hstored,hdocument⟩ := moveProfile_ok hw
  obtain rfl : c.profile = old := Option.some.inj ((hi.own c hs).symm.trans hold)
  have hgroup : moved.groupId = toGroup := by rw [hmoved]
  have hid : moved.id = nextId s.world toGroup := by rw [hmoved]
  have hmanaged : moved.managed = c.profile.managed := by rw [hmoved]
  have hstart : startedIn w toGroup setup moved = some c.started := by
    rw [started_of_effects heff apart_move (fun hm => ?_) hmanaged (by rw [hmoved]),hsame]
    · exact hi.applied c hs hu
    · obtain ⟨b,hb,-⟩ := Option.bind_eq_some_iff.mp (hi.applied c hs hu)
      rw [baselineIn,if_pos hm] at hb
      obtain ⟨d,hd,-⟩ := Option.map_eq_some_iff.mp hb
      rw [hd,documentOf,hgroup,hid]
      exact hdocument hm d hd
  refine ⟨⟨⟨effects_filed fits_moveWrites heff hi.filed,?_,?_⟩,?_⟩,fun _ _ => hu⟩
  · rintro d ⟨⟩
    show stored (.profile moved.groupId moved.id) _ _ = _
    rwa [hgroup,hid]
  · rintro d ⟨⟩
    show (startedIn w moved.groupId setup moved).isSome
    rw [hgroup,hstart]
    rfl
  · rintro d ⟨⟩ -
    show startedIn w moved.groupId setup moved = _
    rw [hgroup,hstart]

theorem good_move (hi : Inv setup s) (hc : CarefulIn setup s (.moveProfile fromGroup toGroup id)) :
    Good setup ((Command.moveProfile fromGroup toGroup id).step setup s) := by
  have hu : s.session.isSome → s.unapplied = false := fun h => by
    obtain ⟨c,hs⟩ := Option.isSome_iff_exists.mp h
    exact (hc c hs).1
  unfold Command.step andThen
  dsimp only
  rcases hrun : orWarn (ProfileStore.moveProfile fromGroup toGroup id) moveFailed s.world
    with ⟨x | moved,w⟩
  · obtain ⟨e,he⟩ := orWarn_error hrun
    have heff := moveProfile_error hi.filed he
    have hunapplied : (s.unapplied || (false && w.disk ≠ s.world.disk)) = s.unapplied := by simp
    show Good setup ({ s with
      world := w, unapplied := s.unapplied || (false && w.disk ≠ s.world.disk) },some x)
    rw [hunapplied]
    refine good_of_inv (inv_effects hi heff fits_moveWrites (fun c hs => ?_) (fun c _ => ?_)
      fun h => h) hu _
    · exact spares_moveWrites (hc c hs).2.1 ⟨fun h => by
        obtain ⟨hg,hn⟩ := Path.profile.inj h
        exact (hc c hs).2.1 hg.symm hn.symm,nofun⟩
    · exact apart_mono (@apart_move _ _ _ _ _ id _) fun path hp => undone_moved hp
  · have hw := orWarn_ok hrun
    have heff := @effects_moveProfile s.world fromGroup toGroup id hi.filed
    rw [hw] at heff
    by_cases hown : ∃ c, s.session = some c ∧ c.profile.id = id ∧ c.profile.groupId = fromGroup
    · obtain ⟨c,hs,rfl,rfl⟩ := hown
      have hstay : updateMovedProfile c.profile.groupId c.profile.id moved
          { s with world := w } = { s with world := w, session := some ⟨moved,c.started⟩ } := by
        unfold updateMovedProfile
        rw [hs]
        exact if_pos ⟨rfl,rfl⟩
      dsimp only
      rw [hstay]
      exact good_ownMove hi hs hw (hc c hs).1 ((hc c hs).2.2 rfl rfl)
    · have hstay : updateMovedProfile fromGroup id moved { s with world := w } =
          { s with world := w } := by
        unfold updateMovedProfile
        rcases Option.eq_none_or_eq_some s.session with hs | ⟨c,hs⟩
        · rw [hs]
        · rw [hs]
          exact if_neg fun h => hown ⟨c,hs,h⟩
      dsimp only
      rw [hstay]
      refine good_of_inv (inv_effects hi heff fits_moveWrites (fun c hs => ?_)
        (fun c _ => apart_move) fun h => h) hu none
      refine spares_moveWrites (hc c hs).2.1 ⟨fun h => ?_,fun h => ?_⟩
      · generalize hn : nextId s.world toGroup = n at h
        cases h with
        | profile => exact hown ⟨c,hs,rfl,rfl⟩
        | undone => exact (hc c hs).2.1 rfl hn
      · cases h with
        | document => exact hown ⟨c,hs,rfl,rfl⟩

end Steps

section Runs

variable {setup : Setup} {s s₀ : State} {subscriptionHost : String → String}

/-- Every careful command keeps the invariant. -/
theorem good_step (hi : Inv setup s) : ∀ c, CarefulIn setup s c → Good setup (c.step setup s)
  | .updateRouting gid cfg r, hc => good_updateRouting hi gid cfg r hc
  | .setManualRoutingSource gid source r, hc => good_setSource hi gid source r hc
  | .setGroupRoutingMode gid mode r, hc => by
    obtain ⟨writes,heff,hstep⟩ := @setMode_step setup s gid mode r
    rw [hstep]
    exact good_profileCommand hi gid r (heff hi.filed) fun c hs => hc c hs
  | .setActiveRoutingProfile gid id r, hc =>
    good_profileCommand hi gid r (effects_setActive hi.filed gid id) fun c hs => hc c hs
  | .deleteRoutingProfile gid id r, hc => good_delete hi gid id r hc
  | .moveProfile _ _ _, hc => good_move hi hc

theorem inv_run (h₀ : Inv setup s₀) (h : CarefulRun setup s₀ s) : Inv setup s := by
  induction h with
  | start => exact h₀
  | step c h hc ih => exact (good_step ih c hc).1

/-- A host that takes every share link. -/
def linkSetup : Setup where
  host := { CoreConfig.sampleHost with createOutboundObject := fun _ => some [] }
  tunName := ""
  tunEnabled := false
  apiPort := 10085
  hosts := []
  parseRawJSON := fun _ => none

theorem link_carried : false = true → "" ≠ "" ∧ "" ≠ "" := by simp

def linkEntry : DBAddProfileData :=
  ⟨"vless://a",1,"de","vless","a","a",443,"n1","","",false,link_carried⟩

/-- A group with one share link, and global rules that allow everything. -/
def linkDirectory : World :=
  ReadOnly.Op.run id (.saveRouting ⟨"AsIs",[],none⟩)
    (ReadOnly.Op.run id (.addProfile linkEntry)
      (ReadOnly.Op.run id (.addGroup "work" "") GeoWorkers.configuredDirectory))

def linkStarted : Started :=
  (freshConfig linkSetup 1 1 linkDirectory).1.toOption.join.getD ⟨[],none⟩

def linkConnected : State :=
  ⟨(freshConfig linkSetup 1 1 linkDirectory).2,some ⟨GroupSync.profileOf 1 linkEntry,linkStarted⟩,
    false⟩

theorem connected_link : Connected linkSetup id linkConnected := by
  have hsome : (freshConfig linkSetup 1 1 linkDirectory).1.toOption.join.isSome := by decide
  have hbuilt : Built id linkDirectory := .op _ (.op _ (.op _ (.fresh (by decide))))
  have hstored : (getProfile 1 1 linkDirectory).1 = .ok (GroupSync.profileOf 1 linkEntry) := by
    decide
  refine .intro (p := GroupSync.profileOf 1 linkEntry) hbuilt hstored ?_
  show (freshConfig linkSetup 1 1 linkDirectory).1 = .ok (some linkStarted)
  unfold linkStarted
  rcases hr : (freshConfig linkSetup 1 1 linkDirectory).1 with e | o <;> rw [hr] at hsome
  · exact absurd hsome (by simp [Except.toOption])
  · obtain ⟨x,rfl⟩ := Option.isSome_iff_exists.mp hsome
    rfl

def ruleCount (s : Started) : ℕ :=
  ((Json.Fields.index (s.config.index "routing").asMap "rules").asSlice).length

end Runs

end Whoisthat.LiveRouting
