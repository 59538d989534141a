import Mathlib.Data.Int.Notation
import Mathlib.Data.Nat.Notation
import Mathlib.Logic.Function.Basic
import Mathlib.Tactic.SplitIfs
import Whoisthat.Session

/-!
# The DNS plan of the kernel and the running configuration

The routing that is selected for a group decides whether port 53 goes to the
sink inside the TUN and whether the core was started with the DNS section and
the capture rule that serve it. Routing commands reload the core, renew the
kernel plan, or do one of the two.
-/

set_option autoImplicit false

namespace Whoisthat.DnsPlan
open Whoisthat.Session

section Store

/-- The directory of a routing profile's own geo files. -/
inductive GeoDir where
  | none
  | present
  | missing
  deriving DecidableEq

/-- The fields of `structs.RoutingProfile` that select and start a routing. -/
structure RoutingProfile where
  id : String
  name : String
  state : String
  hasRules : Bool
  dns : Bool
  geoDir : GeoDir
  geoURLs : Bool
  lastUpdated : ℤ
  deriving DecidableEq

structure Group where
  subscriptionFormat : String
  manualRoutingMode : String
  routingMode : String
  activeRoutingProfileId : String
  pendingActiveRoutingProfileId : String

/-- `mode` is the group's, resolved; only a Happ profile brings DNS settings. -/
structure RoutingSelection where
  happ : Bool
  dns : Bool
  deriving DecidableEq

structure Store where
  groups : ℕ → Option Group
  profiles : ℕ → List RoutingProfile

def manual : RoutingSelection := ⟨false,false⟩

/-- Strict subscription mode without a usable profile. -/
def lanOnly : RoutingSelection := ⟨true,false⟩

def Store.loadRoutingProfile (db : Store) (g : ℕ) (id : String) : Option RoutingProfile :=
  (db.profiles g).find? (·.id = id)

def RoutingProfile.usable (p : RoutingProfile) : Bool := p.hasRules && p.geoDir ≠ .missing

def Store.resolveRouting (db : Store) (g : ℕ) : RoutingSelection :=
  match db.groups g with
  | none => manual
  | some group =>
    if group.routingMode = "manual" then manual
    else match (db.loadRoutingProfile g group.activeRoutingProfileId).filter
        (fun p => group.activeRoutingProfileId ≠ "" && p.usable) with
      | some p => ⟨true,p.dns⟩
      | none => if group.routingMode = "" ∨ group.routingMode = "auto" then manual else lanOnly

def Store.updateGroup (db : Store) (g : ℕ) (group : Group) : Store :=
  { db with groups := Function.update db.groups g (some group) }

def Store.saveRoutingProfile (db : Store) (g : ℕ) (p : RoutingProfile) : Store :=
  { db with
    profiles := Function.update db.profiles g
      (if (db.profiles g).any (·.id = p.id) then
        (db.profiles g).map fun q => if q.id = p.id then p else q
      else db.profiles g ++ [p]) }

/-- `setActiveRoutingProfile`; `saved` says whether the group file is written. -/
def Store.setActiveRoutingProfile (db : Store) (saved : Bool) (g : ℕ) (id : String) :
    Option Store :=
  match db.groups g with
  | none => none
  | some group =>
    if id = "" ∨ (db.loadRoutingProfile g id).any RoutingProfile.usable then
      if saved then
        some (db.updateGroup g { group with
          activeRoutingProfileId := id
          pendingActiveRoutingProfileId := "" })
      else none
    else none

def Store.deleteRoutingProfile (db : Store) (saved : Bool) (g : ℕ) (id : String) : Store :=
  let db := { db with
    profiles := Function.update db.profiles g ((db.profiles g).filter (·.id ≠ id)) }
  match db.groups g with
  | none => db
  | some group =>
    if saved then db.updateGroup g { group with
      activeRoutingProfileId :=
        if group.activeRoutingProfileId = id then "" else group.activeRoutingProfileId
      pendingActiveRoutingProfileId :=
        if group.pendingActiveRoutingProfileId = id then ""
        else group.pendingActiveRoutingProfileId }
    else db

def Store.findRoutingProfileByName (db : Store) (g : ℕ) (name : String) : Option RoutingProfile :=
  ((db.profiles g).find? (·.name = name)).orElse fun _ =>
    (db.profiles g).find? (·.name.toLower = name.toLower)

/-- A parsed Happ link; a profile comes with its own geo addresses or not. -/
inductive Link where
  | invalid
  | off
  | profile (onAdd : Bool) (name : String) (hasRules dns geoURLs : Bool) (lastUpdated : ℤ)

/-- `UpsertFromLink`: the store, the profile if there is one, and whether the
link switches Happ routing off; `none` is an error. -/
def Store.upsertFromLink (db : Store) (saved : Bool) (newID : String) (g : ℕ) :
    Link → Store × Option (Option RoutingProfile)
  | .invalid => (db,none)
  | .off => ((db.setActiveRoutingProfile saved g "").getD db,some none)
  | .profile onAdd name hasRules dns geoURLs lastUpdated =>
    match db.findRoutingProfileByName g name with
    | some old =>
      if 0 < lastUpdated ∧ 0 < old.lastUpdated ∧ lastUpdated < old.lastUpdated then
        (db,some (some old))
      else
        let p : RoutingProfile := { old with
          hasRules := hasRules
          dns := dns
          lastUpdated := lastUpdated
          geoURLs := geoURLs
          state := if geoURLs then "updating" else "ready"
          geoDir := if geoURLs then old.geoDir else .none }
        if saved then
          let db := db.saveRoutingProfile g p
          if onAdd ∧ geoURLs = false then
            ((db.setActiveRoutingProfile saved g p.id).getD db,some (some p))
          else (db,some (some p))
        else (db,none)
    | none =>
      let p : RoutingProfile :=
        ⟨newID,name,if geoURLs then "updating" else "ready",hasRules,dns,.none,geoURLs,lastUpdated⟩
      if saved then
        let db := db.saveRoutingProfile g p
        if geoURLs = false ∧ (db.groups g).any (fun group =>
            onAdd || group.activeRoutingProfileId = "") then
          ((db.setActiveRoutingProfile saved g p.id).getD db,some (some p))
        else (db,some (some p))
      else (db,none)

/-- How `EnsureProfileGeo` ends. -/
inductive GeoResult where
  | current
  | failed
  | downloaded

/-- `EnsureProfileGeo` for the copy `p` that the command took earlier: the new
copy, and whether it is to be saved. -/
def Store.geoProfile (db : Store) (g : ℕ) (p : RoutingProfile) (r : GeoResult) :
    RoutingProfile × Bool :=
  if p.geoURLs then
    match r with
    | .current => ({ p with state := "ready" },true)
    | .failed => ({ p with state := "error" },true)
    | .downloaded =>
      match db.loadRoutingProfile g p.id with
      | none => (p,false)
      | some latest => ({ latest with geoDir := .present, state := "ready" },true)
  else ({ p with geoDir := .none, state := "ready" },true)

def Store.ensureProfileGeo (db : Store) (saved : Bool) (g : ℕ) (p : RoutingProfile)
    (r : GeoResult) : Store :=
  if (db.geoProfile g p r).2 && saved then db.saveRoutingProfile g (db.geoProfile g p r).1 else db

end Store

section Session

structure Profile where
  groupId : ℕ
  managed : Bool
  deriving DecidableEq

/-- What a core was started with: a DNS section that answers for the sink, and
the rule that sends port 53 of the TUN inbound to it. -/
structure CoreDns where
  dnsSection : Bool
  capture : Bool
  deriving DecidableEq

/-- Where the kernel sends port 53. -/
inductive KernelPlan where
  | none
  | legacy
  | sink
  deriving DecidableEq

structure State where
  db : Store
  splitInclude : Bool
  connected : Option Profile
  core : Option CoreDns
  tunEnabled : Bool
  tunUp : Bool
  plan : KernelPlan

/-- Whether the connection takes its DNS from the provider or a Happ profile. -/
def State.usesSink (s : State) (p : Profile) : Bool :=
  p.managed || (s.db.resolveRouting p.groupId).happ && (s.db.resolveRouting p.groupId).dns

/-- The configuration that `Connect` and `reloadCoreLocked` build. -/
def State.coreDns (s : State) (p : Profile) : CoreDns :=
  ⟨s.usesSink p,s.usesSink p && s.tunEnabled⟩

def State.dnsHijackFor (s : State) (p : Profile) : KernelPlan :=
  if s.usesSink p then (if s.splitInclude then .none else .sink) else .legacy

/-- `left` is what the scripts of a failed change leave. -/
structure Answer where
  saved : Bool
  newID : String
  reload : Reload
  left : Option KernelPlan

def reloadRouting (r : Reload) (s : State) : State :=
  match s.connected,s.core with
  | some p,some _ =>
    match r with
    | .refused => s
    | .notStarted => { s with core := none, connected := none }
    | .done => { s with core := some (s.coreDns p) }
  | _,_ => s

def refreshDnsHijackFor (left : Option KernelPlan) (p : Profile) (s : State) : State :=
  if s.tunUp then { s with plan := left.getD (s.dnsHijackFor p) } else s

/-- `proxy_manager.GetStatus().Profile` -/
def currentProfile (s : State) : Profile := s.connected.getD ⟨0,false⟩

/-- What a command does for the session after it has written; an import renews
the plan in the end, for the profile that is then connected. -/
inductive Tail where
  | nothing
  | reload
  | refresh
  | reloadRefresh
  | imported (reloads : Bool)

def finish (a : Answer) (t : Tail) (s : State) : State :=
  match t,s.connected with
  | .reload,_ => reloadRouting a.reload s
  | .refresh,some p => refreshDnsHijackFor a.left p s
  | .reloadRefresh,some p => refreshDnsHijackFor a.left p (reloadRouting a.reload s)
  | .imported true,some _ =>
    refreshDnsHijackFor a.left (currentProfile (reloadRouting a.reload s))
      (reloadRouting a.reload s)
  | .imported false,some p => refreshDnsHijackFor a.left p s
  | _,_ => s

end Session

section Commands

/-- The tail of a command that looks for a session connected to the group. -/
def State.ifConnected (s : State) (g : ℕ) (t : Tail) : Tail :=
  if s.connected.any (·.groupId = g) then t else .nothing

/-- `reloadRoutingIfNeeded` -/
def State.ifNeeded (s : State) (g : ℕ) : Tail :=
  match s.connected with
  | none => .nothing
  | some p =>
    if p.groupId = 0 ∨ (g ≠ 0 ∧ g ≠ p.groupId) ∨ (g = 0 ∧ (s.db.groups p.groupId).any
        (·.manualRoutingMode = "custom")) then .nothing
    else .reload

/-- `UpdateRouting` and `SetManualRoutingSource`: manual rules and where they
come from, `source` for a group. -/
def editManualRouting (a : Answer) (g : ℕ) (source : String) (s : State) : Store × Tail :=
  if a.saved then
    if g = 0 then (s.db,s.ifNeeded g)
    else match s.db.groups g with
      | none => (s.db,.nothing)
      | some group => (s.db.updateGroup g { group with manualRoutingMode := source },s.ifNeeded g)
  else (s.db,.nothing)

/-- A group whose routing the user may choose. -/
def Store.openGroup (db : Store) (g : ℕ) : Option Group :=
  (db.groups g).filter (·.subscriptionFormat ≠ "json")

def setGroupRoutingMode (a : Answer) (g : ℕ) (mode : String) (s : State) : Store × Tail :=
  match s.db.openGroup g with
  | none => (s.db,.nothing)
  | some group =>
    if (mode = "auto" ∨ mode = "manual" ∨ mode = "subscription") ∧ a.saved = true then
      (s.db.updateGroup g { group with routingMode := mode },s.ifConnected g .reloadRefresh)
    else (s.db,.nothing)

def setActiveRoutingProfile (a : Answer) (g : ℕ) (id : String) (s : State) : Store × Tail :=
  match s.db.openGroup g with
  | none => (s.db,.nothing)
  | some _ =>
    match s.db.setActiveRoutingProfile a.saved g (if id = "off" then "" else id) with
    | none => (s.db,.nothing)
    | some db => (db,s.ifConnected g .reloadRefresh)

def deleteRoutingProfile (a : Answer) (g : ℕ) (id : String) (s : State) : Store × Tail :=
  match s.db.openGroup g,s.db.loadRoutingProfile g id with
  | some group,some _ =>
    (s.db.deleteRoutingProfile a.saved g id,
      if group.activeRoutingProfileId = id then s.ifConnected g .reloadRefresh else .nothing)
  | _,_ => (s.db,.nothing)

def importHappRouting (a : Answer) (g : ℕ) (link : Link) (s : State) : Store × Tail :=
  match s.db.openGroup g with
  | none => (s.db,.nothing)
  | some _ =>
    match s.db.upsertFromLink a.saved a.newID g link with
    | (db,none) => (db,.nothing)
    | (db,some none) => (db,s.ifConnected g (.imported true))
    | (db,some (some p)) =>
      (db,s.ifConnected g (.imported (p.state = "ready" &&
        (db.groups g).any (·.activeRoutingProfileId = p.id))))

/-- The Happ links of an updated subscription. -/
def updateSubscription (a : Answer) (g : ℕ) (links : List Link) (background : Bool) (s : State) :
    Store × Tail :=
  (links.foldl (fun db link => (db.upsertFromLink a.saved a.newID g link).1) s.db,
    if background then .nothing else s.ifConnected g .refresh)

/-- The end of a geo download; `activates` tells the import and the update from
the activation of a profile. -/
def geoRefreshed (a : Answer) (g : ℕ) (p : RoutingProfile) (r : GeoResult)
    (activates background : Bool) (s : State) : Store × Tail :=
  let p' := (s.db.geoProfile g p r).1
  let db := s.db.ensureProfileGeo a.saved g p r
  match db.groups g with
  | none => (db,.nothing)
  | some group =>
    let pending := activates && group.pendingActiveRoutingProfileId = p'.id && p'.state = "ready"
    (if pending then (db.setActiveRoutingProfile a.saved g p'.id).getD db else db,
      if !background && (pending || group.activeRoutingProfileId = p'.id) then
        s.ifConnected g .reloadRefresh
      else .nothing)

inductive Command where
  | editManualRouting (g : ℕ) (source : String)
  | setGroupRoutingMode (g : ℕ) (mode : String)
  | setActiveRoutingProfile (g : ℕ) (id : String)
  | deleteRoutingProfile (g : ℕ) (id : String)
  | importHappRouting (g : ℕ) (link : Link)
  | updateSubscription (g : ℕ) (links : List Link) (background : Bool)
  | geoRefreshed (g : ℕ) (p : RoutingProfile) (r : GeoResult) (activates background : Bool)

def Command.effect (c : Command) (a : Answer) (s : State) : Store × Tail :=
  match c with
  | .editManualRouting g source => DnsPlan.editManualRouting a g source s
  | .setGroupRoutingMode g mode => DnsPlan.setGroupRoutingMode a g mode s
  | .setActiveRoutingProfile g id => DnsPlan.setActiveRoutingProfile a g id s
  | .deleteRoutingProfile g id => DnsPlan.deleteRoutingProfile a g id s
  | .importHappRouting g link => DnsPlan.importHappRouting a g link s
  | .updateSubscription g links background => DnsPlan.updateSubscription a g links background s
  | .geoRefreshed g p r activates background =>
    DnsPlan.geoRefreshed a g p r activates background s

def run (c : Command) (a : Answer) (s : State) : State :=
  finish a (c.effect a s).2 { s with db := (c.effect a s).1 }

def runAll (cs : List (Command × Answer)) (s : State) : State :=
  cs.foldl (fun s c => run c.1 c.2 s) s

end Commands

section Statement

/-- A plan and a DNS section that serve each other. -/
def Matches (plan : KernelPlan) (dnsSection : Bool) : Prop :=
  (plan = .sink → dnsSection = true) ∧ (plan = .legacy → dnsSection = false)

/-- While the TUN is up over a running core, the sink is served when it is used
and not relied on when the plan is the legacy one. -/
def Sound (s : State) : Prop :=
  s.tunUp = true → ∀ core, s.core = some core →
    (s.plan = .sink → core.dnsSection = true ∧ core.capture = true) ∧
    (s.plan = .legacy → core.dnsSection = false)

/-- What a successful start of the TUN leaves. -/
def Started (s : State) : Prop :=
  s.tunUp = true → s.tunEnabled = true ∧
    ∃ p, s.connected = some p ∧ s.core = some (s.coreDns p) ∧ s.plan = s.dnsHijackFor p

/-- The plan is renewed for the routing that the core was started with, and the
core is reloaded alone only for the routing of the plan. -/
def Tail.Careful (t : Tail) (a : Answer) (s : State) : Prop :=
  ∀ p core, s.connected = some p → s.core = some core →
    match t with
    | .nothing => True
    | .reload => a.reload = .done → Matches s.plan (s.usesSink p)
    | .refresh => a.left = none ∧ core.dnsSection = s.usesSink p
    | .reloadRefresh => a.left = none ∧ (a.reload = .refused → core.dnsSection = s.usesSink p)
    | .imported reloads =>
      a.left = none ∧ (reloads = false ∨ a.reload = .refused → core.dnsSection = s.usesSink p)

/-- For what the command writes, while the TUN is up. -/
def Careful (s : State) (c : Command) (a : Answer) : Prop :=
  s.tunUp = true → (c.effect a s).2.Careful a { s with db := (c.effect a s).1 }

def CarefulRun : List (Command × Answer) → State → Prop
  | [], _ => True
  | c::cs, s => Careful s c.1 c.2 ∧ CarefulRun cs (run c.1 c.2 s)

end Statement

section Proof

variable {s : State} {a : Answer}

/-- While the TUN is up. -/
structure Inv (s : State) : Prop where
  tunEnabled : s.tunEnabled = true
  connected : s.core.isSome = true → s.connected.isSome = true
  served : ∀ core, s.core = some core → core.capture = core.dnsSection ∧
    Matches s.plan core.dnsSection

theorem matches_hijack (s : State) (p : Profile) : Matches (s.dnsHijackFor p) (s.usesSink p) := by
  unfold State.dnsHijackFor
  split_ifs with hs hi
  · exact ⟨by simp,by simp⟩
  · exact ⟨fun _ => hs,by simp⟩
  · exact ⟨by simp,fun _ => Bool.eq_false_iff.mpr hs⟩

theorem inv_write (h : Inv s) (db : Store) : Inv { s with db := db } :=
  ⟨h.tunEnabled,h.connected,h.served⟩

/-- The core is gone: there is nothing left to serve. -/
theorem inv_lost (h : Inv s) (plan : KernelPlan) :
    Inv { s with core := none, connected := none, plan := plan } :=
  ⟨h.tunEnabled,by simp,by simp⟩

theorem inv_refresh {p : Profile} {core : CoreDns} (h : Inv s) (hcore : s.core = some core)
    (hsame : core.dnsSection = s.usesSink p) : Inv (refreshDnsHijackFor none p s) := by
  unfold refreshDnsHijackFor
  split_ifs
  · refine ⟨h.tunEnabled,h.connected,fun c hc => ?_⟩
    obtain rfl : core = c := Option.some.inj (hcore.symm.trans hc)
    exact ⟨(h.served core hcore).1,by rw [hsame]; exact matches_hijack s p⟩
  · exact h

/-- A reload for the routing that the plan, renewed or not, is for. -/
theorem inv_reloaded {p : Profile} (h : Inv s) (hconn : s.connected = some p) {plan : KernelPlan}
    (hm : Matches plan (s.usesSink p)) :
    Inv { s with core := some (s.coreDns p), plan := plan } := by
  refine ⟨h.tunEnabled,fun _ => by simp [hconn],fun c hc => ?_⟩
  obtain rfl := Option.some.inj hc
  exact ⟨by simp [State.coreDns,h.tunEnabled],hm⟩

theorem reload_done {p : Profile} {core : CoreDns} (hconn : s.connected = some p)
    (hcore : s.core = some core) : reloadRouting .done s = { s with core := some (s.coreDns p) } := by
  simp [reloadRouting,hconn,hcore]

theorem reload_refused (s : State) : reloadRouting .refused s = s := by
  unfold reloadRouting
  split <;> rfl

theorem reload_notStarted {p : Profile} {core : CoreDns} (hconn : s.connected = some p)
    (hcore : s.core = some core) :
    reloadRouting .notStarted s = { s with core := none, connected := none } := by
  simp [reloadRouting,hconn,hcore]

/-- The core is reloaded, then the plan renewed, for the same profile unless
the connection was lost. -/
theorem inv_reloadRefresh {p q : Profile} {core : CoreDns} {r : Reload} (h : Inv s)
    (hup : s.tunUp = true) (hconn : s.connected = some p) (hcore : s.core = some core)
    (hsame : r = .refused → core.dnsSection = s.usesSink p) (hq : r ≠ .notStarted → q = p) :
    Inv (refreshDnsHijackFor none q (reloadRouting r s)) := by
  cases r with
  | refused =>
    rw [reload_refused,hq (by decide)]
    exact inv_refresh h hcore (hsame rfl)
  | notStarted =>
    rw [reload_notStarted hconn hcore]
    unfold refreshDnsHijackFor
    rw [if_pos hup]
    exact inv_lost h _
  | done =>
    rw [reload_done hconn hcore,hq (by decide)]
    unfold refreshDnsHijackFor
    rw [if_pos hup]
    exact inv_reloaded h hconn (matches_hijack s p)

theorem inv_reload {p : Profile} {core : CoreDns} {r : Reload} (h : Inv s)
    (hconn : s.connected = some p) (hcore : s.core = some core)
    (hsame : r = .done → Matches s.plan (s.usesSink p)) : Inv (reloadRouting r s) := by
  cases r with
  | refused => rwa [reload_refused]
  | notStarted =>
    rw [reload_notStarted hconn hcore]
    exact inv_lost h s.plan
  | done =>
    rw [reload_done hconn hcore]
    exact inv_reloaded h hconn (hsame rfl)

theorem current_reload {p : Profile} {core : CoreDns} {r : Reload} (hconn : s.connected = some p)
    (hcore : s.core = some core) (hr : r ≠ .notStarted) :
    currentProfile (reloadRouting r s) = p := by
  cases r with
  | refused => simp [reload_refused,currentProfile,hconn]
  | notStarted => exact absurd rfl hr
  | done => simp [reload_done hconn hcore,currentProfile,hconn]

/-- Without a core nothing is reloaded, and any plan will do. -/
theorem inv_coreless (h : Inv s) (hcore : s.core = none) (a : Answer) (t : Tail) :
    Inv (finish a t s) := by
  have hreload : ∀ r, reloadRouting r s = s := by
    intro r
    simp [reloadRouting,hcore]
  have hrefresh : ∀ p, Inv (refreshDnsHijackFor a.left p s) := by
    intro p
    unfold refreshDnsHijackFor
    split_ifs
    · exact ⟨h.tunEnabled,h.connected,by simp [hcore]⟩
    · exact h
  unfold finish
  split
  · rwa [hreload]
  · exact hrefresh _
  · rw [hreload]
    exact hrefresh _
  · rw [hreload]
    exact hrefresh _
  · exact hrefresh _
  · exact h

theorem finish_inv {t : Tail} (h : Inv s) (hup : s.tunUp = true) (hc : t.Careful a s) :
    Inv (finish a t s) := by
  cases hcore : s.core with
  | none => exact inv_coreless h hcore a t
  | some core =>
    obtain ⟨p,hconn⟩ := Option.isSome_iff_exists.mp (h.connected (by simp [hcore]))
    have hc := hc p core hconn hcore
    cases t with
    | nothing => simpa only [finish] using h
    | reload => simpa only [finish] using inv_reload h hconn hcore hc
    | refresh =>
      simp only [finish,hconn,hc.1]
      exact inv_refresh h hcore hc.2
    | reloadRefresh =>
      simp only [finish,hconn,hc.1]
      exact inv_reloadRefresh h hup hconn hcore hc.2 fun _ => rfl
    | imported reloads =>
      cases reloads with
      | false =>
        simp only [finish,hconn,hc.1]
        exact inv_refresh h hcore (hc.2 (Or.inl rfl))
      | true =>
        simp only [finish,hconn,hc.1]
        exact inv_reloadRefresh h hup hconn hcore (fun hr => hc.2 (Or.inr hr))
          (current_reload hconn hcore)

theorem finish_up (a : Answer) (t : Tail) (s : State) : (finish a t s).tunUp = s.tunUp := by
  have hreload : ∀ s : State, (reloadRouting a.reload s).tunUp = s.tunUp := by
    intro s
    unfold reloadRouting
    split
    · cases a.reload <;> rfl
    · rfl
  have hrefresh : ∀ p (s : State), (refreshDnsHijackFor a.left p s).tunUp = s.tunUp := by
    intro p s
    unfold refreshDnsHijackFor
    split_ifs <;> rfl
  unfold finish
  split <;> simp only [hreload,hrefresh]

theorem run_inv {c : Command} (h : Inv s) (hup : s.tunUp = true) (hc : Careful s c a) :
    Inv (run c a s) :=
  finish_inv (inv_write h (c.effect a s).1) hup (hc hup)

theorem runAll_inv {cs : List (Command × Answer)} (h : Inv s) (hup : s.tunUp = true)
    (hc : CarefulRun cs s) : Inv (runAll cs s) := by
  induction cs generalizing s with
  | nil => exact h
  | cons c cs ih => exact ih (run_inv h hup hc.1) ((finish_up ..).trans hup) hc.2

theorem runAll_up (cs : List (Command × Answer)) (s : State) :
    (runAll cs s).tunUp = s.tunUp := by
  induction cs generalizing s with
  | nil => rfl
  | cons c cs ih => exact (ih _).trans (finish_up ..)

theorem sound_of_inv (h : Inv s) : Sound s := by
  intro _ core hcore
  obtain ⟨hcap,hsink,hlegacy⟩ := h.served core hcore
  exact ⟨fun hp => ⟨hsink hp,by rw [hcap,hsink hp]⟩,hlegacy⟩

theorem inv_of_started (h : Started s) (hup : s.tunUp = true) : Inv s := by
  obtain ⟨ht,p,hconn,hcore,hplan⟩ := h hup
  refine ⟨ht,fun _ => by simp [hconn],fun core hc => ?_⟩
  obtain rfl := Option.some.inj (hcore.symm.trans hc)
  exact ⟨by simp [State.coreDns,ht],by rw [hplan]; exact matches_hijack s p⟩

end Proof

section Results

def works : Answer := ⟨true,"new",.done,none⟩

/-- A group with an active Happ profile without DNS settings, connected. -/
def plainHapp : State :=
  { db :=
      { groups := fun g => if g = 1 then some ⟨"","inherit","auto","p",""⟩ else none
        profiles := fun g =>
          if g = 1 then [⟨"p","main","ready",true,false,.none,false,0⟩] else [] }
    splitInclude := false
    connected := some ⟨1,false⟩
    core := some ⟨false,false⟩
    tunEnabled := true
    tunUp := true
    plan := .legacy }

theorem plainHapp_started : Started plainHapp := fun _ => ⟨rfl,⟨1,false⟩,rfl,by decide,by decide⟩

/-- An import brings DNS settings with a reload, an update keeps them. -/
def importThenUpdate : List (Command × Answer) :=
  [(.importHappRouting 1 (.profile true "main" true true false 0),works),
    (.updateSubscription 1 [.profile true "main" true true false 0] false,works)]

end Results

end Whoisthat.DnsPlan
