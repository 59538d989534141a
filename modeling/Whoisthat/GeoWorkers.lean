import Whoisthat.HappImport

/-!
# Geo workers beside imports, activations and deletions

A geo worker carries copies of routing profiles and runs outside the mutex of
the routing commands; every database operation of either side is one step. What
imports and deletions have left is recorded beside the database. The record
and the files agree as long as no worker writes back a copy that an import or a
deletion has overtaken, and nothing is saved into a deleted group.
-/

set_option autoImplicit false

namespace Whoisthat.GeoWorkers
open Whoisthat.FileStore Whoisthat.FallibleState Whoisthat.Records Whoisthat.Database
open Whoisthat.GroupFiles Whoisthat.GroupStore Whoisthat.RoutingStore Whoisthat.GroupIds
open Whoisthat.FiledRecords Whoisthat.RoutingResolution Whoisthat.HappImport

/-- A profile read from the database, and whether the stored one has been
imported again or deleted since. -/
structure Copy where
  profile : RoutingProfile
  overtaken : Bool
  deriving DecidableEq

inductive Asset where
  | geoip
  | geosite
  deriving DecidableEq

def Asset.file : Asset → String
  | .geoip => "geoip.dat"
  | .geosite => "geosite.dat"

/-- Where a worker stands; `now` is the start of its download. -/
inductive Phase where
  | announce
  | ensure
  | settle
  | prepare (now : ℤ)
  | fetch (now : ℤ) (asset : Asset)
  | reload (now : ℤ)
  | commit (now : ℤ) (latest : Copy)
  | save (now : ℤ)
  | prune (now : ℤ)
  | abandon (now : ℤ)
  | cleanup (now : ℤ) (err : String)
  | fail
  | report
  deriving DecidableEq

structure Worker where
  gid : ℤ
  copy : Copy
  /-- The further profiles of a subscription update. -/
  rest : List Copy
  phase : Phase
  /-- Workers of imports apply a pending selection, those of an activation do not. -/
  selects : Bool
  deriving DecidableEq

/-- The clock, the bytes a server sends, and whether the step fails. -/
structure Input where
  now : ℤ
  bytes : List UInt8
  fault : Bool
  err : String

def weeklyUpdateGate : ℤ := 7*24*3600

section Steps

variable (geoURLs : RawMessage → Option (String × String))

def announced (p : RoutingProfile) : RoutingProfile :=
  { p with state := "updating", lastError := "" }

def readied (p : RoutingProfile) : RoutingProfile := { p with state := "ready", lastError := "" }

def failed (err : String) (p : RoutingProfile) : RoutingProfile :=
  { p with state := "error", lastError := err }

def downloaded (now : ℤ) (p : RoutingProfile) : RoutingProfile :=
  readied { p with geoDir := geoDirOf p.groupId p.id now, geoUpdatedAt := now }

/-- The files of the last week are still there. -/
def gated (now : ℤ) (p : RoutingProfile) (w : World) : Bool :=
  0 < p.geoUpdatedAt && now-p.geoUpdatedAt < weeklyUpdateGate && p.geoDir ≠ "" &&
    existsAt (joinPath w.root p.geoDir ++ ["geoip.dat"]) w &&
      existsAt (joinPath w.root p.geoDir ++ ["geosite.dat"]) w

def Copy.edit (f : RoutingProfile → RoutingProfile) (c : Copy) : Copy :=
  { c with profile := f c.profile }

def Worker.edit (f : RoutingProfile → RoutingProfile) (k : Worker) : Worker :=
  { k with copy := k.copy.edit f }

def Worker.to (phase : Phase) (k : Worker) : Worker := { k with phase := phase }

/-- The end of one profile of a worker, under the mutex of the commands. -/
def reportGeo (k : Worker) : DBM Unit := do
  match ← attempt (loadGroupConfig k.gid) with
  | .error _ => pure ()
  | .ok group =>
    if k.selects ∧ group.pendingActiveRoutingProfileId = k.copy.profile.id ∧
        k.copy.profile.state = "ready" then do
      let _ ← attempt (setActiveRoutingProfile k.gid k.copy.profile.id)
      pure ()
    else pure ()

def Worker.next (k : Worker) : Option Worker :=
  match k.rest with
  | [] => none
  | c::cs => some { k with copy := c, rest := cs, phase := .ensure }

/-- `EnsureProfileGeo` and what surrounds it, one operation at a time. -/
def Worker.step (i : Input) (k : Worker) (w : World) : World × Option Worker :=
  let p := k.copy.profile
  match k.phase with
  | .announce =>
    ((saveRoutingProfile (announced p) w).2,some ((k.edit announced).to .ensure))
  | .ensure =>
    match geoURLs p.rawJSON with
    | none => (w,some (k.to .report))
    | some (geoipURL,geositeURL) =>
      if trimSpace geoipURL = "" ∧ trimSpace geositeURL = "" then
        (w,some ((k.edit fun p => readied { p with geoDir := "" }).to .settle))
      else if gated i.now p w then (w,some ((k.edit readied).to .settle))
      else (w,some (k.to (.prepare i.now)))
  | .settle => ((saveRoutingProfile p w).2,some (k.to .report))
  | .prepare now =>
    if i.fault then (w,some (k.to .report))
    else ((mkdirGeo p.groupId p.id (tmpVersion now) w).2,some (k.to (.fetch now .geoip)))
  | .fetch now asset =>
    if i.fault then (w,some (k.to (.cleanup now i.err)))
    else match writeAsset p.groupId p.id (tmpVersion now) asset.file i.bytes w with
      | (.ok _,w) =>
        (w,some (k.to (if asset = .geoip then .fetch now .geosite else .reload now)))
      | (.error _,w) => (w,some (k.to (.cleanup now i.err)))
  | .reload now =>
    match loadRoutingProfile p.groupId p.id w with
    | (.ok latest,w) => (w,some (k.to (.commit now ⟨latest,false⟩)))
    | (.error _,w) => (w,some (k.to (.abandon now)))
  | .commit now latest =>
    if i.fault then (w,some (k.to (.cleanup now i.err)))
    else match renameGeo p.groupId p.id (tmpVersion now) (toString now) w with
      | (.ok _,w) => (w,some { k with copy := latest.edit (downloaded now), phase := .save now })
      | (.error _,w) => (w,some (k.to (.cleanup now i.err)))
  | .save now =>
    match saveRoutingProfile p w with
    | (.ok _,w) => (w,some (k.to (.prune now)))
    | (.error _,w) => (w,some (k.to .report))
  | .prune now => ((pruneOldGeoDirs p.groupId p.id (toString now) w).2,some (k.to .report))
  | .abandon now => ((removeGeoDir p.groupId p.id (tmpVersion now) w).2,some (k.to .report))
  | .cleanup now err =>
    ((removeGeoDir p.groupId p.id (tmpVersion now) w).2,some ((k.edit (failed err)).to .fail))
  | .fail => ((saveRoutingProfile p w).2,some (k.to .report))
  | .report => ((reportGeo k w).2,k.next)

end Steps

/-- The links a command still has to import, `none` for one that does not
parse, and the profiles whose geo files it will ask for. -/
structure Job where
  gid : ℤ
  now : ℤ
  links : List (Option ParsedLink)
  found : List Copy
  deriving DecidableEq

/-- Where the command stands that holds `happRoutingMutex`. -/
inductive Command where
  | idle
  | lookup (job : Job)
  | save (job : Job) (p : RoutingProfile) (action : Action) (isNew : Bool)
  | select (job : Job) (p : RoutingProfile) (action : Action) (isNew : Bool)
  | activate (gid : ℤ) (id : String)
  | delete (gid : ℤ) (id : String)
  deriving DecidableEq

/-- What an import determines of a routing profile. -/
def imported (p : RoutingProfile) : RoutingProfile :=
  { p with geoDir := "", geoUpdatedAt := 0, state := "", lastError := "" }

structure Sys where
  world : World
  command : Command
  workers : List Worker
  /-- What imports and deletions have left under each name. -/
  left : ℤ → String → Option RoutingProfile
  deleted : List (ℤ × String)
  gone : List ℤ

def Copy.mark (hit : RoutingProfile → Bool) (c : Copy) : Copy :=
  { c with overtaken := c.overtaken || hit c.profile }

def Phase.mark (hit : RoutingProfile → Bool) : Phase → Phase
  | .commit now latest => .commit now (latest.mark hit)
  | phase => phase

def Worker.mark (hit : RoutingProfile → Bool) (k : Worker) : Worker :=
  { k with
    copy := k.copy.mark hit
    rest := k.rest.map (Copy.mark hit)
    phase := k.phase.mark hit }

def Job.mark (hit : RoutingProfile → Bool) (job : Job) : Job :=
  { job with found := job.found.map (Copy.mark hit) }

def Command.mark (hit : RoutingProfile → Bool) : Command → Command
  | .lookup job => .lookup (job.mark hit)
  | .save job p action isNew => .save (job.mark hit) p action isNew
  | .select job p action isNew => .select (job.mark hit) p action isNew
  | command => command

def Sys.overtake (hit : RoutingProfile → Bool) (s : Sys) : Sys :=
  { s with command := s.command.mark hit, workers := s.workers.map (Worker.mark hit) }

def Job.collect (p : RoutingProfile) (job : Job) : Job :=
  if p.state = "updating" then { job with found := job.found ++ [⟨p,false⟩] } else job

def Job.skip (job : Job) : Job := { job with links := job.links.tail }

/-- The worker started once the links are done. -/
def Job.worker (job : Job) : List Worker :=
  match job.found with
  | [] => []
  | c::cs => [{ gid := job.gid, copy := c, rest := cs, phase := .ensure, selects := true }]

def sameName (p q : RoutingProfile) : Bool := p.groupId = q.groupId && p.id = q.id

def profileKey : Path → Option (ℤ × String)
  | .routingProfile g i => some (g,i)
  | _ => none

/-- An import has stored `p`. -/
def Sys.imports (p : RoutingProfile) (w : World) (s : Sys) : Sys :=
  { (s.overtake (sameName p)) with
    world := w
    left := fun g i => if g = p.groupId ∧ i = p.id then some (imported p) else s.left g i }

/-- A deletion has left `w`. -/
def Sys.deletes (w : World) (s : Sys) : Sys :=
  let here := fun g i => (w.disk.lookup (.routingProfile g i)).isSome
  { (s.overtake fun p => !here p.groupId p.id) with
    world := w
    left := fun g i => if here g i then s.left g i else none
    deleted := s.deleted ++
      (listing profileKey s.world.disk).filter fun n => !here n.1 n.2 }

def Sys.deletesGroup (gid : ℤ) (w : World) (s : Sys) : Sys :=
  { (s.overtake fun p => p.groupId = gid) with
    world := w
    left := fun g i => if g = gid then none else s.left g i
    gone := gid::s.gone }

section Events

variable (geoURLs : RawMessage → Option (String × String))

/-- `gonanoid.Must` yields a name that is not in use and never was. -/
def Sys.fresh (s : Sys) (gid : ℤ) (newID : String) : Bool :=
  (s.world.disk.lookup (.routingProfile gid newID)).isNone && (gid,newID) ∉ s.deleted

def lookupStep (newID : String) (job : Job) (s : Sys) : Sys :=
  match job.links with
  | [] => { s with command := .idle, workers := s.workers ++ job.worker }
  | none::_ => { s with command := .lookup job.skip }
  | some .off::_ =>
    { s with
      world := (setActiveRoutingProfile job.gid "" s.world).2
      command := .lookup job.skip }
  | some (.profile action hp)::_ =>
    match findRoutingProfileByName job.gid hp.name s.world with
    | (.ok existing,w) =>
      if hp.older existing then
        { s with world := w, command := .lookup (job.skip.collect existing) }
      else
        { s with
          world := w
          command := .save job.skip (updatedProfile existing hp job.now) action false }
    | (.error _,w) =>
      if s.fresh job.gid newID then
        { s with
          world := w
          command := .save job.skip (newProfile job.gid newID hp job.now) action true }
      else s

/-- The activation reads the profile again and may start a worker for it. -/
def activateStep (gid : ℤ) (id : String) (s : Sys) : Sys :=
  match loadRoutingProfile gid id s.world with
  | (.error _,w) => { s with world := w, command := .idle }
  | (.ok p,w) =>
    let urls := (geoURLs p.rawJSON).getD ("","")
    if (urls.1 ≠ "" ∨ urls.2 ≠ "") ∧ (p.state = "error" ∨ p.geoUpdatedAt = 0) then
      { s with
        world := w
        command := .idle
        workers := s.workers ++
          [{ gid := gid, copy := ⟨p,false⟩, rest := [], phase := .announce, selects := false }] }
    else { s with world := w, command := .idle }

def commandStep (newID : String) (s : Sys) : Sys :=
  match s.command with
  | .idle => s
  | .lookup job => lookupStep newID job s
  | .save job p action isNew =>
    match saveRoutingProfile p s.world with
    | (.error _,w) => { s with world := w, command := .lookup job }
    | (.ok _,w) =>
      { (s.imports p w) with
        command := .select ((job.mark (sameName p)).collect p) p action isNew }
  | .select job p action isNew =>
    { s with
      world := (selectImported job.gid action isNew p s.world).2
      command := .lookup job }
  | .activate gid id => activateStep geoURLs gid id s
  | .delete gid id => { (s.deletes (deleteRoutingProfile gid id s.world).2) with command := .idle }

def jsonSubscription (group : Group) : Bool := group.subscriptionFormat = "json"

/-- The checks of `DeleteRoutingProfile`. -/
def mayDelete (gid : ℤ) (id : String) : DBM Bool := do
  match ← attempt (loadGroupConfig gid) with
  | .error _ => pure false
  | .ok group =>
    if jsonSubscription group then pure false
    else do
      let p ← attempt (loadRoutingProfile gid id)
      pure p.toOption.isSome

/-- The checks and the write of `SetActiveRoutingProfile`. -/
def activated (gid : ℤ) (id : String) : DBM Bool := do
  match ← attempt (loadGroupConfig gid) with
  | .error _ => pure false
  | .ok group =>
    if jsonSubscription group then pure false
    else do
      let r ← attempt (setActiveRoutingProfile gid (if id = "off" then "" else id))
      pure (r.toOption.isSome && id ≠ "off" && id ≠ "")

inductive Event where
  /-- `ImportHappRouting`, or the links of a subscription update. -/
  | upsert (gid : ℤ) (links : List (Option ParsedLink)) (now : ℤ)
  | setActive (gid : ℤ) (id : String)
  | delete (gid : ℤ) (id : String)
  /-- The command that holds the mutex goes on. -/
  | command (newID : String)
  | deleteGroup (gid : ℤ)
  | worker (n : ℕ) (input : Input)

def granted (r : Except DBError Bool) : Bool := r.toOption.getD false

def workerStep (n : ℕ) (i : Input) (s : Sys) : Sys :=
  match s.workers[n]? with
  | none => s
  | some k =>
    if k.phase = .report ∧ s.command ≠ .idle then s
    else match k.step geoURLs i s.world with
      | (w,some k') => { s with world := w, workers := s.workers.set n k' }
      | (w,none) => { s with world := w, workers := s.workers.eraseIdx n }

/-- Commands wait while another one holds the mutex. -/
def Event.step (e : Event) (s : Sys) : Sys :=
  match e with
  | .upsert gid links now =>
    if s.command = .idle then { s with command := .lookup ⟨gid,now,links,[]⟩ } else s
  | .setActive gid id =>
    if s.command = .idle then
      let r := activated gid id s.world
      { s with world := r.2, command := if granted r.1 then .activate gid id else .idle }
    else s
  | .delete gid id =>
    if s.command = .idle then
      let r := mayDelete gid id s.world
      { s with world := r.2, command := if granted r.1 then .delete gid id else .idle }
    else s
  | .command newID => commandStep geoURLs newID s
  | .deleteGroup gid => s.deletesGroup gid (GroupStore.deleteGroup gid s.world).2
  | .worker n i => workerStep geoURLs n i s

def runEvents : List Event → Sys → Sys
  | [], s => s
  | e::es, s => runEvents es (e.step geoURLs s)

end Events

section Property

def profileOn (w : World) (gid : ℤ) (id : String) : Option RoutingProfile :=
  stored (.routingProfile gid id) Payload.asRoutingProfile w

/-- The files say what imports and deletions have left, geo fields apart, and
nothing deleted is there. -/
structure Undisturbed (s : Sys) : Prop where
  content : ∀ g i, (profileOn s.world g i).map imported = s.left g i
  profiles : ∀ n ∈ s.deleted, s.world.disk.lookup (.routingProfile n.1 n.2) = none
  groups : ∀ g ∈ s.gone, ¬GroupExists g s.world.disk

/-- The worker does not write back a copy that was overtaken, nor make a
directory in a deleted group. -/
def Worker.Safe (gone : List ℤ) (k : Worker) : Prop :=
  match k.phase with
  | .announce => k.copy.overtaken = false
  | .settle => k.copy.overtaken = false
  | .save _ => k.copy.overtaken = false
  | .fail => k.copy.overtaken = false
  | .prepare _ => k.copy.profile.groupId ∉ gone
  | _ => True

instance (gone : List ℤ) (k : Worker) : Decidable (k.Safe gone) := by
  unfold Worker.Safe
  split <;> infer_instance

def Event.Safe (e : Event) (s : Sys) : Prop :=
  match e with
  | .worker n _ =>
    match s.workers[n]? with
    | some k => k.Safe s.gone
    | none => True
  | .command _ =>
    match s.command with
    | .save _ p _ _ => p.groupId ∉ s.gone
    | _ => True
  | _ => True

instance (e : Event) (s : Sys) : Decidable (e.Safe s) := by
  unfold Event.Safe
  split
  · split <;> infer_instance
  · split <;> infer_instance
  · infer_instance

def SafeRun (geoURLs : RawMessage → Option (String × String)) : List Event → Sys → Prop
  | [], _ => True
  | e::es, s => e.Safe s ∧ SafeRun geoURLs es (e.step geoURLs s)

instance (geoURLs : RawMessage → Option (String × String)) :
    (es : List Event) → (s : Sys) → Decidable (SafeRun geoURLs es s)
  | [], _ => isTrue trivial
  | e::es, s =>
    have : Decidable (SafeRun geoURLs es (e.step geoURLs s)) :=
      instDecidableSafeRun geoURLs es (e.step geoURLs s)
    inferInstanceAs (Decidable (e.Safe s ∧ SafeRun geoURLs es (e.step geoURLs s)))

/-- No command and no worker is running. -/
def start (w : World) : Sys :=
  { world := w
    command := .idle
    workers := []
    left := fun g i => (profileOn w g i).map imported
    deleted := []
    gone := [] }

end Property

section Copies

/-- A copy that was not overtaken has the content that is stored. -/
def Consistent (w : World) (c : Copy) : Prop :=
  c.overtaken = false →
    (profileOn w c.profile.groupId c.profile.id).map imported = some (imported c.profile)

def Phase.copies : Phase → List Copy
  | .commit _ latest => [latest]
  | _ => []

def Worker.copies (k : Worker) : List Copy := k.copy::(k.rest ++ k.phase.copies)

def Command.copies : Command → List Copy
  | .lookup job => job.found
  | .save job _ _ _ => job.found
  | .select job _ _ _ => job.found
  | _ => []

def Sys.copies (s : Sys) : List Copy := s.command.copies ++ s.workers.flatMap Worker.copies

theorem phase_copies_mark (hit : RoutingProfile → Bool) (phase : Phase) :
    (phase.mark hit).copies = phase.copies.map (Copy.mark hit) := by
  cases phase <;> rfl

theorem worker_copies_mark (hit : RoutingProfile → Bool) (k : Worker) :
    (k.mark hit).copies = k.copies.map (Copy.mark hit) := by
  simp [Worker.copies,Worker.mark,phase_copies_mark]

theorem command_copies_mark (hit : RoutingProfile → Bool) (command : Command) :
    (command.mark hit).copies = command.copies.map (Copy.mark hit) := by
  cases command <;> rfl

theorem copies_overtake (hit : RoutingProfile → Bool) (s : Sys) :
    (s.overtake hit).copies = s.copies.map (Copy.mark hit) := by
  simp only [Sys.copies,Sys.overtake,List.map_append,command_copies_mark,List.flatMap_map,
    worker_copies_mark,List.map_flatMap]

theorem consistent_edit {w : World} {c : Copy} {f : RoutingProfile → RoutingProfile}
    (hf : ∀ p, imported (f p) = imported p) (h : Consistent w c) : Consistent w (c.edit f) := by
  intro ho
  have hp := hf c.profile
  have hg : (f c.profile).groupId = c.profile.groupId := (congrArg RoutingProfile.groupId hp :)
  have hi : (f c.profile).id = c.profile.id := (congrArg RoutingProfile.id hp :)
  simp only [Copy.edit,hg,hi,hp]
  exact h ho

end Copies

section Effects

/-- Nothing an import or a deletion has left is disturbed. -/
structure Steady (gone : List ℤ) (w w' : World) : Prop where
  filed : Filed w'
  content : ∀ g i, (profileOn w' g i).map imported = (profileOn w g i).map imported
  absent : ∀ g i, w.disk.lookup (.routingProfile g i) = none →
    w'.disk.lookup (.routingProfile g i) = none
  groups : ∀ g ∈ gone, GroupExists g w'.disk → GroupExists g w.disk

theorem profileOn_congr {w w' : World} {g : ℤ} {i : String} (hk : w'.key = w.key)
    (h : w'.disk.lookup (.routingProfile g i) = w.disk.lookup (.routingProfile g i)) :
    profileOn w' g i = profileOn w g i := by
  simp only [profileOn,stored,fileAt,readFile,hk,h]

theorem profileOn_none {w : World} {g : ℤ} {i : String}
    (h : w.disk.lookup (.routingProfile g i) = none) : profileOn w g i = none := by
  simp [profileOn,stored,fileAt,readFile,h]

theorem steady_calm {w w' : World} (gone : List ℤ) (h : Calm w w') : Steady gone w w' :=
  ⟨h.filed,fun g i => by rw [profileOn_congr h.key (h.profiles g i)],
    fun g i hn => (h.profiles g i).trans hn,fun g _ => h.groups g⟩

theorem steady_quiet {w w' : World} (gone : List ℤ) (hw : Filed w) (h : Quiet w w') :
    Steady gone w w' := steady_calm gone (h hw)

/-- A save changes the file of its profile, or fails and changes none. -/
structure Saves (ok : Bool) (p : RoutingProfile) (w w' : World) : Prop where
  filed : Filed w'
  own : ok = true → profileOn w' p.groupId p.id = some p
  other : ∀ g i, ¬(ok = true ∧ g = p.groupId ∧ i = p.id) →
    w'.disk.lookup (.routingProfile g i) = w.disk.lookup (.routingProfile g i)
  key : w'.key = w.key
  groups : ∀ g, GroupExists g w'.disk → GroupExists g w.disk ∨ g = p.groupId

theorem saves_saveRoutingProfile {w : World} (p : RoutingProfile) (hw : Filed w) :
    Saves (saveRoutingProfile p w).1.toOption.isSome p w (saveRoutingProfile p w).2 := by
  have hfiled : Filed (saveRoutingProfile p w).2 := keeps_saveRoutingProfile primitive_filed p w hw
  have hgroup : ∀ g, GroupExists g (mkdirFor (.routingProfile p.groupId p.id) w.disk) →
      GroupExists g w.disk ∨ g = p.groupId := fun g hg =>
    (groupExists_mkdirFor hg).imp_right fun h => (Option.some.inj h).symm
  have hrun : saveRoutingProfile p w = writeEncryptedJSON (.routingProfile p.groupId p.id)
      (.routingProfile p) (osMkdirAll (.routingProfile p.groupId p.id) w).2 := rfl
  rw [hrun] at hfiled ⊢
  rcases write_cases (.routingProfile p.groupId p.id) (.routingProfile p)
    (osMkdirAll (.routingProfile p.groupId p.id) w).2 with ⟨_,h⟩ | ⟨_,_,h⟩ | ⟨_,_,h⟩ <;>
    rw [h] at hfiled ⊢
  · exact ⟨hfiled,fun hok => by simp [Except.toOption] at hok,
      fun g i _ => lookup_mkdirFor_profile _ _ g i,rfl,hgroup⟩
  · exact ⟨hfiled,fun hok => by simp [Except.toOption] at hok,
      fun g i _ => lookup_mkdirFor_profile _ _ g i,rfl,hgroup⟩
  · refine ⟨hfiled,fun _ => ?_,fun g i hne => ?_,rfl,fun g hg => ?_⟩
    · simp [profileOn,stored,fileAt,readFile,store,openBlob,Payload.asRoutingProfile]
    · rw [lookup_store,if_neg (by simpa [Except.toOption] using hne),lookup_mkdirFor_profile]
      exact lookup_mkdirFor_profile _ _ g i
    · rcases groupExists_store hg with h | h
      · exact hgroup g h
      · exact Or.inr (Option.some.inj h).symm

theorem groupExists_of_profileOn {w : World} {g : ℤ} {i : String} {p : RoutingProfile}
    (h : profileOn w g i = some p) : GroupExists g w.disk := by
  obtain ⟨b,hb,_⟩ := Option.bind_eq_some_iff.mp h
  exact ⟨.routingProfile g i,rfl,by rw [lookup_of_readFile hb]; rfl⟩

/-- Writing back a copy that was not overtaken changes geo fields only. -/
theorem steady_save {gone : List ℤ} {w : World} {c : Copy} (hw : Filed w)
    (hc : Consistent w c) (ho : c.overtaken = false) :
    Steady gone w (saveRoutingProfile c.profile w).2 := by
  have hs := saves_saveRoutingProfile c.profile hw
  obtain ⟨p,hp,himp⟩ := Option.map_eq_some_iff.mp (hc ho)
  have hex : GroupExists c.profile.groupId w.disk := groupExists_of_profileOn hp
  have hname : ∀ g i, w.disk.lookup (.routingProfile g i) = none →
      ¬(g = c.profile.groupId ∧ i = c.profile.id) := by
    rintro g i hn ⟨rfl,rfl⟩
    rw [profileOn_none hn] at hp
    simp at hp
  refine ⟨hs.filed,fun g i => ?_,fun g i hn => ?_,fun g _ hg => ?_⟩
  · by_cases hown : (saveRoutingProfile c.profile w).1.toOption.isSome = true ∧
        g = c.profile.groupId ∧ i = c.profile.id
    · obtain ⟨hok,rfl,rfl⟩ := hown
      rw [hs.own hok,hp,Option.map_some,Option.map_some,himp]
    · rw [profileOn_congr hs.key (hs.other g i hown)]
  · rw [hs.other g i fun h => hname g i hn h.2]
    exact hn
  · rcases hs.groups g hg with h | rfl
    · exact h
    · exact hex

/-- Routing profiles go or stay, and no group appears. -/
structure Drops (w w' : World) : Prop where
  key : w'.key = w.key
  filed : Filed w'
  profiles : ∀ g i, w'.disk.lookup (.routingProfile g i) = none ∨
    w'.disk.lookup (.routingProfile g i) = w.disk.lookup (.routingProfile g i)
  groups : ∀ g, GroupExists g w'.disk → GroupExists g w.disk

def Dropping (w w' : World) : Prop := Filed w → Drops w w'

theorem dropping_quiet {w w' : World} (h : Quiet w w') : Dropping w w' := fun hw =>
  have hc := h hw
  ⟨hc.key,hc.filed,fun g i => Or.inr (hc.profiles g i),hc.groups⟩

theorem dropping_trans (u v w : World) (h : Dropping u v) (h' : Dropping v w) : Dropping u w :=
  fun hu =>
    have hv := h hu
    have hw := h' hv.filed
    ⟨hw.key.trans hv.key,hw.filed,fun g i => (hw.profiles g i).elim Or.inl fun he =>
        (hv.profiles g i).imp he.trans he.trans,
      fun g hg => hv.groups g (hw.groups g hg)⟩

theorem dropping_osRemoveAll (under : Path → Bool) : Keeps Dropping (osRemoveAll under) := by
  refine fun w hw => ⟨rfl,primitive_filed.remove under w hw,fun g i => ?_,fun g ⟨q,hq,hs⟩ => ?_⟩
  · simp only [osRemoveAll,modify_run,lookup_removeAll]
    split
    · exact Or.inl rfl
    · exact Or.inr rfl
  · simp only [osRemoveAll,modify_run,lookup_removeAll] at hs
    split at hs
    · simp at hs
    · exact ⟨q,hq,hs⟩

theorem dropping_bind {α β : Type} {m : DBM α} {f : α → DBM β} (hm : Keeps Dropping m)
    (hf : ∀ a, Keeps Dropping (f a)) : Keeps Dropping (m >>= f) := keeps_bind dropping_trans hm hf

theorem dropping_refl (w : World) : Dropping w w := dropping_quiet (quiet_refl w)

theorem quiet_deselect (gid : ℤ) (id : String) :
    Keeps Quiet (attempt (loadGroupConfig gid) >>= fun r => match r with
      | .error _ => pure ()
      | .ok group =>
        if group.activeRoutingProfileId = id ∨ group.pendingActiveRoutingProfileId = id then
          attempt (updateGroup (deselected group id)) >>= fun _ => pure ()
        else pure () : DBM Unit) := by
  intro w
  obtain ⟨hr,hv⟩ := readsAs_loadGroupConfig gid w
  rw [bind_of_ok (attempt_run _ w)]
  refine quiet_trans _ _ _ (quiet_reads hr) ?_
  rcases hl : loadGroupConfig gid w with ⟨e | g,w₁⟩ <;> rw [hl] at hr hv
  · exact quiet_refl w₁
  · simp only
    split
    · refine @quiet_updateGroup gid g _ _ ?_ rfl
      rw [hr.disk,hr.key]
      simpa [Except.toOption] using hv.symm
    · exact quiet_refl w₁

theorem dropping_deleteRoutingProfile (gid : ℤ) (id : String) :
    Keeps Dropping (deleteRoutingProfile gid id) :=
  dropping_bind (keeps_get dropping_refl) fun _ =>
    dropping_bind (dropping_bind (keeps_get dropping_refl) fun _ => dropping_osRemoveAll _)
      fun _ => dropping_bind
        (dropping_bind (keeps_get dropping_refl) fun _ => dropping_osRemoveAll _) fun _ w =>
          dropping_quiet (quiet_deselect gid id w)

theorem quiet_dropFromGroupOrder (gid : ℤ) : Keeps Quiet (dropFromGroupOrder gid) := by
  refine quiet_bind (keeps_attempt (quiet_readsAs (readsAs_readEncryptedJSON _ _))) fun r => ?_
  cases r with
  | error e => exact keeps_pure quiet_refl ()
  | ok c =>
    refine quiet_bind (keeps_attempt fun w => ?_) fun _ => keeps_pure quiet_refl ()
    exact quiet_write trivial (by simp) (fun g hg => by simp [Path.group?] at hg)

theorem dropping_deleteGroup (gid : ℤ) : Keeps Dropping (deleteGroup gid) :=
  dropping_bind (dropping_osRemoveAll _) fun _ w =>
    dropping_quiet (quiet_dropFromGroupOrder gid w)

theorem deleteGroup_gone {gid : ℤ} {w : World} (hw : Filed w) :
    ¬GroupExists gid (deleteGroup gid w).2.disk := by
  have hd := dropping_osRemoveAll (inGroupDir gid) w hw
  have hq := quiet_dropFromGroupOrder gid (osRemoveAll (inGroupDir gid) w).2 hd.filed
  intro hg
  obtain ⟨q,hq',hs⟩ := hq.groups gid hg
  simp only [osRemoveAll,modify_run,lookup_removeAll,inGroupDir,hq',decide_true,if_true] at hs
  simp at hs

end Effects

section Workers

variable {gone : List ℤ} {w w' : World} {k : Worker}

theorem consistent_steady {c : Copy} (h : Steady gone w w') (hc : Consistent w c) :
    Consistent w' c := fun ho => (h.content _ _).trans (hc ho)

theorem consistent_to {phase : Phase} (hp : phase.copies = [])
    (h : ∀ c ∈ k.copies, Consistent w c) : ∀ c ∈ (k.to phase).copies, Consistent w c := by
  intro c hc
  refine h c ?_
  simp only [Worker.copies,Worker.to,hp,List.append_nil,List.mem_cons] at hc ⊢
  exact hc.imp_right fun hr => List.mem_append.mpr (Or.inl hr)

theorem consistent_edited {f : RoutingProfile → RoutingProfile} {phase : Phase}
    (hf : ∀ p, imported (f p) = imported p) (hp : phase.copies = [])
    (h : ∀ c ∈ k.copies, Consistent w c) :
    ∀ c ∈ ((k.edit f).to phase).copies, Consistent w c := by
  intro c hc
  simp only [Worker.copies,Worker.to,Worker.edit,hp,List.append_nil,List.mem_cons] at hc
  rcases hc with rfl | hr
  · exact consistent_edit hf (h k.copy (by simp [Worker.copies]))
  · exact h c (by simp [Worker.copies,hr])

theorem consistent_next {k' : Worker} (hk : k.next = some k')
    (h : ∀ c ∈ k.copies, Consistent w c) : ∀ c ∈ k'.copies, Consistent w c := by
  intro c hc
  unfold Worker.next at hk
  cases hr : k.rest with
  | nil => simp [hr] at hk
  | cons d ds =>
    simp only [hr,Option.some.injEq] at hk
    subst hk
    refine h c ?_
    simp only [Worker.copies,Phase.copies,List.append_nil,List.mem_cons] at hc
    simp only [Worker.copies,hr,List.mem_cons,List.mem_append]
    exact Or.inr (Or.inl hc)

theorem quiet_reportGeo (k : Worker) : Keeps Quiet (reportGeo k) := by
  refine quiet_bind (keeps_attempt (quiet_readsAs (readsAs_loadGroupConfig _))) fun r => ?_
  cases r with
  | error e => exact keeps_pure quiet_refl ()
  | ok group =>
    simp only
    split
    · exact quiet_bind (keeps_attempt (quiet_setActiveRoutingProfile _ _)) fun _ =>
        keeps_pure quiet_refl ()
    · exact keeps_pure quiet_refl ()

theorem steady_mkdirGeo {gid : ℤ} {id version : String} (hw : Filed w) (hg : gid ∉ gone) :
    Steady gone w (mkdirGeo gid id version w).2 := by
  obtain ⟨hk,hf,hp,hgroups⟩ := calm_mkdirGeo gid id version hw
  refine ⟨hf,fun g i => by rw [profileOn_congr hk (hp g i)],fun g i hn => (hp g i).trans hn,
    fun g hm hex => (hgroups g hex).resolve_right ?_⟩
  rintro rfl
  exact hg hm

/-- A copy that was just read is what is stored. -/
theorem consistent_read {gid : ℤ} {id : String} {p : RoutingProfile} (hw : Filed w)
    (hp : profileOn w gid id = some p) : Consistent w ⟨p,false⟩ := by
  intro _
  obtain ⟨hg,hi⟩ := filed_routingProfile hw hp
  simp only [hg,hi,hp,Option.map_some]

theorem load_ok {gid : ℤ} {id : String} {p : RoutingProfile}
    (h : loadRoutingProfile gid id w = (.ok p,w')) : w' = w ∧ profileOn w gid id = some p := read_ok h

/-- A safe step of a worker disturbs nothing, and its copies stay true to what
is stored unless they are overtaken. -/
theorem worker_steady (geoURLs : RawMessage → Option (String × String)) (i : Input)
    (hw : Filed w) (hc : ∀ c ∈ k.copies, Consistent w c) (hsafe : k.Safe gone) :
    Steady gone w (k.step geoURLs i w).1 ∧
      ∀ k', (k.step geoURLs i w).2 = some k' →
        ∀ c ∈ k'.copies, Consistent (k.step geoURLs i w).1 c := by
  have hself : Steady gone w w := steady_quiet gone hw (quiet_refl w)
  have hown : Consistent w k.copy := hc k.copy (by simp [Worker.copies])
  have hto : ∀ {w'} {phase : Phase}, Steady gone w w' → phase.copies = [] →
      ∀ c ∈ (k.to phase).copies, Consistent w' c := fun hs hp c hm =>
    consistent_steady hs (consistent_to hp hc c hm)
  have hedit : ∀ {w'} {phase : Phase} {f : RoutingProfile → RoutingProfile},
      Steady gone w w' → (∀ p, imported (f p) = imported p) → phase.copies = [] →
        ∀ c ∈ ((k.edit f).to phase).copies, Consistent w' c := fun hs hf hp c hm =>
    consistent_steady hs (consistent_edited hf hp hc c hm)
  -- every exit but the one with a copy read anew goes on with the worker's own copies
  cases hphase : k.phase with
  | announce =>
    simp only [Worker.Safe,hphase] at hsafe
    have hs : Steady gone w (saveRoutingProfile (announced k.copy.profile) w).2 :=
      steady_save hw (consistent_edit (f := announced) (fun _ => rfl) hown) hsafe
    simp only [Worker.step,hphase,Option.some.injEq]
    exact ⟨hs,fun k' hk' => hk' ▸ hedit hs (fun _ => rfl) rfl⟩
  | ensure =>
    simp only [Worker.step,hphase]
    split
    · exact ⟨hself,fun k' hk' => Option.some.inj hk' ▸ hto hself rfl⟩
    · split_ifs
      · exact ⟨hself,fun k' hk' => Option.some.inj hk' ▸ hedit hself (fun _ => rfl) rfl⟩
      · exact ⟨hself,fun k' hk' => Option.some.inj hk' ▸ hedit hself (fun _ => rfl) rfl⟩
      · exact ⟨hself,fun k' hk' => Option.some.inj hk' ▸ hto hself rfl⟩
  | settle =>
    simp only [Worker.Safe,hphase] at hsafe
    have hs : Steady gone w (saveRoutingProfile k.copy.profile w).2 := steady_save hw hown hsafe
    simp only [Worker.step,hphase,Option.some.injEq]
    exact ⟨hs,fun k' hk' => hk' ▸ hto hs rfl⟩
  | prepare now =>
    simp only [Worker.Safe,hphase] at hsafe
    simp only [Worker.step,hphase]
    split_ifs
    · exact ⟨hself,fun k' hk' => Option.some.inj hk' ▸ hto hself rfl⟩
    · have hs : Steady gone w (mkdirGeo _ k.copy.profile.id (tmpVersion now) w).2 :=
        steady_mkdirGeo hw hsafe
      exact ⟨hs,fun k' hk' => Option.some.inj hk' ▸ hto hs rfl⟩
  | fetch now asset =>
    simp only [Worker.step,hphase]
    by_cases hfault : i.fault = true
    · rw [if_pos hfault]
      exact ⟨hself,fun k' hk' => Option.some.inj hk' ▸ hto hself rfl⟩
    · rw [if_neg hfault]
      have hs := steady_quiet gone hw
        (quiet_writeAsset k.copy.profile.groupId k.copy.profile.id (tmpVersion now) asset.file
          i.bytes w)
      rcases hr : writeAsset k.copy.profile.groupId k.copy.profile.id (tmpVersion now) asset.file
        i.bytes w with ⟨e | u,w₁⟩ <;> rw [hr] at hs
      · exact ⟨hs,fun k' hk' => Option.some.inj hk' ▸ hto hs rfl⟩
      · exact ⟨hs,fun k' hk' => Option.some.inj hk' ▸ hto hs (by cases asset <;> rfl)⟩
  | reload now =>
    simp only [Worker.step,hphase]
    have hs := steady_quiet gone hw (quiet_readsAs
      (readsAs_readEncryptedJSON (.routingProfile k.copy.profile.groupId k.copy.profile.id)
        Payload.asRoutingProfile) w)
    change Steady gone w (loadRoutingProfile k.copy.profile.groupId k.copy.profile.id w).2 at hs
    rcases hr : loadRoutingProfile k.copy.profile.groupId k.copy.profile.id w with
      ⟨e | latest,w₁⟩ <;> rw [hr] at hs
    · exact ⟨hs,fun k' hk' => Option.some.inj hk' ▸ hto hs rfl⟩
    · obtain ⟨rfl,hlatest⟩ := load_ok hr
      refine ⟨hs,fun k' hk' => Option.some.inj hk' ▸ fun c hm => ?_⟩
      simp only [Worker.copies,Worker.to,Phase.copies,List.mem_cons,List.mem_append,
        List.not_mem_nil,or_false] at hm
      rcases hm with rfl | hr' | rfl
      · exact hown
      · exact hc c (by simp [Worker.copies,hr'])
      · exact consistent_read hw hlatest
  | commit now latest =>
    simp only [Worker.step,hphase]
    split_ifs with hfault
    · exact ⟨hself,fun k' hk' => Option.some.inj hk' ▸ hto hself rfl⟩
    · have hs := steady_quiet gone hw
        (quiet_renameGeo k.copy.profile.groupId k.copy.profile.id (tmpVersion now) (toString now) w)
      rcases hr : renameGeo k.copy.profile.groupId k.copy.profile.id (tmpVersion now)
        (toString now) w with ⟨e | u,w₁⟩ <;> rw [hr] at hs
      · exact ⟨hs,fun k' hk' => Option.some.inj hk' ▸ hto hs rfl⟩
      · refine ⟨hs,fun k' hk' => Option.some.inj hk' ▸ fun c hm => ?_⟩
        simp only [Worker.copies,Phase.copies,List.append_nil,List.mem_cons] at hm
        rcases hm with rfl | hr'
        · exact consistent_steady hs (consistent_edit (fun _ => rfl)
            (hc latest (by simp [Worker.copies,hphase,Phase.copies])))
        · exact consistent_steady hs (hc c (by simp [Worker.copies,hr']))
  | save now =>
    simp only [Worker.Safe,hphase] at hsafe
    have hs : Steady gone w (saveRoutingProfile k.copy.profile w).2 := steady_save hw hown hsafe
    simp only [Worker.step,hphase]
    rcases hr : saveRoutingProfile k.copy.profile w with ⟨e | u,w₁⟩ <;> rw [hr] at hs
    · exact ⟨hs,fun k' hk' => Option.some.inj hk' ▸ hto hs rfl⟩
    · exact ⟨hs,fun k' hk' => Option.some.inj hk' ▸ hto hs rfl⟩
  | prune now =>
    have hs := steady_quiet gone hw
      (quiet_pruneOldGeoDirs k.copy.profile.groupId k.copy.profile.id (toString now) w)
    simp only [Worker.step,hphase,Option.some.injEq]
    exact ⟨hs,fun k' hk' => hk' ▸ hto hs rfl⟩
  | abandon now =>
    have hs := steady_quiet gone hw
      (quiet_removeGeoDir k.copy.profile.groupId k.copy.profile.id (tmpVersion now) w)
    simp only [Worker.step,hphase,Option.some.injEq]
    exact ⟨hs,fun k' hk' => hk' ▸ hto hs rfl⟩
  | cleanup now err =>
    have hs := steady_quiet gone hw
      (quiet_removeGeoDir k.copy.profile.groupId k.copy.profile.id (tmpVersion now) w)
    simp only [Worker.step,hphase,Option.some.injEq]
    exact ⟨hs,fun k' hk' => hk' ▸ hedit hs (fun _ => rfl) rfl⟩
  | fail =>
    simp only [Worker.Safe,hphase] at hsafe
    have hs : Steady gone w (saveRoutingProfile k.copy.profile w).2 := steady_save hw hown hsafe
    simp only [Worker.step,hphase,Option.some.injEq]
    exact ⟨hs,fun k' hk' => hk' ▸ hto hs rfl⟩
  | report =>
    have hs := steady_quiet gone hw (quiet_reportGeo k w)
    simp only [Worker.step,hphase]
    exact ⟨hs,fun k' hk' c hm => consistent_steady hs (consistent_next hk' hc c hm)⟩

end Workers

section Invariant

structure Inv (s : Sys) : Prop where
  undisturbed : Undisturbed s
  filed : Filed s.world
  copies : ∀ c ∈ s.copies, Consistent s.world c
  /-- What an import is about to save was not deleted. -/
  pending : ∀ job p action isNew, s.command = .save job p action isNew →
    (p.groupId,p.id) ∉ s.deleted

theorem mem_copies {s : Sys} {c : Copy} :
    c ∈ s.copies ↔ c ∈ s.command.copies ∨ ∃ k ∈ s.workers, c ∈ k.copies := by
  simp [Sys.copies]

theorem inv_start {w : World} (hw : Filed w) : Inv (start w) :=
  ⟨⟨fun _ _ => rfl,fun _ hn => by simp [start] at hn,fun _ hg => by simp [start] at hg⟩,hw,
    fun c hc => by simp [start,mem_copies,Command.copies] at hc,
    fun job p action isNew h => by simp [start] at h⟩

theorem undisturbed_steady {s s' : Sys} (hu : Undisturbed s)
    (hw : Steady s.gone s.world s'.world) (hl : s'.left = s.left) (hd : s'.deleted = s.deleted)
    (hg : s'.gone = s.gone) : Undisturbed s' := by
  refine ⟨fun g i => ?_,fun n hn => ?_,fun g hm hex => ?_⟩
  · rw [hl,hw.content g i,hu.content g i]
  · rw [hd] at hn
    exact hw.absent n.1 n.2 (hu.profiles n hn)
  · rw [hg] at hm
    exact hu.groups g hm (hw.groups g hm hex)

/-- Steps that leave the record alone. -/
theorem inv_steady {s s' : Sys} (hi : Inv s) (hw : Steady s.gone s.world s'.world)
    (hl : s'.left = s.left) (hd : s'.deleted = s.deleted) (hg : s'.gone = s.gone)
    (hc : ∀ c ∈ s'.copies, Consistent s.world c ∨ Consistent s'.world c)
    (hp : ∀ job p action isNew, s'.command = .save job p action isNew →
      (p.groupId,p.id) ∉ s.deleted) : Inv s' :=
  ⟨undisturbed_steady hi.undisturbed hw hl hd hg,hw.filed,
    fun c hm => (hc c hm).elim (consistent_steady hw) id,
    fun job p action isNew h => hd ▸ hp job p action isNew h⟩

/-- A copy whose name an event does not touch stays true to what is stored. -/
theorem consistent_mark {w w' : World} {hit : RoutingProfile → Bool} {c : Copy}
    (hsame : hit c.profile = false → profileOn w' c.profile.groupId c.profile.id =
      profileOn w c.profile.groupId c.profile.id)
    (hc : Consistent w c) : Consistent w' (c.mark hit) := by
  intro ho
  simp only [Copy.mark,Bool.or_eq_false_iff] at ho ⊢
  rw [hsame ho.2]
  exact hc ho.1

theorem copies_marked {s : Sys} (w' : World) {hit : RoutingProfile → Bool}
    (hc : ∀ c ∈ s.copies, Consistent s.world c)
    (hsame : ∀ c ∈ s.copies, hit c.profile = false →
      profileOn w' c.profile.groupId c.profile.id =
        profileOn s.world c.profile.groupId c.profile.id) :
    ∀ c ∈ (s.overtake hit).copies, Consistent w' c := by
  intro c hm
  rw [copies_overtake] at hm
  obtain ⟨d,hd,rfl⟩ := List.mem_map.mp hm
  exact consistent_mark (hsame d hd) (hc d hd)

theorem mark_save {hit : RoutingProfile → Bool} {command : Command} {job : Job}
    {p : RoutingProfile} {action : Action} {isNew : Bool}
    (h : command.mark hit = .save job p action isNew) :
    ∃ job', command = .save job' p action isNew := by
  cases command <;> simp only [Command.mark,Command.save.injEq,reduceCtorEq] at h
  obtain ⟨rfl,rfl,rfl,rfl⟩ := h
  exact ⟨_,rfl⟩

theorem sameName_iff {p q : RoutingProfile} :
    sameName p q = true ↔ p.groupId = q.groupId ∧ p.id = q.id := by
  simp [sameName]

/-- An import leaves what it stored, and overtakes the copies of that profile. -/
theorem undisturbed_imports {s : Sys} {w : World} {p : RoutingProfile} (hi : Inv s)
    (hs : Saves true p s.world w) (hgone : p.groupId ∉ s.gone)
    (hdel : (p.groupId,p.id) ∉ s.deleted) :
    Undisturbed (s.imports p w) ∧ ∀ c ∈ (s.imports p w).copies, Consistent w c := by
  have hother : ∀ g i, ¬(g = p.groupId ∧ i = p.id) → profileOn w g i = profileOn s.world g i :=
    fun g i h => profileOn_congr hs.key (hs.other g i fun h' => h h'.2)
  refine ⟨⟨fun g i => ?_,fun n hn => ?_,fun g hm hex => ?_⟩,
    copies_marked w hi.copies fun c _ hhit => ?_⟩
  · simp only [Sys.imports]
    split
    · rename_i h
      rw [h.1,h.2,hs.own rfl,Option.map_some]
    · rename_i h
      rw [hother g i h,hi.undisturbed.content g i]
  · simp only [Sys.imports,Sys.overtake] at hn ⊢
    rw [hs.other n.1 n.2]
    · exact hi.undisturbed.profiles n hn
    · rintro ⟨-,h1,h2⟩
      exact hdel (by rw [← h1,← h2]; exact hn)
  · simp only [Sys.imports,Sys.overtake] at hm hex
    rcases hs.groups g hex with h | rfl
    · exact hi.undisturbed.groups g hm h
    · exact hgone hm
  · refine hother _ _ fun h => ?_
    rw [sameName_iff.mpr ⟨h.1.symm,h.2.symm⟩] at hhit
    simp at hhit

/-- A deletion leaves what is still there, and overtakes the copies of the rest. -/
theorem undisturbed_deletes {s : Sys} {w : World} (hi : Inv s) (hd : Drops s.world w) :
    Undisturbed (s.deletes w) ∧ ∀ c ∈ (s.deletes w).copies, Consistent w c := by
  have hkept : ∀ g i, (w.disk.lookup (.routingProfile g i)).isSome = true →
      profileOn w g i = profileOn s.world g i := by
    intro g i hs
    refine profileOn_congr hd.key ((hd.profiles g i).resolve_left fun hn => ?_)
    rw [hn] at hs
    simp at hs
  refine ⟨⟨fun g i => ?_,fun n hn => ?_,fun g hm hex => ?_⟩,
    copies_marked w hi.copies fun c _ hhit => ?_⟩
  · simp only [Sys.deletes]
    split
    · rename_i h
      rw [hkept g i h,hi.undisturbed.content g i]
    · rename_i h
      rw [profileOn_none (Option.not_isSome_iff_eq_none.mp h),Option.map_none]
  · simp only [Sys.deletes,List.mem_append,List.mem_filter] at hn ⊢
    rcases hn with hn | ⟨_,hn⟩
    · rcases hd.profiles n.1 n.2 with h | h
      · exact h
      · exact h.trans (hi.undisturbed.profiles n hn)
    · simpa using hn
  · simp only [Sys.deletes,Sys.overtake] at hm hex
    exact hi.undisturbed.groups g hm (hd.groups g hex)
  · exact hkept _ _ (by simpa using hhit)

theorem deleteGroup_others {gid g : ℤ} {i : String} {w : World} (hw : Filed w) (hg : g ≠ gid) :
    (deleteGroup gid w).2.disk.lookup (.routingProfile g i) =
      w.disk.lookup (.routingProfile g i) := by
  have hd := dropping_osRemoveAll (inGroupDir gid) w hw
  have hq := quiet_dropFromGroupOrder gid (osRemoveAll (inGroupDir gid) w).2 hd.filed
  have hkeep : (osRemoveAll (inGroupDir gid) w).2.disk.lookup (.routingProfile g i) =
      w.disk.lookup (.routingProfile g i) := by
    simp [osRemoveAll,lookup_removeAll,inGroupDir,Path.group?,hg]
  exact (hq.profiles g i).trans hkeep

theorem inv_deleteGroup {s : Sys} (gid : ℤ) (hi : Inv s) :
    Inv (s.deletesGroup gid (deleteGroup gid s.world).2) := by
  have hd := dropping_deleteGroup gid s.world hi.filed
  have hgone := @deleteGroup_gone gid _ hi.filed
  have hother : ∀ g i, g ≠ gid →
      profileOn (deleteGroup gid s.world).2 g i = profileOn s.world g i := fun g i hg =>
    profileOn_congr hd.key (deleteGroup_others hi.filed hg)
  refine ⟨⟨fun g i => ?_,fun n hn => ?_,fun g hm => ?_⟩,hd.filed,
    copies_marked (deleteGroup gid s.world).2 hi.copies fun c _ hhit => ?_,
    fun job p action isNew h => ?_⟩
  · simp only [Sys.deletesGroup]
    split
    · rename_i h
      subst h
      cases hp : profileOn (deleteGroup g s.world).2 g i with
      | none => rfl
      | some p => exact absurd (groupExists_of_profileOn hp) hgone
    · rename_i h
      rw [hother g i h,hi.undisturbed.content g i]
  · simp only [Sys.deletesGroup,Sys.overtake] at hn ⊢
    rcases hd.profiles n.1 n.2 with h | h
    · exact h
    · exact h.trans (hi.undisturbed.profiles n hn)
  · simp only [Sys.deletesGroup,Sys.overtake,List.mem_cons] at hm ⊢
    rcases hm with rfl | hm
    · exact hgone
    · exact fun hex => hi.undisturbed.groups g hm (hd.groups g hex)
  · exact hother _ _ (by simpa using hhit)
  · obtain ⟨job',h'⟩ := mark_save h
    exact hi.pending job' p action isNew h'

end Invariant

section Commands

theorem reads_find (gid : ℤ) (name : String) : Keeps Reads (findRoutingProfileByName gid name) := by
  refine reads_bind (fun w => (readsAs_listRoutingProfiles gid w).1) fun profiles => ?_
  split
  · exact keeps_pure reads_refl _
  · split
    · exact keeps_pure reads_refl _
    · exact keeps_fail reads_refl _

theorem find_stored {gid : ℤ} {name : String} {w w' : World} {p : RoutingProfile}
    (h : findRoutingProfileByName gid name w = (.ok p,w')) :
    ∃ id, profileOn w gid id = some p := by
  obtain ⟨profiles,w₁,hlist,hfind⟩ := bind_ok h
  have hv := (readsAs_listRoutingProfiles gid w).2
  rw [hlist] at hv
  have hprofiles := Option.some.inj hv
  have hmem : p ∈ profiles := by
    rcases hexact : profiles.find? (fun q => q.name = name) with _ | q
    · rcases hfold : profiles.find? (fun q => toLower q.name = toLower name) with _ | q <;>
        simp only [hexact,hfold] at hfind
      · simp at hfind
      · obtain rfl : q = p := Except.ok.inj (Prod.mk.inj hfind).1
        exact List.mem_of_find?_eq_some hfold
    · simp only [hexact] at hfind
      obtain rfl : q = p := Except.ok.inj (Prod.mk.inj hfind).1
      exact List.mem_of_find?_eq_some hexact
  rw [hprofiles,List.mem_insertionSort] at hmem
  simp only [List.mem_map,List.mem_filterMap] at hmem
  obtain ⟨⟨i,q⟩,⟨id,_,hq⟩,rfl⟩ := hmem
  obtain ⟨r,hr,he⟩ := Option.map_eq_some_iff.mp hq
  obtain ⟨rfl,rfl⟩ := Prod.mk.inj he
  exact ⟨_,hr⟩

theorem not_deleted {s : Sys} (hi : Inv s) {gid : ℤ} {id : String} {p : RoutingProfile}
    (hp : profileOn s.world gid id = some p) : (p.groupId,p.id) ∉ s.deleted := by
  intro hn
  obtain ⟨rfl,rfl⟩ := filed_routingProfile hi.filed hp
  rw [profileOn_none (hi.undisturbed.profiles _ hn)] at hp
  simp at hp

theorem collect_found {job : Job} {p : RoutingProfile} {c : Copy}
    (h : c ∈ (job.collect p).found) : c ∈ job.found ∨ c = ⟨p,false⟩ := by
  unfold Job.collect at h
  split at h
  · simpa using h
  · exact Or.inl h

theorem worker_found {job : Job} {k : Worker} {c : Copy} (hk : k ∈ job.worker)
    (hc : c ∈ k.copies) : c ∈ job.found := by
  unfold Job.worker at hk
  split at hk
  · simp at hk
  · rename_i d ds hf
    rw [List.mem_singleton] at hk
    subst hk
    rw [hf]
    simpa [Worker.copies,Phase.copies] using hc

theorem quiet_setActive (s : Sys) (gid : ℤ) (id : String) (hi : Inv s) :
    Steady s.gone s.world (setActiveRoutingProfile gid id s.world).2 :=
  steady_quiet s.gone hi.filed (quiet_setActiveRoutingProfile gid id s.world)

theorem inv_lookup {s : Sys} {job : Job} (newID : String) (hi : Inv s)
    (hj : ∀ c ∈ job.found, Consistent s.world c) (hk : ∀ k ∈ s.workers, ∀ c ∈ k.copies,
      Consistent s.world c) : Inv (lookupStep newID job s) := by
  have hself : Steady s.gone s.world s.world := steady_quiet s.gone hi.filed (quiet_refl _)
  have hcopies : ∀ {w : World} {command : Command}, (∀ c ∈ command.copies,
      Consistent s.world c) → ∀ c ∈ Sys.copies { s with world := w, command := command },
        Consistent s.world c ∨ Consistent w c := by
    intro w command hcommand c hc
    rcases mem_copies.mp hc with h | ⟨k,hm,h⟩
    · exact Or.inl (hcommand c h)
    · exact Or.inl (hk k hm c h)
  unfold lookupStep
  split
  · refine inv_steady hi hself rfl rfl rfl (fun c hc => ?_) (by simp)
    rcases mem_copies.mp hc with h | ⟨k,hm,h⟩
    · simp [Command.copies] at h
    · rcases List.mem_append.mp hm with hm | hm
      · exact Or.inl (hk k hm c h)
      · exact Or.inl (hj c (worker_found hm h))
  · exact inv_steady hi hself rfl rfl rfl (hcopies hj) (by simp)
  · exact inv_steady hi (quiet_setActive s job.gid "" hi) rfl rfl rfl (hcopies hj) (by simp)
  · rename_i action hp rest hlinks
    have hreads := reads_find job.gid hp.name s.world
    have hs := steady_quiet s.gone hi.filed (quiet_reads hreads)
    split
    · rename_i existing w hfind
      rw [hfind] at hs
      obtain ⟨id,hstored⟩ := find_stored hfind
      split
      · refine inv_steady hi hs rfl rfl rfl (hcopies fun c hc => ?_) (by simp)
        rcases collect_found hc with h | rfl
        · exact hj c h
        · exact consistent_read hi.filed hstored
      · refine inv_steady hi hs rfl rfl rfl (hcopies hj) fun job' p a n he => ?_
        obtain ⟨-,rfl,-,-⟩ := Command.save.inj he
        exact not_deleted (p := existing) hi hstored
    · rename_i e w hfind
      rw [hfind] at hs
      split
      · rename_i hfresh
        refine inv_steady hi hs rfl rfl rfl (hcopies hj) fun job' p a n he => ?_
        obtain ⟨-,rfl,-,-⟩ := Command.save.inj he
        simp only [Sys.fresh,Bool.and_eq_true,decide_eq_true_eq] at hfresh
        exact hfresh.2
      · exact hi

theorem inv_activate (geoURLs : RawMessage → Option (String × String)) {s : Sys} {gid : ℤ}
    {id : String} (hi : Inv s) (hk : ∀ k ∈ s.workers, ∀ c ∈ k.copies, Consistent s.world c) :
    Inv (activateStep geoURLs gid id s) := by
  have hreads := (readsAs_readEncryptedJSON (.routingProfile gid id)
    Payload.asRoutingProfile s.world).1
  have hs := steady_quiet s.gone hi.filed (quiet_reads hreads)
  change Steady s.gone s.world (loadRoutingProfile gid id s.world).2 at hs
  have hold : ∀ {w : World}, ∀ c ∈ Sys.copies { s with world := w, command := .idle },
      Consistent s.world c ∨ Consistent w c := by
    intro w c hc
    rcases mem_copies.mp hc with h | ⟨k,hm,h⟩
    · simp [Command.copies] at h
    · exact Or.inl (hk k hm c h)
  unfold activateStep
  split
  · rename_i e w hload
    rw [hload] at hs
    exact inv_steady hi hs rfl rfl rfl hold (by simp)
  · rename_i p w hload
    rw [hload] at hs
    obtain ⟨rfl,hp⟩ := load_ok hload
    simp only
    split
    · refine inv_steady hi hs rfl rfl rfl (fun c hc => ?_) (by simp)
      rcases mem_copies.mp hc with h | ⟨k,hm,h⟩
      · simp [Command.copies] at h
      · rcases List.mem_append.mp hm with hm | hm
        · exact Or.inl (hk k hm c h)
        · rw [List.mem_singleton] at hm
          subst hm
          obtain rfl : c = ⟨p,false⟩ := by simpa [Worker.copies,Phase.copies] using h
          exact Or.inl (consistent_read hi.filed hp)
    · exact inv_steady hi hs rfl rfl rfl hold (by simp)

theorem inv_save {s : Sys} {job : Job} {p : RoutingProfile} {action : Action} {isNew : Bool}
    (hi : Inv s) (hcommand : s.command = .save job p action isNew) (hgone : p.groupId ∉ s.gone) :
    Inv (match saveRoutingProfile p s.world with
      | (.error _,w) => { s with world := w, command := .lookup job }
      | (.ok _,w) =>
        { (s.imports p w) with
          command := .select ((job.mark (sameName p)).collect p) p action isNew }) := by
  have hdel := hi.pending job p action isNew hcommand
  have hs := saves_saveRoutingProfile p hi.filed
  rcases hr : saveRoutingProfile p s.world with ⟨e | u,w⟩ <;>
    simp only [hr,Except.toOption,Option.isSome_none,Option.isSome_some] at hs ⊢
  · have hsteady : Steady s.gone s.world w := by
      refine ⟨hs.filed,fun g i => ?_,fun g i hn => (hs.other g i (by simp)).trans hn,
        fun g hm hex => (hs.groups g hex).resolve_right ?_⟩
      · rw [profileOn_congr hs.key (hs.other g i (by simp))]
      · rintro rfl
        exact hgone hm
    refine inv_steady hi hsteady rfl rfl rfl (fun c hc => Or.inl (hi.copies c ?_)) (by simp)
    rw [mem_copies] at hc ⊢
    rw [hcommand]
    exact hc
  · obtain ⟨hu,hc⟩ := undisturbed_imports hi hs hgone hdel
    refine ⟨⟨hu.content,hu.profiles,hu.groups⟩,hs.filed,fun c hm => ?_,by simp⟩
    rcases mem_copies.mp hm with h | h
    · rcases collect_found h with h | rfl
      · refine hc c (mem_copies.mpr (Or.inl ?_))
        simp only [Sys.imports,Sys.overtake,hcommand,Command.mark,Command.copies]
        exact h
      · intro _
        exact congrArg (Option.map imported) (hs.own rfl)
    · exact hc c (mem_copies.mpr (Or.inr h))

theorem inv_delete {s : Sys} (gid : ℤ) (id : String) (hi : Inv s) :
    Inv { (s.deletes (deleteRoutingProfile gid id s.world).2) with command := .idle } := by
  have hd := dropping_deleteRoutingProfile gid id s.world hi.filed
  obtain ⟨hu,hc⟩ := undisturbed_deletes hi hd
  refine ⟨⟨hu.content,hu.profiles,hu.groups⟩,hd.filed,fun c hm => ?_,by simp⟩
  rcases mem_copies.mp hm with h | h
  · simp [Command.copies] at h
  · exact hc c (mem_copies.mpr (Or.inr h))

theorem inv_command (geoURLs : RawMessage → Option (String × String)) (newID : String) {s : Sys}
    (hi : Inv s) (hsafe : (Event.command newID).Safe s) : Inv (commandStep geoURLs newID s) := by
  have hk : ∀ k ∈ s.workers, ∀ c ∈ k.copies, Consistent s.world c := fun k hm c hc =>
    hi.copies c (mem_copies.mpr (Or.inr ⟨k,hm,hc⟩))
  have hcommand : ∀ c ∈ s.command.copies, Consistent s.world c := fun c hc =>
    hi.copies c (mem_copies.mpr (Or.inl hc))
  unfold commandStep
  cases hcmd : s.command with
  | idle => exact hi
  | lookup job => exact inv_lookup newID hi (by rw [hcmd] at hcommand; exact hcommand) hk
  | save job p action isNew =>
    simp only [Event.Safe,hcmd] at hsafe
    exact inv_save hi hcmd hsafe
  | select job p action isNew =>
    have hs := steady_quiet s.gone hi.filed (quiet_selectImported job.gid action isNew p s.world)
    refine inv_steady hi hs rfl rfl rfl (fun c hc => Or.inl ?_) (by simp)
    rcases mem_copies.mp hc with h | ⟨k,hm,h⟩
    · rw [hcmd] at hcommand
      exact hcommand c h
    · exact hk k hm c h
  | activate gid id => exact inv_activate geoURLs hi hk
  | delete gid id => exact inv_delete gid id hi

end Commands

section Runs

theorem quiet_activated (gid : ℤ) (id : String) : Keeps Quiet (activated gid id) := by
  refine quiet_bind (keeps_attempt (quiet_readsAs (readsAs_loadGroupConfig gid))) fun r => ?_
  cases r with
  | error e => exact keeps_pure quiet_refl _
  | ok group =>
    simp only
    split
    · exact keeps_pure quiet_refl _
    · exact quiet_bind (keeps_attempt (quiet_setActiveRoutingProfile gid _)) fun _ =>
        keeps_pure quiet_refl _

theorem quiet_mayDelete (gid : ℤ) (id : String) : Keeps Quiet (mayDelete gid id) := by
  refine quiet_bind (keeps_attempt (quiet_readsAs (readsAs_loadGroupConfig gid))) fun r => ?_
  cases r with
  | error e => exact keeps_pure quiet_refl _
  | ok group =>
    simp only
    split
    · exact keeps_pure quiet_refl _
    · exact quiet_bind (keeps_attempt (quiet_readsAs (readsAs_readEncryptedJSON _ _))) fun _ =>
        keeps_pure quiet_refl _

theorem inv_begin {s : Sys} {w : World} {command : Command} (hi : Inv s)
    (hw : Steady s.gone s.world w) (hc : command.copies = [])
    (hp : ∀ job p action isNew, command ≠ .save job p action isNew) :
    Inv { s with world := w, command := command } := by
  refine inv_steady hi hw rfl rfl rfl (fun c hm => ?_) fun job p a n h =>
    absurd h (hp job p a n)
  rcases mem_copies.mp hm with h | h
  · rw [hc] at h
    simp at h
  · exact Or.inl (hi.copies c (mem_copies.mpr (Or.inr h)))

theorem inv_worker (geoURLs : RawMessage → Option (String × String)) (n : ℕ) (i : Input) {s : Sys}
    (hi : Inv s) (hsafe : (Event.worker n i).Safe s) : Inv (workerStep geoURLs n i s) := by
  unfold workerStep
  split
  · exact hi
  · rename_i k hk
    have hmem : k ∈ s.workers := List.mem_of_getElem? hk
    simp only [Event.Safe,hk] at hsafe
    split
    · exact hi
    · obtain ⟨hs,hnext⟩ := worker_steady geoURLs i hi.filed
        (fun c hc => hi.copies c (mem_copies.mpr (Or.inr ⟨k,hmem,hc⟩))) hsafe
      rcases hr : k.step geoURLs i s.world with ⟨w,_ | k'⟩ <;> rw [hr] at hs hnext
      · refine inv_steady hi hs rfl rfl rfl (fun c hc => Or.inl (hi.copies c ?_))
          fun job p a n h => hi.pending job p a n h
        refine mem_copies.mpr ((mem_copies.mp hc).imp_right fun ⟨j,hj,hc⟩ => ⟨j,?_,hc⟩)
        exact List.mem_of_mem_eraseIdx hj
      · refine inv_steady hi hs rfl rfl rfl (fun c hc => ?_)
          fun job p a n h => hi.pending job p a n h
        rcases mem_copies.mp hc with h | ⟨j,hj,h⟩
        · exact Or.inl (hi.copies c (mem_copies.mpr (Or.inl h)))
        · rcases List.mem_or_eq_of_mem_set hj with hj | rfl
          · exact Or.inl (hi.copies c (mem_copies.mpr (Or.inr ⟨j,hj,h⟩)))
          · exact Or.inr (hnext j rfl c h)

theorem inv_step (geoURLs : RawMessage → Option (String × String)) {s : Sys} (e : Event)
    (hi : Inv s) (hsafe : e.Safe s) : Inv (e.step geoURLs s) := by
  have hself : Steady s.gone s.world s.world := steady_quiet s.gone hi.filed (quiet_refl _)
  cases e with
  | upsert gid links now =>
    simp only [Event.step]
    split
    · exact inv_begin hi hself rfl (by simp)
    · exact hi
  | setActive gid id =>
    simp only [Event.step]
    split
    · refine inv_begin hi (steady_quiet s.gone hi.filed (quiet_activated gid id s.world)) ?_ ?_ <;>
        split <;> simp [Command.copies]
    · exact hi
  | delete gid id =>
    simp only [Event.step]
    split
    · refine inv_begin hi (steady_quiet s.gone hi.filed (quiet_mayDelete gid id s.world)) ?_ ?_ <;>
        split <;> simp [Command.copies]
    · exact hi
  | command newID => exact inv_command geoURLs newID hi hsafe
  | deleteGroup gid => exact inv_deleteGroup gid hi
  | worker n i => exact inv_worker geoURLs n i hi hsafe

theorem inv_run (geoURLs : RawMessage → Option (String × String)) (es : List Event) {s : Sys}
    (hi : Inv s) (hsafe : SafeRun geoURLs es s) : Inv (runEvents geoURLs es s) := by
  induction es generalizing s with
  | nil => exact hi
  | cons e es ih => exact ih (inv_step geoURLs e hi hsafe.1) hsafe.2

/-- The text of a profile with a geo file of its own. -/
def customJSON : RawMessage := "\x7b\"Name\":\"ru\",\"Geoipurl\":\"https://a/geoip.dat\"\x7d"

def customURLs (raw : RawMessage) : Option (String × String) :=
  if raw = customJSON then some ("https://a/geoip.dat","") else none

/-- Its first download has failed. -/
def customProfile : RoutingProfile :=
  failed "HTTP status 503" (newProfile 1 "k3" ⟨"ru",none,"https://a/geoip.dat","",0,customJSON,
    ⟨"IPIfNonMatch",lanSelection.config.rules,none⟩⟩ 1)

/-- The directory of a new installation. -/
def configuredDirectory : World := store .dbConfig (.dbConfig ⟨0,[]⟩) emptyDirectory

def customDirectory : World :=
  ReadOnly.Op.run id (.saveRoutingProfile customProfile)
    (ReadOnly.Op.run id (.addGroup "work" "") configuredDirectory)

theorem built_customDirectory : Built id customDirectory := .op _ (.op _ (.fresh (by decide)))

def failing : Input := ⟨1,[],true,"HTTP status 503"⟩
def passing : Input := ⟨1,[],false,""⟩

end Runs

end Whoisthat.GeoWorkers
