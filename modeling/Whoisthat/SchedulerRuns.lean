import Whoisthat.SubscriptionSchedule

/-!
# Runs of the update scheduler

The scheduler beside manual updates and commands that add, delete and configure
groups. An update holds `subscription_mutex` from its start to its end, and
everything else goes on meanwhile. A log says what the scheduler has seen and
done; its maps are functions of the log.
-/

set_option autoImplicit false

namespace Whoisthat.SchedulerRuns
open Whoisthat.Records Whoisthat.GroupStore Whoisthat.SubscriptionSchedule

section Model

/-- Who holds `subscription_mutex`. -/
inductive Holder where
  | free
  | manual (groupID : ℤ)
  | background (t : UpdateTarget)
  deriving DecidableEq

/-- What the log keeps. -/
inductive Note where
  /-- The groups of the first listing, or of a tick. -/
  | listed (groups : List Group)
  | planned (now : ℤ) (groups : List Group)
  /-- A background attempt in the tick of `now`. -/
  | attempt (t : UpdateTarget) (now : ℤ)
  | failed (t : UpdateTarget) (now : ℤ)
  | succeeded (t : UpdateTarget)
  /-- Another update was running. -/
  | busy (t : UpdateTarget)
  /-- The group was not to be updated any more. -/
  | skipped (t : UpdateTarget) (g : Group)
  /-- A manual update that succeeded. -/
  | refreshed (groupID : ℤ)
  deriving DecidableEq

structure State where
  clock : ℤ
  groups : List Group
  lastGroupId : ℤ
  maps : Maps
  /-- The targets of the running tick that are left, and its time. -/
  queue : List UpdateTarget
  now : ℤ
  holder : Holder
  log : List Note

inductive Event where
  | pass (clock : ℤ)
  | addGroup (name url : String)
  | deleteGroup (id : ℤ)
  | updateGroup (id : ℤ) (name url : String) (autoUpdate : Option Bool) (interval : Option ℤ)
  | updateSubscription (id : ℤ)
  /-- The metadata of the response are saved before the profiles. -/
  | merge (f : SubscriptionFields)
  | finish (ok : Bool)
  /-- A tick, without the groups whose files cannot be read. -/
  | tick (unreadable : List ℤ)
  /-- The next target of the tick; its file may not be readable any more. -/
  | next (readable : Bool)

def unix (clock : ℤ) : ℤ := clock/second

def groupOf (id : ℤ) (gs : List Group) : Option Group := gs.find? fun g => g.id = id

def edit (id : ℤ) (f : Group → Group) (gs : List Group) : List Group :=
  gs.map fun g => if g.id = id then f g else g

def Holder.group? : Holder → Option ℤ
  | .free => none
  | .manual id => some id
  | .background t => some t.groupID

def Holder.background? : Holder → Option UpdateTarget
  | .background t => some t
  | _ => none

/-- The checks of `AutoUpdateSubscription` on the group, under the lock. -/
def wanted (t : UpdateTarget) (g : Group) (clock : ℤ) : Bool :=
  if Off g then false
  else if t.probe then effectiveUpdateInterval g ≤ 0
  else subscriptionDue g clock

/-- One more failure. -/
def bumped (m : Maps) (t : UpdateTarget) (now : ℤ) : Maps :=
  let failures := (m.retryOf t.groupID).failures+1
  m.setRetry t.groupID (some ⟨failures,some (now + backoffDuration failures)⟩)

def cleared (m : Maps) (t : UpdateTarget) : Maps :=
  let m := m.setRetry t.groupID none
  if t.probe then m.setProbe t.groupID false else m

def State.note (n : Note) (s : State) : State := { s with log := n::s.log }

def State.fails (t : UpdateTarget) (s : State) : State :=
  { s with maps := bumped s.maps t s.now, log := .failed t s.now::s.log }

/-- The loop of `autoUpdateTick` on its next target. -/
def State.take (t : UpdateTarget) (g : Option Group) (s : State) : State :=
  if s.holder ≠ .free then s.note (.busy t)
  else match g with
    | none => (s.note (.attempt t s.now)).fails t
    | some g =>
      if wanted t g s.clock then { s.note (.attempt t s.now) with holder := .background t }
      else s.note (.skipped t g)

/-- The end of an update that has succeeded, with the time stamp. -/
def State.refresh (id : ℤ) (s : State) : State :=
  { s with
    groups := edit id (fun g => { g with subLastUpdated := unix s.clock }) s.groups
    holder := .free }

def State.finish (ok : Bool) (s : State) : State :=
  match s.holder with
  | .free => s
  | .manual id =>
    if ok ∧ (groupOf id s.groups).isSome then (s.refresh id).note (.refreshed id)
    else { s with holder := .free }
  | .background t =>
    if ok ∧ (groupOf t.groupID s.groups).isSome then
      { (s.refresh t.groupID).note (.succeeded t) with maps := cleared s.maps t }
    else { s.fails t with holder := .free }

def State.tick (unreadable : List ℤ) (s : State) : State :=
  let listed := s.groups.filter fun g => g.id ∉ unreadable
  let r := planAutoUpdate listed s.clock s.maps
  { s with maps := r.1, queue := r.2, now := s.clock, log := .planned s.clock listed::s.log }

variable (subscriptionHost : String → String)

def State.step (s : State) : Event → State
  | .pass clock => { s with clock := max s.clock clock }
  | .addGroup name url =>
    { s with
      groups := s.groups ++ [newGroupConfig subscriptionHost (s.lastGroupId+1) name url]
      lastGroupId := s.lastGroupId+1 }
  | .deleteGroup id => { s with groups := s.groups.filter fun g => g.id ≠ id }
  | .updateGroup id name url autoUpdate interval =>
    { s with
      groups := edit id (fun g =>
        (editedGroup subscriptionHost g id name url autoUpdate interval).toOption.getD g) s.groups }
  | .updateSubscription id => if s.holder = .free then { s with holder := .manual id } else s
  | .merge f =>
    match s.holder.group? with
    | none => s
    | some id =>
      { s with groups := edit id (fun g => mergedFields g { f with lastUpdated := none }) s.groups }
  | .finish ok => s.finish ok
  | .tick unreadable =>
    if s.queue = [] ∧ s.holder.background? = none then s.tick unreadable else s
  | .next readable =>
    match s.queue with
    | [] => s
    | t::rest =>
      if s.holder.background? = none then
        { s with queue := rest }.take t (if readable then groupOf t.groupID s.groups else none)
      else s

def State.run (s : State) : List Event → State
  | [] => s
  | e::es => (s.step subscriptionHost e).run es

/-- `AutoUpdateLoop` before its first tick. -/
def start (clock : ℤ) (groups : List Group) (lastGroupId : ℤ) (listed : List Group) : State where
  clock := clock
  groups := groups
  lastGroupId := lastGroupId
  maps := ⟨fun id => listed.any fun g => g.id = id && !decide (Off g) && effectiveUpdateInterval g = 0,
    fun _ => none⟩
  queue := []
  now := clock
  holder := .free
  log := [.listed listed]

end Model

section Property

/-- Where the failures of a group stop counting in the scheduler: a background
update succeeded, or a tick found the group missing or switched off. -/
def codeEnds (id : ℤ) : Note → Bool
  | .succeeded t => t.groupID = id
  | .planned _ gs => !kept id gs
  | _ => false

/-- The last refresh that succeeded, manual or automatic. -/
def refreshEnds (id : ℤ) : Note → Bool
  | .succeeded t => t.groupID = id
  | .refreshed i => i = id
  | _ => false

/-- How often a group has failed since its count began, and the tick of the last
failure. -/
def streak (ends : ℤ → Note → Bool) (id : ℤ) : List Note → Option (ℕ × ℤ)
  | [] => none
  | n::older =>
    if ends id n then none
    else match n with
      | .failed t now =>
        if t.groupID = id then
          some (((streak ends id older).elim 0 Prod.fst)+1,now)
        else streak ends id older
      | _ => streak ends id older

def lastListed : List Note → List Group
  | [] => []
  | .listed gs::_ => gs
  | .planned _ gs::_ => gs
  | _::older => lastListed older

/-- No attempt before the back-off of the last failure is over. -/
def BackoffKept (ends : ℤ → Note → Bool) (log : List Note) : Prop :=
  ∀ newer t now older, log = newer ++ .attempt t now::older →
    ∀ r, streak ends t.groupID older = some r → r.2 + backoffDuration r.1 ≤ now

/-- The target of a due group was taken up: it was attempted, another update was
running, or the group had changed since the tick planned it. -/
def Handled (g : Group) (now : ℤ) (n : Note) : Prop :=
  n = .attempt ⟨g.id,false⟩ now ∨ n = .busy ⟨g.id,false⟩ ∨
    ∃ g', n = .skipped ⟨g.id,false⟩ g' ∧ g' ≠ g

/-- A due group without failures is taken up in the next tick. -/
def DueAttempted (subscriptionHost : String → String) (ends : ℤ → Note → Bool) (s : State) : Prop :=
  ∀ unreadable es, s.queue = [] → s.holder.background? = none →
    ((s.tick unreadable).run subscriptionHost es).queue = [] →
    ∀ g ∈ s.groups, g.id ∉ unreadable → subscriptionDue g s.clock = true →
      streak ends g.id s.log = none →
      ∃ newer, ((s.tick unreadable).run subscriptionHost es).log = newer ++ s.log ∧
        ∃ n ∈ newer, Handled g s.clock n

def ProbedOnce (log : List Note) : Prop := ∀ id, log.count (.succeeded ⟨id,true⟩) ≤ 1

/-- The ids in the maps are those of groups in the list. -/
def MapsWithin (m : Maps) (gs : List Group) : Prop :=
  ∀ id, m.probes id = true ∨ (m.retry id).isSome → ∃ g ∈ gs, g.id = id

/-- A daemon that starts; the listing may have failed for some of the groups. -/
structure Begun (clock : ℤ) (groups : List Group) (lastGroupId : ℤ) (listed : List Group) :
    Prop where
  clock : second ≤ clock
  nodup : (groups.map Group.id).Nodup
  ids : ∀ g ∈ groups, g.id ≤ lastGroupId
  listed : ∀ g ∈ listed, g ∈ groups

end Property

section Streaks

variable {ends : ℤ → Note → Bool} {id : ℤ} {log : List Note}

/-- A note that neither ends a count nor is a failure. -/
def Note.quiet : Note → Bool
  | .busy _ => true
  | .skipped _ _ => true
  | .refreshed _ => true
  | .attempt _ _ => true
  | _ => false

theorem streak_quiet {n : Note} (h : n.quiet = true) :
    streak codeEnds id (n::log) = streak codeEnds id log := by
  cases n <;> first | rfl | exact nomatch h

theorem lastListed_quiet {n : Note} (h : n.quiet = true) :
    lastListed (n::log) = lastListed log := by
  cases n <;> first | rfl | exact nomatch h

theorem streak_failed (t : UpdateTarget) (now : ℤ) :
    streak codeEnds id (.failed t now::log) =
      if t.groupID = id then some (((streak codeEnds id log).elim 0 Prod.fst)+1,now)
      else streak codeEnds id log := rfl

theorem streak_succeeded (t : UpdateTarget) :
    streak codeEnds id (.succeeded t::log) =
      if t.groupID = id then none else streak codeEnds id log := by
  by_cases h : t.groupID = id <;> simp [streak,codeEnds,h]

theorem streak_planned (now : ℤ) (gs : List Group) :
    streak codeEnds id (.planned now gs::log) =
      if kept id gs then streak codeEnds id log else none := by
  by_cases h : kept id gs = true <;> simp [streak,codeEnds,h]

/-- Only a new attempt has to be checked. -/
theorem backoffKept_cons {n : Note} (h : BackoffKept ends log)
    (hn : ∀ t now, n = .attempt t now → ∀ r, streak ends t.groupID log = some r →
      r.2 + backoffDuration r.1 ≤ now) : BackoffKept ends (n::log) := by
  intro newer t now older he r hr
  cases newer with
  | nil =>
    obtain ⟨rfl,rfl⟩ := List.cons.inj he
    exact hn t now rfl r hr
  | cons m newer => exact h newer t now older (List.cons.inj he).2 r hr

theorem probedOnce_cons {n : Note} (h : ProbedOnce log)
    (hn : ∀ id, n = .succeeded ⟨id,true⟩ → n ∉ log) : ProbedOnce (n::log) := by
  intro id
  by_cases he : n = .succeeded ⟨id,true⟩
  · rw [← he,List.count_cons_self,List.count_eq_zero.mpr (hn id he)]
  · rw [List.count_cons_of_ne he]
    exact h id

end Streaks

section Invariant

def retryAfter (r : ℕ × ℤ) : RetryState := ⟨r.1,some (r.2 + backoffDuration r.1)⟩

structure Inv (s : State) : Prop where
  clock : second ≤ s.clock
  now : s.now ≤ s.clock
  nodup : (s.groups.map Group.id).Nodup
  ids : ∀ g ∈ s.groups, g.id ≤ s.lastGroupId
  listedIds : ∀ g ∈ lastListed s.log, g.id ≤ s.lastGroupId
  /-- The retry map is what the log says. -/
  retry : ∀ id, s.maps.retry id = (streak codeEnds id s.log).map retryAfter
  /-- The targets of a tick are not in their back-off. -/
  waited : ∀ t ∈ s.queue, ∀ r, streak codeEnds t.groupID s.log = some r →
    r.2 + backoffDuration r.1 ≤ s.now
  targets : (s.queue.map UpdateTarget.groupID).Nodup
  running : ∀ t, s.holder.background? = some t → t.groupID ∉ s.queue.map UpdateTarget.groupID
  maps : MapsWithin s.maps (lastListed s.log)
  queued : ∀ t ∈ s.queue, ∃ g ∈ lastListed s.log, g.id = t.groupID
  held : ∀ t, s.holder.background? = some t → ∃ g ∈ lastListed s.log, g.id = t.groupID
  /-- A group that was probed is not probed again. -/
  probed : ∀ id, .succeeded ⟨id,true⟩ ∈ s.log → s.maps.probes id = false ∧
    (∀ g ∈ s.groups, g.id = id → g.subLastUpdated ≠ 0) ∧ ⟨id,true⟩ ∉ s.queue ∧
    s.holder.background? ≠ some ⟨id,true⟩ ∧ id ≤ s.lastGroupId
  once : ProbedOnce s.log
  backoff : BackoffKept codeEnds s.log

variable {s : State}

/-- Commands and the clock leave the scheduler alone, and never take the time
stamp of a group away. -/
structure Changed (s s' : State) : Prop where
  log : s'.log = s.log
  maps : s'.maps = s.maps
  queue : s'.queue = s.queue
  now : s'.now = s.now
  clock : s.clock ≤ s'.clock
  lastGroupId : s.lastGroupId ≤ s'.lastGroupId
  nodup : (s'.groups.map Group.id).Nodup
  ids : ∀ g ∈ s'.groups, g.id ≤ s'.lastGroupId
  stamped : ∀ g' ∈ s'.groups, g'.subLastUpdated = 0 →
    s.lastGroupId < g'.id ∨ ∃ g ∈ s.groups, g.id = g'.id ∧ g.subLastUpdated = 0
  holder : s'.holder.background? = none ∨ s'.holder.background? = s.holder.background?

theorem inv_changed {s' : State} (hi : Inv s) (h : Changed s s') : Inv s' where
  clock := hi.clock.trans h.clock
  now := by
    rw [h.now]
    exact hi.now.trans h.clock
  nodup := h.nodup
  ids := h.ids
  listedIds g hg := (hi.listedIds g (h.log ▸ hg)).trans h.lastGroupId
  retry id := by rw [h.maps,h.log,hi.retry]
  waited := by
    rw [h.queue,h.log,h.now]
    exact hi.waited
  targets := h.queue ▸ hi.targets
  running t ht := by
    rw [h.queue]
    rcases h.holder with hn | hs
    · exact nomatch hn.symm.trans ht
    · exact hi.running t (hs ▸ ht)
  maps := by
    rw [h.maps,h.log]
    exact hi.maps
  queued := by
    rw [h.queue,h.log]
    exact hi.queued
  held t ht := by
    rw [h.log]
    rcases h.holder with hn | hs
    · exact nomatch hn.symm.trans ht
    · exact hi.held t (hs ▸ ht)
  probed id hm := by
    obtain ⟨hp,hl,hq,hh,hle⟩ := hi.probed id (h.log ▸ hm)
    refine ⟨h.maps ▸ hp,fun g' hg' he hz => ?_,h.queue ▸ hq,fun ht => ?_,hle.trans h.lastGroupId⟩
    · rcases h.stamped g' hg' hz with hlt | ⟨g,hg,hid,hz⟩
      · omega
      · exact hl g hg (hid.trans he) hz
    · rcases h.holder with hn | hs
      · exact nomatch hn.symm.trans ht
      · exact hh (hs ▸ ht)
  once := h.log ▸ hi.once
  backoff := h.log ▸ hi.backoff

/-- A note that the scheduler does not act on. -/
theorem inv_note {n : Note} (hi : Inv s) (hq : n.quiet = true)
    (hn : ∀ t now, n = .attempt t now → ∀ r, streak codeEnds t.groupID s.log = some r →
      r.2 + backoffDuration r.1 ≤ now) : Inv (s.note n) where
  clock := hi.clock
  now := hi.now
  nodup := hi.nodup
  ids := hi.ids
  listedIds := by
    rw [State.note,lastListed_quiet hq]
    exact hi.listedIds
  retry id := by
    rw [State.note,streak_quiet hq]
    exact hi.retry id
  waited t ht := by
    rw [State.note,streak_quiet hq]
    exact hi.waited t ht
  targets := hi.targets
  running := hi.running
  maps := by
    rw [State.note,lastListed_quiet hq]
    exact hi.maps
  queued := by
    rw [State.note,lastListed_quiet hq]
    exact hi.queued
  held := by
    rw [State.note,lastListed_quiet hq]
    exact hi.held
  probed id hm := by
    refine hi.probed id ((List.mem_cons.mp hm).resolve_left fun he => ?_)
    rw [← he] at hq
    exact nomatch hq
  once := probedOnce_cons hi.once fun id he => by
    rw [he] at hq
    exact nomatch hq
  backoff := backoffKept_cons hi.backoff hn

end Invariant

section Steps

variable {s : State} {t : UpdateTarget}

theorem failures_of_retry (hi : Inv s) (id : ℤ) :
    (s.maps.retryOf id).failures = (streak codeEnds id s.log).elim 0 Prod.fst := by
  rw [Maps.retryOf,hi.retry]
  cases streak codeEnds id s.log <;> rfl

theorem inv_fails (hi : Inv s) (ht : t.groupID ∉ s.queue.map UpdateTarget.groupID)
    (hl : ∃ g ∈ lastListed s.log, g.id = t.groupID) : Inv (s.fails t) where
  clock := hi.clock
  now := hi.now
  nodup := hi.nodup
  ids := hi.ids
  listedIds := hi.listedIds
  retry id := by
    rw [State.fails,streak_failed,bumped,setRetry_retry,failures_of_retry hi]
    by_cases h : id = t.groupID
    · rw [if_pos h,if_pos h.symm,h]
      rfl
    · rw [if_neg h,if_neg (Ne.symm h),hi.retry]
  waited t' ht' r hr := by
    have hne : t.groupID ≠ t'.groupID := fun he => ht (he ▸ List.mem_map_of_mem ht')
    rw [State.fails,streak_failed,if_neg hne] at hr
    exact hi.waited t' ht' r hr
  targets := hi.targets
  running := hi.running
  maps id h := by
    by_cases he : id = t.groupID
    · exact he ▸ hl
    · refine hi.maps id (h.imp_right fun h => ?_)
      simpa [State.fails,bumped,he] using h
  queued := hi.queued
  held := hi.held
  probed id hm := hi.probed id ((List.mem_cons.mp hm).resolve_left nofun)
  once := probedOnce_cons hi.once nofun
  backoff := backoffKept_cons hi.backoff nofun

theorem unix_pos {clock : ℤ} (h : second ≤ clock) : unix clock ≠ 0 := by
  have : 1 ≤ clock/second := by
    rw [Int.le_ediv_iff_mul_le (by decide)]
    omega
  unfold unix
  omega

theorem edit_ids {id : ℤ} {f : Group → Group} (hf : ∀ g, (f g).id = g.id) (gs : List Group) :
    (edit id f gs).map Group.id = gs.map Group.id := by
  rw [edit,List.map_map]
  refine List.map_congr_left fun g _ => ?_
  show (if g.id = id then f g else g).id = g.id
  split
  · exact hf g
  · rfl

theorem mem_edit {id : ℤ} {f : Group → Group} {gs : List Group} {g' : Group}
    (h : g' ∈ edit id f gs) : g' ∈ gs ∨ ∃ g ∈ gs, g.id = id ∧ f g = g' := by
  obtain ⟨g,hg,rfl⟩ := List.mem_map.mp h
  split
  · rename_i he
    exact .inr ⟨g,hg,he,rfl⟩
  · exact .inl hg

/-- A group is edited in place, and keeps the time stamp it has. -/
theorem changed_edit (hi : Inv s) {id : ℤ} {f : Group → Group} {holder : Holder}
    (hf : ∀ g, (f g).id = g.id) (hl : ∀ g, (f g).subLastUpdated = 0 → g.subLastUpdated = 0)
    (hh : holder.background? = none ∨ holder.background? = s.holder.background?) :
    Changed s { s with groups := edit id f s.groups, holder := holder } where
  log := rfl
  maps := rfl
  queue := rfl
  now := rfl
  clock := le_refl _
  lastGroupId := le_refl _
  nodup := by
    rw [edit_ids hf]
    exact hi.nodup
  ids g' hg' := by
    rcases mem_edit hg' with hg | ⟨g,hg,-,rfl⟩
    · exact hi.ids g' hg
    · rw [hf]
      exact hi.ids g hg
  stamped g' hg' hz := by
    rcases mem_edit hg' with hg | ⟨g,hg,-,rfl⟩
    · exact .inr ⟨g',hg,rfl,hz⟩
    · exact .inr ⟨g,hg,(hf g).symm,hl g hz⟩
  holder := hh

theorem changed_refresh (hi : Inv s) (id : ℤ) : Changed s (s.refresh id) :=
  changed_edit hi (fun _ => rfl) (fun _ h => absurd h (unix_pos hi.clock)) (.inl rfl)

theorem inv_succeeded (hi : Inv s) (ht : s.holder = .background t) :
    Inv { (s.refresh t.groupID).note (.succeeded t) with maps := cleared s.maps t } := by
  have hb : s.holder.background? = some t := by rw [ht]; rfl
  have hr := inv_changed hi (changed_refresh hi t.groupID)
  obtain ⟨g₀,hg₀,hid₀⟩ := hi.held t hb
  have hnew : ∀ g ∈ (s.refresh t.groupID).groups, g.id = t.groupID → g.subLastUpdated ≠ 0 := by
    intro g' hg' he
    obtain ⟨g,hg,rfl⟩ := List.mem_map.mp hg'
    split at he
    · rename_i h
      rw [if_pos h]
      exact unix_pos hi.clock
    · rename_i h
      exact absurd he h
  have hprobes : ∀ id, (cleared s.maps t).probes id = true → s.maps.probes id = true := by
    intro id h
    unfold cleared at h
    split at h
    · rw [setProbe_probes] at h
      split at h
      · exact nomatch h
      · exact h
    · exact h
  have hretry : ∀ id, (cleared s.maps t).retry id =
      if id = t.groupID then none else s.maps.retry id := by
    intro id
    unfold cleared
    split <;> rfl
  have hne : ∀ t' ∈ s.queue, t.groupID ≠ t'.groupID := fun t' ht' he =>
    hi.running t hb (he ▸ List.mem_map_of_mem ht')
  constructor
  · exact hi.clock
  · exact hi.now
  · exact hr.nodup
  · exact hr.ids
  · exact hi.listedIds
  · intro id
    rw [hretry,State.note,streak_succeeded]
    by_cases h : id = t.groupID
    · rw [if_pos h,if_pos h.symm]
      rfl
    · rw [if_neg h,if_neg (Ne.symm h)]
      exact hi.retry id
  · intro t' ht' r hs
    rw [State.note,streak_succeeded,if_neg (hne t' ht')] at hs
    exact hi.waited t' ht' r hs
  · exact hi.targets
  · exact nofun
  · refine fun id h => hi.maps id (h.imp (hprobes id) fun h => ?_)
    dsimp only at h
    rw [hretry] at h
    split at h
    · exact nomatch h
    · exact h
  · exact hi.queued
  · exact nofun
  · intro id hm
    by_cases he : t = ⟨id,true⟩
    · subst he
      refine ⟨by simp [cleared],hnew,fun hq => hne _ hq rfl,nofun,?_⟩
      exact hid₀.symm.le.trans (hi.listedIds g₀ hg₀)
    · have hold : Note.succeeded ⟨id,true⟩ ∈ s.log :=
        (List.mem_cons.mp hm).resolve_left fun h => he (Note.succeeded.inj h).symm
      obtain ⟨hp,hl,hq,-,hle⟩ := hr.probed id hold
      refine ⟨?_,hl,hq,nofun,hle⟩
      by_contra hc
      rw [Bool.not_eq_false] at hc
      exact nomatch (hprobes id hc).symm.trans hp
  · refine probedOnce_cons hi.once fun id he hm => ?_
    obtain rfl := Note.succeeded.inj he
    exact (hi.probed id hm).2.2.2.1 hb
  · exact backoffKept_cons hi.backoff nofun

theorem inv_finish (hi : Inv s) (ok : Bool) : Inv (s.finish ok) := by
  unfold State.finish
  cases hh : s.holder with
  | free => exact hi
  | manual id =>
    dsimp only
    split
    · exact inv_note (inv_changed hi (changed_refresh hi id)) rfl nofun
    · exact inv_changed hi ⟨rfl,rfl,rfl,rfl,le_refl _,le_refl _,hi.nodup,hi.ids,
        fun g hg hz => .inr ⟨g,hg,rfl,hz⟩,.inl rfl⟩
  | background t =>
    have hb : s.holder.background? = some t := by rw [hh]; rfl
    dsimp only
    split
    · exact inv_succeeded hi hh
    · have hf := inv_fails hi (hi.running t hb) (hi.held t hb)
      exact inv_changed hf ⟨rfl,rfl,rfl,rfl,le_refl _,le_refl _,hf.nodup,hf.ids,
        fun g hg hz => .inr ⟨g,hg,rfl,hz⟩,.inl rfl⟩

end Steps

section Ticks

variable {s : State}

/-- What a tick lists. -/
def readable (unreadable : List ℤ) (s : State) : List Group :=
  s.groups.filter fun g => g.id ∉ unreadable

theorem readable_nodup (hi : Inv s) (unreadable : List ℤ) :
    ((readable unreadable s).map Group.id).Nodup :=
  hi.nodup.sublist (List.filter_sublist.map _)

theorem not_pending {id : ℤ} (hi : Inv s) (h : retryPending (s.maps.retryOf id) s.clock = false)
    {r : ℕ × ℤ} (hr : streak codeEnds id s.log = some r) :
    r.2 + backoffDuration r.1 ≤ s.clock := by
  rw [Maps.retryOf,hi.retry,hr] at h
  simpa [retryPending,retryAfter] using h

theorem maps_tick (s : State) (unreadable : List ℤ) :
    MapsWithin (s.tick unreadable).maps (readable unreadable s) := fun _ h => plan_listed h

theorem inv_tick (hi : Inv s) (unreadable : List ℤ) (hh : s.holder.background? = none) :
    Inv (s.tick unreadable) := by
  have hnodup := readable_nodup hi unreadable
  have hlisted : ∀ g ∈ readable unreadable s, g ∈ s.groups := fun g hg => List.mem_of_mem_filter hg
  constructor
  · exact hi.clock
  · exact le_refl _
  · exact hi.nodup
  · exact hi.ids
  · exact fun g hg => hi.ids g (hlisted g hg)
  · intro id
    show (planAutoUpdate (readable unreadable s) s.clock s.maps).1.retry id =
      (streak codeEnds id (.planned s.clock (readable unreadable s)::s.log)).map retryAfter
    rw [plan_retry hnodup,streak_planned,hi.retry]
    split <;> rfl
  · intro t ht r hr
    obtain ⟨g,hg,hid,-,hpend,-⟩ := plan_target hnodup ht
    have hs : streak codeEnds t.groupID (.planned s.clock (readable unreadable s)::s.log) = some r := hr
    rw [streak_planned] at hs
    split at hs
    · exact not_pending hi (hid ▸ hpend) (hid ▸ hs)
    · exact nomatch hs
  · exact plan_targets_nodup hnodup
  · exact fun t ht => nomatch hh.symm.trans ht
  · exact maps_tick s unreadable
  · intro t ht
    obtain ⟨g,hg,hid,-⟩ := plan_target hnodup ht
    exact ⟨g,hg,hid.symm⟩
  · exact fun t ht => nomatch hh.symm.trans ht
  · intro id hm
    obtain ⟨hp,hl,-,-,hle⟩ := hi.probed id ((List.mem_cons.mp hm).resolve_left nofun)
    refine ⟨plan_probes hnodup hp fun g hg => hl g (hlisted g hg),hl,fun hq => ?_,
      fun ht => (nomatch hh.symm.trans ht),hle⟩
    obtain ⟨g,hg,hid,-,-,hprobe⟩ := plan_target hnodup hq
    have hid' : id = g.id := hid
    rcases hprobe rfl with h | h
    · rw [← hid',hp] at h
      exact nomatch h
    · exact hl g (hlisted g hg) hid'.symm h
  · exact probedOnce_cons hi.once nofun
  · exact backoffKept_cons hi.backoff nofun

/-- The tick goes on without its first target. -/
theorem inv_rest {t : UpdateTarget} {rest : List UpdateTarget} (hi : Inv s)
    (hq : s.queue = t::rest) : Inv { s with queue := rest } ∧
      t.groupID ∉ rest.map UpdateTarget.groupID ∧ (∃ g ∈ lastListed s.log, g.id = t.groupID) ∧
      (∀ r, streak codeEnds t.groupID s.log = some r → r.2 + backoffDuration r.1 ≤ s.now) ∧
      ∀ id, .succeeded ⟨id,true⟩ ∈ s.log → t ≠ ⟨id,true⟩ := by
  have hsub : ∀ t' ∈ rest, t' ∈ s.queue := fun t' ht' => hq ▸ List.mem_cons_of_mem _ ht'
  have hmem : t ∈ s.queue := hq ▸ List.mem_cons_self
  have hnodup := hi.targets
  rw [hq,List.map_cons] at hnodup
  obtain ⟨hne,hrest⟩ := List.nodup_cons.mp hnodup
  refine ⟨{ hi with
    waited := fun t' ht' => hi.waited t' (hsub t' ht')
    targets := hrest
    running := fun t' ht' hm => hi.running t' ht' (hq ▸ List.mem_cons_of_mem _ hm)
    queued := fun t' ht' => hi.queued t' (hsub t' ht')
    probed := fun id hm => ?_ },hne,hi.queued t hmem,hi.waited t hmem,fun id hm he => ?_⟩
  · obtain ⟨hp,hl,hn,hh,hle⟩ := hi.probed id hm
    exact ⟨hp,hl,fun hc => hn (hsub _ hc),hh,hle⟩
  · exact (hi.probed id hm).2.2.1 (he ▸ hmem)

theorem inv_next {t : UpdateTarget} {rest : List UpdateTarget} (hi : Inv s)
    (hq : s.queue = t::rest) (g : Option Group) :
    Inv ({ s with queue := rest }.take t g) := by
  obtain ⟨hr,hne,hl,hw,hs⟩ := inv_rest hi hq
  have hattempt : Inv (State.note (.attempt t s.now) { s with queue := rest }) := by
    refine inv_note hr rfl fun t' now he r hstreak => ?_
    obtain ⟨rfl,rfl⟩ := Note.attempt.inj he
    exact hw r hstreak
  unfold State.take
  split
  · exact inv_note hr rfl nofun
  · cases g with
    | none => exact inv_fails hattempt hne hl
    | some g =>
      dsimp only
      split
      · exact { hattempt with
          running := fun t' ht' => Option.some.inj ht' ▸ hne
          held := fun t' ht' => Option.some.inj ht' ▸ hl
          probed := fun id hm => by
            obtain ⟨hp,hlast,hqueue,-,hle⟩ := hattempt.probed id hm
            refine ⟨hp,hlast,hqueue,fun he => ?_,hle⟩
            exact hs id ((List.mem_cons.mp hm).resolve_left nofun) (Option.some.inj he) }
      · exact inv_note hr rfl nofun

variable (subscriptionHost : String → String)

theorem inv_step (hi : Inv s) (e : Event) : Inv (s.step subscriptionHost e) := by
  cases e with
  | pass clock =>
    exact inv_changed hi ⟨rfl,rfl,rfl,rfl,le_max_left _ _,le_refl _,hi.nodup,hi.ids,
      fun g hg hz => .inr ⟨g,hg,rfl,hz⟩,.inr rfl⟩
  | addGroup name url =>
    have hnew : (newGroupConfig subscriptionHost (s.lastGroupId+1) name url).id =
      s.lastGroupId+1 := rfl
    have hids : ∀ g ∈ s.groups ++ [newGroupConfig subscriptionHost (s.lastGroupId+1) name url],
        g ∈ s.groups ∨ g.id = s.lastGroupId+1 := by
      intro g hg
      rcases List.mem_append.mp hg with h | h
      · exact .inl h
      · exact .inr (List.mem_singleton.mp h ▸ hnew)
    refine inv_changed hi ⟨rfl,rfl,rfl,rfl,le_refl _,by simp [State.step],?_,?_,?_,.inr rfl⟩
    · show (List.map Group.id (s.groups ++ [_])).Nodup
      rw [List.map_append,List.map_singleton,hnew]
      refine List.nodup_append.mpr ⟨hi.nodup,List.nodup_singleton _,?_⟩
      rintro a ha b hb rfl
      obtain ⟨g,hg,rfl⟩ := List.mem_map.mp ha
      have := hi.ids g hg
      have := List.mem_singleton.mp hb
      omega
    · intro g hg
      show g.id ≤ s.lastGroupId+1
      rcases hids g hg with h | h
      · exact (hi.ids g h).trans (by omega)
      · omega
    · intro g hg hz
      rcases hids g hg with h | h
      · exact .inr ⟨g,h,rfl,hz⟩
      · exact .inl (by omega)
  | deleteGroup id =>
    refine inv_changed hi ⟨rfl,rfl,rfl,rfl,le_refl _,le_refl _,?_,?_,?_,.inr rfl⟩
    · exact hi.nodup.sublist (List.filter_sublist.map _)
    · exact fun g hg => hi.ids g (List.mem_of_mem_filter hg)
    · exact fun g hg hz => .inr ⟨g,List.mem_of_mem_filter hg,rfl,hz⟩
  | updateGroup id name url autoUpdate interval =>
    have hedit : ∀ g : Group,
        ((editedGroup subscriptionHost g id name url autoUpdate interval).toOption.getD g).id =
            g.id ∧
          ((editedGroup subscriptionHost g id name url autoUpdate interval).toOption.getD
            g).subLastUpdated = g.subLastUpdated := by
      intro g
      unfold editedGroup
      dsimp only
      split <;> exact ⟨rfl,rfl⟩
    exact inv_changed hi (changed_edit hi (fun g => (hedit g).1) (fun g h => (hedit g).2 ▸ h)
      (.inr rfl))
  | updateSubscription id =>
    show Inv (if _ then _ else _)
    split
    · exact inv_changed hi ⟨rfl,rfl,rfl,rfl,le_refl _,le_refl _,hi.nodup,hi.ids,
        fun g hg hz => .inr ⟨g,hg,rfl,hz⟩,.inl rfl⟩
    · exact hi
  | merge f =>
    unfold State.step
    dsimp only
    split
    · exact hi
    · refine inv_changed hi (changed_edit hi (fun g => mergedFields_id g _) (fun g h => ?_)
        (.inr rfl))
      unfold mergedFields retitled at h
      split at h
      · exact h
      · split_ifs at h <;> exact h
  | finish ok => exact inv_finish hi ok
  | tick unreadable =>
    unfold State.step
    dsimp only
    split
    · rename_i h
      exact inv_tick hi unreadable h.2
    · exact hi
  | next readable =>
    unfold State.step
    dsimp only
    split
    · exact hi
    · rename_i t rest hq
      split
      · exact inv_next hi hq _
      · exact hi

theorem inv_run (es : List Event) (hi : Inv s) : Inv (s.run subscriptionHost es) := by
  induction es generalizing s with
  | nil => exact hi
  | cons e es ih => exact ih (inv_step subscriptionHost hi e)

theorem inv_start {clock lastGroupId : ℤ} {groups listed : List Group}
    (h : Begun clock groups lastGroupId listed) : Inv (start clock groups lastGroupId listed) where
  clock := h.clock
  now := le_refl _
  nodup := h.nodup
  ids := h.ids
  listedIds g hg := h.ids g (h.listed g hg)
  retry id := rfl
  waited t ht := nomatch ht
  targets := List.nodup_nil
  running t ht := nomatch ht
  maps id hm := by
    rcases hm with hm | hm
    · obtain ⟨g,hg,hk⟩ := List.any_eq_true.mp hm
      simp only [Bool.and_eq_true,decide_eq_true_eq] at hk
      exact ⟨g,hg,hk.1.1⟩
    · exact nomatch hm
  queued t ht := nomatch ht
  held t ht := nomatch ht
  probed id hm := by
    rcases List.mem_cons.mp hm with hm | hm <;> exact nomatch hm
  once id := by
    rw [show (start clock groups lastGroupId listed).log = [.listed listed] from rfl]
    simp
  backoff newer t now older he := by
    have hm : Note.attempt t now ∈ (start clock groups lastGroupId listed).log := by
      rw [he]
      simp
    rcases List.mem_cons.mp hm with hm | hm <;> exact nomatch hm

end Ticks

section Due

variable {s : State}

/-- The log grows, and the targets and the time of the tick stay. -/
structure Grows (s s' : State) : Prop where
  log : ∃ newer, s'.log = newer ++ s.log
  queue : s'.queue = s.queue
  now : s'.now = s.now
  clock : s.clock ≤ s'.clock

theorem grows_same {s' : State} (hl : s'.log = s.log) (hq : s'.queue = s.queue)
    (hn : s'.now = s.now) (hc : s.clock ≤ s'.clock) : Grows s s' := ⟨⟨[],hl⟩,hq,hn,hc⟩

theorem grows_note (s : State) (n : Note) : Grows s (s.note n) := ⟨⟨[n],rfl⟩,rfl,rfl,le_refl _⟩

theorem grows_finish (ok : Bool) : Grows s (s.finish ok) := by
  unfold State.finish
  cases s.holder with
  | free => exact grows_same rfl rfl rfl (le_refl _)
  | manual id =>
    dsimp only
    split
    · exact ⟨⟨[.refreshed id],rfl⟩,rfl,rfl,le_refl _⟩
    · exact grows_same rfl rfl rfl (le_refl _)
  | background t =>
    dsimp only
    split
    · exact ⟨⟨[.succeeded t],rfl⟩,rfl,rfl,le_refl _⟩
    · exact ⟨⟨[.failed t s.now],rfl⟩,rfl,rfl,le_refl _⟩

theorem grows_take (t : UpdateTarget) (g : Option Group) : Grows s (s.take t g) := by
  unfold State.take
  split
  · exact grows_note s _
  · cases g with
    | none => exact ⟨⟨[.failed t s.now,.attempt t s.now],rfl⟩,rfl,rfl,le_refl _⟩
    | some g =>
      dsimp only
      split
      · exact ⟨⟨[.attempt t s.now],rfl⟩,rfl,rfl,le_refl _⟩
      · exact grows_note s _

/-- The target of a due group is taken up. -/
theorem take_handled {g : Group} {readable : Bool} (hg : subscriptionDue g s.now = true)
    (hn : s.now ≤ s.clock) :
    ∃ n newer, (s.take ⟨g.id,false⟩ (if readable then groupOf g.id s.groups else none)).log =
      newer ++ n::s.log ∧ Handled g s.now n := by
  unfold State.take
  split
  · exact ⟨_,[],rfl,.inr (.inl rfl)⟩
  · cases (if readable then groupOf g.id s.groups else none) with
    | none => exact ⟨_,[_],rfl,.inl rfl⟩
    | some g' =>
      dsimp only
      split
      · exact ⟨_,[],rfl,.inl rfl⟩
      · rename_i hw
        refine ⟨_,[],rfl,.inr (.inr ⟨g',rfl,?_⟩)⟩
        rintro rfl
        have hoff : ¬Off g' := by
          intro ho
          simp [subscriptionDue,ho] at hg
        exact hw (by simp [wanted,hoff,due_later hg hn])

/-- The target of a due group waits in the queue, or was taken up since. -/
def Tracked (g : Group) (now : ℤ) (base : List Note) (s : State) : Prop :=
  ∃ newer, s.log = newer ++ base ∧
    ((⟨g.id,false⟩ ∈ s.queue ∧ s.now = now ∧ now ≤ s.clock) ∨ ∃ n ∈ newer, Handled g now n)

theorem tracked_grows {g : Group} {now : ℤ} {base : List Note} {s' : State}
    (h : Tracked g now base s) (hs : Grows s s') : Tracked g now base s' := by
  obtain ⟨newer,hl,hc⟩ := h
  obtain ⟨more,hm⟩ := hs.log
  refine ⟨more ++ newer,by rw [hm,hl,List.append_assoc],hc.imp (fun ⟨hq,hn,hle⟩ => ?_)
    fun ⟨n,hn,hh⟩ => ⟨n,List.mem_append_right _ hn,hh⟩⟩
  exact ⟨hs.queue ▸ hq,hs.now.trans hn,hle.trans hs.clock⟩

variable (subscriptionHost : String → String)

theorem tracked_step {g : Group} {now : ℤ} {base : List Note} (hg : subscriptionDue g now = true)
    (h : Tracked g now base s) (e : Event) : Tracked g now base (s.step subscriptionHost e) := by
  cases e with
  | tick unreadable =>
    unfold State.step
    dsimp only
    split
    · rename_i hidle
      obtain ⟨newer,hl,⟨hq,-⟩ | ⟨n,hn,hh⟩⟩ := h
      · rw [hidle.1] at hq
        exact nomatch hq
      · exact ⟨_::newer,congrArg (List.cons _) hl,.inr ⟨n,List.mem_cons_of_mem _ hn,hh⟩⟩
    · exact h
  | next readable =>
    unfold State.step
    dsimp only
    split
    · exact h
    · rename_i t rest hq
      split
      · obtain ⟨newer,hl,hc⟩ := h
        by_cases ht : t = ⟨g.id,false⟩ ∧ s.now = now ∧ now ≤ s.clock
        · obtain ⟨rfl,rfl,hle⟩ := ht
          obtain ⟨n,more,hlog,hh⟩ := @take_handled { s with queue := rest } g readable hg hle
          refine ⟨more ++ n::newer,?_,.inr ⟨n,by simp,hh⟩⟩
          rw [hlog,List.append_assoc]
          exact congrArg (fun l => more ++ n::l) hl
        · -- another target comes first
          refine @tracked_grows { s with queue := rest } g now base _
            ⟨newer,hl,hc.imp_left fun ⟨hm,hn,hle⟩ => ⟨?_,hn,hle⟩⟩ (grows_take t _)
          rw [hq] at hm
          exact (List.mem_cons.mp hm).resolve_left fun he => ht ⟨he.symm,hn,hle⟩
      · exact h
  | finish ok => exact tracked_grows h (grows_finish ok)
  | pass clock => exact tracked_grows h (grows_same rfl rfl rfl (le_max_left _ _))
  | addGroup name url => exact tracked_grows h (grows_same rfl rfl rfl (le_refl _))
  | deleteGroup id => exact tracked_grows h (grows_same rfl rfl rfl (le_refl _))
  | updateGroup id name url autoUpdate interval =>
    exact tracked_grows h (grows_same rfl rfl rfl (le_refl _))
  | updateSubscription id =>
    unfold State.step
    dsimp only
    split
    · exact tracked_grows h (grows_same rfl rfl rfl (le_refl _))
    · exact h
  | merge f =>
    unfold State.step
    dsimp only
    split
    · exact h
    · exact tracked_grows h (grows_same rfl rfl rfl (le_refl _))

theorem tracked_run {g : Group} {now : ℤ} {base : List Note} (hg : subscriptionDue g now = true)
    (es : List Event) (h : Tracked g now base s) :
    Tracked g now base (s.run subscriptionHost es) := by
  induction es generalizing s with
  | nil => exact h
  | cons e es ih => exact ih (tracked_step subscriptionHost hg h e)

theorem due_attempted (hi : Inv s) : DueAttempted subscriptionHost codeEnds s := by
  intro unreadable es _ _ hdone g hg hr hdue hs
  have hlisted : g ∈ readable unreadable s := List.mem_filter.mpr ⟨hg,by simpa using hr⟩
  have hpend : retryPending (s.maps.retryOf g.id) s.clock = false := by
    rw [Maps.retryOf,hi.retry,hs]
    rfl
  have hplan : ⟨g.id,false⟩ ∈ (s.tick unreadable).queue :=
    plan_due (readable_nodup hi unreadable) hlisted hdue hpend
  have hstart : Tracked g s.clock s.log (s.tick unreadable) :=
    ⟨[_],rfl,.inl ⟨hplan,rfl,le_refl _⟩⟩
  obtain ⟨newer,hl,⟨hq,-⟩ | hn⟩ := tracked_run subscriptionHost hdue es hstart
  · rw [hdone] at hq
    cases hq
  · exact ⟨newer,hl,hn⟩

end Due

section Runs

variable (subscriptionHost : String → String)

/-- What the scheduler guarantees in every state it reaches. -/
structure Scheduled (s : State) : Prop where
  backoff : BackoffKept codeEnds s.log
  due : DueAttempted subscriptionHost codeEnds s
  probes : ProbedOnce s.log
  /-- Right after a plan the maps hold groups that exist; until the next tick,
  groups that did. -/
  maps : ∀ unreadable, MapsWithin (s.tick unreadable).maps s.groups
  lastMaps : MapsWithin s.maps (lastListed s.log)

theorem scheduled_run {clock lastGroupId : ℤ} {groups listed : List Group}
    (h : Begun clock groups lastGroupId listed) (es : List Event) :
    Scheduled subscriptionHost ((start clock groups lastGroupId listed).run subscriptionHost es) := by
  have hi := inv_run subscriptionHost es (inv_start h)
  refine ⟨hi.backoff,due_attempted subscriptionHost hi,hi.once,fun unreadable id hm => ?_,hi.maps⟩
  obtain ⟨g,hg,hid⟩ := maps_tick _ unreadable id hm
  exact ⟨g,List.mem_of_mem_filter hg,hid⟩

/-- A group that has never been refreshed, with an interval of an hour. -/
def hourly : Group := { newGroupConfig subscriptionHost 1 "" "u" with subUpdateInterval := 3600 }

def launched : State :=
  start (1000*hour) [hourly subscriptionHost] 1 [hourly subscriptionHost]

theorem begun_launched :
    Begun (1000*hour) [hourly subscriptionHost] 1 [hourly subscriptionHost] where
  clock := by decide
  nodup := List.nodup_singleton _
  ids g hg := by
    rw [List.mem_singleton.mp hg]
    exact le_refl _
  listed _ hg := hg

/-- A tick whose only target ends with `ok`. -/
def updates (ok : Bool) : List Event := [.tick [],.next true,.finish ok]

theorem hourly_scheduled :
    Scheduled id ((launched id).run id (updates false ++ .pass (1001*hour)::updates true)) :=
  scheduled_run id (begun_launched id) _

/-- A group that fails is switched off over one tick. -/
def toggled : List Event :=
  updates false ++ [.updateGroup 1 "" "" (some false) none,.pass (1000*hour + 10*minute),.tick [],
    .updateGroup 1 "" "" (some true) none,.pass (1000*hour + 20*minute),.tick [],.next true]

/-- A group is deleted while it is updated. -/
def dropped : List Event := [.tick [],.next true,.deleteGroup 1,.finish true]

/-- Three failures, and a manual update that succeeds. -/
def repaired : List Event :=
  updates false ++ .pass (1000*hour + 30*minute)::updates false ++
    .pass (1000*hour + 90*minute)::updates false ++
    [.updateSubscription 1,.merge ⟨some 3600,none,none,none,none,none,none,none⟩,.finish true,
      .pass (1000*hour + 150*minute)]

/-- A group switched off for one tick is attempted within its back-off, a deleted
one stays in the retry map, and a manual update leaves the back-off in place. -/
theorem forgotten_deleted_repaired :
    Begun (1000*hour) [hourly id] 1 [hourly id] ∧
      ¬BackoffKept refreshEnds ((launched id).run id toggled).log ∧
      ¬MapsWithin ((launched id).run id dropped).maps ((launched id).run id dropped).groups ∧
      ¬DueAttempted id refreshEnds ((launched id).run id repaired) := by
  refine ⟨begun_launched id,fun h => ?_,fun h => ?_,fun h => ?_⟩
  · let log := ((launched id).run id toggled).log
    have hlog : log = .attempt ⟨1,false⟩ (1000*hour + 20*minute)::log.tail := by decide
    have hstreak : streak refreshEnds 1 log.tail = some (1,1000*hour) := by decide
    exact absurd (h [] ⟨1,false⟩ _ log.tail hlog _ hstreak) (by decide)
  · have hretry : (((launched id).run id dropped).maps.retry 1).isSome = true := by decide
    have hnone : ((launched id).run id dropped).groups = [] := by decide
    obtain ⟨g,hg,-⟩ := h 1 (.inr hretry)
    rw [hnone] at hg
    exact nomatch hg
  · let s := (launched id).run id repaired
    have hgroup : s.groups = [{ hourly id with subLastUpdated := 3605400 }] := by decide
    obtain ⟨newer,hl,n,hn,hh⟩ := h [] [] (by decide) (by decide) (by decide)
      { hourly id with subLastUpdated := 3605400 } (by rw [hgroup]; exact List.mem_singleton_self _)
      (by simp) (by decide) (by decide)
    have hnewer : newer = [.planned s.clock s.groups] := by
      refine @List.append_cancel_right _ newer s.log [_] (hl.symm.trans ?_)
      show _::_ = _
      rw [hgroup]
      rfl
    rw [hnewer,List.mem_singleton] at hn
    rw [hn] at hh
    rcases hh with h | h | ⟨g',h,-⟩ <;> exact nomatch h

end Runs

end Whoisthat.SchedulerRuns
