import Mathlib.Order.Basic
import Mathlib.Tactic.SplitIfs
import Whoisthat.ProxyManager

/-!
# The invariant of the proxy manager

For each phase of a command it says what the current core and its watcher can
look like. Older cores are accounted for and retired watchers can only return.
The lemmas below say what each update of the sources does to it.
-/

set_option autoImplicit false

namespace Whoisthat.ProxyInvariant
open Whoisthat.ProxyManager

section Predicates

/-- Nothing more is to happen to the core. -/
structure Clear (c : Core) : Prop where
  running : c.running = false
  exitSent : c.exitSent = false
  crashed : c.crashed = true → c.reports = 1
  calm : c.crashed = false → c.reports = 0
  stopped : c.stopped = true → c.crashed = false

/-- The core runs, or it exited and nobody has noticed. -/
structure Live (c : Core) : Prop where
  stopped : c.stopped = false
  reports : c.reports = 0
  exit : (c.running = true ∧ c.crashed = false ∧ c.exitSent = false ∧ c.channelClosed = false) ∨
    (c.running = false ∧ c.crashed = true ∧ c.exitSent = true ∧ c.channelClosed = true)

/-- Its watcher received the exit and has not reported it. -/
structure Noticed (c : Core) : Prop where
  running : c.running = false
  exitSent : c.exitSent = false
  closed : c.channelClosed = true
  crashed : c.crashed = true
  reports : c.reports = 0
  stopped : c.stopped = false

/-- `i` watches the current core. -/
structure Current (s : State) (i : ℕ) : Prop where
  done : s.watchDone = some i
  core : (s.watchers i).core = s.core
  gen : (s.watchers i).gen = s.watchGen
  stopping : s.watchStopping = false
  doneOpen : (s.watchers i).doneClosed = false

def Watching (s : State) : Prop :=
  (Live (s.cores s.core) ∧ s.status.isConnected = true) ∨
  (Clear (s.cores s.core) ∧ (s.cores s.core).channelClosed = true ∧ s.status.isConnected = false)

/-- What the program counter of the current watcher says. -/
def PcTracks (s : State) : Pc → Prop
  | .loop => Watching s
  | .selecting c => c = s.core ∧ Watching s
  | .received c => c = s.core ∧ Noticed (s.cores s.core) ∧ s.status.isConnected = true
  | .fresh c => c = s.core ∧ Noticed (s.cores s.core) ∧ s.status.isConnected = true
  | .written c => c = s.core ∧ Noticed (s.cores s.core) ∧ s.status.isConnected = false
  | .notifying c => c = s.core ∧ Noticed (s.cores s.core) ∧ s.status.isConnected = false
  | .returned => Clear (s.cores s.core) ∧ s.status.isConnected = false

/-- What holds without a command in progress. -/
def Tracks (s : State) : Prop :=
  (s.watchDone = none ∧ Clear (s.cores s.core) ∧ s.status.isConnected = false) ∨
  ∃ i, Current s i ∧ PcTracks s (s.watchers i).pc

def NoHandlers (s : State) : Prop := ∀ j < s.nextHandler, s.handlers j = .finished

/-- The current watcher, if any, waits at its `select` or has returned. -/
def Waiting (s : State) : Prop :=
  ∀ i, s.watchDone = some i → (s.watchers i).core = s.core ∧
    ((s.watchers i).pc = .selecting s.core ∨ (s.watchers i).pc = .returned)

structure Idle (s : State) : Prop where
  tracks : Tracks s
  exitSent : (s.cores s.core).exitSent = false
  waiting : Waiting s

/-- The core is stopped, its watcher not retired. -/
structure Halted (s : State) : Prop where
  waiting : Waiting s
  core : Clear (s.cores s.core)

/-- The watcher is retired, the core about to be stopped. -/
structure Stopping (s : State) : Prop where
  done : s.watchDone = none
  exitSent : (s.cores s.core).exitSent = false
  core : Clear (s.cores s.core) ∨ Live (s.cores s.core)

structure Off (s : State) : Prop where
  done : s.watchDone = none
  core : Clear (s.cores s.core)

/-- A new core is started and not watched yet. -/
structure On (s : State) : Prop where
  done : s.watchDone = none
  core : Live (s.cores s.core)

def PhaseInv (s : State) (r : Running) : Prop :=
  match r.phase with
  | .connectStop => Idle s ∧ NoHandlers s
  | .connectRetire => Halted s ∧ NoHandlers s
  | .connectClear => Off s ∧ NoHandlers s
  | .connectPrepare => Off s ∧ NoHandlers s ∧ s.status.isConnected = false
  | .connectStart => Off s ∧ NoHandlers s ∧ s.status.isConnected = false
  | .connectReport => On s
  | .connectWatch => On s ∧ s.status.isConnected = true
  | .stopRetire => Idle s
  | .stopCore => Stopping s
  | .stopReport => Off s
  | .reloadCheck =>
    Tracks s ∧ (r.command.outcome = .prepareFails ∨ s.reloads = false ∨ Idle s)
  | .reloadRetire => Idle s ∧ s.status.isConnected = true
  | .reloadStop => Stopping s ∧ s.status.isConnected = true
  | .reloadStart => Off s ∧ s.status.isConnected = true
  | .reloadWatch => On s ∧ s.status.isConnected = true

def RunningInv (s : State) : Option Running → Prop
  | none => Tracks s
  | some r => PhaseInv s r

/-- The phases in which a core may run while its watcher is retired. -/
def MidStop : Option Running → Prop
  | none => False
  | some r => r.phase = .stopCore ∨ r.phase = .reloadStop

/-- A retired watcher can only return. -/
def Retired (mid : Prop) (s : State) (w : Watcher) : Prop :=
  w.pc = .returned ∨
  (w.pc = .selecting w.core ∧ (s.cores w.core).exitSent = false ∧
    ((s.cores w.core).running = true → mid))

/-- An unfinished handler belongs to session `n`. -/
def HandlerOf (n : ℕ) : Handler → Prop
  | .entered m => m = n
  | .tearing m => m = n
  | .finished => True

/-- What no phase changes, except that `mid` a stop a core may run without watcher. -/
structure Base (mid : Prop) (s : State) : Prop where
  coreLt : s.core < s.nextCore
  watchersLt : ∀ i, (s.watchers i).core < s.nextCore
  doneLt : ∀ i, s.watchDone = some i → i < s.nextWatcher
  past : ∀ c, c ≠ s.core → Clear (s.cores c)
  retired : ∀ i, s.watchDone ≠ some i → Retired mid s (s.watchers i)
  handlers : ∀ j, HandlerOf s.session (s.handlers j)
  handlersEnd : ∀ j, s.nextHandler ≤ j → s.handlers j = .finished
  session : (s.cores s.core).session = s.session
  tun : ∀ n, s.tun = some n → n ≤ s.session
  mishaps : s.mishaps = []

structure Inv (s : State) : Prop where
  base : Base (MidStop s.running) s
  phase : RunningInv s s.running

end Predicates

section Views

variable {s s' : State}

/-- What the phase of a command depends on is the same, except that handlers may
have finished. -/
structure SameView (s s' : State) : Prop where
  core : s'.core = s.core
  cores : s'.cores s.core = s.cores s.core
  status : s'.status = s.status
  done : s'.watchDone = s.watchDone
  gen : s'.watchGen = s.watchGen
  stopping : s'.watchStopping = s.watchStopping
  watcher : ∀ i, s.watchDone = some i → s'.watchers i = s.watchers i
  handlers : NoHandlers s → NoHandlers s'

theorem watching_congr (h : SameView s s') (hw : Watching s) : Watching s' := by
  unfold Watching at hw ⊢
  rwa [h.core,h.cores,h.status]

theorem current_congr (h : SameView s s') {i : ℕ} (hc : Current s i) : Current s' i := by
  have hw := h.watcher i hc.done
  exact ⟨h.done.trans hc.done,by rw [hw,hc.core,h.core],by rw [hw,hc.gen,h.gen],
    h.stopping.trans hc.stopping,by rw [hw,hc.doneOpen]⟩

theorem pcTracks_congr (h : SameView s s') {pc : Pc} (hp : PcTracks s pc) : PcTracks s' pc := by
  cases pc <;> simp only [PcTracks] at hp ⊢
  · exact watching_congr h hp
  · exact ⟨hp.1.trans h.core.symm,watching_congr h hp.2⟩
  all_goals rwa [h.core,h.cores,h.status]

theorem tracks_congr (h : SameView s s') (ht : Tracks s) : Tracks s' := by
  rcases ht with ⟨hd,hc,hst⟩ | ⟨i,hi,hp⟩
  · exact Or.inl ⟨h.done.trans hd,by rwa [h.core,h.cores],by rwa [h.status]⟩
  · refine Or.inr ⟨i,current_congr h hi,?_⟩
    rw [h.watcher i hi.done]
    exact pcTracks_congr h hp

theorem waiting_congr (h : SameView s s') (hw : Waiting s) : Waiting s' := by
  intro i hi
  rw [h.done] at hi
  rw [h.watcher i hi,h.core]
  exact hw i hi

theorem idle_congr (h : SameView s s') (hi : Idle s) : Idle s' :=
  ⟨tracks_congr h hi.tracks,by rw [h.core,h.cores,hi.exitSent],waiting_congr h hi.waiting⟩

theorem off_congr (h : SameView s s') (ho : Off s) : Off s' :=
  ⟨h.done.trans ho.done,by rw [h.core,h.cores]; exact ho.core⟩

theorem on_congr (h : SameView s s') (ho : On s) : On s' :=
  ⟨h.done.trans ho.done,by rw [h.core,h.cores]; exact ho.core⟩

theorem halted_congr (h : SameView s s') (hh : Halted s) : Halted s' :=
  ⟨waiting_congr h hh.waiting,by rw [h.core,h.cores]; exact hh.core⟩

theorem stopping_congr (h : SameView s s') (hh : Stopping s) : Stopping s' :=
  ⟨h.done.trans hh.done,by rw [h.core,h.cores,hh.exitSent],
    by rw [h.core,h.cores]; exact hh.core⟩

theorem reloads_congr (h : SameView s s') : s'.reloads = s.reloads := by
  unfold State.reloads
  rw [h.status,h.core,h.cores]

theorem phase_congr (h : SameView s s') {r : Running} (hp : PhaseInv s r) : PhaseInv s' r := by
  unfold PhaseInv at hp ⊢
  rw [h.status]
  cases hr : r.phase <;> rw [hr] at hp <;> simp only at hp ⊢
  · exact ⟨idle_congr h hp.1,h.handlers hp.2⟩
  · exact ⟨halted_congr h hp.1,h.handlers hp.2⟩
  · exact ⟨off_congr h hp.1,h.handlers hp.2⟩
  · exact ⟨off_congr h hp.1,h.handlers hp.2.1,hp.2.2⟩
  · exact ⟨off_congr h hp.1,h.handlers hp.2.1,hp.2.2⟩
  · exact on_congr h hp
  · exact ⟨on_congr h hp.1,hp.2⟩
  · exact idle_congr h hp
  · exact stopping_congr h hp
  · exact off_congr h hp
  · rw [reloads_congr h]
    exact ⟨tracks_congr h hp.1,hp.2.imp_right fun h' => h'.imp_right (idle_congr h)⟩
  · exact ⟨idle_congr h hp.1,hp.2⟩
  · exact ⟨stopping_congr h hp.1,hp.2⟩
  · exact ⟨off_congr h hp.1,hp.2⟩
  · exact ⟨on_congr h hp.1,hp.2⟩

theorem runningInv_congr (h : SameView s s') {r : Option Running} (hr : RunningInv s r) :
    RunningInv s' r := by
  cases r with
  | none => exact tracks_congr h hr
  | some r => exact phase_congr h hr

end Views

section Updates

variable {s : State} {mid mid' : Prop}

@[simp] theorem setCore_cores (c : ℕ) (f : Core → Core) :
    (s.setCore c f).cores c = f (s.cores c) := by
  simp [State.setCore]

theorem setCore_other {c d : ℕ} (h : d ≠ c) (f : Core → Core) :
    (s.setCore c f).cores d = s.cores d := by
  simp [State.setCore,h]

@[simp] theorem setPc_watchers (i : ℕ) (pc : Pc) :
    (s.setPc i pc).watchers i = { s.watchers i with pc := pc } := by
  simp [State.setPc,State.setWatcher]

theorem setPc_other {i j : ℕ} (h : j ≠ i) (pc : Pc) :
    (s.setPc i pc).watchers j = s.watchers j := by
  simp [State.setPc,State.setWatcher,h]

theorem setPc_core (i j : ℕ) (pc : Pc) :
    ((s.setPc i pc).watchers j).core = (s.watchers j).core := by
  by_cases h : j = i
  · subst h
    rw [setPc_watchers]
  · rw [setPc_other h]

theorem retire_watcher (i : ℕ) :
    (s.retireExitWatcher.watchers i).pc = (s.watchers i).pc ∧
    (s.retireExitWatcher.watchers i).core = (s.watchers i).core := by
  unfold State.retireExitWatcher
  cases s.watchDone with
  | none => exact ⟨rfl,rfl⟩
  | some k =>
    by_cases h : i = k
    · subst h
      simp
    · simp [h]

theorem clear_stop {c : Core} (he : c.exitSent = false) (h : Clear c ∨ Live c) : Clear c.stop := by
  rcases h with h | h
  · exact ⟨rfl,h.exitSent,h.crashed,h.calm,fun hs => h.stopped (by
      simpa [Core.stop,h.running] using hs)⟩
  · rcases h.exit with ⟨_,hc,_,_⟩ | ⟨_,_,hx,_⟩
    · exact ⟨rfl,he,fun hc' => by simp [Core.stop,hc] at hc',fun _ => h.reports,fun _ => hc⟩
    · rw [he] at hx
      exact absurd hx (by simp)

theorem clear_new (n : ℕ) : Clear (newCore n false) :=
  ⟨rfl,rfl,fun h => by simp [newCore] at h,fun _ => rfl,fun h => by simp [newCore] at h⟩

theorem live_new (n : ℕ) : Live (newCore n true) := ⟨rfl,rfl,Or.inl ⟨rfl,rfl,rfl,rfl⟩⟩

theorem live_exit {c : Core} (h : Live c) (hr : c.running = true) : Live c.exit := by
  rcases h.exit with ⟨_,_,_,ho⟩ | ⟨hn,_,_,_⟩
  · exact ⟨h.stopped,h.reports,Or.inr ⟨rfl,rfl,by simp [Core.exit,ho],rfl⟩⟩
  · rw [hr] at hn
    exact absurd hn (by simp)

theorem base_mono (hm : mid → mid') (h : Base mid s) : Base mid' s :=
  ⟨h.coreLt,h.watchersLt,h.doneLt,h.past,
    fun i hi => (h.retired i hi).imp_right fun hr => ⟨hr.1,hr.2.1,fun hn => hm (hr.2.2 hn)⟩,
    h.handlers,h.handlersEnd,h.session,h.tun,h.mishaps⟩

theorem base_at (h : Base mid s) (command : Command) (phase : Phase) :
    Base mid (s.at command phase) :=
  ⟨h.coreLt,h.watchersLt,h.doneLt,h.past,h.retired,h.handlers,h.handlersEnd,h.session,h.tun,h.mishaps⟩

theorem base_unlock (h : Base mid s) : Base mid s.unlock :=
  ⟨h.coreLt,h.watchersLt,h.doneLt,h.past,h.retired,h.handlers,h.handlersEnd,h.session,h.tun,h.mishaps⟩

theorem base_changeStatus (h : Base mid s) (status : Status) : Base mid (s.changeStatus status) :=
  ⟨h.coreLt,h.watchersLt,h.doneLt,h.past,h.retired,h.handlers,h.handlersEnd,h.session,h.tun,h.mishaps⟩

/-- A change of the current core, in terms of what a retired watcher of it sees. -/
theorem base_setCore (h : Base mid s) (f : Core → Core)
    (hs : (f (s.cores s.core)).session = (s.cores s.core).session)
    (hw : (s.cores s.core).exitSent = false → ((s.cores s.core).running = true → mid) →
      (f (s.cores s.core)).exitSent = false ∧ ((f (s.cores s.core)).running = true → mid')) :
    Base mid' (s.setCore s.core f) := by
  refine ⟨h.coreLt,h.watchersLt,h.doneLt,fun c hc => ?_,fun i hi => ?_,h.handlers,h.handlersEnd,?_,
    h.tun,h.mishaps⟩
  · rw [setCore_other (d := c) (c := s.core) hc]
    exact h.past c hc
  · refine (h.retired i hi).imp_right fun ⟨hpc,he,hr⟩ => ⟨hpc,?_⟩
    change ((s.setCore s.core f).cores (s.watchers i).core).exitSent = false ∧
      (((s.setCore s.core f).cores (s.watchers i).core).running = true → mid')
    by_cases hc : (s.watchers i).core = s.core
    · rw [hc] at he hr ⊢
      rw [setCore_cores]
      exact hw he hr
    · rw [setCore_other hc]
      refine ⟨he,fun hn => ?_⟩
      rw [(h.past _ hc).running] at hn
      exact absurd hn (by simp)
  · change ((s.setCore s.core f).cores s.core).session = s.session
    rw [setCore_cores,hs,h.session]

theorem base_replaceCore (h : Base mid s) (hc : Clear (s.cores s.core)) {n : ℕ}
    (hn : s.session ≤ n) (hh : n = s.session ∨ NoHandlers s) (started : Bool) :
    Base mid' (s.replaceCore n started) := by
  have hclear : ∀ c, Clear (s.cores c) := fun c => by
    by_cases hcc : c = s.core
    · rw [hcc]
      exact hc
    · exact h.past c hcc
  have hold : ∀ c, c ≠ s.nextCore → (s.replaceCore n started).cores c = s.cores c :=
    fun c hcn => Function.update_of_ne hcn _ _
  refine ⟨Nat.lt_succ_self _,fun i => Nat.lt_succ_of_lt (h.watchersLt i),h.doneLt,fun c hcn => ?_,
    fun i hi => ?_,fun j => ?_,h.handlersEnd,?_,fun m hm => Nat.le_trans (h.tun m hm) hn,h.mishaps⟩
  · rw [hold c hcn]
    exact hclear c
  · refine (h.retired i hi).imp_right fun ⟨hpc,he,hr⟩ => ⟨hpc,?_⟩
    change ((s.replaceCore n started).cores (s.watchers i).core).exitSent = false ∧
      (((s.replaceCore n started).cores (s.watchers i).core).running = true → mid')
    rw [hold _ (Nat.ne_of_lt (h.watchersLt i))]
    refine ⟨he,fun hrun => ?_⟩
    rw [(hclear _).running] at hrun
    exact absurd hrun (by simp)
  · rcases hh with hh | hh
    · rw [hh]
      exact h.handlers j
    · change HandlerOf n (s.handlers j)
      have hj : s.handlers j = .finished := by
        by_cases hlt : j < s.nextHandler
        · exact hh j hlt
        · exact h.handlersEnd j (Nat.not_lt.mp hlt)
      rw [hj]
      trivial
  · simp [State.replaceCore,newCore]

theorem base_retire (h : Base mid s) (hm : mid → mid')
    (hi : ∀ i, s.watchDone = some i → Retired mid' s (s.watchers i)) :
    Base mid' s.retireExitWatcher := by
  refine ⟨h.coreLt,fun i => ?_,fun i hn => (nomatch hn),h.past,fun i _ => ?_,h.handlers,
    h.handlersEnd,h.session,h.tun,h.mishaps⟩
  · rw [(retire_watcher i).2]
    exact h.watchersLt i
  · unfold Retired
    rw [(retire_watcher i).1,(retire_watcher i).2]
    by_cases hd : s.watchDone = some i
    · exact hi i hd
    · exact (base_mono hm h).retired i hd

theorem base_start (h : Base mid s) (hd : s.watchDone = none) : Base mid s.startExitWatcher := by
  have hold : ∀ i, i ≠ s.nextWatcher → s.startExitWatcher.watchers i = s.watchers i :=
    fun i hi => Function.update_of_ne hi _ _
  refine ⟨h.coreLt,fun i => ?_,fun i hi => ?_,h.past,fun i hi => ?_,h.handlers,h.handlersEnd,
    h.session,h.tun,h.mishaps⟩
  · by_cases hn : i = s.nextWatcher
    · subst hn
      simpa [State.startExitWatcher] using h.coreLt
    · rw [hold i hn]
      exact h.watchersLt i
  · rw [← Option.some.inj hi]
    exact Nat.lt_succ_self _
  · rw [hold i fun hn => hi (congrArg some hn.symm)]
    exact h.retired i (by simp [hd])

theorem base_setPc (h : Base mid s) {i : ℕ} {pc : Pc} (hi : s.watchDone = some i ∨ pc = .returned) :
    Base mid (s.setPc i pc) := by
  refine ⟨h.coreLt,fun k => ?_,h.doneLt,h.past,fun k hk => ?_,h.handlers,h.handlersEnd,h.session,
    h.tun,h.mishaps⟩
  · rw [setPc_core]
    exact h.watchersLt k
  · by_cases hki : k = i
    · subst hki
      rw [setPc_watchers]
      exact Or.inl (hi.resolve_left hk)
    · rw [setPc_other hki]
      exact h.retired k hk

theorem base_setHandler (h : Base mid s) {j next : ℕ} {f : Handler} (hf : HandlerOf s.session f)
    (hn : s.nextHandler ≤ next) (hj : j < next) :
    Base mid { s with handlers := Function.update s.handlers j f, nextHandler := next } := by
  refine ⟨h.coreLt,h.watchersLt,h.doneLt,h.past,h.retired,fun k => ?_,fun k hk => ?_,h.session,h.tun,
    h.mishaps⟩
  · change HandlerOf s.session (Function.update s.handlers j f k)
    rw [Function.update_apply]
    split_ifs
    · exact hf
    · exact h.handlers k
  · change Function.update s.handlers j f k = .finished
    rw [Function.update_of_ne (Nat.ne_of_gt (Nat.lt_of_lt_of_le hj hk))]
    exact h.handlersEnd k (Nat.le_trans hn hk)

end Updates

end Whoisthat.ProxyInvariant
