import Mathlib.Data.Int.Notation
import Mathlib.Data.Nat.Notation
import Mathlib.Logic.Function.Basic

/-!
# The proxy manager, its cores and its exit watchers

Commands hold the mutex and run in the small steps of the sources; core exits,
watcher goroutines, crash handlers and the consumer of the status channel step
in between. A watcher evaluates the exit channel of the current core on every
turn of its loop, checks for staleness and takes the mutex as separate steps.
Fields called ghost record what happened and steer nothing.
-/

set_option autoImplicit false

namespace Whoisthat.ProxyManager

inductive Status where
  | connected (profile : ℤ)
  | disconnected (reason : String)
  deriving DecidableEq, Repr

def Status.isConnected : Status → Bool
  | .connected _ => true
  | .disconnected _ => false

def exitReason : String := "proxy process exited unexpectedly"

/-- An `XrayCore` with its `Exited` channel. -/
structure Core where
  running : Bool
  channelClosed : Bool
  /-- An exit sent on the channel and not received yet. -/
  exitSent : Bool
  /-- Ghost: the connect cycle it was started in. -/
  session : ℕ
  /-- Ghost: it was running when it was stopped. -/
  stopped : Bool
  /-- Ghost: it exited by itself. -/
  crashed : Bool
  /-- Ghost: how often its exit was reported. -/
  reports : ℕ

def newCore (session : ℕ) (running : Bool) : Core :=
  { running := running
    channelClosed := false
    exitSent := false
    session := session
    stopped := false
    crashed := false
    reports := 0 }

def Core.stop (c : Core) : Core :=
  { c with channelClosed := true, running := false, stopped := c.stopped || c.running }

/-- The goroutine behind `cmd.Wait` of a core that was not stopped. -/
def Core.exit (c : Core) : Core :=
  { c with
    running := false
    exitSent := c.exitSent || !c.channelClosed
    channelClosed := true
    crashed := true }

def Core.receive (c : Core) : Core := { c with exitSent := false }

def Core.report (c : Core) : Core := { c with reports := c.reports+1 }

/-- Where a `watchExit` goroutine stands. -/
inductive Pc where
  | loop
  | selecting (core : ℕ)
  | received (core : ℕ)
  | fresh (core : ℕ)
  | written (core : ℕ)
  | notifying (core : ℕ)
  | returned
  deriving DecidableEq

structure Watcher where
  gen : ℕ
  doneClosed : Bool
  pc : Pc
  /-- Ghost: the core it was started for. -/
  core : ℕ

/-- A crash handler goroutine and the ghost session of its core. -/
inductive Handler where
  | entered (session : ℕ)
  | tearing (session : ℕ)
  | finished
  deriving DecidableEq

/-- Whether preparing the configuration or starting the core fails. -/
inductive Outcome where
  | prepareFails
  | startFails
  | succeeds
  deriving DecidableEq

inductive Command where
  | connect (profile : ℤ) (tunEnabled : Bool) (outcome : Outcome)
  | stop
  | setTunMode (enabled : Bool) (outcome : Outcome)
  | reloadRouting (outcome : Outcome)

def Command.outcome : Command → Outcome
  | .connect _ _ outcome => outcome
  | .stop => .succeeds
  | .setTunMode _ outcome => outcome
  | .reloadRouting outcome => outcome

inductive Phase where
  | connectStop
  | connectRetire
  | connectClear
  | connectPrepare
  | connectStart
  | connectReport
  | connectWatch
  | stopRetire
  | stopCore
  | stopReport
  | reloadCheck
  | reloadRetire
  | reloadStop
  | reloadStart
  | reloadWatch
  deriving DecidableEq

/-- The command that holds the mutex and the step it is at. -/
structure Running where
  command : Command
  phase : Phase

/-- Ghost: what a watcher or a handler must not do. -/
inductive Mishap where
  | overwroteStatus (watched current : ℕ)
  | consumedExit (watched received : ℕ)
  | toreDownTun (session tunSession : ℕ)
  deriving DecidableEq

structure State where
  status : Status
  core : ℕ
  cores : ℕ → Core
  nextCore : ℕ
  /-- Ghost: the number of the latest connect cycle. -/
  session : ℕ
  watchDone : Option ℕ
  watchGen : ℕ
  watchStopping : Bool
  watchers : ℕ → Watcher
  nextWatcher : ℕ
  handlers : ℕ → Handler
  nextHandler : ℕ
  tunEnabled : Bool
  /-- The TUN manager: enabled, with the ghost session that enabled it. -/
  tun : Option ℕ
  running : Option Running
  statusChanged : List Status
  /-- Ghost: the statuses written since the start. -/
  written : List Status
  /-- Ghost: what the consumer received. -/
  delivered : List Status
  /-- Ghost: how many statuses found the channel full. -/
  drops : ℕ
  /-- Ghost: the latest status sent found the channel full. -/
  dropped : Bool
  mishaps : List Mishap

def statusCapacity : ℕ := 8

def State.setCore (s : State) (c : ℕ) (f : Core → Core) : State :=
  { s with cores := Function.update s.cores c (f (s.cores c)) }

def State.setWatcher (s : State) (i : ℕ) (f : Watcher → Watcher) : State :=
  { s with watchers := Function.update s.watchers i (f (s.watchers i)) }

def State.setPc (s : State) (i : ℕ) (pc : Pc) : State := s.setWatcher i fun w => { w with pc := pc }

/-- The non-blocking send on `StatusChanged` -/
def State.send (s : State) (status : Status) : State :=
  let full := decide (statusCapacity ≤ s.statusChanged.length)
  { s with
    statusChanged := if full then s.statusChanged else s.statusChanged ++ [status]
    drops := if full then s.drops+1 else s.drops
    dropped := full }

def State.write (s : State) (status : Status) : State :=
  { s with status := status, written := s.written ++ [status] }

def State.changeStatus (s : State) (status : Status) : State :=
  (s.write status).send status

def State.retireExitWatcher (s : State) : State :=
  { s with
    watchStopping := true
    watchers := match s.watchDone with
      | none => s.watchers
      | some i => Function.update s.watchers i { s.watchers i with doneClosed := true }
    watchDone := none
    watchGen := s.watchGen+1 }

def State.startExitWatcher (s : State) : State :=
  { s with
    watchStopping := false
    watchDone := some s.nextWatcher
    watchGen := s.watchGen+1
    watchers := Function.update s.watchers s.nextWatcher
      { gen := s.watchGen+1, doneClosed := false, pc := .loop, core := s.core }
    nextWatcher := s.nextWatcher+1 }

def State.watcherIsStale (s : State) (gen : ℕ) : Bool := gen ≠ s.watchGen || s.watchStopping

/-- A new core takes the place of the current one. -/
def State.replaceCore (s : State) (session : ℕ) (started : Bool) : State :=
  { s with
    core := s.nextCore
    cores := Function.update s.cores s.nextCore (newCore session started)
    nextCore := s.nextCore+1
    session := session }

def State.at (s : State) (command : Command) (phase : Phase) : State :=
  { s with running := some { command := command, phase := phase } }

def State.unlock (s : State) : State := { s with running := none }

/-- `Connect` stops the core only if it runs. -/
def State.stopRunning (s : State) : State :=
  if (s.cores s.core).running then s.setCore s.core Core.stop else s

/-- The first checks of `SetTunMode` and `ReloadRouting`. -/
def State.reloads (s : State) : Bool := s.status.isConnected && (s.cores s.core).running

def State.begin (s : State) : Command → State
  | .connect profile tunEnabled outcome =>
    State.at { s with tunEnabled := tunEnabled } (.connect profile tunEnabled outcome) .connectStop
  | .stop => State.at { s with tunEnabled := false } .stop .stopRetire
  | .setTunMode enabled outcome =>
    State.at { s with tunEnabled := enabled } (.setTunMode enabled outcome) .reloadCheck
  | .reloadRouting outcome => s.at (.reloadRouting outcome) .reloadCheck

def Command.profile : Command → ℤ
  | .connect profile _ _ => profile
  | _ => 0

/-- The next step of the command that holds the mutex. -/
def State.advance (s : State) (command : Command) : Phase → State
  | .connectStop => s.stopRunning.at command .connectRetire
  | .connectRetire => s.retireExitWatcher.at command .connectClear
  | .connectClear =>
    (if s.status.isConnected then s.changeStatus (.disconnected "") else s).at command
      .connectPrepare
  | .connectPrepare =>
    if command.outcome = .prepareFails then s.unlock
    else s.at command .connectStart
  | .connectStart =>
    if command.outcome = .startFails then (s.replaceCore (s.session+1) false).unlock
    else (s.replaceCore (s.session+1) true).at command .connectReport
  | .connectReport => (s.changeStatus (.connected command.profile)).at command .connectWatch
  | .connectWatch => s.startExitWatcher.unlock
  | .stopRetire => s.retireExitWatcher.at command .stopCore
  | .stopCore => (s.setCore s.core Core.stop).at command .stopReport
  | .stopReport => (s.changeStatus (.disconnected "")).unlock
  | .reloadCheck =>
    if s.reloads && command.outcome ≠ .prepareFails then s.at command .reloadRetire else s.unlock
  | .reloadRetire => s.retireExitWatcher.at command .reloadStop
  | .reloadStop => (s.setCore s.core Core.stop).at command .reloadStart
  | .reloadStart =>
    if command.outcome = .startFails then
      ((s.replaceCore s.session false).changeStatus (.disconnected "")).unlock
    else (s.replaceCore s.session true).at command .reloadWatch
  | .reloadWatch => s.startExitWatcher.unlock

/-- Which ready case a `select` takes. -/
inductive Choice where
  | done
  | channel
  deriving DecidableEq

def State.note (s : State) (bad : Bool) (m : Mishap) : State :=
  { s with mishaps := if bad then m :: s.mishaps else s.mishaps }

/-- A watcher receives the exit of `core`. -/
def State.receive (s : State) (i core : ℕ) : State :=
  ((s.setCore core Core.receive).setPc i (.received core)).note
    ((s.watchers i).core ≠ core) (.consumedExit (s.watchers i).core core)

/-- A watcher writes the status under the mutex. -/
def State.writeExit (s : State) (i core : ℕ) : State :=
  ((s.setPc i (.written core)).write (.disconnected exitReason)).note
    ((s.watchers i).core ≠ s.core) (.overwroteStatus (s.watchers i).core s.core)

/-- A watcher spawns the crash handler and returns to its loop. -/
def State.notifyUnexpectedExit (s : State) (i core : ℕ) : State :=
  let s := s.setCore core Core.report
  let s := { s with
    handlers := Function.update s.handlers s.nextHandler (.entered (s.cores core).session)
    nextHandler := s.nextHandler+1 }
  s.setPc i .loop

def State.watch (s : State) (i : ℕ) (choice : Choice) : Option State :=
  match (s.watchers i).pc with
  | .loop => some (s.setPc i (.selecting s.core))
  | .selecting core =>
    match choice with
    | .done => if (s.watchers i).doneClosed then some (s.setPc i .returned) else none
    | .channel =>
      if (s.cores core).exitSent then some (s.receive i core)
      else if (s.cores core).channelClosed then some (s.setPc i .returned)
      else none
  | .received core =>
    if s.watcherIsStale (s.watchers i).gen then some (s.setPc i .returned)
    else some (s.setPc i (.fresh core))
  | .fresh core => if s.running.isNone then some (s.writeExit i core) else none
  | .written core => some ((s.send (.disconnected exitReason)).setPc i (.notifying core))
  | .notifying core => some (s.notifyUnexpectedExit i core)
  | .returned => none

/-- The handler checks for TUN and then stops it, which checks again. -/
def State.handle (s : State) (j : ℕ) : Option State :=
  match s.handlers j with
  | .entered session =>
    let next := if s.tun.isSome then .tearing session else .finished
    some { s with handlers := Function.update s.handlers j next }
  | .tearing session =>
    let s := { s with handlers := Function.update s.handlers j .finished }
    match s.tun with
    | none => some s
    | some tunSession =>
      some (State.note { s with tun := none } (session < tunSession)
        (.toreDownTun session tunSession))
  | .finished => none

inductive Action where
  | begin (command : Command)
  | advance
  | exit (core : ℕ)
  | watch (watcher : ℕ) (choice : Choice)
  | handle (handler : ℕ)
  | startTun
  | stopTun
  | deliver

def step : Action → State → Option State
  | .begin command, s => if s.running.isNone then some (s.begin command) else none
  | .advance, s => s.running.map fun r => s.advance r.command r.phase
  | .exit core, s => if (s.cores core).running then some (s.setCore core Core.exit) else none
  | .watch i choice, s => s.watch i choice
  | .handle j, s => s.handle j
  | .startTun, s => some { s with tun := some s.session }
  | .stopTun, s => some { s with tun := none }
  | .deliver, s =>
    match s.statusChanged with
    | [] => none
    | status::rest => some { s with statusChanged := rest, delivered := s.delivered ++ [status] }

def run : List Action → State → Option State
  | [], s => some s
  | a::as, s => (step a s).bind (run as)

/-- `Init` -/
def initial : State :=
  { status := .disconnected ""
    core := 0
    cores := fun _ => newCore 0 false
    nextCore := 1
    session := 0
    watchDone := none
    watchGen := 0
    watchStopping := false
    watchers := fun _ => { gen := 0, doneClosed := false, pc := .returned, core := 0 }
    nextWatcher := 0
    handlers := fun _ => .finished
    nextHandler := 0
    tunEnabled := false
    tun := none
    running := none
    statusChanged := []
    written := []
    delivered := []
    drops := 0
    dropped := false
    mishaps := [] }

end Whoisthat.ProxyManager
