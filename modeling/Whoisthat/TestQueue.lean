import Mathlib.Algebra.Ring.Nat
import Whoisthat.Records
import Mathlib.Data.Finset.Insert
import Mathlib.Data.Finset.Erase
import Mathlib.Data.List.Perm.Basic
import Mathlib.Algebra.BigOperators.Group.List.Basic

/-!
# Queueing, running and cancelling tests

Commands reserve profiles and send requests, a dispatcher drops requests of an
older epoch and starts tests within the concurrency limit, and a test compares
epochs before it begins and between its samples. Every reservation belongs to
one request until it is released.
-/

set_option autoImplicit false

namespace Whoisthat.TestQueue
open Whoisthat.Records

section Model

abbrev Slot := ℤ × ℤ

structure TestConfig where
  concurrency : ℤ
  samplesPerTest : ℤ

structure TestRequest where
  profile : Profile
  method : String
  sampleCount : ℤ
  /-- 0 is untracked. -/
  epoch : ℕ
  deriving DecidableEq

/-- A request in the channel or behind it, with the call that made it and the
number of cancels before it was sent; the source keeps neither. -/
structure Enqueued where
  request : TestRequest
  caller : ℕ
  sentAt : ℕ
  deriving DecidableEq

def slotOf (p : Profile) : Slot := (p.groupId,p.id)

def Enqueued.slot (r : Enqueued) : Slot := slotOf r.request.profile

/-- What a call of `TestProfile` or `TestGroup` does next. -/
inductive Call where
  /-- `TestProfile` before its reservation -/
  | profile (p : Profile) (method : String) (samples : ℤ)
  /-- and before it loads the epoch -/
  | reserved (p : Profile) (method : String) (samples : ℤ)
  /-- `TestGroup` before it loads the epoch -/
  | group (gid : ℤ) (ps : List Profile) (method : String) (samples : ℤ)
  /-- and in its loop -/
  | loop (gid : ℤ) (ps : List Profile) (method : String) (samples : ℤ) (epoch enqueued : ℕ)
  /-- The request waits for room in the channel; the rest of the loop follows. -/
  | sending (r : TestRequest) (rest : Option (ℤ × List Profile × ℕ))

inductive Phase where
  | spawned
  | guarded (samples : ℤ)
  | probed (samples : ℤ)
  | started (samples : ℤ)
  | sampling (epoch left : ℕ)
  | sample (epoch left : ℕ)
  | ended
  deriving DecidableEq

structure Test where
  enqueued : Enqueued
  phase : Phase
  sem : ℕ

structure State where
  epoch : ℕ
  inFlight : Finset Slot
  config : TestConfig
  nextCall : ℕ
  calls : List (ℕ × Call)
  queue : List Enqueued
  /-- Taken from the channel and waiting for a slot of the semaphore. -/
  held : Option Enqueued
  sem : ℕ
  size : ℤ
  tests : List Test

inductive Action where
  | reserve (slot : Slot)
  | release (slot : Slot)
  | send (r : Enqueued)
  /-- `TestGroup` returns to its caller. -/
  | returned (caller : ℕ) (gid : ℤ) (enqueued : ℕ)
  | dial (r : Enqueued)
  | startXray (r : Enqueued)
  | beginSample (r : Enqueued)
  /-- The dispatcher drops the request. -/
  | drop (r : Enqueued)
  /-- The test ends because of a cancel. -/
  | abort (r : Enqueued)
  | result (r : Enqueued)
  deriving DecidableEq

inductive Event where
  | testProfile (p : Profile) (method : String)
  | testGroup (gid : ℤ) (ps : List Profile) (method : String) (samples : ℤ)
  | call (n : ℕ)
  | dispatch
  | spawn
  | test (n : ℕ) (ok : Bool)
  | cancelTests
  | setTestConfig (cfg : TestConfig)

/-- `make(chan TestRequest, 256)` -/
def channelSize : ℕ := 256

def start (cfg : TestConfig) : State :=
  { epoch := 0
    inFlight := ∅
    config := cfg
    nextCall := 0
    calls := []
    queue := []
    held := none
    sem := 0
    size := if cfg.concurrency < 1 then 16 else cfg.concurrency
    tests := [] }

def setTestConfig (old cfg : TestConfig) : TestConfig :=
  { concurrency := if cfg.concurrency < 1 then old.concurrency else cfg.concurrency
    samplesPerTest := if cfg.samplesPerTest < 1 then old.samplesPerTest else cfg.samplesPerTest }

/-- `samples < 1` takes the configured number. -/
def samplesOr (cfg : TestConfig) (samples : ℤ) : ℤ :=
  if samples < 1 then cfg.samplesPerTest else samples

def isHysteriaProtocol (protocol : String) : Bool := protocol = "hysteria2" || protocol = "hy2"

/-- The address a TCP dial goes to, if there is one. -/
def dialAddress (p : Profile) : String := if p.address = "" then p.host else p.address

/-- The next step of the `n`th call, which is taken from the list. -/
def State.callStep (s : State) (caller : ℕ) : Call → State × List Action
  | .profile p method samples =>
    if slotOf p ∈ s.inFlight then (s,[])
    else ({ s with
      inFlight := insert (slotOf p) s.inFlight
      calls := (caller,.reserved p method samples) :: s.calls },[.reserve (slotOf p)])
  | .reserved p method samples =>
    ({ s with calls := (caller,.sending ⟨p,method,samples,s.epoch⟩ none) :: s.calls },[])
  | .group gid ps method samples =>
    ({ s with calls := (caller,.loop gid ps method samples s.epoch 0) :: s.calls },[])
  | .loop gid [] _ _ _ enqueued => (s,[.returned caller gid enqueued])
  | .loop gid (p::ps) method samples epoch enqueued =>
    if slotOf p ∈ s.inFlight then
      ({ s with calls := (caller,.loop gid ps method samples epoch enqueued) :: s.calls },[])
    else ({ s with
      inFlight := insert (slotOf p) s.inFlight
      calls := (caller,.sending ⟨p,method,samples,epoch⟩ (some (gid,ps,enqueued))) :: s.calls },
      [.reserve (slotOf p)])
  | .sending r rest =>
    if s.queue.length < channelSize then
      ({ s with
        queue := s.queue ++ [⟨r,caller,s.epoch⟩]
        calls := match rest with
          | none => s.calls
          | some (gid,ps,enqueued) =>
            (caller,.loop gid ps r.method r.sampleCount r.epoch (enqueued+1)) :: s.calls },
        [.send ⟨r,caller,s.epoch⟩])
    else ({ s with calls := (caller,.sending r rest) :: s.calls },[])

/-- One turn of `listenForTests`, up to the semaphore. -/
def State.dispatch (s : State) : State × List Action :=
  match s.held, s.queue with
  | none, r::rest =>
    if 0 < r.request.epoch ∧ r.request.epoch ≠ s.epoch then
      ({ s with queue := rest, inFlight := s.inFlight.erase r.slot },[.drop r,.release r.slot])
    else if 0 < s.config.concurrency ∧ s.size ≠ s.config.concurrency then
      ({ s with queue := rest, held := some r, sem := s.sem+1, size := s.config.concurrency },[])
    else ({ s with queue := rest, held := some r },[])
  | _, _ => (s,[])

/-- Tests that hold a slot of the current semaphore. -/
def State.taken (s : State) : ℕ := (s.tests.filter (fun t => t.sem = s.sem)).length

def State.spawn (s : State) : State × List Action :=
  match s.held with
  | none => (s,[])
  | some r =>
    if (s.taken : ℤ) < s.size then
      ({ s with held := none, tests := ⟨r,.spawned,s.sem⟩ :: s.tests },[])
    else (s,[])

/-- `test` up to its method. -/
def guardEpoch (cfg : TestConfig) (epoch : ℕ) (r : Enqueued) : Phase × List Action :=
  if 0 < r.request.epoch ∧ r.request.epoch ≠ epoch then (.ended,[.abort r])
  else (.guarded (samplesOr cfg r.request.sampleCount),[])

/-- `testTcpOnly`, or `serverReachable` where it is asked. -/
def probe (r : Enqueued) (samples : ℤ) : Phase × List Action :=
  if r.request.method = "tcp" then
    (.ended,if dialAddress r.request.profile = "" then [] else [.dial r])
  else if isHysteriaProtocol r.request.profile.protocol ∨ dialAddress r.request.profile = "" then
    (.probed samples,[])
  else (.probed samples,[.dial r])

/-- The next step of a test; `ok` is whether the port, the config, the start and
the listener succeed. -/
def Test.advance (cfg : TestConfig) (epoch : ℕ) (ok : Bool) (t : Test) : Phase × List Action :=
  match t.phase with
  | .spawned => guardEpoch cfg epoch t.enqueued
  | .guarded samples => probe t.enqueued samples
  | .probed samples => if ok then (.started samples,[.startXray t.enqueued]) else (.ended,[])
  | .started samples => if ok then (.sampling epoch (max samples 1).toNat,[]) else (.ended,[])
  | .sampling _ 0 => (.ended,[])
  | .sampling e (left+1) =>
    if epoch ≠ e then (.ended,[.abort t.enqueued])
    else (.sample e left,[.beginSample t.enqueued])
  | .sample e left => (.sampling e left,[])
  | .ended => (.ended,[])

/-- The step of a test that has been taken from the list. -/
def State.testStep (s : State) (ok : Bool) (t : Test) : State × List Action :=
  match t.phase with
  | .ended =>
    ({ s with inFlight := s.inFlight.erase t.enqueued.slot },
      [.result t.enqueued,.release t.enqueued.slot])
  | _ =>
    ({ s with tests := { t with phase := (t.advance s.config s.epoch ok).1 } :: s.tests },
      (t.advance s.config s.epoch ok).2)

def State.begin (s : State) (c : Call) : State :=
  { s with nextCall := s.nextCall+1, calls := (s.nextCall,c) :: s.calls }

def State.step (s : State) : Event → State × List Action
  | .testProfile p method => (s.begin (.profile p method s.config.samplesPerTest),[])
  | .testGroup gid ps method samples =>
    (s.begin (.group gid ps method (samplesOr s.config samples)),[])
  | .call n =>
    match s.calls[n]? with
    | none => (s,[])
    | some (caller,c) => { s with calls := s.calls.eraseIdx n }.callStep caller c
  | .dispatch => s.dispatch
  | .spawn => s.spawn
  | .test n ok =>
    match s.tests[n]? with
    | none => (s,[])
    | some t => { s with tests := s.tests.eraseIdx n }.testStep ok t
  | .cancelTests => ({ s with epoch := s.epoch+1 },[])
  | .setTestConfig cfg => ({ s with config := setTestConfig s.config cfg },[])

def State.run (s : State) : List Event → State
  | [] => s
  | e::es => (s.step e).1.run es

/-- What a run does. -/
def State.trace (s : State) : List Event → List Action
  | [] => []
  | e::es => (s.step e).2 ++ (s.step e).1.trace es

end Model

section Property

def Action.Honest (epoch : ℕ) : Action → Prop
  | .dial r | .startXray r | .beginSample r => r.sentAt = epoch
  | .drop r | .abort r => r.sentAt < epoch
  | _ => True

/-- A step begins work only for requests sent after the last cancel, and gives
up only requests sent before it. -/
def Honest (s : State) : Prop := ∀ e, ∀ a ∈ (s.step e).2, a.Honest s.epoch

def Done (s : State) : Prop :=
  s.calls = [] ∧ s.queue = [] ∧ s.held = none ∧ s.tests = []

/-- The steps of the calls, the dispatcher and the tests themselves. -/
def Event.internal : Event → Bool
  | .call _ | .dispatch | .spawn | .test _ _ => true
  | _ => false

/-- Left alone, the system ends all its work. -/
def Drains (s : State) : Prop :=
  ∃ es : List Event, (∀ e ∈ es, e.internal = true) ∧ Done (s.run es)

/-- The requests in the channel and behind it. -/
def State.live (s : State) : List Enqueued :=
  s.queue ++ s.held.toList ++ s.tests.map Test.enqueued

/-- Left alone until all is done, the requests no cancel came after are run. -/
def Finishes (s : State) : Prop :=
  ∀ es : List Event, (∀ e ∈ es, e.internal = true) → Done (s.run es) →
    ∀ r ∈ s.live, r.sentAt = s.epoch →
      .result r ∈ s.trace es ∧ .drop r ∉ s.trace es ∧ .abort r ∉ s.trace es

/-- Reservations made and not released are the ones in the set. -/
def Balanced (done : List Action) (s : State) : Prop :=
  ∀ k, done.count (.reserve k) = done.count (.release k)+if k ∈ s.inFlight then 1 else 0

/-- What cancels and reservations owe the state a run has reached. -/
structure Sound (done : List Action) (s : State) : Prop where
  honest : Honest s
  balanced : Balanced done s
  drains : Drains s
  finishes : Finishes s

/-- A call that still sends requests of the epoch it has loaded. -/
def Call.settled : Call → Prop
  | .loop _ (_::_) _ _ epoch _ => epoch = 0
  | .sending r _ => r.epoch = 0
  | _ => True

/-- A test past its comparison that will still dial, start Xray or sample. -/
def Test.between (t : Test) : Prop :=
  match t.phase with
  | .guarded _ => t.enqueued.request.method ≠ "tcp" ∨ dialAddress t.enqueued.request.profile ≠ ""
  | .probed _ | .started _ => True
  | _ => False

def Test.unguarded (t : Test) : Prop := t.phase = .spawned

/-- A cancel meets no untracked request that has not been compared, no test past
its comparison that does not sample yet, and no call that still has to send. -/
def Careful (s : State) : Event → Prop
  | .cancelTests =>
    (∀ r ∈ s.queue, 0 < r.request.epoch) ∧ (∀ r ∈ s.held, 0 < r.request.epoch) ∧
    (∀ t ∈ s.tests, ¬t.between ∧ (t.unguarded → 0 < t.enqueued.request.epoch)) ∧
    ∀ c ∈ s.calls, c.2.settled
  | _ => True

def CarefulRun (s : State) : List Event → Prop
  | [] => True
  | e::es => Careful s e ∧ CarefulRun (s.step e).1 es

instance : (c : Call) → Decidable c.settled
  | .loop _ (_::_) _ _ epoch _ => inferInstanceAs (Decidable (epoch = 0))
  | .loop _ [] _ _ _ _ => isTrue trivial
  | .sending r _ => inferInstanceAs (Decidable (r.epoch = 0))
  | .profile _ _ _ => isTrue trivial
  | .reserved _ _ _ => isTrue trivial
  | .group _ _ _ _ => isTrue trivial

instance : (t : Test) → Decidable t.between
  | ⟨_,.guarded _,_⟩ => inferInstanceAs (Decidable (_ ∨ _))
  | ⟨_,.probed _,_⟩ => isTrue trivial
  | ⟨_,.started _,_⟩ => isTrue trivial
  | ⟨_,.spawned,_⟩ => isFalse id
  | ⟨_,.sampling _ _,_⟩ => isFalse id
  | ⟨_,.sample _ _,_⟩ => isFalse id
  | ⟨_,.ended,_⟩ => isFalse id

instance (t : Test) : Decidable t.unguarded := inferInstanceAs (Decidable (t.phase = .spawned))

instance (s : State) : (e : Event) → Decidable (Careful s e)
  | .cancelTests => inferInstanceAs (Decidable (_ ∧ _ ∧ _ ∧ _))
  | .testProfile _ _ => isTrue trivial
  | .testGroup _ _ _ _ => isTrue trivial
  | .call _ => isTrue trivial
  | .dispatch => isTrue trivial
  | .spawn => isTrue trivial
  | .test _ _ => isTrue trivial
  | .setTestConfig _ => isTrue trivial

instance decidableCarefulRun (s : State) : (es : List Event) → Decidable (CarefulRun s es)
  | [] => isTrue trivial
  | e::es =>
    have := decidableCarefulRun (s.step e).1 es
    inferInstanceAs (Decidable (_ ∧ _))

end Property

section Epochs

/-- The epoch of a request tells whether a cancel came after it. -/
def Enqueued.Ok (epoch : ℕ) (r : Enqueued) : Prop :=
  r.sentAt ≤ epoch ∧ (r.request.epoch = 0 → r.sentAt = epoch) ∧
    (0 < r.request.epoch → r.request.epoch = r.sentAt)

def Call.Ok (epoch : ℕ) : Call → Prop
  | .loop _ (_::_) _ _ e _ => e = 0 ∨ e = epoch
  | .sending r _ => r.epoch = 0 ∨ r.epoch = epoch
  | _ => True

def Test.Ok (epoch : ℕ) (t : Test) : Prop :=
  match t.phase with
  | .spawned => t.enqueued.Ok epoch
  | .guarded _ => t.between → t.enqueued.sentAt = epoch
  | .probed _ | .started _ => t.enqueued.sentAt = epoch
  | .sampling e _ | .sample e _ => t.enqueued.sentAt = e ∧ e ≤ epoch
  | .ended => True

structure Inv (s : State) : Prop where
  calls : ∀ c ∈ s.calls, c.2.Ok s.epoch
  queue : ∀ r ∈ s.queue, r.Ok s.epoch
  held : ∀ r ∈ s.held, r.Ok s.epoch
  tests : ∀ t ∈ s.tests, t.Ok s.epoch

variable {s : State}

theorem inv_calls (h : Inv s) {cs : List (ℕ × Call)} (hc : ∀ c ∈ cs, c ∈ s.calls) :
    Inv { s with calls := cs } := ⟨fun c hm => h.calls c (hc c hm),h.queue,h.held,h.tests⟩

theorem inv_addCall (h : Inv s) {caller : ℕ} {c : Call} (hc : c.Ok s.epoch) :
    Inv { s with calls := (caller,c) :: s.calls } := by
  refine ⟨fun c' hm => ?_,h.queue,h.held,h.tests⟩
  rcases List.mem_cons.mp hm with rfl | hm
  · exact hc
  · exact h.calls c' hm

theorem inv_inFlight (h : Inv s) (f : Finset Slot) : Inv { s with inFlight := f } :=
  ⟨h.calls,h.queue,h.held,h.tests⟩

theorem loop_ok {gid : ℤ} {ps : List Profile} {method : String} {samples : ℤ}
    {epoch e enqueued : ℕ} (h : e = 0 ∨ e = epoch) :
    (Call.loop gid ps method samples e enqueued).Ok epoch := by
  cases ps with
  | nil => trivial
  | cons p ps => exact h

theorem sent_ok {r : TestRequest} {caller epoch : ℕ} (h : r.epoch = 0 ∨ r.epoch = epoch) :
    (⟨r,caller,epoch⟩ : Enqueued).Ok epoch := by
  refine ⟨le_rfl,fun _ => rfl,fun hpos => ?_⟩
  rcases h with h | h
  · exact absurd h (Nat.pos_iff_ne_zero.mp hpos)
  · exact h

theorem callStep_inv (h : Inv s) (caller : ℕ) (c : Call) (hc : c.Ok s.epoch) :
    Inv (s.callStep caller c).1 := by
  cases c with
  | profile p method samples =>
    simp only [State.callStep]
    split
    · exact h
    · have hf := inv_inFlight h (insert (slotOf p) s.inFlight)
      exact inv_addCall (c := .reserved p method samples) hf trivial
  | reserved p method samples => exact inv_addCall h (.inr rfl)
  | group gid ps method samples => exact inv_addCall h (loop_ok (.inr rfl))
  | loop gid ps method samples epoch enqueued =>
    cases ps with
    | nil => exact h
    | cons p ps =>
      simp only [State.callStep]
      split
      · exact inv_addCall h (loop_ok hc)
      · have hf := inv_inFlight h (insert (slotOf p) s.inFlight)
        exact inv_addCall (c := .sending ⟨p,method,samples,epoch⟩ (some (gid,ps,enqueued))) hf hc
  | sending r rest =>
    simp only [State.callStep]
    split
    · have hq : Inv { s with queue := s.queue ++ [⟨r,caller,s.epoch⟩] } := by
        refine ⟨h.calls,fun r' hm => ?_,h.held,h.tests⟩
        rcases List.mem_append.mp hm with hm | hm
        · exact h.queue r' hm
        · rw [List.mem_singleton.mp hm]
          exact sent_ok hc
      cases rest with
      | none => exact hq
      | some g => exact inv_addCall hq (loop_ok hc)
    · exact inv_addCall h hc

theorem dispatch_inv (h : Inv s) : Inv s.dispatch.1 := by
  unfold State.dispatch
  split
  · rename_i r rest hheld hqueue
    have hr : r.Ok s.epoch := h.queue r (hqueue ▸ List.mem_cons_self)
    have hrest : ∀ r' ∈ rest, r'.Ok s.epoch := fun r' hm =>
      h.queue r' (hqueue ▸ List.mem_cons_of_mem r hm)
    split
    · exact ⟨h.calls,hrest,h.held,h.tests⟩
    · split <;> exact ⟨h.calls,hrest,fun r' hm => Option.some.inj hm ▸ hr,h.tests⟩
  · exact h

theorem spawn_inv (h : Inv s) : Inv s.spawn.1 := by
  unfold State.spawn
  split
  · exact h
  · rename_i r hheld
    split
    · refine ⟨h.calls,h.queue,fun r' hm => (Option.not_mem_none r' hm).elim,fun t hm => ?_⟩
      rcases List.mem_cons.mp hm with rfl | hm
      · exact h.held r hheld
      · exact h.tests t hm
    · exact h

/-- A request that passes the comparison was sent after the last cancel. -/
theorem current_of_ok {epoch : ℕ} {r : Enqueued} (h : r.Ok epoch)
    (hr : ¬(0 < r.request.epoch ∧ r.request.epoch ≠ epoch)) : r.sentAt = epoch := by
  rcases Nat.eq_zero_or_pos r.request.epoch with hz | hpos
  · exact h.2.1 hz
  · rw [← h.2.2 hpos]
    exact not_not.mp fun hne => hr ⟨hpos,hne⟩

/-- One that fails it was sent before. -/
theorem old_of_ok {epoch : ℕ} {r : Enqueued} (h : r.Ok epoch)
    (hr : 0 < r.request.epoch ∧ r.request.epoch ≠ epoch) : r.sentAt < epoch :=
  lt_of_le_of_ne h.1 (h.2.2 hr.1 ▸ hr.2)

theorem advance_ok (cfg : TestConfig) {epoch : ℕ} (ok : Bool) {t : Test} (h : t.Ok epoch) :
    ({ t with phase := (t.advance cfg epoch ok).1 } : Test).Ok epoch := by
  obtain ⟨r,phase,sem⟩ := t
  cases phase with
  | spawned =>
    by_cases hr : 0 < r.request.epoch ∧ r.request.epoch ≠ epoch
    · simp [Test.advance,guardEpoch,hr,Test.Ok]
    · simp only [Test.advance,guardEpoch,hr,if_false]
      exact fun _ => current_of_ok h hr
  | guarded samples =>
    simp only [Test.advance,probe]
    split
    · trivial
    · rename_i hmethod
      split <;> exact h (.inl hmethod)
  | probed samples => cases ok <;> simp_all [Test.advance,Test.Ok]
  | started samples => cases ok <;> simp_all [Test.advance,Test.Ok]
  | sampling e left =>
    cases left with
    | zero => trivial
    | succ left =>
      simp only [Test.advance]
      split
      · trivial
      · exact h
  | sample e left => exact h
  | ended => trivial

theorem testStep_inv (h : Inv s) (ok : Bool) {t : Test} (ht : t.Ok s.epoch) :
    Inv (s.testStep ok t).1 := by
  unfold State.testStep
  split
  · exact inv_inFlight h _
  · refine ⟨h.calls,h.queue,h.held,fun t' hm => ?_⟩
    rcases List.mem_cons.mp hm with rfl | hm
    · exact advance_ok s.config ok ht
    · exact h.tests t' hm

theorem cancel_inv (h : Inv s) (hc : Careful s .cancelTests) :
    Inv (s.step .cancelTests).1 := by
  obtain ⟨hqueue,hheld,htests,hcalls⟩ := hc
  have hreq : ∀ r : Enqueued, r.Ok s.epoch → 0 < r.request.epoch → r.Ok (s.epoch+1) :=
    fun r hr hpos => ⟨Nat.le_succ_of_le hr.1,fun hz => absurd hz (Nat.pos_iff_ne_zero.mp hpos),
      hr.2.2⟩
  refine ⟨fun c hm => ?_,fun r hm => hreq r (h.queue r hm) (hqueue r hm),
    fun r hm => hreq r (h.held r hm) (hheld r hm),fun t hm => ?_⟩
  · have hset := hcalls c hm
    obtain ⟨caller,c⟩ := c
    cases c with
    | loop gid ps method samples epoch enqueued =>
      cases ps with
      | nil => trivial
      | cons p ps => exact .inl hset
    | sending r rest => exact .inl hset
    | _ => trivial
  · obtain ⟨hbetween,hun⟩ := htests t hm
    have ht := h.tests t hm
    obtain ⟨r,phase,sem⟩ := t
    cases phase with
    | spawned => exact hreq r ht (hun rfl)
    | guarded samples => exact fun hb => absurd hb hbetween
    | probed samples => exact absurd trivial hbetween
    | started samples => exact absurd trivial hbetween
    | sampling e left => exact ⟨ht.1,Nat.le_succ_of_le ht.2⟩
    | sample e left => exact ⟨ht.1,Nat.le_succ_of_le ht.2⟩
    | ended => trivial

theorem step_inv (h : Inv s) (e : Event) (hc : Careful s e) : Inv (s.step e).1 := by
  cases e with
  | testProfile p method =>
    exact inv_addCall (s := { s with nextCall := s.nextCall+1 })
      ⟨h.calls,h.queue,h.held,h.tests⟩ trivial
  | testGroup gid ps method samples =>
    exact inv_addCall (s := { s with nextCall := s.nextCall+1 })
      ⟨h.calls,h.queue,h.held,h.tests⟩ trivial
  | call n =>
    simp only [State.step]
    split
    · exact h
    · rename_i caller c hn
      exact callStep_inv (inv_calls h fun _ => List.mem_of_mem_eraseIdx) caller c
        (h.calls _ (List.mem_of_getElem? hn))
  | dispatch => exact dispatch_inv h
  | spawn => exact spawn_inv h
  | test n ok =>
    simp only [State.step]
    split
    · exact h
    · rename_i t hn
      have hrest : Inv { s with tests := s.tests.eraseIdx n } :=
        ⟨h.calls,h.queue,h.held,fun t' hm => h.tests t' (List.mem_of_mem_eraseIdx hm)⟩
      exact testStep_inv hrest ok (h.tests t (List.mem_of_getElem? hn))
  | cancelTests => exact cancel_inv h hc
  | setTestConfig cfg => exact ⟨h.calls,h.queue,h.held,h.tests⟩

theorem run_inv (h : Inv s) (es : List Event) (hc : CarefulRun s es) : Inv (s.run es) := by
  induction es generalizing s with
  | nil => exact h
  | cons e es ih => exact ih (step_inv h e hc.1) hc.2

theorem start_inv (cfg : TestConfig) : Inv (start cfg) :=
  ⟨fun _ hm => (List.not_mem_nil hm).elim,fun _ hm => (List.not_mem_nil hm).elim,
    fun r hm => (Option.not_mem_none r hm).elim,fun _ hm => (List.not_mem_nil hm).elim⟩

theorem callStep_honest (caller : ℕ) (c : Call) :
    ∀ a ∈ (s.callStep caller c).2, a.Honest s.epoch := by
  intro a ha
  cases c with
  | profile p method samples =>
    simp only [State.callStep] at ha
    split at ha
    · exact (List.not_mem_nil ha).elim
    · rw [List.mem_singleton.mp ha]
      trivial
  | reserved p method samples => exact (List.not_mem_nil ha).elim
  | group gid ps method samples => exact (List.not_mem_nil ha).elim
  | loop gid ps method samples epoch enqueued =>
    cases ps with
    | nil =>
      rw [List.mem_singleton.mp ha]
      trivial
    | cons p ps =>
      simp only [State.callStep] at ha
      split at ha
      · exact (List.not_mem_nil ha).elim
      · rw [List.mem_singleton.mp ha]
        trivial
  | sending r rest =>
    simp only [State.callStep] at ha
    split at ha
    · rw [List.mem_singleton.mp ha]
      trivial
    · exact (List.not_mem_nil ha).elim

theorem dispatch_honest (h : Inv s) : ∀ a ∈ s.dispatch.2, a.Honest s.epoch := by
  intro a ha
  unfold State.dispatch at ha
  split at ha
  · rename_i r rest hheld hqueue
    have hr : r.Ok s.epoch := h.queue r (hqueue ▸ List.mem_cons_self)
    split at ha
    · rename_i hold
      rcases List.mem_cons.mp ha with rfl | ha
      · exact old_of_ok hr hold
      · rw [List.mem_singleton.mp ha]
        trivial
    · split at ha <;> exact (List.not_mem_nil ha).elim
  · exact (List.not_mem_nil ha).elim

theorem advance_honest (cfg : TestConfig) {epoch : ℕ} (ok : Bool) {t : Test} (h : t.Ok epoch) :
    ∀ a ∈ (t.advance cfg epoch ok).2, a.Honest epoch := by
  obtain ⟨r,phase,sem⟩ := t
  intro a ha
  cases phase with
  | spawned =>
    simp only [Test.advance,guardEpoch] at ha
    split at ha
    · rename_i hold
      rw [List.mem_singleton.mp ha]
      exact old_of_ok h hold
    · exact (List.not_mem_nil ha).elim
  | guarded samples =>
    have hdial : ∀ a ∈ (probe r samples).2, a = .dial r ∧ dialAddress r.request.profile ≠ "" := by
      unfold probe
      split
      · split <;> simp_all
      · split <;> simp_all
    rw [(hdial a ha).1]
    exact h (.inr (hdial a ha).2)
  | probed samples =>
    cases ok with
    | false => exact (List.not_mem_nil ha).elim
    | true =>
      rw [List.mem_singleton.mp ha]
      exact h
  | started samples => cases ok <;> exact (List.not_mem_nil ha).elim
  | sampling e left =>
    obtain ⟨hsent,hle⟩ := h
    cases left with
    | zero => exact (List.not_mem_nil ha).elim
    | succ left =>
      simp only [Test.advance] at ha
      split at ha
      · rename_i hne
        rw [List.mem_singleton.mp ha]
        exact lt_of_le_of_ne (hsent ▸ hle) (hsent ▸ Ne.symm hne)
      · rename_i heq
        rw [List.mem_singleton.mp ha]
        exact hsent.trans (not_not.mp heq).symm
  | sample e left => exact (List.not_mem_nil ha).elim
  | ended => exact (List.not_mem_nil ha).elim

theorem testStep_honest (ok : Bool) {t : Test} (ht : t.Ok s.epoch) :
    ∀ a ∈ (s.testStep ok t).2, a.Honest s.epoch := by
  intro a ha
  unfold State.testStep at ha
  split at ha
  · rcases List.mem_cons.mp ha with rfl | ha
    · trivial
    · rw [List.mem_singleton.mp ha]
      trivial
  · exact advance_honest s.config ok ht a ha

/-- Epochs that tell cancels apart make every step honest. -/
theorem inv_honest (h : Inv s) : Honest s := by
  intro e a ha
  cases e with
  | call n =>
    simp only [State.step] at ha
    split at ha
    · exact (List.not_mem_nil ha).elim
    · exact callStep_honest (s := { s with calls := s.calls.eraseIdx n }) _ _ a ha
  | dispatch => exact dispatch_honest h a ha
  | spawn =>
    simp only [State.step,State.spawn] at ha
    split at ha
    · exact (List.not_mem_nil ha).elim
    · split at ha <;> exact (List.not_mem_nil ha).elim
  | test n ok =>
    simp only [State.step] at ha
    split at ha
    · exact (List.not_mem_nil ha).elim
    · rename_i t hn
      exact testStep_honest (s := { s with tests := s.tests.eraseIdx n }) ok
        (h.tests t (List.mem_of_getElem? hn)) a ha
  | _ => exact (List.not_mem_nil ha).elim

end Epochs

section Reservations

variable {s : State} {k : Slot}

def Call.slots : Call → List Slot
  | .reserved p _ _ => [slotOf p]
  | .sending r _ => [slotOf r.profile]
  | _ => []

/-- How many calls and requests hold the reservation. -/
def State.owners (s : State) (k : Slot) : ℕ :=
  (s.calls.map (fun c => c.2.slots.count k)).sum+(s.queue.map Enqueued.slot).count k+
    (s.held.toList.map Enqueued.slot).count k+(s.tests.map (·.enqueued.slot)).count k

def State.reserved (s : State) (k : Slot) : ℕ := if k ∈ s.inFlight then 1 else 0

/-- Every reservation has one owner; `extra` has been taken out of its list. -/
def Owned (extra : List Slot) (s : State) : Prop :=
  ∀ k, extra.count k+s.owners k = s.reserved k

/-- The actions account for the change of the set, and owners stay unique. -/
structure Accounts (s : State) (r : State × List Action) : Prop where
  owned : Owned [] r.1
  balance : ∀ k, r.2.count (.reserve k)+s.reserved k = r.2.count (.release k)+r.1.reserved k

theorem perm_eraseIdx {α : Type} {l : List α} {n : ℕ} {a : α} (h : l[n]? = some a) :
    l.Perm (a :: l.eraseIdx n) := by
  obtain ⟨hn,rfl⟩ := List.getElem?_eq_some_iff.mp h
  exact (List.getElem_cons_eraseIdx_perm hn).symm

theorem accounts_silent {s' : State} {acts : List Action} (h : Owned [] s')
    (hf : s'.inFlight = s.inFlight) (ha : ∀ k, acts.count (.reserve k) = 0 ∧
      acts.count (.release k) = 0) : Accounts s (s',acts) := by
  refine ⟨h,fun k => ?_⟩
  rw [(ha k).1,(ha k).2,State.reserved,State.reserved,hf]

/-- A free slot is reserved for the call at hand. -/
theorem accounts_reserve {slot : Slot} (c : ℕ × Call) (h : Owned [] s) (hc : c.2.slots = [slot])
    (hfree : slot ∉ s.inFlight) :
    Accounts s ({ s with inFlight := insert slot s.inFlight, calls := c :: s.calls },
      [.reserve slot]) := by
  have hnew : ∀ k, State.reserved { s with inFlight := insert slot s.inFlight } k =
      s.reserved k+if slot = k then 1 else 0 := by
    intro k
    by_cases hk : slot = k
    · simp [State.reserved,← hk,hfree]
    · simp [State.reserved,hk,Ne.symm hk]
  refine ⟨fun k => ?_,fun k => ?_⟩
  · have hk := h k
    simp only [List.count_nil,Nat.zero_add] at hk ⊢
    calc State.owners { s with inFlight := insert slot s.inFlight, calls := c :: s.calls } k
        = s.owners k+[slot].count k := by
          simp only [State.owners,List.map_cons,List.sum_cons,hc]
          omega
      _ = s.reserved k+if slot = k then 1 else 0 := by
          rw [hk,List.count_singleton]
          simp
      _ = _ := (hnew k).symm
  · have hk := hnew k
    have hcount : [Action.reserve slot].count (.reserve k) = if slot = k then 1 else 0 := by
      simp [List.count_singleton]
    have hnone : [Action.reserve slot].count (.release k) = 0 := by simp
    rw [hcount,hnone]
    exact (Nat.add_comm _ _).trans (hk.symm.trans (Nat.zero_add _).symm)

/-- The owner that was taken out gives its slot back. -/
theorem accounts_release {slot : Slot} {a : Action} (h : Owned [slot] s)
    (ha : ∀ k, a ≠ .reserve k ∧ a ≠ .release k) :
    Accounts s ({ s with inFlight := s.inFlight.erase slot },[a,.release slot]) := by
  have hheld : slot ∈ s.inFlight := by
    have hk := h slot
    by_contra hno
    simp [State.reserved,hno] at hk
  have hnew : ∀ k, s.reserved k =
      State.reserved { s with inFlight := s.inFlight.erase slot } k+if slot = k then 1 else 0 := by
    intro k
    by_cases hk : slot = k
    · simp [State.reserved,← hk,hheld]
    · simp [State.reserved,hk,Ne.symm hk]
  refine ⟨fun k => ?_,fun k => ?_⟩
  · have hk := h k
    rw [hnew k,List.count_singleton] at hk
    simp only [beq_iff_eq] at hk
    change [].count k+s.owners k = State.reserved { s with inFlight := s.inFlight.erase slot } k
    rw [List.count_nil]
    omega
  · have hcount : [a,Action.release slot].count (.reserve k) = 0 := by
      simp [(ha k).1]
    have hrel : [a,Action.release slot].count (.release k) = if slot = k then 1 else 0 := by
      simp [List.count_cons,(ha k).2]
    change [a,Action.release slot].count (.reserve k)+s.reserved k =
      [a,Action.release slot].count (.release k)+
        State.reserved { s with inFlight := s.inFlight.erase slot } k
    rw [hcount,hrel,hnew k]
    omega

theorem owned_move {extra : List Slot} {s' : State} (h : Owned extra s)
    (hf : s'.inFlight = s.inFlight) (ho : ∀ k, s'.owners k = extra.count k+s.owners k) :
    Owned [] s' := fun k => by
  rw [List.count_nil,Nat.zero_add,ho,h k,State.reserved,State.reserved,hf]

theorem callStep_accounts (caller : ℕ) (c : Call) (h : Owned c.slots s) :
    Accounts s (s.callStep caller c) := by
  cases c with
  | profile p method samples =>
    simp only [State.callStep]
    split
    · exact accounts_silent h rfl fun k => ⟨rfl,rfl⟩
    · rename_i hfree
      exact accounts_reserve (caller,.reserved p method samples) h rfl hfree
  | reserved p method samples =>
    refine accounts_silent (owned_move h rfl fun k => ?_) rfl fun k => ⟨rfl,rfl⟩
    simp only [State.owners,Call.slots,List.map_cons,List.sum_cons]
    omega
  | group gid ps method samples =>
    refine accounts_silent (owned_move h rfl fun k => ?_) rfl fun k => ⟨rfl,rfl⟩
    simp only [State.owners,Call.slots,List.map_cons,List.sum_cons]
    omega
  | loop gid ps method samples epoch enqueued =>
    cases ps with
    | nil => exact accounts_silent h rfl fun k => ⟨rfl,rfl⟩
    | cons p ps =>
      simp only [State.callStep]
      split
      · refine accounts_silent (owned_move h rfl fun k => ?_) rfl fun k => ⟨rfl,rfl⟩
        simp only [State.owners,Call.slots,List.map_cons,List.sum_cons]
        omega
      · rename_i hfree
        exact accounts_reserve (caller,.sending ⟨p,method,samples,epoch⟩ (some (gid,ps,enqueued)))
          h rfl hfree
  | sending r rest =>
    simp only [State.callStep]
    split
    · refine accounts_silent (owned_move h rfl fun k => ?_) rfl fun k => ⟨rfl,rfl⟩
      cases rest with
      | none =>
        simp only [State.owners,Call.slots,List.map_append,List.map_cons,List.map_nil,
          List.count_append,Enqueued.slot]
        omega
      | some g =>
        simp only [State.owners,Call.slots,List.map_append,List.map_cons,List.map_nil,
          List.count_append,Enqueued.slot,List.sum_cons,List.count_nil]
        omega
    · refine accounts_silent (owned_move h rfl fun k => ?_) rfl fun k => ⟨rfl,rfl⟩
      simp only [State.owners,Call.slots,List.map_cons,List.sum_cons]
      omega

theorem dispatch_accounts (h : Owned [] s) : Accounts s s.dispatch := by
  unfold State.dispatch
  split
  · rename_i r rest hheld hqueue
    split
    · have hrest : Owned [r.slot] { s with queue := rest } := by
        intro k
        have hk := h k
        simp only [State.owners,hqueue,List.map_cons,List.count_cons,List.count_nil,
          State.reserved,beq_iff_eq] at hk ⊢
        omega
      have hr := accounts_release (a := .drop r) hrest fun k => by simp
      exact ⟨hr.owned,hr.balance⟩
    · split
      all_goals
        refine accounts_silent (owned_move h rfl fun k => ?_) rfl fun k => ⟨rfl,rfl⟩
        simp only [State.owners,hheld,hqueue,List.map_cons,List.map_nil,List.count_cons,
          List.count_nil,Option.toList]
        omega
  · exact accounts_silent h rfl fun k => ⟨rfl,rfl⟩

theorem spawn_accounts (h : Owned [] s) : Accounts s s.spawn := by
  unfold State.spawn
  split
  · exact accounts_silent h rfl fun k => ⟨rfl,rfl⟩
  · rename_i r hheld
    split
    · refine accounts_silent (owned_move h rfl fun k => ?_) rfl fun k => ⟨rfl,rfl⟩
      simp only [State.owners,hheld,List.map_cons,List.map_nil,List.count_cons,
        List.count_nil,Option.toList]
      omega
    · exact accounts_silent h rfl fun k => ⟨rfl,rfl⟩

/-- A test neither reserves nor releases before it ends. -/
theorem advance_silent (cfg : TestConfig) (epoch : ℕ) (ok : Bool) (t : Test) (k : Slot) :
    (t.advance cfg epoch ok).2.count (.reserve k) = 0 ∧
      (t.advance cfg epoch ok).2.count (.release k) = 0 := by
  obtain ⟨r,phase,sem⟩ := t
  cases phase with
  | spawned =>
    simp only [Test.advance,guardEpoch]
    split <;> simp
  | guarded samples =>
    simp only [Test.advance,probe]
    split
    · split <;> simp
    · split <;> simp
  | probed samples => cases ok <;> simp [Test.advance]
  | started samples => cases ok <;> simp [Test.advance]
  | sampling e left =>
    cases left with
    | zero => simp [Test.advance]
    | succ left =>
      simp only [Test.advance]
      split <;> simp
  | sample e left => simp [Test.advance]
  | ended => simp [Test.advance]

theorem testStep_accounts (ok : Bool) (t : Test) (h : Owned [t.enqueued.slot] s) :
    Accounts s (s.testStep ok t) := by
  unfold State.testStep
  split
  · exact accounts_release h fun k => by simp
  · refine accounts_silent (owned_move h rfl fun k => ?_) rfl
      (advance_silent s.config s.epoch ok t)
    simp only [State.owners,List.map_cons,List.count_cons,List.count_nil]
    omega

theorem owned_eraseCall {n : ℕ} {c : ℕ × Call} (h : Owned [] s) (hn : s.calls[n]? = some c) :
    Owned c.2.slots { s with calls := s.calls.eraseIdx n } := by
  intro k
  have hk := h k
  have hsum := ((perm_eraseIdx hn).map (fun c : ℕ × Call => c.2.slots.count k)).sum_eq
  simp only [State.owners,hsum,List.map_cons,List.sum_cons,List.count_nil,
    State.reserved] at hk ⊢
  omega

theorem owned_eraseTest {n : ℕ} {t : Test} (h : Owned [] s) (hn : s.tests[n]? = some t) :
    Owned [t.enqueued.slot] { s with tests := s.tests.eraseIdx n } := by
  intro k
  have hk := h k
  have hcount := ((perm_eraseIdx hn).map (fun t : Test => t.enqueued.slot)).count_eq k
  simp only [State.owners,hcount,List.map_cons,List.count_cons,List.count_nil,
    State.reserved] at hk ⊢
  omega

theorem step_accounts (h : Owned [] s) (e : Event) : Accounts s (s.step e) := by
  cases e with
  | call n =>
    simp only [State.step]
    split
    · exact accounts_silent h rfl fun k => ⟨rfl,rfl⟩
    · rename_i caller c hn
      have hr := callStep_accounts caller c (owned_eraseCall h hn)
      exact ⟨hr.owned,hr.balance⟩
  | dispatch => exact dispatch_accounts h
  | spawn => exact spawn_accounts h
  | test n ok =>
    simp only [State.step]
    split
    · exact accounts_silent h rfl fun k => ⟨rfl,rfl⟩
    · rename_i t hn
      have hr := testStep_accounts ok t (owned_eraseTest h hn)
      exact ⟨hr.owned,hr.balance⟩
  | testProfile p method =>
    refine accounts_silent (owned_move h rfl fun k => ?_) rfl fun k => ⟨rfl,rfl⟩
    simp only [State.begin,State.owners,Call.slots,List.map_cons,List.sum_cons]
    omega
  | testGroup gid ps method samples =>
    refine accounts_silent (owned_move h rfl fun k => ?_) rfl fun k => ⟨rfl,rfl⟩
    simp only [State.begin,State.owners,Call.slots,List.map_cons,List.sum_cons]
    omega
  | cancelTests => exact accounts_silent h rfl fun k => ⟨rfl,rfl⟩
  | setTestConfig cfg => exact accounts_silent h rfl fun k => ⟨rfl,rfl⟩

theorem run_accounts (h : Owned [] s) (es : List Event) : Accounts s (s.run es,s.trace es) := by
  induction es generalizing s with
  | nil => exact accounts_silent h rfl fun k => ⟨rfl,rfl⟩
  | cons e es ih =>
    have hstep := step_accounts h e
    have hrun := ih hstep.owned
    refine ⟨hrun.owned,fun k => ?_⟩
    have h₁ := hstep.balance k
    have h₂ := hrun.balance k
    simp only [State.trace,State.run,List.count_append] at h₁ h₂ ⊢
    omega

theorem start_owned (cfg : TestConfig) : Owned [] (start cfg) := fun _ => rfl

end Reservations

section Progress

variable {s : State}

def samplesNat (samples : ℤ) : ℕ := (max samples 1).toNat

/-- The steps a request has before it once its test is spawned. -/
def requestWork (cfg : TestConfig) (samples : ℤ) : ℕ := 2*samplesNat (samplesOr cfg samples)+6

def Test.work (cfg : TestConfig) (t : Test) : ℕ :=
  match t.phase with
  | .spawned => requestWork cfg t.enqueued.request.sampleCount
  | .guarded samples => 2*samplesNat samples+5
  | .probed samples => 2*samplesNat samples+4
  | .started samples => 2*samplesNat samples+3
  | .sampling _ left => 2*left+2
  | .sample _ left => 2*left+3
  | .ended => 1

def loopWork (cfg : TestConfig) (samples : ℤ) (ps : List Profile) : ℕ :=
  ps.length*(requestWork cfg samples+4)+1

def Call.work (cfg : TestConfig) : Call → ℕ
  | .profile _ _ samples => requestWork cfg samples+5
  | .reserved _ _ samples => requestWork cfg samples+4
  | .group _ ps _ samples => loopWork cfg samples ps+1
  | .loop _ ps _ samples _ _ => loopWork cfg samples ps
  | .sending r none => requestWork cfg r.sampleCount+3
  | .sending r (some (_,ps,_)) =>
    requestWork cfg r.sampleCount+3+loopWork cfg r.sampleCount ps

def Enqueued.work (cfg : TestConfig) (r : Enqueued) : ℕ :=
  requestWork cfg r.request.sampleCount+1

def State.work (s : State) : ℕ :=
  (s.calls.map (fun c => c.2.work s.config)).sum+
    (s.queue.map (fun r => r.work s.config+1)).sum+
    (s.held.toList.map (fun r => r.work s.config)).sum+
    (s.tests.map (fun t => t.work s.config)).sum

theorem advance_work (cfg : TestConfig) (epoch : ℕ) (t : Test) (h : t.phase ≠ .ended) :
    ({ t with phase := (t.advance cfg epoch true).1 } : Test).work cfg < t.work cfg := by
  obtain ⟨r,phase,sem⟩ := t
  cases phase with
  | spawned =>
    simp only [Test.advance,guardEpoch]
    split <;> simp [Test.work,requestWork]
  | guarded samples =>
    simp only [Test.advance,probe]
    split
    · simp [Test.work]
    · split <;> simp [Test.work]
  | probed samples => simp [Test.advance,Test.work]
  | started samples => simp [Test.advance,Test.work,samplesNat]
  | sampling e left =>
    cases left with
    | zero => simp [Test.advance,Test.work]
    | succ left =>
      simp only [Test.advance]
      split <;> simp only [Test.work] <;> omega
  | sample e left => simp [Test.advance,Test.work]
  | ended => exact absurd rfl h

/-- With room in the channel a call always gets on. -/
theorem callStep_work (caller : ℕ) (c : Call) (h : s.queue = []) :
    (s.callStep caller c).1.work < s.work+c.work s.config := by
  cases c with
  | profile p method samples =>
    simp only [State.callStep]
    split
    · simp [Call.work]
    · simp only [State.work,Call.work,List.map_cons,List.sum_cons]
      omega
  | reserved p method samples =>
    simp only [State.callStep,State.work,Call.work,List.map_cons,List.sum_cons]
    omega
  | group gid ps method samples =>
    simp only [State.callStep,State.work,Call.work,List.map_cons,List.sum_cons]
    omega
  | loop gid ps method samples epoch enqueued =>
    cases ps with
    | nil => simp [State.callStep,Call.work,loopWork]
    | cons p ps =>
      simp only [State.callStep]
      split
      · simp only [State.work,Call.work,List.map_cons,List.sum_cons,loopWork,List.length_cons,
          Nat.succ_mul]
        omega
      · simp only [State.work,Call.work,List.map_cons,List.sum_cons,loopWork,List.length_cons,
          Nat.succ_mul]
        omega
  | sending r rest =>
    have hroom : s.queue.length < channelSize := by rw [h]; decide
    simp only [State.callStep,if_pos hroom]
    cases rest with
    | none =>
      have hwork : (Call.sending r none).work s.config = requestWork s.config r.sampleCount+3 := rfl
      simp only [State.work,hwork,Enqueued.work,h,List.nil_append,List.map_cons,List.map_nil,
        List.sum_cons,List.sum_nil]
      omega
    | some g =>
      obtain ⟨gid,ps,enqueued⟩ := g
      have hwork : (Call.sending r (some (gid,ps,enqueued))).work s.config =
        requestWork s.config r.sampleCount+3+loopWork s.config r.sampleCount ps := rfl
      have hloop : (Call.loop gid ps r.method r.sampleCount r.epoch (enqueued+1)).work s.config =
        loopWork s.config r.sampleCount ps := rfl
      simp only [State.work,hwork,hloop,Enqueued.work,h,List.nil_append,List.map_cons,
        List.map_nil,List.sum_cons,List.sum_nil]
      omega

theorem test_work {t : Test} {ts : List Test} (h : s.tests = t::ts) :
    (s.step (.test 0 true)).1.work < s.work := by
  have hstep : (s.step (.test 0 true)).1 = ({ s with tests := ts }.testStep true t).1 := by
    simp [State.step,h]
  rw [hstep]
  unfold State.testStep
  split
  · rename_i hended
    simp only [State.work,h,List.map_cons,List.sum_cons,Test.work,hended]
    omega
  · rename_i hlive
    have hwork := advance_work s.config s.epoch t hlive
    simp only [State.work,h,List.map_cons,List.sum_cons]
    omega

theorem spawn_work {r : Enqueued} (hheld : s.held = some r) (htests : s.tests = [])
    (hsize : 0 < s.size) : (s.step .spawn).1.work < s.work := by
  have htaken : (s.taken : ℤ) < s.size := by simpa [State.taken,htests] using hsize
  simp only [State.step,State.spawn,hheld,if_pos htaken,State.work,List.map_cons,List.sum_cons,
    Test.work,Enqueued.work,htests,Option.toList]
  simp

theorem dispatch_work {r : Enqueued} {rest : List Enqueued} (hheld : s.held = none)
    (hqueue : s.queue = r::rest) : (s.step .dispatch).1.work < s.work := by
  simp only [State.step,State.dispatch,hheld,hqueue]
  split
  · simp only [State.work,hheld,hqueue,List.map_cons,List.sum_cons]
    omega
  · split <;> simp only [State.work,hheld,hqueue,List.map_cons,List.map_nil,List.sum_cons,
      List.sum_nil,Option.toList] <;> omega

/-- Some step always gets on until all is done. -/
theorem some_step_works (hsize : 0 < s.size) (h : ¬Done s) :
    ∃ e : Event, e.internal = true ∧ (s.step e).1.work < s.work := by
  rcases htests : s.tests with _ | ⟨t,ts⟩
  · rcases hheld : s.held with _ | r
    · rcases hqueue : s.queue with _ | ⟨r,rest⟩
      · rcases hcalls : s.calls with _ | ⟨⟨caller,c⟩,cs⟩
        · exact absurd ⟨hcalls,hqueue,hheld,htests⟩ h
        · refine ⟨.call 0,rfl,?_⟩
          have hwork := callStep_work (s := { s with calls := cs }) caller c hqueue
          have hstep : (s.step (.call 0)).1 = ({ s with calls := cs }.callStep caller c).1 := by
            simp [State.step,hcalls]
          have hs : s.work = State.work { s with calls := cs }+c.work s.config := by
            simp only [State.work,hcalls,List.map_cons,List.sum_cons]
            omega
          rw [hstep,hs]
          exact hwork
      · exact ⟨.dispatch,rfl,dispatch_work hheld hqueue⟩
    · exact ⟨.spawn,rfl,spawn_work hheld htests hsize⟩
  · exact ⟨.test 0 true,rfl,test_work htests⟩

theorem callStep_size (caller : ℕ) (c : Call) : (s.callStep caller c).1.size = s.size := by
  cases c with
  | loop gid ps method samples epoch enqueued =>
    cases ps with
    | nil => rfl
    | cons p ps =>
      simp only [State.callStep]
      split <;> rfl
  | profile p method samples =>
    simp only [State.callStep]
    split <;> rfl
  | sending r rest =>
    simp only [State.callStep]
    split <;> rfl
  | _ => rfl

/-- A semaphore always has room for one test. -/
theorem step_size (h : 0 < s.size) (e : Event) : 0 < (s.step e).1.size := by
  cases e with
  | call n =>
    simp only [State.step]
    split
    · exact h
    · rw [callStep_size]
      exact h
  | dispatch =>
    simp only [State.step,State.dispatch]
    split
    · split
      · exact h
      · split
        · rename_i hcfg
          exact hcfg.1
        · exact h
    · exact h
  | spawn =>
    simp only [State.step,State.spawn]
    split
    · exact h
    · split <;> exact h
  | test n ok =>
    simp only [State.step]
    split
    · exact h
    · simp only [State.testStep]
      split <;> exact h
  | _ => exact h

theorem run_size (h : 0 < s.size) (es : List Event) : 0 < (s.run es).size := by
  induction es generalizing s with
  | nil => exact h
  | cons e es ih => exact ih (step_size h e)

theorem start_size (cfg : TestConfig) : 0 < (start cfg).size := by
  simp only [start]
  split <;> omega

theorem drains {n : ℕ} (hn : s.work ≤ n) (hsize : 0 < s.size) : Drains s := by
  induction n generalizing s with
  | zero =>
    refine ⟨[],fun _ he => (List.not_mem_nil he).elim,?_⟩
    by_contra hd
    obtain ⟨e,-,hlt⟩ := some_step_works hsize hd
    omega
  | succ n ih =>
    by_cases hd : Done s
    · exact ⟨[],fun _ he => (List.not_mem_nil he).elim,hd⟩
    · obtain ⟨e,he,hlt⟩ := some_step_works hsize hd
      obtain ⟨es,hes,hdone⟩ := ih (by omega) (step_size hsize e)
      exact ⟨e::es,List.forall_mem_cons.mpr ⟨he,hes⟩,hdone⟩

end Progress

section Ends

variable {s : State} {r : Enqueued}

/-- The two ways a request leaves. -/
def Ends (acts : List Action) (r : Enqueued) : Prop :=
  acts = [.drop r,.release r.slot] ∨ acts = [.result r,.release r.slot]

/-- Either no request leaves, or exactly one does. -/
def Leaves (s : State) (res : State × List Action) : Prop :=
  ((∀ r, .drop r ∉ res.2 ∧ .result r ∉ res.2) ∧ s.live.Subperm res.1.live) ∨
    ∃ r, Ends res.2 r ∧ s.live.Perm (r :: res.1.live)

theorem leaves_same {res : State × List Action} (ha : ∀ r, .drop r ∉ res.2 ∧ .result r ∉ res.2)
    (hl : s.live = res.1.live) : Leaves s res := .inl ⟨ha,hl ▸ List.Subperm.refl _⟩

theorem callStep_leaves (caller : ℕ) (c : Call) : Leaves s (s.callStep caller c) := by
  cases c with
  | profile p method samples =>
    simp only [State.callStep]
    split <;> exact leaves_same (by simp) rfl
  | loop gid ps method samples epoch enqueued =>
    cases ps with
    | nil => exact leaves_same (by simp [State.callStep]) rfl
    | cons p ps =>
      simp only [State.callStep]
      split <;> exact leaves_same (by simp) rfl
  | sending r rest =>
    simp only [State.callStep]
    split
    · refine .inl ⟨by simp,?_⟩
      simp only [State.live,List.append_assoc]
      exact (List.Sublist.append_left (List.sublist_append_right _ _) _).subperm
    · exact leaves_same (by simp) rfl
  | reserved p method samples => exact leaves_same (by simp [State.callStep]) rfl
  | group gid ps method samples => exact leaves_same (by simp [State.callStep]) rfl

theorem dispatch_leaves : Leaves s s.dispatch := by
  unfold State.dispatch
  split
  · rename_i r rest hheld hqueue
    split
    · refine .inr ⟨r,.inl rfl,?_⟩
      simp [State.live,hheld,hqueue]
    · have hperm : (State.live { s with queue := rest, held := some r }).Perm s.live := by
        simp only [State.live,hheld,hqueue,Option.toList,List.append_nil,List.cons_append]
        simp
      split
      · exact .inl ⟨by simp,hperm.symm.subperm⟩
      · exact .inl ⟨by simp,hperm.symm.subperm⟩
  · exact leaves_same (by simp) rfl

theorem spawn_leaves : Leaves s s.spawn := by
  unfold State.spawn
  split
  · exact leaves_same (by simp) rfl
  · rename_i r hheld
    split
    · exact leaves_same (by simp) (by simp [State.live,hheld])
    · exact leaves_same (by simp) rfl

/-- A test ends nothing but itself. -/
theorem advance_keeps (cfg : TestConfig) (epoch : ℕ) (ok : Bool) (t : Test) (r : Enqueued) :
    .drop r ∉ (t.advance cfg epoch ok).2 ∧ .result r ∉ (t.advance cfg epoch ok).2 := by
  obtain ⟨q,phase,sem⟩ := t
  cases phase with
  | spawned =>
    simp only [Test.advance,guardEpoch]
    split <;> simp
  | guarded samples =>
    simp only [Test.advance,probe]
    split
    · split <;> simp
    · split <;> simp
  | probed samples => cases ok <;> simp [Test.advance]
  | started samples => cases ok <;> simp [Test.advance]
  | sampling e left =>
    cases left with
    | zero => simp [Test.advance]
    | succ left =>
      simp only [Test.advance]
      split <;> simp
  | sample e left => simp [Test.advance]
  | ended => simp [Test.advance]

theorem test_leaves (n : ℕ) (ok : Bool) : Leaves s (s.step (.test n ok)) := by
  simp only [State.step]
  split
  · exact leaves_same (by simp) rfl
  · rename_i t hn
    have hperm := (perm_eraseIdx hn).map Test.enqueued
    have hlive : s.live.Perm (t.enqueued :: (s.queue ++ s.held.toList ++
        (s.tests.eraseIdx n).map Test.enqueued)) :=
      (hperm.append_left _).trans List.perm_middle
    unfold State.testStep
    split
    · exact .inr ⟨t.enqueued,.inr rfl,hlive⟩
    · refine .inl ⟨advance_keeps s.config s.epoch ok t,?_⟩
      exact (hlive.trans List.perm_middle.symm).subperm

theorem step_leaves (e : Event) : Leaves s (s.step e) := by
  cases e with
  | call n =>
    simp only [State.step]
    split
    · exact leaves_same (by simp) rfl
    · exact callStep_leaves (s := { s with calls := s.calls.eraseIdx n }) _ _
  | dispatch => exact dispatch_leaves
  | spawn => exact spawn_leaves
  | test n ok => exact test_leaves n ok
  | testProfile p method => exact leaves_same (by simp [State.step]) rfl
  | testGroup gid ps method samples => exact leaves_same (by simp [State.step]) rfl
  | cancelTests => exact leaves_same (by simp [State.step]) rfl
  | setTestConfig cfg => exact leaves_same (by simp [State.step]) rfl

/-- A request stays until it is dropped or its result is sent. -/
def Kept (s : State) (res : State × List Action) : Prop :=
  ∀ r ∈ s.live, r ∈ res.1.live ∨ .drop r ∈ res.2 ∨ .result r ∈ res.2

theorem step_kept (e : Event) : Kept s (s.step e) := by
  intro r hr
  rcases step_leaves e with ⟨-,hsub⟩ | ⟨q,hends,hperm⟩
  · exact .inl (hsub.subset hr)
  · rcases List.mem_cons.mp (hperm.mem_iff.mp hr) with rfl | hr
    · rcases hends with h | h <;> rw [h]
      · exact .inr (.inl List.mem_cons_self)
      · exact .inr (.inr List.mem_cons_self)
    · exact .inl hr

theorem run_kept (es : List Event) : Kept s (s.run es,s.trace es) := by
  induction es generalizing s with
  | nil => exact fun r hr => .inl hr
  | cons e es ih =>
    intro r hr
    simp only [State.trace,List.mem_append]
    rcases step_kept e r hr with hr | hr | hr
    · rcases ih r hr with hr | hr | hr
      · exact .inl hr
      · exact .inr (.inl (.inr hr))
      · exact .inr (.inr (.inr hr))
    · exact .inr (.inl (.inl hr))
    · exact .inr (.inr (.inl hr))

theorem callStep_epoch (caller : ℕ) (c : Call) : (s.callStep caller c).1.epoch = s.epoch := by
  cases c with
  | loop gid ps method samples epoch enqueued =>
    cases ps with
    | nil => rfl
    | cons p ps =>
      simp only [State.callStep]
      split <;> rfl
  | profile p method samples =>
    simp only [State.callStep]
    split <;> rfl
  | sending r rest =>
    simp only [State.callStep]
    split <;> rfl
  | _ => rfl

theorem internal_epoch {e : Event} (h : e.internal = true) : (s.step e).1.epoch = s.epoch := by
  cases e with
  | call n =>
    simp only [State.step]
    split
    · rfl
    · exact callStep_epoch _ _
  | dispatch =>
    simp only [State.step,State.dispatch]
    split
    · split
      · rfl
      · split <;> rfl
    · rfl
  | spawn =>
    simp only [State.step,State.spawn]
    split
    · rfl
    · split <;> rfl
  | test n ok =>
    simp only [State.step]
    split
    · rfl
    · simp only [State.testStep]
      split <;> rfl
  | _ => exact nomatch h

/-- Without a cancel nothing is given up that was sent after the last one. -/
theorem internal_honest (h : Inv s) (es : List Event) (hes : ∀ e ∈ es, e.internal = true) :
    ∀ a ∈ s.trace es, a.Honest s.epoch := by
  induction es generalizing s with
  | nil => exact fun a ha => (List.not_mem_nil ha).elim
  | cons e es ih =>
    obtain ⟨he,hes⟩ := List.forall_mem_cons.mp hes
    have hcareful : Careful s e := by cases e <;> trivial
    intro a ha
    rcases List.mem_append.mp ha with ha | ha
    · exact inv_honest h e a ha
    · rw [← internal_epoch he]
      exact ih (step_inv h e hcareful) hes a ha

theorem inv_finishes (h : Inv s) : Finishes s := by
  intro es hes hdone r hr hsent
  have hhonest := internal_honest h es hes
  have hdrop : .drop r ∉ s.trace es := fun hm =>
    absurd (hhonest _ hm) (by simp [Action.Honest,hsent])
  have habort : .abort r ∉ s.trace es := fun hm =>
    absurd (hhonest _ hm) (by simp [Action.Honest,hsent])
  refine ⟨?_,hdrop,habort⟩
  rcases run_kept es r hr with hlive | hm | hm
  · obtain ⟨-,hq,hh,ht⟩ := hdone
    simp [State.live,hq,hh,ht] at hlive
  · exact absurd hm hdrop
  · exact hm

def sampleProfile (id : ℤ) : Profile :=
  { id := id
    groupId := 1
    nanoID := ""
    name := ""
    protocol := "vless"
    uri := ""
    address := "host"
    host := ""
    testResult := 0
    testedAt := 0
    lossPct := 0
    jitterMs := 0
    port := 443
    managed := false
    providerKey := ""
    keyed := nofun }

/-- `TestProfile` up to its send. -/
def enqueue (method : String) : List Event :=
  [.testProfile (sampleProfile 1) method,.call 0,.call 0,.call 0]

/-- From the channel to the samples. -/
def toSamples : List Event :=
  [.dispatch,.spawn,.test 0 true,.test 0 true,.test 0 true,.test 0 true]

def duringSample : List Event := enqueue "http-get" ++ toSamples ++
  ([.test 0 true,.cancelTests] : List Event)

/-- The first cancel after the start, and a later step of the test. -/
def firstCancel : List Event :=
  enqueue "tcp" ++ ([.cancelTests,.dispatch,.spawn,.test 0 true] : List Event)

/-- A cancel while the listener is awaited. -/
def lateCancel : List Event :=
  .cancelTests :: (enqueue "http-get" ++ toSamples.take 5 ++
    ([.cancelTests,.test 0 true] : List Event))

end Ends

end Whoisthat.TestQueue
