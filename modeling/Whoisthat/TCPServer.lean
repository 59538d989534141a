import Mathlib.Data.Int.Notation
import Mathlib.Data.Nat.Notation
import Mathlib.Logic.Function.Basic
import Mathlib.Tactic.SplitIfs

/-!
# The command server and its TCP clients

Every connection has a handler and a write loop with a queue of its own; a
broadcast goes to the queue of every registered connection. A connection is
registered when it is accepted, a TCP client authenticates later. What it sees
before that is the answer to its hello, as long as nothing is broadcast.
-/

set_option autoImplicit false

namespace Whoisthat.TCPServer

section Model

inductive Transport where
  | uds
  | tcp
  deriving DecidableEq

/-- `structs.HelloData` -/
structure Hello where
  token : String
  protocolVersion : ℤ

/-- A message and what its data is as the payload of a hello. -/
structure Message where
  msg : String
  hello : Option Hello

inductive Frame where
  | helloOk (protocolVersion : ℤ)
  | helloError (reason : String)
  | warn (content : String)
  | notification (text : String)
  deriving DecidableEq

structure Config where
  tcpToken : String
  protocolVersion : ℤ
  missingBinaries : List String

/-- Where `handleConnection` stands; `answer` holds the frame that
`authenticateTCP` is about to write and what it then returns. -/
inductive Phase where
  | absent
  | accepted
  | handshake
  | answer (frame : Frame) (authenticated : Bool)
  | welcome
  | serving
  | leaving
  | closing
  | gone

/-- `clientConn`, its handler and its write loop. `presented` records that the
token was shown, `received` what the client was sent. -/
structure Conn where
  transport : Transport
  phase : Phase
  registered : Bool
  closed : Bool
  out : List Frame
  sending : Option Frame
  looping : Bool
  presented : Bool
  received : List Frame
  dispatched : List Message

/-- `newClientConn` -/
def newClientConn (transport : Transport) : Conn :=
  ⟨transport,.absent,false,false,[],none,true,false,[],[]⟩

def queueLength : ℕ := 64

/-- `authenticateTCP` up to its answer. -/
def authenticateTCP (cfg : Config) : Option Message → Phase
  | none => .leaving
  | some m =>
    if m.msg ≠ "hello" then .answer (.helloError "expected hello handshake") false
    else match m.hello with
      | none => .answer (.helloError "invalid hello payload") false
      | some hello =>
        if cfg.tcpToken = "" ∨ hello.token ≠ cfg.tcpToken then
          .answer (.helloError "invalid authentication token") false
        else if hello.protocolVersion ≠ cfg.protocolVersion then
          .answer (.helloError ("protocol mismatch: server=" ++ toString cfg.protocolVersion ++
            " client=" ++ toString hello.protocolVersion)) false
        else .answer (.helloOk cfg.protocolVersion) true

/-- A hello that shows the token of the server. -/
def presents (cfg : Config) : Option Message → Bool
  | none => false
  | some m => m.msg = "hello" && cfg.tcpToken ≠ "" && m.hello.any (·.token = cfg.tcpToken)

/-- What happens to one connection; `receive` is what `readTCPMessage` returns,
with what `dispatch` returns for it. -/
inductive Event where
  | accept
  | register
  | receive (message : Option Message) (keep : Bool)
  | writeAnswer (ok : Bool)
  | welcome
  | dequeue
  | writeFrame (ok : Bool)
  | shutdown
  | deregister

def Conn.next (cfg : Config) (e : Event) (c : Conn) : Conn :=
  match e,c.phase with
  | .accept,.absent => { c with phase := .accepted }
  | .register,.accepted =>
    { c with
      registered := true
      phase := if c.transport = .uds then .welcome else .handshake }
  | .receive message _,.handshake =>
    { c with
      phase := authenticateTCP cfg message
      presented := c.presented || presents cfg message }
  | .receive none _,.serving => { c with phase := .leaving }
  | .receive (some m) keep,.serving =>
    { c with dispatched := c.dispatched ++ [m], phase := if keep then .serving else .leaving }
  | .writeAnswer ok,.answer frame authenticated =>
    if ok && !c.closed then
      { c with
        received := c.received ++ [frame]
        phase := if authenticated then .welcome else .leaving }
    else { c with phase := .leaving }
  | .welcome,.welcome =>
    { c with
      out := c.out ++ (cfg.missingBinaries.map .warn).take (queueLength-c.out.length)
      phase := .serving }
  | .shutdown,.leaving => { c with closed := true, phase := .closing }
  | .deregister,.closing => { c with registered := false, phase := .gone }
  | .dequeue,_ =>
    match c.looping,c.sending,c.out with
    | true,none,frame::rest => { c with sending := some frame, out := rest }
    | _,_,_ => c
  | .writeFrame ok,_ =>
    match c.sending with
    | none => c
    | some frame =>
      if ok && !c.closed then { c with received := c.received ++ [frame], sending := none }
      else { c with closed := true, looping := false, sending := none }
  | _,_ => c

/-- `Broadcast`, for one connection. -/
def Conn.broadcast (text : String) (c : Conn) : Conn :=
  if c.registered then
    if c.out.length < queueLength then { c with out := c.out ++ [.notification text] }
    else { c with closed := true, registered := false }
  else c

abbrev Server := ℕ → Conn

inductive Step where
  | on (i : ℕ) (e : Event)
  | broadcast (text : String)

def step (cfg : Config) (s : Server) : Step → Server
  | .on i e => Function.update s i ((s i).next cfg e)
  | .broadcast text => fun i => (s i).broadcast text

def run (cfg : Config) (steps : List Step) (s : Server) : Server := steps.foldl (step cfg) s

/-- Before any connection; `kind` says over what each one will come. -/
def started (kind : ℕ → Transport) : Server := fun i => newClientConn (kind i)

end Model

section Statement

def Frame.IsAnswer : Frame → Prop
  | .helloOk _ => True
  | .helloError _ => True
  | .warn _ => False
  | .notification _ => False

def Conn.Unauthenticated (c : Conn) : Prop := c.transport = .tcp ∧ c.presented = false

def Step.about (i : ℕ) : Step → Bool
  | .on j _ => i = j
  | .broadcast _ => false

/-- What a TCP client that has not shown the token has seen and done: answers
to its hello and no command, the same as if it were alone. -/
def Secure (cfg : Config) (kind : ℕ → Transport) (steps : List Step) : Prop :=
  ∀ i, (run cfg steps (started kind) i).Unauthenticated →
    (∀ frame ∈ (run cfg steps (started kind) i).received, frame.IsAnswer) ∧
    (run cfg steps (started kind) i).dispatched = [] ∧
    ∀ missing, run cfg steps (started kind) i =
      run { cfg with missingBinaries := missing } (steps.filter (Step.about i)) (started kind) i

/-- Nothing is broadcast while an unauthenticated client is registered. -/
def Quiet (s : Server) : Step → Prop
  | .on _ _ => True
  | .broadcast _ => ∀ i, (s i).Unauthenticated → (s i).registered = false

def QuietRun (cfg : Config) : List Step → Server → Prop
  | [], _ => True
  | e::steps, s => Quiet s e ∧ QuietRun cfg steps (step cfg s e)

end Statement

section Proof

variable {cfg : Config} {c : Conn} {e : Event}

/-- Where the handler of an unauthenticated client can be. -/
def Phase.Outside : Phase → Prop
  | .answer frame authenticated => frame.IsAnswer ∧ authenticated = false
  | .welcome => False
  | .serving => False
  | _ => True

/-- The handler of the client is outside and has dispatched nothing. -/
structure Conn.Barred (c : Conn) : Prop where
  phase : c.phase.Outside
  dispatched : c.dispatched = []

/-- Nothing is on its way to the client but answers. -/
structure Conn.Unseen (c : Conn) : Prop where
  out : c.out = []
  sending : c.sending = none
  received : ∀ frame ∈ c.received, frame.IsAnswer

theorem authenticate_outside (cfg : Config) (message : Option Message)
    (h : presents cfg message = false) : (authenticateTCP cfg message).Outside := by
  cases message with
  | none => trivial
  | some m =>
    by_cases hm : m.msg = "hello"
    · cases hh : m.hello with
      | none => simp [authenticateTCP,hm,hh,Phase.Outside,Frame.IsAnswer]
      | some hello =>
        have ht : cfg.tcpToken = "" ∨ hello.token ≠ cfg.tcpToken := by
          by_contra ht
          rw [not_or,not_not] at ht
          simp [presents,hm,hh,ht] at h
        simp [authenticateTCP,hm,hh,ht,Phase.Outside,Frame.IsAnswer]
    · simp [authenticateTCP,hm,Phase.Outside,Frame.IsAnswer]

theorem barred_answer {frame : Frame} {authenticated : Bool} (h : c.Barred)
    (hp : c.phase = .answer frame authenticated) : frame.IsAnswer ∧ authenticated = false := by
  have ho := h.phase
  rw [hp] at ho
  exact ho

theorem unauthenticated_next (hu : (c.next cfg e).Unauthenticated) : c.Unauthenticated := by
  unfold Conn.next at hu
  split at hu
  case h_3 => exact ⟨hu.1,(Bool.or_eq_false_iff.mp hu.2).1⟩
  case h_6 => split_ifs at hu <;> exact hu
  case h_10 => split at hu <;> exact hu
  case h_11 =>
    split at hu
    · exact hu
    · split_ifs at hu <;> exact hu
  all_goals exact hu

theorem barred_next (h : c.Barred) (hu : (c.next cfg e).Unauthenticated) :
    (c.next cfg e).Barred := by
  have ht : c.transport ≠ .uds := by simp [(unauthenticated_next hu).1]
  unfold Conn.next at hu ⊢
  split at hu <;> rename_i hp
  case h_1 => exact ⟨trivial,h.dispatched⟩
  case h_2 => exact ⟨by simp [ht,Phase.Outside],h.dispatched⟩
  case h_3 => exact ⟨authenticate_outside cfg _ (Bool.or_eq_false_iff.mp hu.2).2,h.dispatched⟩
  case h_6 =>
    split_ifs with ho ha
    · exact absurd (barred_answer h hp).2 (by simp [ha])
    · exact ⟨trivial,h.dispatched⟩
    · exact ⟨trivial,h.dispatched⟩
  case h_10 => split <;> exact ⟨h.phase,h.dispatched⟩
  case h_11 =>
    split
    · exact h
    · split_ifs <;> exact ⟨h.phase,h.dispatched⟩
  case h_12 => exact h
  all_goals
    have ho := h.phase
    rw [hp] at ho
    first | exact ho.elim | exact ⟨trivial,h.dispatched⟩

theorem unseen_next (hb : c.Barred) (h : c.Unseen) : (c.next cfg e).Unseen := by
  unfold Conn.next
  split
  case h_6 frame _ hp =>
    have hr : ∀ f ∈ c.received ++ [frame], f.IsAnswer := by
      simpa [or_imp,forall_and] using ⟨h.received,(barred_answer hb hp).1⟩
    split_ifs
    · exact ⟨h.out,h.sending,hr⟩
    · exact ⟨h.out,h.sending,hr⟩
    · exact ⟨h.out,h.sending,h.received⟩
  case h_7 hp =>
    have ho := hb.phase
    rw [hp] at ho
    exact ho.elim
  case h_10 =>
    split
    · rename_i hout
      rw [h.out] at hout
      cases hout
    · exact h
  case h_11 =>
    split
    · exact h
    · rename_i hs
      rw [h.sending] at hs
      cases hs
  all_goals exact ⟨h.out,h.sending,h.received⟩

theorem next_missing (h : c.phase ≠ .welcome) (missing : List String) :
    c.next { cfg with missingBinaries := missing } e = c.next cfg e := by
  unfold Conn.next
  split
  case h_7 hp => exact absurd hp h
  all_goals rfl

theorem broadcast_unregistered (h : c.registered = false) (text : String) :
    c.broadcast text = c := by
  simp [Conn.broadcast,h]

theorem unauthenticated_broadcast {text : String} (h : (c.broadcast text).Unauthenticated) :
    c.Unauthenticated := by
  unfold Conn.broadcast at h
  split_ifs at h <;> exact h

theorem barred_broadcast (h : c.Barred) (text : String) : (c.broadcast text).Barred := by
  unfold Conn.broadcast
  split_ifs <;> exact ⟨h.phase,h.dispatched⟩

end Proof

section Runs

variable (cfg : Config) {kind : ℕ → Transport} {s : Server}

/-- What the daemon keeps to itself without a token, whatever is broadcast. -/
def Barred (s : Server) : Prop := ∀ i, (s i).Unauthenticated → (s i).Barred

theorem barred_step (h : Barred s) (e : Step) : Barred (step cfg s e) := by
  intro i hu
  cases e with
  | on j e =>
    by_cases hj : i = j
    · subst hj
      simp only [step,Function.update_self] at hu ⊢
      exact barred_next (h i (unauthenticated_next hu)) hu
    · simp only [step,Function.update_of_ne hj] at hu ⊢
      exact h i hu
  | broadcast text => exact barred_broadcast (h i (unauthenticated_broadcast hu)) text

theorem barred_run (steps : List Step) (h : Barred s) : Barred (run cfg steps s) := by
  induction steps generalizing s with
  | nil => exact h
  | cons e steps ih => exact ih (barred_step cfg h e)

theorem barred_started (kind : ℕ → Transport) : Barred (started kind) :=
  fun _ _ => ⟨trivial,rfl⟩

/-- One connection of a quiet run, next to the run of its own steps alone. -/
theorem alone_run {i : ℕ} {t : Server} (missing : List String) (steps : List Step)
    (hq : QuietRun cfg steps s) (hb : Barred s)
    (hs : (s i).Unauthenticated → (s i).Unseen ∧ s i = t i)
    (hu : (run cfg steps s i).Unauthenticated) :
    (run cfg steps s i).Unseen ∧ run cfg steps s i =
      run { cfg with missingBinaries := missing } (steps.filter (Step.about i)) t i := by
  induction steps generalizing s t with
  | nil => exact hs hu
  | cons e steps ih =>
    have hb' := barred_step cfg hb e
    cases e with
    | on j e =>
      by_cases hj : i = j
      · subst hj
        simp only [Step.about,decide_true,List.filter_cons_of_pos]
        refine ih hq.2 hb' ?_ hu
        intro hu'
        simp only [step,Function.update_self] at hu' ⊢
        have hi := unauthenticated_next hu'
        have hw : (s i).phase ≠ .welcome := by
          intro hp
          have ho := (hb i hi).phase
          rw [hp] at ho
          exact ho
        refine ⟨unseen_next (hb i hi) (hs hi).1,?_⟩
        rw [← (hs hi).2,next_missing hw missing]
      · simp only [Step.about,hj,decide_false,Bool.false_eq_true,not_false_eq_true,
          List.filter_cons_of_neg]
        refine ih hq.2 hb' ?_ hu
        simpa only [step,Function.update_of_ne hj] using hs
    | broadcast text =>
      simp only [Step.about,Bool.false_eq_true,not_false_eq_true,List.filter_cons_of_neg]
      refine ih hq.2 hb' ?_ hu
      intro hu'
      have hi := unauthenticated_broadcast hu'
      simp only [step,broadcast_unregistered (hq.1 i hi)]
      exact hs hi

theorem quiet_run_secure (cfg : Config) (kind : ℕ → Transport) (steps : List Step)
    (h : QuietRun cfg steps (started kind)) : Secure cfg kind steps := by
  intro i hu
  have halone := fun missing => alone_run cfg missing steps h (barred_started kind)
    (fun _ => ⟨⟨rfl,rfl,by simp [started,newClientConn]⟩,rfl⟩) hu
  exact ⟨(halone []).1.received,(barred_run cfg steps (barred_started kind) i hu).dispatched,
    fun missing => (halone missing).2⟩

/-- A connection comes, a profile is announced, and the client reads it. -/
def eavesdrop : List Step :=
  [.on 0 .accept,.on 0 .register,.broadcast "profiles",.on 0 .dequeue,.on 0 (.writeFrame true)]

theorem broadcast_reaches_stranger : ¬Secure ⟨"secret",5,[]⟩ (fun _ => .tcp) eavesdrop := by
  intro h
  exact (h 0 ⟨rfl,rfl⟩).1 (.notification "profiles") (by decide)

/-- A stranger is turned away before a client shows the token and a broadcast
reaches that one. -/
theorem turned_away_then_broadcast : Secure ⟨"secret",5,[]⟩ (fun _ => .tcp)
    [.on 0 .accept,.on 0 .register,.on 0 (.receive (some ⟨"connect",none⟩) true),
      .on 0 (.writeAnswer true),.on 0 .shutdown,.on 0 .deregister,.on 1 .accept,.on 1 .register,
      .on 1 (.receive (some ⟨"hello",some ⟨"secret",5⟩⟩) true),.broadcast "profiles"] := by
  apply quiet_run_secure
  refine ⟨trivial,trivial,trivial,trivial,trivial,trivial,trivial,trivial,trivial,?_,trivial⟩
  intro i
  match i with
  | 0 => exact fun _ => rfl
  | 1 => exact fun hu => absurd hu.2 (by decide)
  | i+2 => exact fun _ => rfl

end Runs

end Whoisthat.TCPServer
