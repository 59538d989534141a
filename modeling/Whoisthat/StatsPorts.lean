import Mathlib.Data.Finset.Insert
import Mathlib.Data.Finset.Erase
import Mathlib.Algebra.Order.Group.Int
import Mathlib.Algebra.Order.Group.Multiset

/-!
# Ports of the core and of the tests

Commands hold the mutex and run in steps, tests take and release ports in
between. The stats port is taken before the new core is prepared, handed to it
once it runs, and kept in a field until a later command releases it.
-/

set_option autoImplicit false

namespace Whoisthat.StatsPorts

section Model

structure PortPool where
  startPort : ℤ
  endPort : ℤ
  inUse : Finset ℤ
  nextHint : ℤ
  valid : 0 ≤ startPort ∧ startPort < endPort

/-- `CreatePortPool`; it exits on an invalid range. -/
def createPortPool (startPort endPort : ℤ) : Option PortPool :=
  if h : 0 ≤ startPort ∧ startPort < endPort then some ⟨startPort,endPort,∅,startPort,h⟩ else none

def PortPool.releasePort (p : PortPool) (port : ℤ) : PortPool :=
  if port ≤ 0 then p else { p with inUse := p.inUse.erase port }

/-- The `i`th port of the scan. -/
def PortPool.candidate (p : PortPool) (i : ℕ) : ℤ :=
  p.startPort+(p.nextHint+i-p.startPort) % (p.endPort-p.startPort)

def PortPool.getPort (p : PortPool) : Option (ℤ × PortPool) :=
  ((List.range (p.endPort-p.startPort).toNat).find? (fun i => p.candidate i ∉ p.inUse)).map
    fun i => (p.candidate i,{ p with
      inUse := insert (p.candidate i) p.inUse
      nextHint := if p.endPort ≤ p.candidate i+1 then p.startPort else p.candidate i+1 })

/-- How `Connect` ends. -/
inductive ConnectEnd where
  | configFails
  | preflightFails
  | hookFails
  | startFails
  | succeeds
  deriving DecidableEq

/-- How `reloadCoreLocked` ends. -/
inductive ReloadEnd where
  | configFails
  | preflightFails
  | startFails
  | succeeds
  deriving DecidableEq

/-- The command that holds the mutex, and its next step. -/
inductive Op where
  | connectAlloc (e : ConnectEnd)
  | connectPrepare (apiPort : ℤ) (e : ConnectEnd)
  | connectSwap (apiPort : ℤ)
  | reloadAlloc (e : ReloadEnd)
  | reloadPrepare (apiPort : ℤ) (e : ReloadEnd)
  | reloadStart (apiPort : ℤ) (e : ReloadEnd)
  | stopRelease
  | stopCore
  deriving DecidableEq

structure State where
  pool : PortPool
  /-- The stats port of the running core, 0 without one. -/
  core : Option ℤ
  statsApiPort : ℤ
  connected : Bool
  op : Option Op
  /-- The ports of the running tests. -/
  tests : List ℤ

inductive Event where
  | connect (e : ConnectEnd)
  | setTunMode (e : ReloadEnd)
  | reloadRouting (e : ReloadEnd)
  | stop
  | advance
  /-- `testViaXray` takes its port, or ends without one. -/
  | testStart
  | testEnd (n : ℕ)

def start (pool : PortPool) : State :=
  { pool := pool
    core := none
    statsApiPort := 0
    connected := false
    op := none
    tests := [] }

/-- The checks before `reloadCoreLocked`. -/
def State.reload (s : State) (e : ReloadEnd) : State :=
  if s.connected ∧ s.core.isSome then { s with op := some (.reloadAlloc e) } else s

def State.releaseStats (s : State) : State :=
  if s.statsApiPort = 0 then s
  else { s with pool := s.pool.releasePort s.statsApiPort, statsApiPort := 0 }

/-- An allocation that falls back to 0. -/
def PortPool.getPortOr (p : PortPool) : ℤ × PortPool := p.getPort.getD (0,p)

def State.advance (s : State) : Op → State
  | .connectAlloc e =>
    { s with pool := s.pool.getPortOr.2, op := some (.connectPrepare s.pool.getPortOr.1 e) }
  | .connectPrepare _ .startFails => { s with core := none, op := none }
  | .connectPrepare apiPort .succeeds =>
    { s with core := some apiPort, op := some (.connectSwap apiPort) }
  | .connectPrepare apiPort _ =>
    { s with pool := if apiPort ≠ 0 then s.pool.releasePort apiPort else s.pool, op := none }
  | .connectSwap apiPort =>
    { s.releaseStats with statsApiPort := apiPort, connected := true, op := none }
  | .reloadAlloc e =>
    if s.statsApiPort = 0 then
      { s with pool := s.pool.getPortOr.2, op := some (.reloadPrepare s.pool.getPortOr.1 e) }
    else { s with op := some (.reloadPrepare s.statsApiPort e) }
  | .reloadPrepare _ .configFails => { s with op := none }
  | .reloadPrepare _ .preflightFails => { s with op := none }
  | .reloadPrepare apiPort e => { s with core := none, op := some (.reloadStart apiPort e) }
  | .reloadStart apiPort .succeeds =>
    { s with core := some apiPort, statsApiPort := apiPort, op := none }
  | .reloadStart _ _ => { s with connected := false, op := none }
  | .stopRelease => { s.releaseStats with op := some .stopCore }
  | .stopCore => { s with core := none, connected := false, op := none }

def State.step (s : State) : Event → State
  | .connect e =>
    if s.op.isSome then s
    else { s with core := none, connected := false, op := some (.connectAlloc e) }
  | .setTunMode e => if s.op.isSome then s else s.reload e
  | .reloadRouting e => if s.op.isSome then s else s.reload e
  | .stop => if s.op.isSome then s else { s with op := some .stopRelease }
  | .advance =>
    match s.op with
    | none => s
    | some op => s.advance op
  | .testStart =>
    match s.pool.getPort with
    | none => s
    | some (port,pool) => { s with pool := pool, tests := port :: s.tests }
  | .testEnd n =>
    match s.tests[n]? with
    | none => s
    | some port => { s with pool := s.pool.releasePort port, tests := s.tests.eraseIdx n }

def State.run (s : State) : List Event → State
  | [] => s
  | e::es => (s.step e).run es

end Model

section Property

/-- A port, unless there is none. -/
def portOf (port : ℤ) : Multiset ℤ := if port = 0 then 0 else {port}

/-- The running core's stats port and one port for each running test. -/
def State.used (s : State) : Multiset ℤ := (s.core.map portOf).getD 0+s.tests

/-- Between commands the ports of the pool that are out are the ports in use. -/
def Settled (s : State) : Prop := s.op = none → s.pool.inUse.val = s.used

/-- At every moment the ports in use are out, each to one user. -/
def Held (s : State) : Prop := s.used ≤ s.pool.inUse.val

/-- The steps that leave no port behind. Ports are positive; a `Connect` that fails
replaces no core with a stats port; its core does not fail to start on a stats
port; a reload with a stats port does not fail once it has taken the port or
stopped the core. -/
def Careful (s : State) : Event → Prop
  | .advance => match s.op with
    | some (.connectAlloc _) => s.pool.startPort ≠ 0
    | some (.reloadAlloc _) => s.statsApiPort = 0 → s.pool.startPort ≠ 0
    | some (.connectPrepare _ .succeeds) => True
    | some (.connectPrepare apiPort .startFails) => apiPort = 0 ∧ s.statsApiPort = 0
    | some (.connectPrepare _ _) => s.statsApiPort = 0
    | some (.reloadPrepare apiPort .configFails) => s.statsApiPort = 0 → apiPort = 0
    | some (.reloadPrepare apiPort .preflightFails) => s.statsApiPort = 0 → apiPort = 0
    | some (.reloadStart _ .succeeds) => True
    | some (.reloadStart apiPort _) => apiPort = 0
    | _ => True
  | .testStart => s.pool.startPort ≠ 0
  | _ => True

/-- `Stop` finds no core with a stats port. -/
def Unhurried (s : State) : Event → Prop
  | .advance => s.op = some .stopRelease → ∀ port ∈ s.core, port = 0
  | _ => True

def RunOf (P : State → Event → Prop) (s : State) : List Event → Prop
  | [] => True
  | e::es => P s e ∧ RunOf P (s.step e) es

instance (s : State) : Decidable (Settled s) := inferInstanceAs (Decidable (_ → _))

instance (s : State) : Decidable (Held s) := inferInstanceAs (Decidable (_ ≤ _))

end Property

section Pool

variable {p q : PortPool} {port : ℤ}

theorem getPort_spec (h : p.getPort = some (port,q)) :
    port ∉ p.inUse ∧ q.inUse = insert port p.inUse ∧ p.startPort ≤ port ∧
      q.startPort = p.startPort := by
  obtain ⟨i,hi,heq⟩ := Option.map_eq_some_iff.mp h
  obtain ⟨rfl,rfl⟩ := Prod.mk.inj heq
  refine ⟨by simpa using List.find?_some hi,rfl,?_,rfl⟩
  have hsize : 0 < p.endPort-p.startPort := Int.sub_pos_of_lt p.valid.2
  exact le_add_of_nonneg_right (Int.emod_nonneg _ hsize.ne')

/-- A port that is taken joins the ports that are out. -/
theorem getPort_val (h : p.getPort = some (port,q)) : q.inUse.val = port ::ₘ p.inUse.val := by
  obtain ⟨hfree,hin,-⟩ := getPort_spec h
  rw [hin,Finset.insert_val_of_notMem hfree]

theorem portOf_pos (h : 0 < port) : portOf port = {port} := if_neg h.ne'

/-- The owner of a port gives it back. -/
theorem release_val {rest : Multiset ℤ} (h : p.inUse.val = rest+portOf port) (hpos : 0 < port) :
    (p.releasePort port).inUse.val = rest := by
  rw [PortPool.releasePort,if_neg (by omega)]
  rw [Finset.erase_val,h,portOf_pos hpos,add_comm,Multiset.singleton_add,Multiset.erase_cons_head]

theorem release_subset : (p.releasePort port).inUse ⊆ p.inUse := by
  unfold PortPool.releasePort
  split
  · exact Finset.Subset.refl _
  · exact Finset.erase_subset _ _

end Pool

section Invariant

variable {s : State}

/-- The port a command has taken and not stored yet. -/
def State.fresh (s : State) : Multiset ℤ :=
  match s.op with
  | some (.connectPrepare apiPort _) => portOf apiPort
  | some (.connectSwap apiPort) => portOf apiPort
  | some (.reloadPrepare apiPort _) => if s.statsApiPort = 0 then portOf apiPort else 0
  | some (.reloadStart apiPort _) => if s.statsApiPort = 0 then portOf apiPort else 0
  | _ => 0

/-- Which core runs at each step of a command. -/
def Coherent (core : Option ℤ) (stats : ℤ) : Option Op → Prop
  | none => (core = none ∧ stats = 0) ∨ core = some stats
  | some .stopRelease => (core = none ∧ stats = 0) ∨ core = some stats
  | some (.reloadAlloc _) => core = some stats
  | some (.connectAlloc _) => core = none
  | some (.connectPrepare _ _) => core = none
  | some (.connectSwap apiPort) => core = some apiPort
  | some (.reloadPrepare apiPort _) => core = some stats ∧ (stats ≠ 0 → apiPort = stats)
  | some (.reloadStart apiPort _) => core = none ∧ (stats ≠ 0 → apiPort = stats)
  | some .stopCore => stats = 0

structure Inv (s : State) : Prop where
  owned : s.pool.inUse.val = s.tests+portOf s.statsApiPort+s.fresh
  positive : ∀ port ∈ s.pool.inUse, 0 < port
  coherent : Coherent s.core s.statsApiPort s.op

theorem inv_settled (h : Inv s) : Settled s := by
  intro hop
  have howned := h.owned
  have hcore := h.coherent
  rw [hop] at hcore
  have hfresh : s.fresh = 0 := by rw [State.fresh,hop]
  rw [howned,hfresh,add_zero,State.used]
  rcases hcore with ⟨hcore,hstats⟩ | hcore
  · rw [hcore,hstats,portOf,if_pos rfl]
    simp
  · rw [hcore]
    exact add_comm _ _

/-- The running core's port is the stored one, or the one a command has taken. -/
theorem core_port (h : Inv s) {port : ℤ} (hcore : s.core = some port) :
    port = s.statsApiPort ∨ s.fresh = portOf port ∨ s.op = some .stopCore := by
  have hc := h.coherent
  rw [hcore] at hc
  rcases hop : s.op with _ | op
  · rw [hop] at hc
    exact .inl (Option.some.inj (hc.resolve_left fun hn => nomatch hn.1))
  · rw [hop] at hc
    cases op with
    | connectAlloc e => exact nomatch hc
    | connectPrepare apiPort e => exact nomatch hc
    | connectSwap apiPort =>
      rw [State.fresh,hop,Option.some.inj hc]
      exact .inr (.inl rfl)
    | reloadAlloc e => exact .inl (Option.some.inj hc)
    | reloadPrepare apiPort e => exact .inl (Option.some.inj hc.1)
    | reloadStart apiPort e => exact nomatch hc.1
    | stopRelease => exact .inl (Option.some.inj (hc.resolve_left fun hn => nomatch hn.1))
    | stopCore => exact .inr (.inr rfl)

/-- Before the release of `Stop` the core's port is out. -/
theorem inv_held (h : Inv s) (hstop : s.op = some .stopCore → ∀ port ∈ s.core, port = 0) :
    Held s := by
  have hle : (s.core.map portOf).getD 0 ≤ portOf s.statsApiPort+s.fresh := by
    rcases hcore : s.core with _ | port
    · exact Multiset.zero_le _
    · rcases core_port h hcore with rfl | hfresh | hop
      · exact Multiset.le_add_right _ _
      · rw [hfresh]
        exact Multiset.le_add_left _ _
      · rw [hstop hop port hcore]
        exact Multiset.zero_le _
  rw [Held,h.owned,State.used,add_assoc,add_comm]
  exact add_le_add le_rfl hle

theorem start_inv {a b : ℤ} {pool : PortPool} (h : createPortPool a b = some pool) :
    Inv (start pool) := by
  unfold createPortPool at h
  split at h
  · obtain rfl := Option.some.inj h
    exact ⟨rfl,fun port hp => absurd hp (Finset.notMem_empty port),.inl ⟨rfl,rfl⟩⟩
  · exact nomatch h

end Invariant

section Steps

variable {s : State}

@[simp] theorem portOf_zero : portOf 0 = 0 := if_pos rfl

/-- What `getPortOr` returns is out, unless it is 0. -/
theorem getPortOr_spec {p : PortPool} (hstart : p.startPort ≠ 0)
    (hpos : ∀ port ∈ p.inUse, 0 < port) :
    p.getPortOr.2.inUse.val = p.inUse.val+portOf p.getPortOr.1 ∧
      ∀ port ∈ p.getPortOr.2.inUse, 0 < port := by
  unfold PortPool.getPortOr
  rcases hget : p.getPort with _ | ⟨port,q⟩
  · exact ⟨by simp,hpos⟩
  · obtain ⟨-,hin,hle,-⟩ := getPort_spec hget
    have hport : 0 < port := by have hvalid := p.valid.1; omega
    refine ⟨?_,fun port' hp => ?_⟩
    · change q.inUse.val = p.inUse.val+portOf port
      rw [getPort_val hget,portOf_pos hport,add_comm,Multiset.singleton_add]
    · rcases Finset.mem_insert.mp (hin ▸ hp) with rfl | hp
      · exact hport
      · exact hpos port' hp

/-- A command that has nothing in hand takes a port. -/
theorem inv_alloc (h : Inv s) (hstart : s.pool.startPort ≠ 0) (hfresh : s.fresh = 0) {op : Op}
    (hop : State.fresh { s with op := some op } = portOf s.pool.getPortOr.1)
    (hc : Coherent s.core s.statsApiPort (some op)) :
    Inv { s with pool := s.pool.getPortOr.2, op := some op } := by
  obtain ⟨hval,hpos⟩ := getPortOr_spec hstart h.positive
  refine ⟨?_,hpos,hc⟩
  change s.pool.getPortOr.2.inUse.val =
    s.tests+portOf s.statsApiPort+State.fresh { s with op := some op }
  rw [hval,h.owned,hfresh,add_zero,hop]

/-- A command goes on with the port it has. -/
theorem inv_op (h : Inv s) (core : Option ℤ) (connected : Bool) {op : Option Op}
    (hop : State.fresh { s with op := op } = s.fresh) (hc : Coherent core s.statsApiPort op) :
    Inv { s with core := core, connected := connected, op := op } := by
  refine ⟨?_,h.positive,hc⟩
  change s.pool.inUse.val = s.tests+portOf s.statsApiPort+State.fresh { s with op := op }
  rw [hop,h.owned]

theorem released_positive (h : Inv s) (port : ℤ) :
    ∀ port' ∈ (s.pool.releasePort port).inUse, 0 < port' := fun port' hp =>
  h.positive port' (release_subset hp)

/-- The stored port and the one in hand, if any, are out. -/
theorem owned_positive (h : Inv s) {port : ℤ} {rest : Multiset ℤ}
    (hval : s.pool.inUse.val = rest+portOf port) (hne : port ≠ 0) : 0 < port := by
  refine h.positive port ?_
  rw [← Finset.mem_val,hval,portOf,if_neg hne]
  exact Multiset.mem_add.mpr (.inr (Multiset.mem_singleton_self port))

theorem inv_swap (h : Inv s) {apiPort : ℤ} (hop : s.op = some (.connectSwap apiPort)) :
    Inv { s.releaseStats with statsApiPort := apiPort, connected := true, op := none } := by
  have hc := h.coherent
  have howned := h.owned
  rw [State.fresh,hop] at howned
  rw [hop] at hc
  unfold State.releaseStats
  split
  · rename_i hz
    refine ⟨?_,h.positive,.inr hc⟩
    change s.pool.inUse.val = s.tests+portOf apiPort+0
    rw [howned,hz,portOf_zero,add_zero,add_zero]
  · rename_i hne
    have hval : s.pool.inUse.val = s.tests+portOf apiPort+portOf s.statsApiPort :=
      howned.trans (add_right_comm _ _ _)
    refine ⟨?_,released_positive h _,.inr hc⟩
    change (s.pool.releasePort s.statsApiPort).inUse.val = s.tests+portOf apiPort+0
    rw [release_val hval (owned_positive h hval hne),add_zero]

theorem inv_stopRelease (h : Inv s) (hop : s.op = some .stopRelease) :
    Inv { s.releaseStats with op := some .stopCore } := by
  have howned := h.owned
  rw [State.fresh,hop,add_zero] at howned
  unfold State.releaseStats
  split
  · rename_i hz
    refine ⟨?_,h.positive,hz⟩
    change s.pool.inUse.val = s.tests+portOf s.statsApiPort+0
    rw [howned,add_zero]
  · rename_i hne
    refine ⟨?_,released_positive h _,rfl⟩
    change (s.pool.releasePort s.statsApiPort).inUse.val = s.tests+portOf 0+0
    rw [release_val howned (owned_positive h howned hne)]
    simp

/-- A failed `Connect` gives its port back. -/
theorem inv_giveBack (h : Inv s) {apiPort : ℤ} {e : ConnectEnd}
    (hop : s.op = some (.connectPrepare apiPort e)) (hstats : s.statsApiPort = 0) :
    Inv { s with
      pool := if apiPort ≠ 0 then s.pool.releasePort apiPort else s.pool, op := none } := by
  have howned := h.owned
  have hc := h.coherent
  rw [State.fresh,hop] at howned
  rw [hop] at hc
  split
  · rename_i hne
    refine ⟨?_,released_positive h _,.inl ⟨hc,hstats⟩⟩
    change (s.pool.releasePort apiPort).inUse.val = s.tests+portOf s.statsApiPort+0
    rw [release_val howned (owned_positive h howned hne),add_zero]
  · rename_i hz
    refine ⟨?_,h.positive,.inl ⟨hc,hstats⟩⟩
    change s.pool.inUse.val = s.tests+portOf s.statsApiPort+0
    rw [howned,not_not.mp hz]
    exact congrArg _ portOf_zero

theorem inv_connectPrepare (h : Inv s) {apiPort : ℤ} {e : ConnectEnd}
    (hop : s.op = some (.connectPrepare apiPort e)) (hc : Careful s .advance) :
    Inv (s.advance (.connectPrepare apiPort e)) := by
  simp only [Careful,hop] at hc
  have hcore := h.coherent
  rw [hop] at hcore
  cases e with
  | configFails => exact inv_giveBack h hop hc
  | preflightFails => exact inv_giveBack h hop hc
  | hookFails => exact inv_giveBack h hop hc
  | startFails =>
    obtain ⟨hapi,hstats⟩ := hc
    refine inv_op h _ s.connected ?_ (.inl ⟨rfl,hstats⟩)
    simp [State.fresh,hop,hapi]
  | succeeds => exact inv_op h _ s.connected (by simp [State.fresh,hop]) rfl

theorem inv_reloadPrepare (h : Inv s) {apiPort : ℤ} {e : ReloadEnd}
    (hop : s.op = some (.reloadPrepare apiPort e)) (hc : Careful s .advance) :
    Inv (s.advance (.reloadPrepare apiPort e)) := by
  simp only [Careful,hop] at hc
  obtain ⟨hcore,hport⟩ := (hop ▸ h.coherent : Coherent _ _ (some (.reloadPrepare apiPort e)))
  have hfails : (s.statsApiPort = 0 → apiPort = 0) → Inv { s with op := none } := by
    intro hz
    refine inv_op h s.core s.connected ?_ (.inr hcore)
    simp only [State.fresh,hop]
    split
    · rename_i hstats
      rw [hz hstats,portOf_zero]
    · rfl
  cases e with
  | configFails => exact hfails hc
  | preflightFails => exact hfails hc
  | startFails =>
    exact inv_op h _ s.connected (by simp [State.fresh,hop]) ⟨rfl,hport⟩
  | succeeds => exact inv_op h _ s.connected (by simp [State.fresh,hop]) ⟨rfl,hport⟩

theorem inv_reloadStart (h : Inv s) {apiPort : ℤ} {e : ReloadEnd}
    (hop : s.op = some (.reloadStart apiPort e)) (hc : Careful s .advance) :
    Inv (s.advance (.reloadStart apiPort e)) := by
  simp only [Careful,hop] at hc
  obtain ⟨hcore,hport⟩ := (hop ▸ h.coherent : Coherent _ _ (some (.reloadStart apiPort e)))
  have hfails : apiPort = 0 → Inv { s with connected := false, op := none } := by
    intro hz
    have hstats : s.statsApiPort = 0 := by
      by_contra hne
      exact hne ((hport hne).symm.trans hz)
    refine inv_op h s.core _ ?_ (.inl ⟨hcore,hstats⟩)
    simp [State.fresh,hop,hz]
  cases e with
  | configFails => exact hfails hc
  | preflightFails => exact hfails hc
  | startFails => exact hfails hc
  | succeeds =>
    refine ⟨?_,h.positive,.inr rfl⟩
    have howned := h.owned
    change s.pool.inUse.val = s.tests+portOf apiPort+0
    rw [howned,State.fresh,hop]
    dsimp only
    split
    · rename_i hz
      rw [hz,portOf_zero,add_zero,add_zero]
    · rename_i hne
      rw [hport hne]

theorem inv_advance (h : Inv s) {op : Op} (hop : s.op = some op) (hc : Careful s .advance) :
    Inv (s.advance op) := by
  have hcore := h.coherent
  rw [hop] at hcore
  cases op with
  | connectAlloc e =>
    simp only [Careful,hop] at hc
    exact inv_alloc h hc (by rw [State.fresh,hop]) rfl hcore
  | connectPrepare apiPort e => exact inv_connectPrepare h hop hc
  | connectSwap apiPort => exact inv_swap h hop
  | reloadAlloc e =>
    simp only [Careful,hop] at hc
    have hfresh : s.fresh = 0 := by rw [State.fresh,hop]
    simp only [State.advance]
    split
    · rename_i hz
      refine inv_alloc h (hc hz) hfresh ?_ ⟨hcore,fun hne => absurd hz hne⟩
      simp [State.fresh,hz]
    · rename_i hne
      refine inv_op h s.core s.connected ?_ ⟨hcore,fun _ => rfl⟩
      simp [State.fresh,hop,hne]
  | reloadPrepare apiPort e => exact inv_reloadPrepare h hop hc
  | reloadStart apiPort e => exact inv_reloadStart h hop hc
  | stopRelease => exact inv_stopRelease h hop
  | stopCore => exact inv_op h _ _ (by simp [State.fresh,hop]) (.inl ⟨rfl,hcore⟩)

theorem inv_reload (h : Inv s) (hop : s.op = none) (e : ReloadEnd) : Inv (s.reload e) := by
  unfold State.reload
  split
  · rename_i hguard
    have hcore := h.coherent
    rw [hop] at hcore
    refine inv_op h s.core s.connected (by simp [State.fresh,hop]) ?_
    rcases hcore with ⟨hn,-⟩ | hcore
    · rw [hn] at hguard
      exact nomatch hguard.2
    · exact hcore
  · exact h

theorem inv_testStart (h : Inv s) (hc : s.pool.startPort ≠ 0) : Inv (s.step .testStart) := by
  simp only [State.step]
  rcases hget : s.pool.getPort with _ | ⟨port,pool⟩
  · exact h
  · obtain ⟨-,hin,hle,-⟩ := getPort_spec hget
    have hport : 0 < port := by have hvalid := s.pool.valid.1; omega
    refine ⟨?_,fun port' hp => ?_,h.coherent⟩
    · change pool.inUse.val = (port :: s.tests : List ℤ)+portOf s.statsApiPort+s.fresh
      rw [getPort_val hget,h.owned,← Multiset.cons_coe,Multiset.cons_add,Multiset.cons_add]
    · rcases Finset.mem_insert.mp (hin ▸ hp) with rfl | hp
      · exact hport
      · exact h.positive port' hp

theorem inv_testEnd (h : Inv s) (n : ℕ) : Inv (s.step (.testEnd n)) := by
  simp only [State.step]
  rcases hn : s.tests[n]? with _ | port
  · exact h
  · obtain ⟨hlen,rfl⟩ := List.getElem?_eq_some_iff.mp hn
    have hperm : (s.tests : Multiset ℤ) = s.tests[n] ::ₘ (s.tests.eraseIdx n : List ℤ) :=
      Multiset.coe_eq_coe.mpr (List.getElem_cons_eraseIdx_perm hlen).symm
    have hmem : s.tests[n] ∈ s.pool.inUse := by
      rw [← Finset.mem_val,h.owned,hperm,Multiset.cons_add,Multiset.cons_add]
      exact Multiset.mem_cons_self _ _
    have hpos := h.positive _ hmem
    refine ⟨?_,released_positive h _,h.coherent⟩
    change (s.pool.releasePort s.tests[n]).inUse.val =
      (s.tests.eraseIdx n : List ℤ)+portOf s.statsApiPort+s.fresh
    refine release_val ?_ hpos
    rw [h.owned,hperm,portOf_pos hpos,Multiset.cons_add,Multiset.cons_add,add_comm _ {_},
      Multiset.singleton_add]

theorem step_inv (h : Inv s) (e : Event) (hc : Careful s e) : Inv (s.step e) := by
  have hbegin : ∀ t : State, (s.op = none → Inv t) → Inv (if s.op.isSome then s else t) := by
    intro t ht
    split
    · exact h
    · rename_i hop
      exact ht (Option.not_isSome_iff_eq_none.mp hop)
  cases e with
  | connect e =>
    exact hbegin _ fun hop => inv_op h _ _ (by simp [State.fresh,hop]) rfl
  | setTunMode e => exact hbegin _ fun hop => inv_reload h hop e
  | reloadRouting e => exact hbegin _ fun hop => inv_reload h hop e
  | stop =>
    refine hbegin _ fun hop => inv_op h s.core s.connected
      (by simp [State.fresh,hop]) ?_
    have hcore := h.coherent
    rwa [hop] at hcore
  | advance =>
    simp only [State.step]
    split
    · exact h
    · rename_i op hop
      exact inv_advance h hop hc
  | testStart => exact inv_testStart h hc
  | testEnd n => exact inv_testEnd h n

theorem run_inv (h : Inv s) (es : List Event) (hc : RunOf Careful s es) : Inv (s.run es) := by
  induction es generalizing s with
  | nil => exact h
  | cons e es ih => exact ih (step_inv h e hc.1) hc.2

/-- Nothing but `Stop` gives a core's port back before the core is stopped. -/
def Calm (s : State) : Prop := s.op = some .stopCore → ∀ port ∈ s.core, port = 0

theorem advance_stopCore {op : Op} (hop : (s.advance op).op = some .stopCore) :
    op = .stopRelease ∧ (s.advance op).core = s.core := by
  cases op with
  | connectAlloc e => simp [State.advance] at hop
  | connectPrepare apiPort e => cases e <;> simp [State.advance] at hop
  | connectSwap apiPort => simp [State.advance] at hop
  | reloadAlloc e =>
    simp only [State.advance] at hop
    split at hop <;> simp at hop
  | reloadPrepare apiPort e => cases e <;> simp [State.advance] at hop
  | reloadStart apiPort e => cases e <;> simp [State.advance] at hop
  | stopRelease =>
    refine ⟨rfl,?_⟩
    change s.releaseStats.core = s.core
    unfold State.releaseStats
    split <;> rfl
  | stopCore => simp [State.advance] at hop

/-- Only the release of `Stop` comes before its stopping the core. -/
theorem stopCore_from (e : Event) (hop : (s.step e).op = some .stopCore) :
    (s.step e).core = s.core ∧
      (s.op = some .stopCore ∨ e = .advance ∧ s.op = some .stopRelease) := by
  have hreload : ∀ e, (s.reload e).op = some .stopCore → (s.reload e).core = s.core ∧
      s.op = some .stopCore := by
    intro e
    unfold State.reload
    split
    · exact fun hop => nomatch hop
    · exact fun hop => ⟨rfl,hop⟩
  cases e with
  | connect e =>
    simp only [State.step] at hop ⊢
    split at hop
    · rename_i hsome
      rw [if_pos hsome]
      exact ⟨rfl,.inl hop⟩
    · exact nomatch hop
  | stop =>
    simp only [State.step] at hop ⊢
    split at hop
    · rename_i hsome
      rw [if_pos hsome]
      exact ⟨rfl,.inl hop⟩
    · exact nomatch hop
  | setTunMode e =>
    simp only [State.step] at hop ⊢
    split
    · rename_i hsome
      rw [if_pos hsome] at hop
      exact ⟨rfl,.inl hop⟩
    · rename_i hnone
      rw [if_neg hnone] at hop
      exact ⟨(hreload e hop).1,.inl (hreload e hop).2⟩
  | reloadRouting e =>
    simp only [State.step] at hop ⊢
    split
    · rename_i hsome
      rw [if_pos hsome] at hop
      exact ⟨rfl,.inl hop⟩
    · rename_i hnone
      rw [if_neg hnone] at hop
      exact ⟨(hreload e hop).1,.inl (hreload e hop).2⟩
  | advance =>
    rcases hs : s.op with _ | op
    · simp only [State.step,hs] at hop
      exact nomatch hop
    · have hstep : s.step .advance = s.advance op := by simp only [State.step,hs]
      rw [hstep] at hop ⊢
      obtain ⟨rfl,hcore⟩ := advance_stopCore hop
      exact ⟨hcore,.inr ⟨rfl,rfl⟩⟩
  | testStart =>
    simp only [State.step] at hop ⊢
    split at hop <;> exact ⟨rfl,.inl hop⟩
  | testEnd n =>
    simp only [State.step] at hop ⊢
    split at hop <;> exact ⟨rfl,.inl hop⟩

theorem step_calm (h : Calm s) (e : Event) (hu : Unhurried s e) : Calm (s.step e) := by
  intro hop
  obtain ⟨hcore,hfrom⟩ := stopCore_from e hop
  rw [hcore]
  rcases hfrom with hs | ⟨rfl,hs⟩
  · exact h hs
  · exact hu hs

theorem run_calm (h : Calm s) (es : List Event) (hu : RunOf Unhurried s es) : Calm (s.run es) := by
  induction es generalizing s with
  | nil => exact h
  | cons e es ih => exact ih (step_calm h e hu.1) hu.2

/-- No port is left behind in careful runs, and none is released under its user
where `Stop` finds no stats port either. -/
theorem careful_ports (a b : ℤ) (pool : PortPool) (h : createPortPool a b = some pool)
    (es : List Event) (hc : RunOf Careful (start pool) es) :
    Settled ((start pool).run es) ∧
      (RunOf Unhurried (start pool) es → Held ((start pool).run es)) := by
  have hinv := run_inv (start_inv h) es hc
  exact ⟨inv_settled hinv,fun hu => inv_held hinv (run_calm (fun hop => absurd hop (by simp [start])) es hu)⟩

def smallPool : PortPool := ⟨3095,3099,∅,3095,by decide⟩

/-- A connect and a test next to it. -/
def connectAndTest : List Event :=
  [.connect .succeeds,.advance,.testStart,.advance,.advance]

theorem connectAndTest_settled :
    Settled ((start smallPool).run connectAndTest) ∧
      Held ((start smallPool).run connectAndTest) :=
  have h := careful_ports 3095 3099 smallPool rfl connectAndTest
    ⟨trivial,(by decide : (3095 : ℤ) ≠ 0),(by decide : (3095 : ℤ) ≠ 0),trivial,trivial,trivial⟩
  ⟨h.1,h.2 ⟨trivial,nofun,trivial,nofun,nofun,trivial⟩⟩

/-- A core that does not start keeps its port for good, and `Stop` gives the port
of a running core away. -/
theorem failed_start_leaks :
    ¬Settled ((start smallPool).run [.connect .startFails,.advance,.advance]) ∧
    ¬Held ((start smallPool).run [.connect .succeeds,.advance,.advance,.advance,.stop,.advance]) := by
  constructor
  · decide
  · decide

end Steps

end Whoisthat.StatsPorts
