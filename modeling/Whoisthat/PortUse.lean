import Mathlib.Data.Finset.Card
import Mathlib.Data.Finset.Image
import Mathlib.Data.Finset.Range
import Mathlib.Tactic.Ring
import Whoisthat.StatsPorts

/-!
# Ports of the pool over whole runs

Callers take ports and give ports back in any order, ports they never took and
ports they gave back before among them. The scan begins at a hint that moves
round the range. It finds every free port whatever the hint is, so that the pool
serves its callers as long as what it keeps agrees with what they hold, and port
0 is the only one on which the two can part.
-/

set_option autoImplicit false

namespace Whoisthat.PortUse
open Whoisthat.StatsPorts (PortPool createPortPool)

section Model

inductive Event where
  | getPort
  | releasePort (port : ℤ)
  deriving DecidableEq

/-- The pool, and the ports its callers hold. -/
structure State where
  pool : PortPool
  outstanding : Finset ℤ

def start (pool : PortPool) : State := ⟨pool,∅⟩

def State.step (s : State) : Event → State
  | .getPort =>
    match s.pool.getPort with
    | none => s
    | some (port,pool) => ⟨pool,insert port s.outstanding⟩
  | .releasePort port => ⟨s.pool.releasePort port,s.outstanding.erase port⟩

def State.run (s : State) : List Event → State
  | [] => s
  | e::es => (s.step e).run es

/-- The ports of the range, `[start, end)`. -/
def PortPool.range (p : PortPool) : Finset ℤ :=
  (Finset.range (p.endPort-p.startPort).toNat).image fun i : ℕ => p.startPort+i

/-- `GetPort` gives out a port of the range that nobody holds, it fails just when
every port is held, and each port that nobody holds is given out within as many
calls as the range has ports. -/
structure Served (s : State) : Prop where
  inside : ∀ port pool, s.pool.getPort = some (port,pool) →
    port ∈ PortPool.range s.pool ∧ port ∉ s.outstanding
  exhausted : s.pool.getPort = none ↔ ∀ port ∈ PortPool.range s.pool, port ∈ s.outstanding
  again : ∀ port ∈ PortPool.range s.pool, port ∉ s.outstanding →
    ∃ n ≤ (PortPool.range s.pool).card,
      port ∈ (s.run (List.replicate n .getPort)).outstanding

end Model

section Scan

variable {p q : PortPool} {port : ℤ}

theorem mem_range : port ∈ PortPool.range p ↔ p.startPort ≤ port ∧ port < p.endPort := by
  rw [PortPool.range,Finset.mem_image]
  constructor
  · rintro ⟨i,hi,rfl⟩
    have hlt := Finset.mem_range.mp hi
    omega
  · rintro ⟨hlow,hhigh⟩
    exact ⟨(port-p.startPort).toNat,Finset.mem_range.mpr (by omega),by omega⟩

/-- Every port the scan looks at lies in the range. -/
theorem candidate_range (p : PortPool) (i : ℕ) : p.candidate i ∈ PortPool.range p := by
  have hsize : 0 < p.endPort-p.startPort := Int.sub_pos_of_lt p.valid.2
  have hlow := Int.emod_nonneg (p.nextHint+i-p.startPort) hsize.ne'
  have hhigh := Int.emod_lt_of_pos (p.nextHint+i-p.startPort) hsize
  rw [mem_range,PortPool.candidate]
  omega

/-- From every hint the scan comes to every port of the range. -/
theorem candidate_surjective (h : port ∈ PortPool.range p) :
    ∃ i < (p.endPort-p.startPort).toNat, p.candidate i = port := by
  obtain ⟨hlow,hhigh⟩ := mem_range.mp h
  have hsize : 0 < p.endPort-p.startPort := Int.sub_pos_of_lt p.valid.2
  have hnonneg := Int.emod_nonneg (port-p.nextHint) hsize.ne'
  have hlt := Int.emod_lt_of_pos (port-p.nextHint) hsize
  refine ⟨((port-p.nextHint) % (p.endPort-p.startPort)).toNat,by omega,?_⟩
  have hsplit : p.nextHint+(port-p.nextHint) % (p.endPort-p.startPort)-p.startPort =
      port-p.startPort-(p.endPort-p.startPort)*((port-p.nextHint)/(p.endPort-p.startPort)) := by
    rw [Int.emod_def]
    ring
  have hback : (p.nextHint+(port-p.nextHint) % (p.endPort-p.startPort)-p.startPort) %
      (p.endPort-p.startPort) = port-p.startPort := by
    rw [hsplit,Int.sub_mul_emod_self_left]
    exact Int.emod_eq_of_lt (by omega) (by omega)
  rw [PortPool.candidate,Int.toNat_of_nonneg hnonneg,hback]
  omega

theorem candidate_tmod (h : p.startPort ≤ p.nextHint) (i : ℕ) :
    p.candidate i =
      p.startPort+(p.nextHint+i-p.startPort).tmod (p.endPort-p.startPort) := by
  rw [PortPool.candidate,Int.tmod_eq_emod_of_nonneg (by omega)]

theorem getPort_none : p.getPort = none ↔ ∀ port ∈ PortPool.range p, port ∈ p.inUse := by
  rw [PortPool.getPort,Option.map_eq_none_iff,List.find?_eq_none]
  constructor
  · intro h port hport
    obtain ⟨i,hi,rfl⟩ := candidate_surjective hport
    simpa using h i (List.mem_range.mpr hi)
  · intro h i _
    simpa using h _ (candidate_range p i)

/-- What a successful call changes. -/
theorem getPort_some (h : p.getPort = some (port,q)) :
    port ∈ PortPool.range p ∧ port ∉ p.inUse ∧ q.inUse = insert port p.inUse ∧
      q.startPort = p.startPort ∧ q.endPort = p.endPort ∧ q.startPort ≤ q.nextHint := by
  obtain ⟨i,hi,heq⟩ := Option.map_eq_some_iff.mp h
  obtain ⟨rfl,rfl⟩ := Prod.mk.inj heq
  have hrange := mem_range.mp (candidate_range p i)
  refine ⟨candidate_range p i,by simpa using List.find?_some hi,rfl,rfl,rfl,?_⟩
  show p.startPort ≤ if p.endPort ≤ p.candidate i+1 then p.startPort else p.candidate i+1
  split <;> omega

theorem releasePort_range : PortPool.range (p.releasePort port) = PortPool.range p := by
  unfold PortPool.releasePort
  split <;> rfl

end Scan

section Runs

variable {s : State}

theorem run_append (s : State) (es fs : List Event) : s.run (es ++ fs) = (s.run es).run fs := by
  induction es generalizing s with
  | nil => rfl
  | cons e es ih => exact ih (s.step e)

theorem step_range (s : State) (e : Event) :
    PortPool.range (s.step e).pool = PortPool.range s.pool := by
  cases e with
  | releasePort port => exact releasePort_range
  | getPort =>
    rw [State.step]
    rcases hget : s.pool.getPort with _ | ⟨port,q⟩
    · rfl
    · obtain ⟨-,-,-,hstart,hend,-⟩ := getPort_some hget
      show PortPool.range q = _
      rw [PortPool.range,hstart,hend]
      rfl

/-- What holds of every run: the callers hold ports of the range that the pool
counts as used, and the hint has not left the range. -/
structure Tracked (s : State) : Prop where
  used : s.outstanding ⊆ s.pool.inUse
  inside : s.outstanding ⊆ PortPool.range s.pool
  hint : s.pool.startPort ≤ s.pool.nextHint

theorem tracked_step (h : Tracked s) (e : Event) : Tracked (s.step e) := by
  cases e with
  | getPort =>
    rw [State.step]
    rcases hget : s.pool.getPort with _ | ⟨port,q⟩
    · exact h
    · obtain ⟨hrange,-,huse,hstart,hend,hhint⟩ := getPort_some hget
      refine ⟨?_,?_,hhint⟩
      · show insert port s.outstanding ⊆ q.inUse
        rw [huse]
        exact Finset.insert_subset_insert port h.used
      · show insert port s.outstanding ⊆ PortPool.range q
        rw [PortPool.range,hstart,hend]
        exact Finset.insert_subset hrange h.inside
  | releasePort port =>
    refine ⟨?_,?_,?_⟩
    · show s.outstanding.erase port ⊆ (s.pool.releasePort port).inUse
      unfold PortPool.releasePort
      split
      · exact (Finset.erase_subset _ _).trans h.used
      · exact Finset.erase_subset_erase port h.used
    · show s.outstanding.erase port ⊆ PortPool.range (s.pool.releasePort port)
      rw [releasePort_range]
      exact (Finset.erase_subset _ _).trans h.inside
    · show (s.pool.releasePort port).startPort ≤ (s.pool.releasePort port).nextHint
      unfold PortPool.releasePort
      split <;> exact h.hint

theorem tracked_run (h : Tracked s) (es : List Event) : Tracked (s.run es) := by
  induction es generalizing s with
  | nil => exact h
  | cons e es ih => exact ih (tracked_step h e)

theorem tracked_start {a b : ℤ} {pool : PortPool} (h : createPortPool a b = some pool) :
    Tracked (start pool) := by
  unfold createPortPool at h
  split at h
  · obtain rfl := Option.some.inj h
    exact ⟨Finset.Subset.refl _,Finset.empty_subset _,le_refl a⟩
  · cases h

/-- In every run the remainder of the scan is the truncated one of the source. -/
theorem run_candidate {a b : ℤ} {pool : PortPool} (h : createPortPool a b = some pool)
    (es : List Event) (i : ℕ) :
    ((start pool).run es).pool.candidate i = ((start pool).run es).pool.startPort+
      (((start pool).run es).pool.nextHint+i-((start pool).run es).pool.startPort).tmod
        (((start pool).run es).pool.endPort-((start pool).run es).pool.startPort) :=
  candidate_tmod (tracked_run (tracked_start h) es).hint i

/-- The pool counts the ports that the callers hold and no others. -/
def Agreed (s : State) : Prop := s.pool.inUse = s.outstanding

theorem agreed_start {a b : ℤ} {pool : PortPool} (h : createPortPool a b = some pool) :
    Agreed (start pool) := by
  unfold createPortPool at h
  split at h
  · obtain rfl := Option.some.inj h
    rfl
  · cases h

theorem agreed_get (h : Agreed s) : Agreed (s.step .getPort) := by
  rw [State.step]
  rcases hget : s.pool.getPort with _ | ⟨port,q⟩
  · exact h
  · obtain ⟨-,-,huse,-⟩ := getPort_some hget
    show q.inUse = insert port s.outstanding
    rw [huse,h]

/-- Only the release of port 0 can part the two. -/
theorem agreed_release (h : Agreed s) (hinside : s.outstanding ⊆ PortPool.range s.pool)
    {port : ℤ} (hzero : port = 0 → port ∉ s.outstanding) : Agreed (s.step (.releasePort port)) := by
  show (s.pool.releasePort port).inUse = s.outstanding.erase port
  unfold PortPool.releasePort
  split
  · next hle =>
    have hout : port ∉ s.outstanding := fun hin => by
      have hlow := (mem_range.mp (hinside hin)).1
      have hvalid := s.pool.valid.1
      exact hzero (by omega) hin
    rw [Finset.erase_eq_of_notMem hout]
    exact h
  · rw [← h]

/-- Where nobody gives port 0 back while it is held, the two agree. -/
theorem agreed_run (h : Agreed s) (ht : Tracked s) (es : List Event)
    (hzero : ∀ front, front ++ [.releasePort 0] <+: es → 0 ∉ (s.run front).outstanding) :
    Agreed (s.run es) := by
  induction es generalizing s with
  | nil => exact h
  | cons e es ih =>
    refine ih ?_ (tracked_step ht e) fun front hfront =>
      hzero (e::front) (List.cons_prefix_cons.mpr ⟨rfl,hfront⟩)
    cases e with
    | getPort => exact agreed_get h
    | releasePort port =>
      refine agreed_release h ht.inside fun hport => ?_
      subst hport
      exact hzero [] ⟨es,rfl⟩

end Runs

section Service

variable {s : State}

theorem gets_succ (s : State) (n : ℕ) :
    s.run (List.replicate (n+1) .getPort) =
      (s.run (List.replicate n .getPort)).step .getPort := by
  rw [List.replicate_succ',run_append]
  rfl

theorem gets_range (s : State) (n : ℕ) :
    PortPool.range (s.run (List.replicate n .getPort)).pool = PortPool.range s.pool := by
  induction n with
  | zero => rfl
  | succ n ih => rw [gets_succ,step_range,ih]

theorem gets_agreed (h : Agreed s) (n : ℕ) : Agreed (s.run (List.replicate n .getPort)) := by
  induction n with
  | zero => exact h
  | succ n ih =>
    rw [gets_succ]
    exact agreed_get ih

/-- Calls in a row hold ever more ports, until all are held. -/
theorem gets_hold (h : Agreed s) (n : ℕ) :
    n ≤ (s.run (List.replicate n .getPort)).outstanding.card ∨
      PortPool.range s.pool ⊆ (s.run (List.replicate n .getPort)).outstanding := by
  induction n with
  | zero => exact .inl (Nat.zero_le _)
  | succ n ih =>
    have hagreed := gets_agreed h n
    rw [gets_succ,State.step]
    rcases hget : (s.run (List.replicate n .getPort)).pool.getPort with _ | ⟨port,q⟩
    · have hall := getPort_none.mp hget
      rw [gets_range,hagreed] at hall
      exact .inr hall
    · obtain ⟨-,hfree,-⟩ := getPort_some hget
      rw [hagreed] at hfree
      refine ih.imp (fun hcard => ?_) fun hall => hall.trans (Finset.subset_insert _ _)
      show n+1 ≤ (insert port (s.run (List.replicate n .getPort)).outstanding).card
      rw [Finset.card_insert_of_notMem hfree]
      omega

/-- A pool that agrees with its callers serves them. -/
theorem served_of_agreed (ha : Agreed s) (ht : Tracked s) : Served s := by
  refine ⟨fun port pool hget => ?_,?_,fun port hport _ => ?_⟩
  · obtain ⟨hrange,hfree,-⟩ := getPort_some hget
    rw [ha] at hfree
    exact ⟨hrange,hfree⟩
  · rw [getPort_none,ha]
  · refine ⟨_,le_refl _,?_⟩
    rcases gets_hold ha (PortPool.range s.pool).card with hcard | hall
    · have hinside := (tracked_run ht
        (List.replicate (PortPool.range s.pool).card .getPort)).inside
      rw [gets_range] at hinside
      rw [Finset.eq_of_subset_of_card_le hinside hcard]
      exact hport
    · exact hall hport

/-- A port that the pool counts and nobody holds is lost. -/
theorem gets_lost {port : ℤ} (huse : port ∈ s.pool.inUse) (hout : port ∉ s.outstanding) (n : ℕ) :
    port ∈ (s.run (List.replicate n .getPort)).pool.inUse ∧
      port ∉ (s.run (List.replicate n .getPort)).outstanding := by
  induction n with
  | zero => exact ⟨huse,hout⟩
  | succ n ih =>
    rw [gets_succ,State.step]
    rcases hget : (s.run (List.replicate n .getPort)).pool.getPort with _ | ⟨next,q⟩
    · exact ih
    · obtain ⟨-,hfree,hnow,-⟩ := getPort_some hget
      constructor
      · show port ∈ q.inUse
        rw [hnow]
        exact Finset.mem_insert_of_mem ih.1
      · show port ∉ insert next _
        rw [Finset.mem_insert,not_or]
        exact ⟨fun heq => hfree (heq ▸ ih.1),ih.2⟩

/-- The release of port 0 leaves it counted. -/
theorem zero_lost (ht : Tracked s) (hzero : (0 : ℤ) ∈ s.outstanding) :
    ¬Served (s.step (.releasePort 0)) := by
  intro h
  have huse : (0 : ℤ) ∈ (s.step (.releasePort 0)).pool.inUse := ht.used hzero
  have hout : (0 : ℤ) ∉ (s.step (.releasePort 0)).outstanding := Finset.notMem_erase 0 _
  have hrange : (0 : ℤ) ∈ PortPool.range (s.step (.releasePort 0)).pool := ht.inside hzero
  obtain ⟨n,-,hagain⟩ := h.again 0 hrange hout
  exact (gets_lost huse hout n).2 hagain

end Service

section Result

/-- The pool serves its callers throughout a run just when nobody gives back a
port 0 that is held: its release does nothing, and the port is never seen again. -/
theorem served_iff (a b : ℤ) (pool : PortPool) (h : createPortPool a b = some pool)
    (es : List Event) :
    (∀ front, front <+: es → Served ((start pool).run front)) ↔
      ∀ front, front ++ [.releasePort 0] <+: es → 0 ∉ ((start pool).run front).outstanding := by
  have htracked := tracked_run (tracked_start h)
  constructor
  · intro hserved front hfront hzero
    have hnext := hserved _ hfront
    rw [run_append] at hnext
    exact zero_lost (htracked front) hzero hnext
  · intro hcond front hfront
    refine served_of_agreed ?_ (htracked front)
    exact agreed_run (agreed_start h) (tracked_start h) front fun first hfirst =>
      hcond first (hfirst.trans hfront)

def smallPool : PortPool := ⟨3095,3097,∅,3095,by decide⟩

theorem small_pool_served :
    Served ((start smallPool).run [.getPort,.releasePort 3095,.releasePort 7,.getPort]) := by
  refine (served_iff 3095 3097 smallPool rfl _).mpr (fun front hfront => ?_) _
    (List.prefix_refl [Event.getPort,.releasePort 3095,.releasePort 7,.getPort])
  have hin : Event.releasePort 0 ∈
      [Event.getPort,.releasePort 3095,.releasePort 7,.getPort] :=
    hfront.subset (List.mem_append_right front List.mem_cons_self)
  exact absurd hin (by decide)

/-- Port 0 is taken and given back, and its pool of one port is empty for good. -/
theorem zero_port_lost :
    ∃ pool : PortPool, createPortPool 0 1 = some pool ∧
      ¬Served ((start pool).run [.getPort,.releasePort 0]) := by
  refine ⟨⟨0,1,∅,0,by decide⟩,rfl,fun h => ?_⟩
  have hnone := h.exhausted.mp (by decide) 0 (by decide)
  revert hnone
  decide

end Result

end Whoisthat.PortUse
