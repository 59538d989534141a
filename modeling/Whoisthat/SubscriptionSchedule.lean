import Whoisthat.GroupStore
import Mathlib.Tactic.Ring
import Mathlib.Tactic.NormNum
import Mathlib.Algebra.Order.Ring.Pow

/-!
# The schedule of background subscription updates

When a group is due, how long a failed group waits, and the targets of one tick,
after the scheduler. A plan works on one group at a time; with distinct group ids
what it does to the maps can be read off group by group.
-/

set_option autoImplicit false

namespace Whoisthat.SubscriptionSchedule
open Whoisthat.Records

section Durations

def second : ℤ := 1000000000
def minute : ℤ := 60*second
def hour : ℤ := 60*minute

def autoUpdateRetryBase : ℤ := 30*minute
def autoUpdateRetryMax : ℤ := 6*hour

/-- The loop of `backoffDuration`. -/
def doubled : ℕ → ℤ → ℤ
  | 0, d => d
  | n+1, d => if autoUpdateRetryMax ≤ d*2 then autoUpdateRetryMax else doubled n (d*2)

def backoffDuration (failures : ℕ) : ℤ := doubled (failures-1) autoUpdateRetryBase

theorem doubled_eq (n : ℕ) {d : ℤ} (hd : 0 < d) (hmax : d ≤ autoUpdateRetryMax) :
    doubled n d = min (d*2^n) autoUpdateRetryMax := by
  induction n generalizing d with
  | zero => rw [doubled,pow_zero,mul_one,min_eq_left hmax]
  | succ n ih =>
    rw [doubled]
    split
    · rename_i hle
      refine (min_eq_right (hle.trans ?_)).symm
      have hpow : (1:ℤ) ≤ 2^n := one_le_pow₀ (by norm_num)
      calc d*2 = d*2*1 := by ring
        _ ≤ d*2*2^n := mul_le_mul_of_nonneg_left hpow (by omega)
        _ = d*2^(n+1) := by ring
    · rw [ih (by omega) (by omega)]
      ring_nf

/-- Half an hour, doubled with every failure after the first, and six hours at most. -/
theorem backoffDuration_eq (failures : ℕ) :
    backoffDuration failures = min (autoUpdateRetryBase*2^(failures-1)) autoUpdateRetryMax :=
  doubled_eq _ (by decide) (by decide)

end Durations

section Groups

def effectiveUpdateInterval (g : Group) : ℤ :=
  if 0 < g.subUpdateIntervalOverride then g.subUpdateIntervalOverride*second
  else g.subUpdateInterval*second

/-- Groups the scheduler leaves alone. -/
def Off (g : Group) : Prop := g.subscriptionUrl = "" ∨ g.subAutoUpdateDisabled = true

instance (g : Group) : Decidable (Off g) := inferInstanceAs (Decidable (_ ∨ _))

def subscriptionDue (g : Group) (now : ℤ) : Bool :=
  if Off g then false
  else if effectiveUpdateInterval g ≤ 0 then false
  else if g.subLastUpdated ≤ 0 then true
  else effectiveUpdateInterval g ≤ now-g.subLastUpdated*second

theorem due_later {g : Group} {now later : ℤ} (h : subscriptionDue g now = true)
    (hle : now ≤ later) : subscriptionDue g later = true := by
  unfold subscriptionDue at h ⊢
  by_cases hfirst : g.subLastUpdated ≤ 0
  · simpa only [hfirst,if_true] using h
  · split_ifs at h ⊢
    simp only [decide_eq_true_eq] at h ⊢
    omega

structure RetryState where
  failures : ℕ
  /-- `none` is the zero time. -/
  next : Option ℤ
  deriving DecidableEq

structure UpdateTarget where
  groupID : ℤ
  probe : Bool
  deriving DecidableEq

def retryPending (r : RetryState) (now : ℤ) : Bool := r.next.any fun next => now < next

/-- The maps `probes` and `retry` of the loop. -/
structure Maps where
  probes : ℤ → Bool
  retry : ℤ → Option RetryState

/-- A missing entry reads as the zero value. -/
def Maps.retryOf (m : Maps) (id : ℤ) : RetryState := (m.retry id).getD ⟨0,none⟩

def Maps.setProbe (m : Maps) (id : ℤ) (on : Bool) : Maps :=
  { m with probes := fun i => if i = id then on else m.probes i }

def Maps.setRetry (m : Maps) (id : ℤ) (r : Option RetryState) : Maps :=
  { m with retry := fun i => if i = id then r else m.retry i }

@[simp] theorem setProbe_probes (m : Maps) (id : ℤ) (on : Bool) (i : ℤ) :
    (m.setProbe id on).probes i = if i = id then on else m.probes i := rfl

@[simp] theorem setProbe_retry (m : Maps) (id : ℤ) (on : Bool) :
    (m.setProbe id on).retry = m.retry := rfl

@[simp] theorem setRetry_probes (m : Maps) (id : ℤ) (r : Option RetryState) :
    (m.setRetry id r).probes = m.probes := rfl

@[simp] theorem setRetry_retry (m : Maps) (id : ℤ) (r : Option RetryState) (i : ℤ) :
    (m.setRetry id r).retry i = if i = id then r else m.retry i := rfl

end Groups

section Plan

/-- The loop body of `planAutoUpdate`. -/
def planGroup (now : ℤ) (m : Maps) (g : Group) : Maps × List UpdateTarget :=
  if Off g then ((m.setProbe g.id false).setRetry g.id none,[])
  else if 0 < effectiveUpdateInterval g then
    (m.setProbe g.id false,
      if subscriptionDue g now && !retryPending (m.retryOf g.id) now then [⟨g.id,false⟩] else [])
  else if m.probes g.id || g.subLastUpdated = 0 then
    (m.setProbe g.id true,
      if !retryPending (m.retryOf g.id) now then [⟨g.id,true⟩] else [])
  else (m,[])

def planGroups (now : ℤ) : List Group → Maps → Maps × List UpdateTarget
  | [], m => (m,[])
  | g::gs, m =>
    let r := planGroups now gs (planGroup now m g).1
    (r.1,(planGroup now m g).2 ++ r.2)

def planAutoUpdate (groups : List Group) (now : ℤ) (m : Maps) : Maps × List UpdateTarget :=
  let r := planGroups now groups m
  let seen := fun id => groups.any fun g => g.id = id
  ({ probes := fun id => r.1.probes id && seen id
     retry := fun id => if seen id then r.1.retry id else none },r.2)

variable {now : ℤ} {m m' : Maps} {g : Group} {gs : List Group} {id : ℤ}

/-- The maps have the same entries for a group. -/
structure SameAt (id : ℤ) (m m' : Maps) : Prop where
  probes : m'.probes id = m.probes id
  retry : m'.retry id = m.retry id

theorem planGroup_other (h : id ≠ g.id) : SameAt id m (planGroup now m g).1 := by
  unfold planGroup
  split_ifs <;> exact ⟨by simp [h],by simp [h]⟩

theorem planGroup_targets (h : SameAt g.id m m') :
    (planGroup now m' g).2 = (planGroup now m g).2 := by
  have hr : m'.retryOf g.id = m.retryOf g.id := by rw [Maps.retryOf,Maps.retryOf,h.retry]
  rw [planGroup,planGroup,hr,h.probes]
  split
  · rfl
  · split
    · rfl
    · split <;> rfl

theorem planGroup_own (h : SameAt g.id m m') :
    SameAt g.id (planGroup now m g).1 (planGroup now m' g).1 := by
  unfold planGroup
  rw [h.probes]
  split
  · exact ⟨by simp,by simp⟩
  · split
    · exact ⟨by simp,by simp [h.retry]⟩
    · split
      · exact ⟨by simp,by simp [h.retry]⟩
      · exact h

theorem planGroups_other (h : ∀ g ∈ gs, id ≠ g.id) : SameAt id m (planGroups now gs m).1 := by
  induction gs generalizing m with
  | nil => exact ⟨rfl,rfl⟩
  | cons g gs ih =>
    have hg := @planGroup_other now m g id (h g List.mem_cons_self)
    have hgs := @ih (planGroup now m g).1 fun g hm => h g (List.mem_cons_of_mem _ hm)
    exact ⟨hgs.probes.trans hg.probes,hgs.retry.trans hg.retry⟩

/-- With distinct ids the groups are planned independently. -/
theorem planGroups_mem (hnodup : (gs.map Group.id).Nodup) (hg : g ∈ gs) :
    SameAt g.id (planGroup now m g).1 (planGroups now gs m).1 := by
  induction gs generalizing m with
  | nil => exact nomatch hg
  | cons a gs ih =>
    obtain ⟨hne,hrest⟩ := List.nodup_cons.mp hnodup
    rcases List.mem_cons.mp hg with rfl | hg
    · exact planGroups_other fun b hb he => hne (he ▸ List.mem_map_of_mem hb)
    · have hid : g.id ≠ a.id := fun he => hne (he ▸ List.mem_map_of_mem hg)
      have hother : SameAt g.id m (planGroup now m a).1 := planGroup_other hid
      have hown := @planGroup_own now m _ g hother
      have hstep := @ih (planGroup now m a).1 hrest hg
      exact ⟨hstep.probes.trans hown.probes,hstep.retry.trans hown.retry⟩

theorem planGroups_targets (hnodup : (gs.map Group.id).Nodup) :
    (planGroups now gs m).2 = gs.flatMap fun g => (planGroup now m g).2 := by
  induction gs generalizing m with
  | nil => rfl
  | cons a gs ih =>
    obtain ⟨hne,hrest⟩ := List.nodup_cons.mp hnodup
    have hsame : ∀ g ∈ gs, (planGroup now (planGroup now m a).1 g).2 = (planGroup now m g).2 :=
      fun g hg => planGroup_targets (planGroup_other fun he => hne (he ▸ List.mem_map_of_mem hg))
    rw [List.flatMap_cons,← List.flatMap_congr hsame,← ih hrest]
    rfl

/-- A group is planned for once at most, and under its own id. -/
theorem planGroup_target {t : UpdateTarget} (h : t ∈ (planGroup now m g).2) :
    t.groupID = g.id ∧ ¬Off g ∧ retryPending (m.retryOf g.id) now = false ∧
      (t.probe = true → (m.probes g.id = true ∨ g.subLastUpdated = 0) ∧
        (planGroup now m g).1.probes g.id = true) := by
  unfold planGroup at h ⊢
  split_ifs at h ⊢ <;> simp_all

theorem planGroup_due (h : subscriptionDue g now = true)
    (hr : retryPending (m.retryOf g.id) now = false) : ⟨g.id,false⟩ ∈ (planGroup now m g).2 := by
  have hoff : ¬Off g := by
    intro ho
    simp [subscriptionDue,ho] at h
  have hinterval : 0 < effectiveUpdateInterval g := by
    by_contra hle
    simp [subscriptionDue,not_lt.mp hle] at h
  simp [planGroup,hoff,hinterval,h,hr]

/-- A group of this id is listed, and not switched off. -/
def kept (id : ℤ) (gs : List Group) : Bool := gs.any fun g => g.id = id && !decide (Off g)

theorem planGroup_retry (h : ¬Off g) : (planGroup now m g).1.retry g.id = m.retry g.id := by
  unfold planGroup
  split_ifs <;> simp

/-- The back-off of a group that is missing or switched off is dropped. -/
theorem plan_retry (hnodup : (gs.map Group.id).Nodup) (id : ℤ) :
    (planAutoUpdate gs now m).1.retry id = if kept id gs then m.retry id else none := by
  unfold planAutoUpdate
  dsimp only
  by_cases hseen : ∃ g ∈ gs, g.id = id
  · obtain ⟨g,hg,rfl⟩ := hseen
    have honly : ∀ a ∈ gs, a.id = g.id → a = g := fun a ha he =>
      List.inj_on_of_nodup_map hnodup ha hg he
    have hany : (gs.any fun a => a.id = g.id) = true := by
      simpa using ⟨g,hg,rfl⟩
    rw [if_pos hany,(planGroups_mem hnodup hg).retry]
    by_cases ho : Off g
    · have hk : ¬kept g.id gs = true := by
        simp only [kept,List.any_eq_true,Bool.and_eq_true,decide_eq_true_eq,Bool.not_eq_true',
          decide_eq_false_iff_not,not_exists,not_and]
        rintro a ha he
        rwa [honly a ha he,not_not]
      rw [if_neg hk]
      simp [planGroup,ho]
    · have hk : kept g.id gs = true := by
        simpa [kept] using ⟨g,hg,rfl,ho⟩
      rw [if_pos hk,planGroup_retry ho]
  · have hany : ¬(gs.any fun a => a.id = id) = true := by simpa using hseen
    have hk : ¬kept id gs = true := by
      simp only [kept,List.any_eq_true,Bool.and_eq_true,decide_eq_true_eq,not_exists]
      exact fun g h => hseen ⟨g,h.1,h.2.1⟩
    rw [if_neg hany,if_neg hk]

theorem plan_listed (h : (planAutoUpdate gs now m).1.probes id = true ∨
    ((planAutoUpdate gs now m).1.retry id).isSome) : ∃ g ∈ gs, g.id = id := by
  unfold planAutoUpdate at h
  dsimp only at h
  rcases h with h | h
  · simpa using (Bool.and_eq_true_iff.mp h).2
  · split at h
    · rename_i hs
      simpa using hs
    · exact nomatch h

theorem plan_target (hnodup : (gs.map Group.id).Nodup) {t : UpdateTarget}
    (h : t ∈ (planAutoUpdate gs now m).2) :
    ∃ g ∈ gs, t.groupID = g.id ∧ ¬Off g ∧ retryPending (m.retryOf g.id) now = false ∧
      (t.probe = true → m.probes g.id = true ∨ g.subLastUpdated = 0) := by
  have hm : t ∈ (planGroups now gs m).2 := h
  rw [planGroups_targets hnodup,List.mem_flatMap] at hm
  obtain ⟨g,hg,ht⟩ := hm
  obtain ⟨hid,ho,hr,hp⟩ := planGroup_target ht
  exact ⟨g,hg,hid,ho,hr,fun h => (hp h).1⟩

theorem plan_due (hnodup : (gs.map Group.id).Nodup) (hg : g ∈ gs)
    (h : subscriptionDue g now = true) (hr : retryPending (m.retryOf g.id) now = false) :
    ⟨g.id,false⟩ ∈ (planAutoUpdate gs now m).2 := by
  show _ ∈ (planGroups now gs m).2
  rw [planGroups_targets hnodup,List.mem_flatMap]
  exact ⟨g,hg,planGroup_due h hr⟩

/-- A group that has been refreshed and is not in the probe set is not probed. -/
theorem plan_probes (hnodup : (gs.map Group.id).Nodup) (hm : m.probes id = false)
    (hl : ∀ g ∈ gs, g.id = id → g.subLastUpdated ≠ 0) :
    (planAutoUpdate gs now m).1.probes id = false := by
  show ((planGroups now gs m).1.probes id && _) = false
  by_cases hseen : ∃ g ∈ gs, g.id = id
  · obtain ⟨g,hg,rfl⟩ := hseen
    rw [(planGroups_mem hnodup hg).probes]
    have hlast := hl g hg rfl
    unfold planGroup
    split_ifs <;> simp_all
  · rw [(planGroups_other fun g hg he => hseen ⟨g,hg,he.symm⟩).probes,hm,Bool.false_and]

theorem plan_targets_nodup (hnodup : (gs.map Group.id).Nodup) :
    ((planAutoUpdate gs now m).2.map UpdateTarget.groupID).Nodup := by
  show ((planGroups now gs m).2.map UpdateTarget.groupID).Nodup
  rw [planGroups_targets hnodup]
  refine List.Nodup.sublist ?_ hnodup
  clear hnodup
  induction gs with
  | nil => exact List.Sublist.refl _
  | cons g gs ih =>
    rw [List.flatMap_cons,List.map_append,List.map_cons]
    have hown : ((planGroup now m g).2.map UpdateTarget.groupID).Sublist [g.id] := by
      unfold planGroup
      split_ifs <;> simp
    exact hown.append ih

end Plan

end Whoisthat.SubscriptionSchedule
