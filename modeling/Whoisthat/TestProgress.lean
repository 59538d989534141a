import Whoisthat.TestQueue

/-!
# Progress of test batches

A group's counter is set after its batch has been enqueued, counted up by the
results that are saved, and removed when it reaches the total. It never gets
stuck as long as every request that ends uncounted is made up for.
-/

set_option autoImplicit false

namespace Whoisthat.TestProgress
open Whoisthat.TestQueue

section Model

/-- A counter of `progressGroups`. The call whose batch it counts and the number
of the seeding are not in the source. -/
structure Entry where
  tested : ℤ
  total : ℤ
  caller : ℕ
  batch : ℕ

/-- A `test-progress` notification, with the number of its seeding. -/
structure Note where
  groupId : ℤ
  tested : ℤ
  total : ℤ
  batch : ℕ

structure State where
  queue : TestQueue.State
  /-- `TestResultChannel` -/
  results : List Enqueued
  progress : ℤ → Option Entry
  nextBatch : ℕ
  /-- Calls of `TestGroup` that have returned and are about to seed. -/
  seeds : List (ℕ × ℤ × ℕ)
  /-- Notifications of seedings on their way. -/
  announced : List Note
  /-- `IncrementTestProgress` after its addition. -/
  counted : Option Note
  notes : List Note

inductive Event where
  | queue (e : TestQueue.Event)
  /-- `SeedTestProgress`; only the command announces its batch. -/
  | seed (n : ℕ) (announce : Bool)
  | announce (n : ℕ)
  /-- The next result, up to the addition; `saved` is whether the profile could be
  updated. -/
  | handle (saved : Bool)
  | report

/-- `make(chan TestResult, 256)` -/
def resultsSize : ℕ := 256

/-- The key of a group in `progressGroups`. -/
def int32 (n : ℤ) : ℤ := n.bmod (2^32)

def start (cfg : TestConfig) : State :=
  { queue := TestQueue.start cfg
    results := []
    progress := fun _ => none
    nextBatch := 0
    seeds := []
    announced := []
    counted := none
    notes := [] }

def State.act (s : State) : Action → State
  | .returned caller gid enqueued => { s with seeds := s.seeds ++ [(caller,gid,enqueued)] }
  | .result r => if s.results.length < resultsSize then { s with results := s.results ++ [r] } else s
  | _ => s

def State.seedTestProgress (s : State) (caller : ℕ) (gid : ℤ) (total : ℕ) : State :=
  if gid = 0 then s
  else { s with
    progress := Function.update s.progress (int32 gid) (some ⟨0,total,caller,s.nextBatch⟩) }

/-- `IncrementTestProgress` up to the comparison with the total. -/
def State.count (s : State) (gid : ℤ) : State :=
  if gid = 0 then s
  else match s.progress (int32 gid) with
    | none => s
    | some e => { s with
      progress := Function.update s.progress (int32 gid) (some { e with tested := e.tested+1 })
      counted := some ⟨gid,e.tested+1,e.total,e.batch⟩ }

def State.step (s : State) : Event → State
  | .queue e => (s.queue.step e).2.foldl State.act { s with queue := (s.queue.step e).1 }
  | .seed n announce =>
    match s.seeds[n]? with
    | none => s
    | some (caller,gid,total) =>
      { s.seedTestProgress caller gid total with
        nextBatch := s.nextBatch+1
        seeds := s.seeds.eraseIdx n
        announced := if announce then ⟨gid,0,total,s.nextBatch⟩ :: s.announced else s.announced }
  | .announce n =>
    match s.announced[n]? with
    | none => s
    | some note => { s with announced := s.announced.eraseIdx n, notes := s.notes ++ [note] }
  | .handle saved =>
    match s.counted, s.results with
    | none, r::rest =>
      if saved then { s with results := rest }.count r.request.profile.groupId
      else { s with results := rest }
    | _, _ => s
  | .report =>
    match s.counted with
    | none => s
    | some c =>
      { s with
        counted := none
        progress := if c.total ≤ c.tested then Function.update s.progress (int32 c.groupId) none
          else s.progress
        notes := s.notes ++ [c] }

def State.run (s : State) : List Event → State
  | [] => s
  | e::es => (s.step e).run es

end Model

section Property

/-- Requests that have not ended, and results that have not been handled. -/
def State.pending (s : State) : List Enqueued := s.queue.live ++ s.results

/-- The counter that a result of the request would count up. -/
def keyOf (r : Enqueued) : Option ℤ :=
  if r.request.profile.groupId = 0 then none else some (int32 r.request.profile.groupId)

/-- The handler has counted a result of the group and not reported it. -/
def State.handling (s : State) (key : ℤ) : Prop := ∃ c ∈ s.counted, int32 c.groupId = key

structure Fair (s : State) : Prop where
  bounds : ∀ n ∈ s.notes, 0 ≤ n.tested ∧ n.tested ≤ n.total
  rising : s.notes.Pairwise fun m n => m.batch = n.batch → m.tested ≤ n.tested
  ends : ∀ key e, s.progress key = some e →
    (∃ r ∈ s.pending, r.caller = e.caller) ∨ s.handling key

/-- Requests of the call that can still count for the key. -/
def State.left (s : State) (key : ℤ) (caller : ℕ) : ℕ :=
  s.pending.countP fun r => keyOf r = some key ∧ r.caller = caller

/-- The handler is about to remove the counter of the key. -/
def State.clearing (s : State) (key : ℤ) : Prop :=
  ∃ c ∈ s.counted, int32 c.groupId = key ∧ c.total ≤ c.tested

/-- If the request ends uncounted, its counter has been counted up by others. -/
def Spare (s : State) (r : Enqueued) : Prop :=
  ∀ key ∈ keyOf r, ∀ e ∈ s.progress key, e.caller = r.caller →
    s.clearing key ∨ e.total-e.tested < s.left key e.caller

def CarefulAction (s : State) : Action → Prop
  | .drop r => Spare s r
  | .result r => s.results.length < resultsSize ∨ Spare s r
  | _ => True

/-- A batch of at least one request is seeded while all its requests are pending,
its seeding is announced before its first report, and its requests end counted
or are made up for by other results of the group. -/
def Careful (s : State) : Event → Prop
  | .queue e => ∀ a ∈ (s.queue.step e).2, CarefulAction s a
  | .seed n _ => ∀ p ∈ s.seeds[n]?, p.2.1 = 0 ∨
      0 < p.2.2 ∧ p.2.2 ≤ s.left (int32 p.2.1) p.1
  | .announce n => ∀ note ∈ s.announced[n]?, ∀ m ∈ s.notes, m.batch = note.batch → m.tested ≤ 0
  | .handle false => s.counted = none → ∀ r ∈ s.results.head?, Spare s r
  | _ => True

def CarefulRun (s : State) : List Event → Prop
  | [] => True
  | e::es => Careful s e ∧ CarefulRun (s.step e) es

instance (s : State) (key : ℤ) : Decidable (s.clearing key) :=
  inferInstanceAs (Decidable (∃ c ∈ s.counted, _))

instance (s : State) (r : Enqueued) : Decidable (Spare s r) :=
  inferInstanceAs (Decidable (∀ key ∈ keyOf r, ∀ e ∈ s.progress key, _))

instance (s : State) : (a : Action) → Decidable (CarefulAction s a)
  | .drop _ => inferInstanceAs (Decidable (Spare _ _))
  | .result _ => inferInstanceAs (Decidable (_ ∨ _))
  | .reserve _ => isTrue trivial
  | .release _ => isTrue trivial
  | .send _ => isTrue trivial
  | .returned _ _ _ => isTrue trivial
  | .dial _ => isTrue trivial
  | .startXray _ => isTrue trivial
  | .beginSample _ => isTrue trivial
  | .abort _ => isTrue trivial

instance (s : State) : (e : Event) → Decidable (Careful s e)
  | .queue _ => inferInstanceAs (Decidable (∀ a ∈ _, CarefulAction s a))
  | .seed _ _ => inferInstanceAs (Decidable (∀ p ∈ _, _))
  | .announce _ => inferInstanceAs (Decidable (∀ note ∈ _, ∀ m ∈ _, _))
  | .handle false => inferInstanceAs (Decidable (s.counted = none → ∀ r ∈ _, Spare s r))
  | .handle true => isTrue trivial
  | .report => isTrue trivial

instance decidableCarefulRun (s : State) : (es : List Event) → Decidable (CarefulRun s es)
  | [] => isTrue trivial
  | e::es =>
    have := decidableCarefulRun (s.step e) es
    inferInstanceAs (Decidable (_ ∧ _))

end Property

section Invariant

variable {s : State}

/-- As many requests can still count as the counter lacks, or it is about to go. -/
def Covered (s : State) (key : ℤ) (e : Entry) : Prop :=
  s.clearing key ∨ e.tested < e.total ∧ e.total-e.tested ≤ s.left key e.caller

structure EntryOk (s : State) (key : ℤ) (e : Entry) : Prop where
  tested : 0 ≤ e.tested
  batch : e.batch < s.nextBatch
  notes : ∀ n ∈ s.notes, n.batch = e.batch → n.tested ≤ e.tested
  counted : ∀ c ∈ s.counted, c.batch = e.batch → c.tested ≤ e.tested
  covered : Covered s key e

structure Inv (s : State) : Prop where
  notes : ∀ n ∈ s.notes, (0 ≤ n.tested ∧ n.tested ≤ n.total) ∧ n.batch < s.nextBatch
  rising : s.notes.Pairwise fun m n => m.batch = n.batch → m.tested ≤ n.tested
  announced : ∀ n ∈ s.announced, (n.tested = 0 ∧ 0 ≤ n.total) ∧ n.batch < s.nextBatch
  counted : ∀ c ∈ s.counted, ((0 ≤ c.tested ∧ c.tested ≤ c.total) ∧ c.batch < s.nextBatch) ∧
    ∀ n ∈ s.notes, n.batch = c.batch → n.tested ≤ c.tested
  entries : ∀ key e, s.progress key = some e → EntryOk s key e
  keys : ∀ key key' e e', s.progress key = some e → s.progress key' = some e' →
    e.batch = e'.batch → key = key'

theorem inv_fair (h : Inv s) : Fair s := by
  refine ⟨fun n hn => (h.notes n hn).1,h.rising,fun key e he => ?_⟩
  rcases (h.entries key e he).covered with ⟨c,hc,hkey,-⟩ | ⟨hlt,hle⟩
  · exact .inr ⟨c,hc,hkey⟩
  · have hpos : 0 < s.left key e.caller := by omega
    obtain ⟨r,hr,hp⟩ := List.countP_pos_iff.mp hpos
    exact .inl ⟨r,hr,(of_decide_eq_true hp).2⟩

theorem start_inv (cfg : TestConfig) : Inv (start cfg) :=
  ⟨fun _ hn => (List.not_mem_nil hn).elim,List.Pairwise.nil,
    fun _ hn => (List.not_mem_nil hn).elim,fun c hc => (Option.not_mem_none c hc).elim,
    (fun _ _ he => nomatch he),fun _ _ _ _ he => nomatch he⟩

/-- Only the pending requests and the calls about to seed change. -/
theorem inv_pending (h : Inv s) (q : TestQueue.State) (rs : List Enqueued)
    (ss : List (ℕ × ℤ × ℕ))
    (hc : ∀ key e, s.progress key = some e →
      Covered { s with queue := q, results := rs, seeds := ss } key e) :
    Inv { s with queue := q, results := rs, seeds := ss } := by
  refine ⟨h.notes,h.rising,h.announced,h.counted,fun key e he => ?_,h.keys⟩
  have hok := h.entries key e he
  exact ⟨hok.tested,hok.batch,hok.notes,hok.counted,hc key e he⟩

theorem covered_mono {q : TestQueue.State} {rs : List Enqueued} {ss : List (ℕ × ℤ × ℕ)} {key : ℤ}
    {e : Entry} (h : Covered s key e)
    (hp : s.pending.Subperm (State.pending { s with queue := q, results := rs, seeds := ss })) :
    Covered { s with queue := q, results := rs, seeds := ss } key e := by
  rcases h with h | ⟨hlt,hle⟩
  · exact .inl h
  · have hcount := hp.countP_le fun r => keyOf r = some key ∧ r.caller = e.caller
    refine .inr ⟨hlt,hle.trans ?_⟩
    exact_mod_cast hcount

/-- A request that ends is missed by the counters that lack one more. -/
theorem left_popped {q : TestQueue.State} {rs : List Enqueued} {ss : List (ℕ × ℤ × ℕ)}
    {r : Enqueued} (key : ℤ) (caller : ℕ)
    (hp : s.pending.Perm (r :: State.pending { s with queue := q, results := rs, seeds := ss })) :
    s.left key caller = State.left { s with queue := q, results := rs, seeds := ss } key caller+
      if keyOf r = some key ∧ r.caller = caller then 1 else 0 := by
  unfold State.left
  rw [hp.countP_eq,List.countP_cons]
  simp only [decide_eq_true_eq]

/-- A request that ends uncounted was spare. -/
theorem covered_spare {q : TestQueue.State} {rs : List Enqueued} {ss : List (ℕ × ℤ × ℕ)} {key : ℤ}
    {e : Entry} {r : Enqueued} (h : Covered s key e) (he : s.progress key = some e)
    (hs : Spare s r)
    (hp : s.pending.Perm (r :: State.pending { s with queue := q, results := rs, seeds := ss })) :
    Covered { s with queue := q, results := rs, seeds := ss } key e := by
  have hcount := left_popped key e.caller hp
  rcases h with h | ⟨hlt,hle⟩
  · exact .inl h
  · by_cases hr : keyOf r = some key ∧ r.caller = e.caller
    · rw [if_pos hr] at hcount
      rcases hs key hr.1 e he hr.2.symm with hclear | hspare
      · exact .inl hclear
      · exact .inr ⟨hlt,by omega⟩
    · rw [if_neg hr] at hcount
      exact .inr ⟨hlt,by omega⟩

end Invariant

section Queue

variable {s : State}

/-- Actions without a result only add calls that are about to seed. -/
theorem act_fold (acts : List Action) (hacts : ∀ r, .result r ∉ acts) :
    ∃ ss, acts.foldl State.act s = { s with seeds := ss } := by
  induction acts generalizing s with
  | nil => exact ⟨s.seeds,rfl⟩
  | cons a acts ih =>
    have hrest : ∀ r, .result r ∉ acts := fun r hr => hacts r (List.mem_cons_of_mem a hr)
    have ha : ∃ ss, s.act a = { s with seeds := ss } := by
      cases a with
      | result r => exact absurd List.mem_cons_self (hacts r)
      | returned caller gid enqueued => exact ⟨_,rfl⟩
      | _ => exact ⟨s.seeds,rfl⟩
    obtain ⟨ss,hss⟩ := ha
    obtain ⟨ss',hss'⟩ := ih (s := { s with seeds := ss }) hrest
    exact ⟨ss',by rw [List.foldl_cons,hss,hss']⟩

theorem queue_inv (h : Inv s) (e : TestQueue.Event) (hc : Careful s (.queue e)) :
    Inv (s.step (.queue e)) := by
  have hstep : s.step (.queue e) =
      (s.queue.step e).2.foldl State.act { s with queue := (s.queue.step e).1 } := rfl
  rcases step_leaves (s := s.queue) e with ⟨hno,hsub⟩ | ⟨r,hends | hends,hperm⟩
  · obtain ⟨ss,hss⟩ := act_fold (s := { s with queue := (s.queue.step e).1 }) (s.queue.step e).2
      fun r => (hno r).2
    rw [hstep,hss]
    refine inv_pending h _ s.results ss fun key en he => covered_mono (h.entries key en he).covered ?_
    exact (List.subperm_append_right s.results).mpr hsub
  · have hspare : Spare s r := hc (.drop r) (hends ▸ List.mem_cons_self)
    rw [hstep,hends]
    refine inv_pending h _ s.results s.seeds fun key en he =>
      covered_spare (h.entries key en he).covered he hspare ?_
    exact hperm.append_right s.results
  · have hroom := hc (.result r) (hends ▸ List.mem_cons_self)
    have hpending : s.pending.Perm (r :: ((s.queue.step e).1.live ++ s.results)) :=
      hperm.append_right s.results
    rw [hstep,hends]
    by_cases hlen : s.results.length < resultsSize
    · have hfold : [Action.result r,.release r.slot].foldl State.act
          { s with queue := (s.queue.step e).1 } =
            { s with queue := (s.queue.step e).1, results := s.results ++ [r] } := by
        simp [State.act,hlen]
      rw [hfold]
      refine inv_pending h _ _ s.seeds fun key en he =>
        covered_mono (h.entries key en he).covered (hpending.trans ?_).subperm
      simp only [State.pending,← List.append_assoc]
      exact (List.perm_append_singleton r _).symm
    · have hfold : [Action.result r,.release r.slot].foldl State.act
          { s with queue := (s.queue.step e).1 } = { s with queue := (s.queue.step e).1 } := by
        simp [State.act,hlen]
      rw [hfold]
      exact inv_pending h _ s.results s.seeds fun key en he =>
        covered_spare (h.entries key en he).covered he (hroom.resolve_left hlen) hpending

end Queue

section Steps

variable {s : State}

/-- A fresh number stands for one key. -/
theorem keys_update {progress : ℤ → Option Entry} {key₀ : ℤ} {e₀ : Entry}
    (h : ∀ key key' e e', progress key = some e → progress key' = some e' →
      e.batch = e'.batch → key = key')
    (hfresh : ∀ key e, progress key = some e → e.batch ≠ e₀.batch) :
    ∀ key key' e e', Function.update progress key₀ (some e₀) key = some e →
      Function.update progress key₀ (some e₀) key' = some e' → e.batch = e'.batch → key = key' := by
  intro key key' e e' he he' hb
  rcases eq_or_ne key key₀ with rfl | hk <;> rcases eq_or_ne key' key with rfl | hk'
  · rfl
  · rw [Function.update_self] at he
    rw [Function.update_of_ne hk'] at he'
    exact absurd (hb.symm.trans (congrArg Entry.batch (Option.some.inj he)).symm) (hfresh _ _ he')
  · rfl
  · rw [Function.update_of_ne hk] at he
    rcases eq_or_ne key' key₀ with rfl | hk₀
    · rw [Function.update_self] at he'
      exact absurd (hb.trans (congrArg Entry.batch (Option.some.inj he')).symm) (hfresh _ _ he)
    · rw [Function.update_of_ne hk₀] at he'
      exact h _ _ _ _ he he' hb

/-- A new number is given to a batch. -/
theorem inv_next (h : Inv s) (ss : List (ℕ × ℤ × ℕ)) (as : List Note)
    (ha : ∀ n ∈ as, n ∈ s.announced ∨ (n.tested = 0 ∧ 0 ≤ n.total) ∧ n.batch = s.nextBatch) :
    Inv { s with nextBatch := s.nextBatch+1, seeds := ss, announced := as } := by
  refine ⟨fun n hn => ⟨(h.notes n hn).1,Nat.lt_succ_of_lt (h.notes n hn).2⟩,h.rising,
    fun n hn => ?_,fun c hc => ?_,fun key e he => ?_,h.keys⟩
  · rcases ha n hn with hold | ⟨hz,hb⟩
    · exact ⟨(h.announced n hold).1,Nat.lt_succ_of_lt (h.announced n hold).2⟩
    · exact ⟨hz,hb ▸ Nat.lt_succ_self _⟩
  · obtain ⟨⟨hb,hn⟩,hnotes⟩ := h.counted c hc
    exact ⟨⟨hb,Nat.lt_succ_of_lt hn⟩,hnotes⟩
  · have hok := h.entries key e he
    exact ⟨hok.tested,Nat.lt_succ_of_lt hok.batch,hok.notes,hok.counted,hok.covered⟩

theorem announced_next {gid : ℤ} {total : ℕ} {announce : Bool} (n : Note)
    (hn : n ∈ if announce then ⟨gid,0,total,s.nextBatch⟩ :: s.announced else s.announced) :
    n ∈ s.announced ∨ (n.tested = 0 ∧ 0 ≤ n.total) ∧ n.batch = s.nextBatch := by
  cases announce with
  | false => exact .inl hn
  | true =>
    rcases List.mem_cons.mp hn with rfl | hn
    · exact .inr ⟨⟨rfl,Int.natCast_nonneg total⟩,rfl⟩
    · exact .inl hn

theorem seed_inv (h : Inv s) (n : ℕ) (announce : Bool) (hc : Careful s (.seed n announce)) :
    Inv (s.step (.seed n announce)) := by
  simp only [State.step]
  rcases hseed : s.seeds[n]? with _ | ⟨caller,gid,total⟩
  · exact h
  · have hnext := inv_next h (s.seeds.eraseIdx n)
      (if announce then ⟨gid,0,total,s.nextBatch⟩ :: s.announced else s.announced) announced_next
    rcases hc _ hseed with hz | ⟨hpos,hle⟩
    · simp only [State.seedTestProgress,show gid = 0 from hz,if_true]
      rw [show gid = 0 from hz] at hnext
      exact hnext
    · by_cases hz : gid = 0
      · simp only [State.seedTestProgress,hz,if_true]
        rw [hz] at hnext
        exact hnext
      · simp only [State.seedTestProgress,if_neg hz]
        refine ⟨hnext.notes,hnext.rising,hnext.announced,hnext.counted,fun key e he => ?_,
          keys_update h.keys fun key e he => (h.entries key e he).batch.ne⟩
        dsimp only at he
        by_cases hkey : key = int32 gid
        · rw [hkey,Function.update_self] at he
          subst hkey
          obtain rfl := Option.some.inj he
          refine ⟨le_rfl,Nat.lt_succ_self _,fun m hm hb => ?_,fun c hc hb => ?_,.inr ⟨?_,?_⟩⟩
          · exact absurd hb (h.notes m hm).2.ne
          · exact absurd hb (h.counted c hc).1.2.ne
          · exact Int.natCast_pos.mpr hpos
          · change (total : ℤ)-0 ≤ (s.left (int32 gid) caller : ℤ)
            rw [sub_zero]
            exact_mod_cast hle
        · have he' : s.progress key = some e := by
            rwa [Function.update_of_ne hkey] at he
          have hok := hnext.entries key e he'
          exact ⟨hok.tested,hok.batch,hok.notes,hok.counted,hok.covered⟩

theorem announce_inv (h : Inv s) (n : ℕ) (hc : Careful s (.announce n)) :
    Inv (s.step (.announce n)) := by
  simp only [State.step]
  rcases hnote : s.announced[n]? with _ | note
  · exact h
  · have hmem : note ∈ s.announced := List.mem_of_getElem? hnote
    obtain ⟨⟨hz,htotal⟩,hbatch⟩ := h.announced note hmem
    have hprior := hc note hnote
    refine ⟨fun m hm => ?_,?_,fun m hm => h.announced m (List.mem_of_mem_eraseIdx hm),
      fun c hcounted => ?_,fun key e he => ?_,h.keys⟩
    · rcases List.mem_append.mp hm with hm | hm
      · exact h.notes m hm
      · rw [List.mem_singleton.mp hm]
        exact ⟨⟨hz.ge,hz ▸ htotal⟩,hbatch⟩
    · refine List.pairwise_append.mpr ⟨h.rising,List.pairwise_singleton _ _,fun m hm k hk hb => ?_⟩
      obtain rfl := List.mem_singleton.mp hk
      exact (hprior m hm hb).trans hz.ge
    · obtain ⟨hbound,hnotes⟩ := h.counted c hcounted
      refine ⟨hbound,fun m hm hb => ?_⟩
      rcases List.mem_append.mp hm with hm | hm
      · exact hnotes m hm hb
      · rw [List.mem_singleton.mp hm,hz]
        exact hbound.1.1
    · have hok := h.entries key e he
      refine ⟨hok.tested,hok.batch,fun m hm hb => ?_,hok.counted,hok.covered⟩
      rcases List.mem_append.mp hm with hm | hm
      · exact hok.notes m hm hb
      · rw [List.mem_singleton.mp hm,hz]
        exact hok.tested

theorem report_inv (h : Inv s) : Inv (s.step .report) := by
  simp only [State.step]
  rcases hcounted : s.counted with _ | c
  · exact h
  · obtain ⟨⟨hbound,hbatch⟩,hnotes⟩ := h.counted c hcounted
    have hmem : ∀ m ∈ s.notes ++ [c], m ∈ s.notes ∨ m = c := fun m hm =>
      (List.mem_append.mp hm).imp_right List.mem_singleton.mp
    have hold : ∀ key e, (if c.total ≤ c.tested then
        Function.update s.progress (int32 c.groupId) none else s.progress) key = some e →
        s.progress key = some e ∧ ¬(int32 c.groupId = key ∧ c.total ≤ c.tested) := by
      intro key e he
      by_cases hfull : c.total ≤ c.tested
      · rw [if_pos hfull] at he
        by_cases hkey : key = int32 c.groupId
        · rw [hkey,Function.update_self] at he
          exact nomatch he
        · rw [Function.update_of_ne hkey] at he
          exact ⟨he,fun hk => hkey hk.1.symm⟩
      · rw [if_neg hfull] at he
        exact ⟨he,fun hk => hfull hk.2⟩
    refine ⟨fun m hm => ?_,?_,h.announced,fun c' hc' => (Option.not_mem_none c' hc').elim,
      fun key e he => ?_,fun key key' e e' he he' =>
        h.keys key key' e e' (hold key e he).1 (hold key' e' he').1⟩
    · rcases hmem m hm with hm | rfl
      · exact h.notes m hm
      · exact ⟨hbound,hbatch⟩
    · refine List.pairwise_append.mpr ⟨h.rising,List.pairwise_singleton _ _,fun m hm k hk hb => ?_⟩
      obtain rfl := List.mem_singleton.mp hk
      exact hnotes m hm hb
    · obtain ⟨he,hstays⟩ := hold key e he
      have hok := h.entries key e he
      refine ⟨hok.tested,hok.batch,fun m hm hb => ?_,
        fun c' hc' => (Option.not_mem_none c' hc').elim,?_⟩
      · rcases hmem m hm with hm | rfl
        · exact hok.notes m hm hb
        · exact hok.counted m hcounted hb
      · rcases hok.covered with ⟨c',hc',hclear⟩ | hcov
        · rw [hcounted] at hc'
          exact absurd (Option.some.inj hc' ▸ hclear) hstays
        · exact .inr hcov

/-- The counter of the group counts the result. -/
theorem count_inv (h : Inv s) {r : Enqueued} {rest : List Enqueued} {e : Entry}
    (hcounted : s.counted = none) (hresults : s.results = r::rest) {gid : ℤ}
    (hkey : keyOf r = some (int32 gid)) (he : s.progress (int32 gid) = some e) :
    Inv { s with
      results := rest
      progress := Function.update s.progress (int32 gid) (some { e with tested := e.tested+1 })
      counted := some ⟨gid,e.tested+1,e.total,e.batch⟩ } := by
  have hpending : s.pending.Perm (r :: State.pending { s with results := rest }) := by
    simp only [State.pending,hresults]
    exact List.perm_middle
  have hok := h.entries _ e he
  have hcov : ∀ key e, s.progress key = some e →
      e.tested < e.total ∧ e.total-e.tested ≤ s.left key e.caller := by
    intro key e he
    rcases (h.entries key e he).covered with ⟨c,hc,-⟩ | hcov
    · rw [hcounted] at hc
      exact (Option.not_mem_none c hc).elim
    · exact hcov
  obtain ⟨hlt,hle⟩ := hcov _ e he
  have hold : ∀ key e', Function.update s.progress (int32 gid)
      (some { e with tested := e.tested+1 }) key = some e' →
      (key = int32 gid ∧ e' = { e with tested := e.tested+1 }) ∨
        (key ≠ int32 gid ∧ s.progress key = some e') := by
    intro key e' he'
    rcases eq_or_ne key (int32 gid) with rfl | hne
    · rw [Function.update_self] at he'
      exact .inl ⟨rfl,(Option.some.inj he').symm⟩
    · rw [Function.update_of_ne hne] at he'
      exact .inr ⟨hne,he'⟩
  refine ⟨h.notes,h.rising,h.announced,fun c hc => ?_,fun key e' he' => ?_,
    fun key key' e₁ e₂ h₁ h₂ hb => ?_⟩
  · obtain rfl := Option.some.inj hc
    have htested := hok.tested
    refine ⟨⟨⟨by dsimp only; omega,by dsimp only; omega⟩,hok.batch⟩,fun n hn hb => ?_⟩
    exact (hok.notes n hn hb).trans (by dsimp only; omega)
  · rcases hold key e' he' with ⟨rfl,rfl⟩ | ⟨hne,he'⟩
    · have htested := hok.tested
      refine ⟨by dsimp only; omega,hok.batch,
        fun n hn hb => (hok.notes n hn hb).trans (by dsimp only; omega),fun c hc _ => ?_,?_⟩
      · obtain rfl := Option.some.inj hc
        exact le_rfl
      · by_cases hfull : e.total ≤ e.tested+1
        · exact .inl ⟨_,rfl,rfl,hfull⟩
        · have hleft := left_popped (int32 gid) e.caller hpending
          refine .inr ⟨by dsimp only; omega,?_⟩
          change e.total-(e.tested+1) ≤
            (State.left { s with results := rest } (int32 gid) e.caller : ℤ)
          split at hleft <;> omega
    · have hok' := h.entries key e' he'
      obtain ⟨hlt',hle'⟩ := hcov key e' he'
      refine ⟨hok'.tested,hok'.batch,hok'.notes,fun c hc hb => ?_,.inr ⟨hlt',?_⟩⟩
      · obtain rfl := Option.some.inj hc
        exact absurd (h.keys _ _ _ _ he he' hb) (Ne.symm hne)
      · have hleft := left_popped key e'.caller hpending
        rw [if_neg fun hk => hne (Option.some.inj (hk.1.symm.trans hkey))] at hleft
        change e'.total-e'.tested ≤ (State.left { s with results := rest } key e'.caller : ℤ)
        omega
  · rcases hold key e₁ h₁ with ⟨rfl,rfl⟩ | ⟨-,h₁⟩ <;> rcases hold key' e₂ h₂ with ⟨rfl,rfl⟩ | ⟨-,h₂⟩
    · rfl
    · exact h.keys _ _ e e₂ he h₂ hb
    · exact h.keys _ _ e₁ e h₁ he hb
    · exact h.keys _ _ e₁ e₂ h₁ h₂ hb

theorem handle_inv (h : Inv s) (saved : Bool) (hc : Careful s (.handle saved)) :
    Inv (s.step (.handle saved)) := by
  simp only [State.step]
  split
  · rename_i r rest hcounted hresults
    have hpending : s.pending.Perm (r :: State.pending { s with results := rest }) := by
      simp only [State.pending,hresults]
      exact List.perm_middle
    have huncounted : Spare s r → Inv { s with results := rest } := fun hspare =>
      inv_pending h s.queue rest s.seeds fun key e he =>
        covered_spare (h.entries key e he).covered he hspare hpending
    cases saved with
    | false => exact huncounted (hc hcounted r (by rw [hresults]; rfl))
    | true =>
      simp only [if_true,State.count]
      split
      · rename_i hz
        refine huncounted fun key hkey => ?_
        rw [keyOf,if_pos hz] at hkey
        exact (Option.not_mem_none key hkey).elim
      · rename_i hz
        have hkey : keyOf r = some (int32 r.request.profile.groupId) := if_neg hz
        split
        · rename_i hnone
          refine huncounted fun key hk e he => ?_
          obtain rfl := Option.some.inj (hkey.symm.trans hk)
          exact (Option.not_mem_none e (hnone ▸ he)).elim
        · rename_i e he
          exact count_inv h hcounted hresults hkey he
  · exact h

theorem step_inv (h : Inv s) (e : Event) (hc : Careful s e) : Inv (s.step e) := by
  cases e with
  | queue e => exact queue_inv h e hc
  | seed n announce => exact seed_inv h n announce hc
  | announce n => exact announce_inv h n hc
  | handle saved => exact handle_inv h saved hc
  | report => exact report_inv h

theorem run_inv (h : Inv s) (es : List Event) (hc : CarefulRun s es) : Inv (s.run es) := by
  induction es generalizing s with
  | nil => exact h
  | cons e es ih => exact ih (step_inv h e hc.1) hc.2

/-- Where every request of a batch is counted or made up for, progress stays in
bounds, never falls, and ends with its batch. -/
theorem careful_progress (cfg : TestConfig) (es : List Event) (hc : CarefulRun (start cfg) es) :
    Fair ((start cfg).run es) := inv_fair (run_inv (start_inv cfg) es hc)

/-- `TestGroup` of one profile up to its return. -/
def enqueueGroup : List Event :=
  ([.testGroup 1 [sampleProfile 1] "tcp" 3,.call 0,.call 0,.call 0,.call 0] :
    List TestQueue.Event).map Event.queue

/-- A test by a dial, from the channel to the channel of the results. -/
def toResult : List Event :=
  ([.dispatch,.spawn,.test 0 true,.test 0 true,.test 0 true] : List TestQueue.Event).map Event.queue

def wholeBatch : List Event :=
  enqueueGroup ++ ([.seed 0 true,.announce 0] : List Event) ++ toResult ++
    ([.handle true,.report] : List Event)

theorem wholeBatch_fair : Fair ((start ⟨1,3⟩).run wholeBatch) :=
  careful_progress ⟨1,3⟩ wholeBatch (by decide +kernel)

/-- A batch that is seeded and then cancelled. -/
def cancelledBatch : List Event :=
  .queue .cancelTests :: (enqueueGroup ++ ([.seed 0 true,.announce 0,.queue .cancelTests,
    .queue .dispatch] : List Event))

/-- A batch whose only profile is tested already. -/
def emptyBatch : List Event :=
  ((enqueue "tcp").take 3).map Event.queue ++
    (([.testGroup 1 [sampleProfile 1] "tcp" 3,.call 0,.call 0,.call 0,.call 0] :
      List TestQueue.Event).map Event.queue) ++ ([.seed 0 true,.announce 0] : List Event) ++
    toResult ++ ([.handle true,.report] : List Event)

/-- A cancelled batch keeps its counter, and an empty one counts above its total. -/
theorem progress_stuck :
    ¬Fair ((start ⟨1,3⟩).run cancelledBatch) ∧ ¬Fair ((start ⟨1,3⟩).run emptyBatch) := by
  refine ⟨fun h => ?_,fun h => ?_⟩
  · have hsome : (((start ⟨1,3⟩).run cancelledBatch).progress 1).isSome = true := by
      decide +kernel
    have hpending : ((start ⟨1,3⟩).run cancelledBatch).pending = [] := by decide +kernel
    have hidle : ((start ⟨1,3⟩).run cancelledBatch).counted.isNone = true := by decide +kernel
    obtain ⟨e,he⟩ := Option.isSome_iff_exists.mp hsome
    rcases h.ends 1 e he with ⟨r,hr,-⟩ | ⟨c,hc,-⟩
    · rw [hpending] at hr
      exact List.not_mem_nil hr
    · rw [Option.isNone_iff_eq_none.mp hidle] at hc
      exact Option.not_mem_none c hc
  · have hbad : ¬∀ n ∈ ((start ⟨1,3⟩).run emptyBatch).notes, n.tested ≤ n.total := by
      decide +kernel
    exact hbad fun n hn => (h.bounds n hn).2

end Steps

end Whoisthat.TestProgress
