import Mathlib.Data.List.Basic
import Whoisthat.ProxyRuns

/-!
# What the consumer of the status channel receives

Statuses are sent on a channel of eight places that drops what does not fit. A
command writes a status and sends it under the mutex; a watcher sends after it
has released the mutex. In runs where nothing else changes the status between
these two, the consumer sees the written statuses in order, without the dropped.
-/

set_option autoImplicit false

namespace Whoisthat.StatusChannel
open Whoisthat.ProxyManager

/-- Between its write of the status and its send. -/
def sending : Pc → Bool
  | .written _ => true
  | _ => false

def writesStatus (s : State) : Action → Bool
  | .advance =>
    match s.running with
    | none => false
    | some r =>
      match r.phase with
      | .connectClear => s.status.isConnected
      | .connectReport => true
      | .stopReport => true
      | .reloadStart => r.command.outcome = .startFails
      | _ => false
  | .watch i _ =>
    match (s.watchers i).pc with
    | .fresh _ => s.running.isNone
    | _ => false
  | _ => false

/-- The step changes no status that a watcher is about to send. -/
def Prompt (s : State) (a : Action) : Prop :=
  writesStatus s a = true → ∀ i < s.nextWatcher, sending (s.watchers i).pc = false

def PromptRun : List Action → State → Prop
  | [], _ => True
  | a::as, s => Prompt s a ∧ ∀ t ∈ step a s, PromptRun as t

instance (s : State) (a : Action) : Decidable (Prompt s a) :=
  inferInstanceAs (Decidable (writesStatus s a = true →
    ∀ i < s.nextWatcher, sending (s.watchers i).pc = false))

instance decidablePromptRun : (as : List Action) → (s : State) → Decidable (PromptRun as s)
  | [], _ => isTrue trivial
  | a::as, s =>
    have := decidablePromptRun as
    inferInstanceAs (Decidable (Prompt s a ∧ ∀ t ∈ step a s, PromptRun as t))

def startStatus : Status := .disconnected ""

/-- No command is in progress and no watcher is between its write and its send. -/
def AtRest (s : State) : Prop := s.running = none ∧ ∀ i, sending (s.watchers i).pc = false

structure Delivers (s : State) : Prop where
  inOrder : (s.delivered ++ s.statusChanged).Sublist s.written
  losses : AtRest s → s.written.length = (s.delivered ++ s.statusChanged).length + s.drops
  last : AtRest s → s.statusChanged = [] → s.dropped = false →
    s.delivered.getLastD startStatus = s.status

section Invariant

/-- What was accepted of a log of sent statuses. -/
structure Accepted (s : State) (log : List Status) : Prop where
  inOrder : (s.delivered ++ s.statusChanged).Sublist log
  losses : log.length = (s.delivered ++ s.statusChanged).length + s.drops
  last : s.dropped = false → (s.delivered ++ s.statusChanged).getLast? = log.getLast?

/-- Everything written is sent, or watcher `i` still has to send the last one. -/
def Sent (s : State) : Prop :=
  ((∀ i, sending (s.watchers i).pc = false) ∧ Accepted s s.written) ∨
  ∃ i log, sending (s.watchers i).pc = true ∧ (∀ k, k ≠ i → sending (s.watchers k).pc = false) ∧
    s.written = log ++ [.disconnected exitReason] ∧ Accepted s log

structure Inv (s : State) : Prop where
  status : s.written.getLastD startStatus = s.status
  fresh : ∀ i, s.nextWatcher ≤ i → (s.watchers i).pc = .returned
  sent : Sent s

/-- A step without write, send or delivery. -/
structure Silent (s t : State) : Prop where
  status : t.status = s.status
  written : t.written = s.written
  queue : t.statusChanged = s.statusChanged
  delivered : t.delivered = s.delivered
  drops : t.drops = s.drops
  dropped : t.dropped = s.dropped
  fresh : (∀ i, s.nextWatcher ≤ i → (s.watchers i).pc = .returned) →
    ∀ i, t.nextWatcher ≤ i → (t.watchers i).pc = .returned
  sending : (∀ i, s.nextWatcher ≤ i → (s.watchers i).pc = .returned) →
    ∀ i, sending (t.watchers i).pc = sending (s.watchers i).pc

variable {s t : State}

theorem accepted_congr {log : List Status}
    (hq : t.delivered ++ t.statusChanged = s.delivered ++ s.statusChanged)
    (hn : t.drops = s.drops) (hd : t.dropped = s.dropped) (h : Accepted s log) : Accepted t log :=
  ⟨by rw [hq]; exact h.inOrder,by rw [hq,hn]; exact h.losses,by rw [hq,hd]; exact h.last⟩

theorem sent_congr (hs : ∀ i, sending (t.watchers i).pc = sending (s.watchers i).pc)
    (hw : t.written = s.written) (ha : ∀ log, Accepted s log → Accepted t log) (h : Sent s) :
    Sent t := by
  rcases h with ⟨hn,h⟩ | ⟨i,log,hi,ho,hl,h⟩
  · exact Or.inl ⟨fun i => (hs i).trans (hn i),by rw [hw]; exact ha _ h⟩
  · exact Or.inr ⟨i,log,(hs i).trans hi,fun k hk => (hs k).trans (ho k hk),hw.trans hl,ha log h⟩

theorem inv_silent (hq : Silent s t) (h : Inv s) : Inv t :=
  ⟨by rw [hq.written,hq.status]; exact h.status,hq.fresh h.fresh,
    sent_congr (hq.sending h.fresh) hq.written
      (fun _ => accepted_congr (by rw [hq.delivered,hq.queue]) hq.drops hq.dropped) h.sent⟩

theorem silent_trans {u : State} (h : Silent s t) (h' : Silent t u) : Silent s u :=
  ⟨h'.status.trans h.status,h'.written.trans h.written,h'.queue.trans h.queue,
    h'.delivered.trans h.delivered,h'.drops.trans h.drops,h'.dropped.trans h.dropped,
    fun hf => h'.fresh (h.fresh hf),
    fun hf i => (h'.sending (h.fresh hf) i).trans (h.sending hf i)⟩

/-- Nothing this module is about changes. -/
theorem silent_of_eq (hst : t.status = s.status) (hw : t.written = s.written)
    (hq : t.statusChanged = s.statusChanged) (hd : t.delivered = s.delivered)
    (hn : t.drops = s.drops) (hf : t.dropped = s.dropped) (hnw : t.nextWatcher = s.nextWatcher)
    (hpc : ∀ i, (t.watchers i).pc = (s.watchers i).pc) : Silent s t :=
  ⟨hst,hw,hq,hd,hn,hf,fun h i hi => (hpc i).trans (h i (hnw ▸ hi)),
    fun _ i => congrArg sending (hpc i)⟩

end Invariant

section Send

variable {s : State} {log : List Status}

/-- The non-blocking send, whether or not the channel is full. -/
theorem accepted_send (h : Accepted s log) (status : Status) :
    Accepted (s.send status) (log ++ [status]) := by
  by_cases hfull : statusCapacity ≤ s.statusChanged.length
  · have hq : (s.send status).statusChanged = s.statusChanged := by simp [State.send,hfull]
    have hn : (s.send status).drops = s.drops+1 := by simp [State.send,hfull]
    have hd : (s.send status).dropped = true := by simp [State.send,hfull]
    have hdel : (s.send status).delivered = s.delivered := rfl
    refine ⟨?_,?_,fun hf => ?_⟩
    · rw [hdel,hq]
      exact h.inOrder.trans (List.sublist_append_left log [status])
    · rw [hdel,hq,hn,List.length_append,h.losses]
      simp only [List.length_singleton]
      omega
    · rw [hd] at hf
      cases hf
  · have hq : (s.send status).statusChanged = s.statusChanged ++ [status] := by
      simp [State.send,hfull]
    have hn : (s.send status).drops = s.drops := by simp [State.send,hfull]
    have hall : (s.send status).delivered ++ (s.send status).statusChanged =
        (s.delivered ++ s.statusChanged) ++ [status] := by
      rw [hq,← List.append_assoc]
      rfl
    refine ⟨?_,?_,fun _ => ?_⟩
    · rw [hall]
      exact h.inOrder.append_right [status]
    · rw [hall,hn,List.length_append,List.length_append,h.losses]
      omega
    · rw [hall,List.getLast?_concat,List.getLast?_concat]

/-- A command writes and sends a status while no watcher is about to send. -/
theorem inv_changeStatus (h : Inv s) (hn : ∀ i, sending (s.watchers i).pc = false)
    (status : Status) : Inv (s.changeStatus status) := by
  have ha : Accepted s s.written := by
    rcases h.sent with ⟨_,ha⟩ | ⟨i,_,hi,_⟩
    · exact ha
    · rw [hn i] at hi
      cases hi
  have hw : Accepted (s.write status) s.written := ⟨ha.inOrder,ha.losses,ha.last⟩
  refine ⟨?_,h.fresh,Or.inl ⟨hn,accepted_send hw status⟩⟩
  change (s.written ++ [status]).getLastD startStatus = status
  simp

theorem sending_lt (h : Inv s) (hn : ∀ i < s.nextWatcher, sending (s.watchers i).pc = false) :
    ∀ i, sending (s.watchers i).pc = false := by
  intro i
  by_cases hi : i < s.nextWatcher
  · exact hn i hi
  · rw [h.fresh i (Nat.not_lt.mp hi)]
    rfl

end Send

section Steps

variable {s t : State}

theorem silent_at (command : Command) (phase : Phase) : Silent s (s.at command phase) :=
  silent_of_eq rfl rfl rfl rfl rfl rfl rfl fun _ => rfl

theorem silent_unlock : Silent s s.unlock := silent_of_eq rfl rfl rfl rfl rfl rfl rfl fun _ => rfl

theorem silent_stopRunning : Silent s s.stopRunning := by
  unfold State.stopRunning
  split_ifs
  · exact silent_of_eq rfl rfl rfl rfl rfl rfl rfl fun _ => rfl
  · exact silent_of_eq rfl rfl rfl rfl rfl rfl rfl fun _ => rfl

theorem silent_retire : Silent s s.retireExitWatcher :=
  silent_of_eq rfl rfl rfl rfl rfl rfl rfl fun i => (ProxyInvariant.retire_watcher i).1

theorem silent_start : Silent s s.startExitWatcher := by
  have hold : ∀ i, i ≠ s.nextWatcher → s.startExitWatcher.watchers i = s.watchers i :=
    fun i hi => Function.update_of_ne hi _ _
  refine ⟨rfl,rfl,rfl,rfl,rfl,rfl,fun h i hi => ?_,fun h i => ?_⟩
  · rw [hold i (Nat.ne_of_gt hi)]
    exact h i (Nat.le_of_succ_le hi)
  · by_cases hi : i = s.nextWatcher
    · subst hi
      rw [h s.nextWatcher (Nat.le_refl _)]
      simp [State.startExitWatcher,sending]
    · rw [hold i hi]

theorem silent_setPc {i : ℕ} {pc : Pc} (hi : (s.watchers i).pc ≠ .returned)
    (hp : sending pc = sending (s.watchers i).pc) : Silent s (s.setPc i pc) := by
  refine ⟨rfl,rfl,rfl,rfl,rfl,rfl,fun h k hk => ?_,fun _ k => ?_⟩
  · have hki : k ≠ i := fun hki => hi (hki ▸ h k hk)
    rw [ProxyInvariant.setPc_other hki]
    exact h k hk
  · by_cases hki : k = i
    · subst hki
      rw [ProxyInvariant.setPc_watchers]
      exact hp
    · rw [ProxyInvariant.setPc_other hki]

theorem advance_inv (h : Inv s) (hp : Prompt s .advance) (hs : step .advance s = some t) :
    Inv t := by
  simp only [step,Option.map_eq_some_iff] at hs
  obtain ⟨⟨command,phase⟩,hr,rfl⟩ := hs
  have hwrite : writesStatus s .advance = true → ∀ i, sending (s.watchers i).pc = false :=
    fun hw => sending_lt h (hp hw)
  simp only [writesStatus,hr] at hwrite
  have hfrom : ∀ {u v : State}, Inv u → Silent u v → Inv v := fun hu hq => inv_silent hq hu
  cases phase with
  | connectStop => exact hfrom h (silent_trans silent_stopRunning (silent_at _ _))
  | connectRetire => exact hfrom h (silent_trans silent_retire (silent_at _ _))
  | connectClear =>
    simp only [State.advance]
    split_ifs with hc
    · exact hfrom (inv_changeStatus h (hwrite hc) _) (silent_at _ _)
    · exact hfrom h (silent_at _ _)
  | connectPrepare =>
    simp only [State.advance]
    split_ifs
    · exact hfrom h silent_unlock
    · exact hfrom h (silent_at _ _)
  | connectStart =>
    simp only [State.advance]
    split_ifs
    · exact hfrom h (silent_of_eq rfl rfl rfl rfl rfl rfl rfl fun _ => rfl)
    · exact hfrom h (silent_of_eq rfl rfl rfl rfl rfl rfl rfl fun _ => rfl)
  | connectReport => exact hfrom (inv_changeStatus h (hwrite rfl) _) (silent_at _ _)
  | connectWatch => exact hfrom h (silent_trans silent_start silent_unlock)
  | stopRetire => exact hfrom h (silent_trans silent_retire (silent_at _ _))
  | stopCore => exact hfrom h (silent_of_eq rfl rfl rfl rfl rfl rfl rfl fun _ => rfl)
  | stopReport => exact hfrom (inv_changeStatus h (hwrite rfl) _) silent_unlock
  | reloadCheck =>
    simp only [State.advance]
    split_ifs
    · exact hfrom h (silent_at _ _)
    · exact hfrom h silent_unlock
  | reloadRetire => exact hfrom h (silent_trans silent_retire (silent_at _ _))
  | reloadStop => exact hfrom h (silent_of_eq rfl rfl rfl rfl rfl rfl rfl fun _ => rfl)
  | reloadStart =>
    simp only [State.advance]
    split_ifs with hf
    · have hu : Inv (s.replaceCore s.session false) :=
        hfrom h (silent_of_eq rfl rfl rfl rfl rfl rfl rfl fun _ => rfl)
      exact hfrom (inv_changeStatus hu (hwrite (by simpa using hf)) _) silent_unlock
    · exact hfrom h (silent_of_eq rfl rfl rfl rfl rfl rfl rfl fun _ => rfl)
  | reloadWatch => exact hfrom h (silent_trans silent_start silent_unlock)

/-- A watcher writes the status while no other is about to send. -/
theorem inv_writeExit (h : Inv s) (hn : ∀ i, sending (s.watchers i).pc = false) {i core : ℕ}
    (hi : (s.watchers i).pc ≠ .returned) : Inv (s.writeExit i core) := by
  have hold : ∀ k, k ≠ i → (s.writeExit i core).watchers k = s.watchers k :=
    fun k hk => ProxyInvariant.setPc_other hk (.written core)
  have hnew : ((s.writeExit i core).watchers i).pc = .written core := by
    change ((s.setPc i (.written core)).watchers i).pc = _
    rw [ProxyInvariant.setPc_watchers]
  have ha : Accepted s s.written := by
    rcases h.sent with ⟨_,ha⟩ | ⟨k,_,hk,_⟩
    · exact ha
    · rw [hn k] at hk
      cases hk
  refine ⟨?_,fun k hk => ?_,Or.inr ⟨i,s.written,?_,fun k hk => ?_,rfl,?_⟩⟩
  · change (s.written ++ [Status.disconnected exitReason]).getLastD startStatus =
      .disconnected exitReason
    simp
  · have hki : k ≠ i := fun hki => hi (hki ▸ h.fresh k hk)
    rw [hold k hki]
    exact h.fresh k hk
  · rw [hnew]
    rfl
  · rw [hold k hk]
    exact hn k
  · exact ⟨ha.inOrder,ha.losses,ha.last⟩

/-- The watcher that wrote the last status sends it. -/
theorem inv_sendExit (h : Inv s) {i core : ℕ} (hi : (s.watchers i).pc = .written core) :
    Inv ((s.send (.disconnected exitReason)).setPc i (.notifying core)) := by
  have hsend : sending (s.watchers i).pc = true := by
    rw [hi]
    rfl
  obtain ⟨log,hothers,hw,ha⟩ : ∃ log, (∀ k, k ≠ i → sending (s.watchers k).pc = false) ∧
      s.written = log ++ [.disconnected exitReason] ∧ Accepted s log := by
    rcases h.sent with ⟨hn,_⟩ | ⟨k,log,_,ho,hw,ha⟩
    · rw [hn i] at hsend
      cases hsend
    · have hki : i = k := by
        by_contra hne
        rw [ho i hne] at hsend
        cases hsend
      subst hki
      exact ⟨log,ho,hw,ha⟩
  have hold : ∀ k, k ≠ i →
      (((s.send (.disconnected exitReason)).setPc i (.notifying core)).watchers k) =
        s.watchers k := fun k hk => ProxyInvariant.setPc_other hk (.notifying core)
  refine ⟨h.status,fun k hk => ?_,Or.inl ⟨fun k => ?_,?_⟩⟩
  · have hki : k ≠ i := fun hki => by
      have hf := h.fresh k hk
      rw [hki,hi] at hf
      cases hf
    rw [hold k hki]
    exact h.fresh k hk
  · by_cases hki : k = i
    · subst hki
      rw [ProxyInvariant.setPc_watchers]
      rfl
    · rw [hold k hki]
      exact hothers k hki
  · have hs := accepted_send ha (.disconnected exitReason)
    rw [← hw] at hs
    exact ⟨hs.inOrder,hs.losses,hs.last⟩

theorem watch_inv (h : Inv s) {i : ℕ} {choice : Choice} (hp : Prompt s (.watch i choice))
    (hs : s.watch i choice = some t) : Inv t := by
  unfold State.watch at hs
  cases hpc : (s.watchers i).pc with
  | loop =>
    rw [hpc] at hs
    cases hs
    exact inv_silent (silent_setPc (by simp [hpc]) (by rw [hpc]; rfl)) h
  | selecting c =>
    rw [hpc] at hs
    have hback : Silent s (s.setPc i .returned) :=
      silent_setPc (by simp [hpc]) (by rw [hpc]; rfl)
    cases choice with
    | done =>
      simp only [Option.ite_none_right_eq_some,Option.some.injEq] at hs
      obtain ⟨_,rfl⟩ := hs
      exact inv_silent hback h
    | channel =>
      simp only at hs
      split_ifs at hs
      · cases hs
        have hcore : Silent s (s.setCore c Core.receive) :=
          silent_of_eq rfl rfl rfl rfl rfl rfl rfl fun _ => rfl
        have hset : Silent (s.setCore c Core.receive)
            ((s.setCore c Core.receive).setPc i (.received c)) :=
          silent_setPc (by simp [State.setCore,hpc]) (by simp [State.setCore,hpc,sending])
        exact inv_silent (silent_trans (silent_trans hcore hset)
          (silent_of_eq rfl rfl rfl rfl rfl rfl rfl fun _ => rfl)) h
      · cases hs
        exact inv_silent hback h
  | received c =>
    rw [hpc] at hs
    simp only at hs
    split_ifs at hs
    · cases hs
      exact inv_silent (silent_setPc (by simp [hpc]) (by rw [hpc]; rfl)) h
    · cases hs
      exact inv_silent (silent_setPc (by simp [hpc]) (by rw [hpc]; rfl)) h
  | fresh c =>
    rw [hpc] at hs
    simp only [Option.ite_none_right_eq_some,Option.some.injEq] at hs
    obtain ⟨hr,rfl⟩ := hs
    exact inv_writeExit h (sending_lt h (hp (by simp [writesStatus,hpc,hr]))) (by simp [hpc])
  | written c =>
    rw [hpc] at hs
    cases hs
    exact inv_sendExit h hpc
  | notifying c =>
    rw [hpc] at hs
    cases hs
    have hspawn : ∀ (handlers : ℕ → Handler) (next : ℕ), Silent s
        { s.setCore c Core.report with handlers := handlers, nextHandler := next } :=
      fun _ _ => silent_of_eq rfl rfl rfl rfl rfl rfl rfl fun _ => rfl
    refine inv_silent (silent_trans (hspawn _ _) (silent_setPc ?_ ?_)) h
    · simp [State.setCore,hpc]
    · simp [State.setCore,hpc,sending]
  | returned =>
    rw [hpc] at hs
    cases hs

theorem silent_handle {j : ℕ} (hs : s.handle j = some t) : Silent s t := by
  unfold State.handle at hs
  cases hh : s.handlers j with
  | entered n =>
    rw [hh] at hs
    cases hs
    exact silent_of_eq rfl rfl rfl rfl rfl rfl rfl fun _ => rfl
  | tearing n =>
    rw [hh] at hs
    simp only at hs
    cases ht : s.tun with
    | none =>
      rw [ht] at hs
      cases hs
      exact silent_of_eq rfl rfl rfl rfl rfl rfl rfl fun _ => rfl
    | some m =>
      rw [ht] at hs
      cases hs
      exact silent_of_eq rfl rfl rfl rfl rfl rfl rfl fun _ => rfl
  | finished =>
    rw [hh] at hs
    cases hs

theorem deliver_inv (h : Inv s) (hs : step .deliver s = some t) : Inv t := by
  simp only [step] at hs
  split at hs
  · cases hs
  · rename_i status rest hq
    cases hs
    have hall : (s.delivered ++ [status]) ++ rest = s.delivered ++ s.statusChanged := by
      simp [hq]
    exact ⟨h.status,h.fresh,sent_congr (s := s) (fun _ => rfl) rfl
      (fun _ => accepted_congr hall rfl rfl) h.sent⟩

theorem step_inv (h : Inv s) {a : Action} (hp : Prompt s a) (hs : step a s = some t) : Inv t := by
  cases a with
  | begin command =>
    simp only [step,Option.ite_none_right_eq_some,Option.some.injEq] at hs
    obtain ⟨_,rfl⟩ := hs
    refine inv_silent ?_ h
    cases command <;> exact silent_of_eq rfl rfl rfl rfl rfl rfl rfl fun _ => rfl
  | advance => exact advance_inv h hp hs
  | exit c =>
    simp only [step,Option.ite_none_right_eq_some,Option.some.injEq] at hs
    obtain ⟨_,rfl⟩ := hs
    exact inv_silent (s := s) (silent_of_eq rfl rfl rfl rfl rfl rfl rfl fun _ => rfl) h
  | watch i choice => exact watch_inv h hp hs
  | handle j => exact inv_silent (silent_handle hs) h
  | startTun =>
    cases hs
    exact inv_silent (s := s) (silent_of_eq rfl rfl rfl rfl rfl rfl rfl fun _ => rfl) h
  | stopTun =>
    cases hs
    exact inv_silent (s := s) (silent_of_eq rfl rfl rfl rfl rfl rfl rfl fun _ => rfl) h
  | deliver => exact deliver_inv h hs

theorem initial_inv : Inv initial :=
  ⟨rfl,fun _ _ => rfl,Or.inl ⟨fun _ => rfl,⟨List.Sublist.refl [],rfl,fun _ => rfl⟩⟩⟩

theorem run_inv {as : List Action} (h : Inv s) (hp : PromptRun as s) (hr : run as s = some t) :
    Inv t := by
  induction as generalizing s with
  | nil =>
    cases hr
    exact h
  | cons a as ih =>
    obtain ⟨u,hs,hr⟩ := Option.bind_eq_some_iff.mp hr
    exact ih (step_inv h hp.1 hs) (hp.2 u hs) hr

end Steps

section Delivery

variable {s : State}

theorem delivers_of_inv (h : Inv s) : Delivers s := by
  have hrest : AtRest s → Accepted s s.written := fun hr => by
    rcases h.sent with ⟨_,ha⟩ | ⟨i,_,hi,_⟩
    · exact ha
    · rw [hr.2 i] at hi
      cases hi
  refine ⟨?_,fun hr => (hrest hr).losses,fun hr hq hd => ?_⟩
  · rcases h.sent with ⟨_,ha⟩ | ⟨_,log,_,_,hw,ha⟩
    · exact ha.inOrder
    · rw [hw]
      exact ha.inOrder.trans (List.sublist_append_left log _)
  · have hl := (hrest hr).last hd
    rw [hq,List.append_nil] at hl
    rw [← h.status,List.getLastD_eq_getLast?,List.getLastD_eq_getLast?,hl]

theorem prompt_run_delivers {as : List Action} (hp : PromptRun as initial)
    (hr : run as initial = some s) : Delivers s :=
  delivers_of_inv (run_inv initial_inv hp hr)

def stopping : List Action := .begin .stop :: List.replicate 3 .advance

/-- Nine statuses for eight places, then the consumer catches up and a last one fits. -/
def burstThenConnect : List Action :=
  (List.replicate 9 stopping).flatten ++ List.replicate 8 .deliver ++ ProxyRuns.connecting 1 ++
  [.deliver]

theorem burst_then_connect_delivers : ∃ s, run burstThenConnect initial = some s ∧
    s.drops = 1 ∧ s.status = .connected 1 ∧ Delivers s := by
  have hrun : ((run burstThenConnect initial).map fun s => (s.drops,s.status)) =
      some (1,.connected 1) := by decide +kernel
  obtain ⟨s,hs,hc⟩ := Option.map_eq_some_iff.mp hrun
  exact ⟨s,hs,congrArg Prod.fst hc,congrArg Prod.snd hc,
    prompt_run_delivers (by decide +kernel) hs⟩

/-- Eight statuses wait when the connect sends its own. -/
def fullChannel : List Action :=
  (List.replicate 8 stopping).flatten ++ ProxyRuns.connecting 1 ++ List.replicate 8 .deliver

theorem drained_channel_misses_status : ∃ s, run fullChannel initial = some s ∧
    s.running = none ∧ s.statusChanged = [] ∧ s.status = .connected 1 ∧
    s.delivered.getLast? = some (.disconnected "") := by
  have hrun : ((run fullChannel initial).map fun s =>
      (s.running.isNone,s.statusChanged,s.status,s.delivered.getLast?)) =
      some (true,[],.connected 1,some (.disconnected "")) := by decide +kernel
  obtain ⟨s,hs,hc⟩ := Option.map_eq_some_iff.mp hrun
  simp only [Prod.mk.injEq,Option.isNone_iff_eq_none] at hc
  exact ⟨s,hs,hc⟩

end Delivery

end Whoisthat.StatusChannel
