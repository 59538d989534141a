import Whoisthat.ProxyInvariant

/-!
# Crashes are reported once and hit no newer session

Two things are needed of a run: a command that gets past its checks begins when
no watcher is on its way and, to connect, no crash handler either, and the core
it replaces does not exit by itself in between.
-/

set_option autoImplicit false

namespace Whoisthat.ProxyRuns
open Whoisthat.ProxyManager Whoisthat.ProxyInvariant

/-- No exit waits to be received, and every watcher waits for one or has returned. -/
def Quiet (s : State) : Prop :=
  (∀ c < s.nextCore, (s.cores c).exitSent = false) ∧
  ∀ i < s.nextWatcher, (s.watchers i).pc = .returned ∨
    (s.watchers i).pc = .selecting (s.watchers i).core

def connects : Command → Bool
  | .connect _ _ _ => true
  | _ => false

def reloads : Command → Bool
  | .setTunMode _ _ => true
  | .reloadRouting _ => true
  | _ => false

/-- A reload that returns before it touches the core. -/
def Inert (s : State) (command : Command) : Prop :=
  reloads command = true ∧ (command.outcome = .prepareFails ∨ s.reloads = false)

/-- The command in progress will not stop the core that runs now. -/
def spares (r : Running) : Bool :=
  match r.phase with
  | .connectReport => true
  | .connectWatch => true
  | .reloadWatch => true
  | .reloadCheck => r.command.outcome = .prepareFails
  | _ => false

def Orderly (s : State) : Action → Prop
  | .begin command => Inert s command ∨ (Quiet s ∧ (connects command = true → NoHandlers s))
  | .exit _ => ∀ r ∈ s.running, spares r = true
  | _ => True

def OrderlyRun : List Action → State → Prop
  | [], _ => True
  | a::as, s => Orderly s a ∧ ∀ t ∈ step a s, OrderlyRun as t

instance (s : State) : Decidable (NoHandlers s) :=
  inferInstanceAs (Decidable (∀ j < s.nextHandler, s.handlers j = .finished))

instance (s : State) : Decidable (Quiet s) := inferInstanceAs (Decidable (_ ∧ _))

instance (s : State) (command : Command) : Decidable (Inert s command) :=
  inferInstanceAs (Decidable (_ ∧ _))

instance (s : State) : (a : Action) → Decidable (Orderly s a)
  | .begin _ => inferInstanceAs (Decidable (_ ∨ _))
  | .exit _ => inferInstanceAs (Decidable (∀ r ∈ s.running, spares r = true))
  | .advance => isTrue trivial
  | .watch _ _ => isTrue trivial
  | .handle _ => isTrue trivial
  | .startTun => isTrue trivial
  | .stopTun => isTrue trivial
  | .deliver => isTrue trivial

instance decidableOrderlyRun : (as : List Action) → (s : State) → Decidable (OrderlyRun as s)
  | [], _ => isTrue trivial
  | a::as, s =>
    have := decidableOrderlyRun as
    inferInstanceAs (Decidable (Orderly s a ∧ ∀ t ∈ step a s, OrderlyRun as t))

/-- No command is in progress and no watcher can make a step. -/
def Settled (s : State) : Prop := s.running = none ∧ ∀ i choice, s.watch i choice = none

structure Lawful (s : State) : Prop where
  status : Settled s → (s.status.isConnected = true ↔ (s.cores s.core).running = true)
  stopped : ∀ c, (s.cores c).stopped = true → (s.cores c).reports = 0
  once : ∀ c, (s.cores c).reports ≤ 1
  crashed : Settled s → ∀ c, (s.cores c).crashed = true → (s.cores c).reports = 1
  mishaps : s.mishaps = []

section Quick

variable {s s' : State}

theorem tun_inv (h : Inv s) {tun : Option ℕ} (ht : ∀ n, tun = some n → n ≤ s.session) :
    Inv { s with tun := tun } := by
  have hb := h.base
  have hview : SameView s { s with tun := tun } :=
    ⟨rfl,rfl,rfl,rfl,rfl,rfl,fun _ _ => rfl,fun hn => hn⟩
  exact ⟨⟨hb.coreLt,hb.watchersLt,hb.doneLt,hb.past,hb.retired,hb.handlers,hb.handlersEnd,hb.session,ht,hb.mishaps⟩,
    runningInv_congr hview h.phase⟩

theorem deliver_inv (h : Inv s) (hs : step .deliver s = some s') : Inv s' := by
  have hb := h.base
  simp only [step] at hs
  split at hs
  · cases hs
  · rename_i status rest _
    cases hs
    have hview : SameView s
        { s with statusChanged := rest, delivered := s.delivered ++ [status] } :=
      ⟨rfl,rfl,rfl,rfl,rfl,rfl,fun _ _ => rfl,fun hn => hn⟩
    exact ⟨⟨hb.coreLt,hb.watchersLt,hb.doneLt,hb.past,hb.retired,hb.handlers,hb.handlersEnd,hb.session,hb.tun,hb.mishaps⟩,
      runningInv_congr hview h.phase⟩

/-- A handler that was not finished is set. -/
theorem setHandler_inv (h : Inv s) {j : ℕ} (hj : s.handlers j ≠ .finished) {f : Handler}
    (hf : HandlerOf s.session f) :
    Inv { s with handlers := Function.update s.handlers j f } := by
  have hlt : j < s.nextHandler := Nat.lt_of_not_le fun hle => hj (h.base.handlersEnd j hle)
  have hview : SameView s { s with handlers := Function.update s.handlers j f } :=
    ⟨rfl,rfl,rfl,rfl,rfl,rfl,fun _ _ => rfl,fun hn => absurd (hn j hlt) hj⟩
  exact ⟨base_setHandler h.base hf (Nat.le_refl _) hlt,runningInv_congr hview h.phase⟩

/-- A handler stops TUN of its own session only. -/
theorem handle_inv (h : Inv s) {j : ℕ} (hs : s.handle j = some s') : Inv s' := by
  have hj := h.base.handlers j
  unfold State.handle at hs
  cases hh : s.handlers j with
  | finished => simp [hh] at hs
  | entered n =>
    rw [hh] at hs hj
    cases hs
    refine setHandler_inv h (by simp [hh]) ?_
    split_ifs
    · exact hj
    · trivial
  | tearing n =>
    rw [hh] at hs hj
    have hdone := setHandler_inv h (j := j) (by simp [hh]) (f := .finished) trivial
    simp only at hs
    cases ht : s.tun with
    | none =>
      rw [ht] at hs
      cases hs
      exact @tun_inv _ hdone none fun n hn => by simp at hn
    | some m =>
      rw [ht] at hs
      have hle : ¬ n < m := by
        rw [show n = s.session from hj,Nat.not_lt]
        exact h.base.tun m ht
      simp only [State.note,hle,decide_false,Bool.false_eq_true,if_false,Option.some.injEq] at hs
      subst hs
      exact @tun_inv _ hdone none fun n hn => by simp at hn

end Quick

section Watch

variable {s s' : State} {mid : Prop} {i : ℕ} {choice : Choice}

/-- With no exit to receive, a watcher at its `select` can only return. -/
theorem select_returns {c : ℕ} (hpc : (s.watchers i).pc = .selecting c ∨ (s.watchers i).pc = .returned)
    (he : (s.cores c).exitSent = false) (hs : s.watch i choice = some s') :
    s' = s.setPc i .returned := by
  unfold State.watch at hs
  rcases hpc with hpc | hpc
  · rw [hpc] at hs
    cases choice with
    | done =>
      simp only [Option.ite_none_right_eq_some,Option.some.injEq] at hs
      exact hs.2.symm
    | channel =>
      simp only [he,Bool.false_eq_true,if_false,Option.ite_none_right_eq_some,
        Option.some.injEq] at hs
      exact hs.2.symm
  · rw [hpc] at hs
    cases hs

theorem retired_watch_inv (h : Inv s) (hi : s.watchDone ≠ some i)
    (hs : s.watch i choice = some s') : Inv s' := by
  have hret : s' = s.setPc i .returned := by
    rcases h.base.retired i hi with hpc | ⟨hpc,he,_⟩
    · exact select_returns (c := s.core) (Or.inr hpc) (by
        unfold State.watch at hs
        rw [hpc] at hs
        cases hs) hs
    · exact select_returns (Or.inl hpc) he hs
  subst hret
  have hview : SameView s (s.setPc i .returned) :=
    ⟨rfl,rfl,rfl,rfl,rfl,rfl,
      fun k hk => setPc_other (fun hki => hi (by rw [hk,hki])) .returned,fun hn => hn⟩
  exact ⟨base_setPc h.base (Or.inr rfl),runningInv_congr hview h.phase⟩

theorem current_setPc (h : Current s i) (pc : Pc) : Current (s.setPc i pc) i := by
  refine ⟨h.done,?_,?_,h.stopping,?_⟩ <;> rw [setPc_watchers]
  · exact h.core
  · exact h.gen
  · exact h.doneOpen

theorem tracks_setPc (h : Current s i) (pc : Pc) (hp : PcTracks (s.setPc i pc) pc) :
    Tracks (s.setPc i pc) :=
  Or.inr ⟨i,current_setPc h pc,by rw [setPc_watchers]; exact hp⟩

theorem base_note (h : Base mid s) {bad : Bool} (hb : bad = false) (m : Mishap) :
    Base mid (s.note bad m) := by
  subst hb
  exact ⟨h.coreLt,h.watchersLt,h.doneLt,h.past,h.retired,h.handlers,h.handlersEnd,h.session,h.tun,h.mishaps⟩

theorem sameView_note (bad : Bool) (m : Mishap) : SameView s (s.note bad m) :=
  ⟨rfl,rfl,rfl,rfl,rfl,rfl,fun _ _ => rfl,fun hn => hn⟩

/-- What a step of the current watcher keeps. -/
structure Watched (mid : Prop) (s s' : State) : Prop where
  base : Base mid s'
  tracks : Tracks s'
  running : s'.running = s.running
  reloads : s.running.isSome = true → s'.reloads = s.reloads

/-- Only the watcher's program counter changes. -/
theorem watched_setPc (h : Base mid s) (hc : Current s i) {pc : Pc}
    (hp : PcTracks (s.setPc i pc) pc) : Watched mid s (s.setPc i pc) :=
  ⟨base_setPc h (Or.inl hc.done),tracks_setPc hc pc hp,rfl,fun _ => rfl⟩

theorem watched_receive (h : Base mid s) (hc : Current s i) (hw : Watching s)
    (he : (s.cores s.core).exitSent = true) : Watched mid s (s.receive i s.core) := by
  have hlive : Live (s.cores s.core) ∧ s.status.isConnected = true := by
    rcases hw with hw | ⟨hw,_,_⟩
    · exact hw
    · rw [hw.exitSent] at he
      cases he
  have hnotice : Noticed (s.cores s.core).receive := by
    rcases hlive.1.exit with ⟨_,_,hx,_⟩ | ⟨hr,hcr,_,hcl⟩
    · rw [he] at hx
      cases hx
    · exact ⟨hr,rfl,hcl,hcr,hlive.1.reports,hlive.1.stopped⟩
  have hset : Current (s.setCore s.core Core.receive) i :=
    ⟨hc.done,hc.core,hc.gen,hc.stopping,hc.doneOpen⟩
  refine ⟨?_,?_,rfl,fun _ => ?_⟩
  · refine base_note ?_ (by simp [hc.core]) _
    exact base_setPc (base_setCore h _ rfl fun _ hr => ⟨rfl,hr⟩) (Or.inl hc.done)
  · refine tracks_congr (sameView_note _ _)
      (tracks_setPc hset (.received s.core) ⟨rfl,?_,hlive.2⟩)
    change Noticed ((s.setCore s.core Core.receive).cores s.core)
    rw [setCore_cores]
    exact hnotice
  · change (s.status.isConnected && ((s.setCore s.core Core.receive).cores s.core).running) = _
    rw [setCore_cores]
    rfl

theorem watched_writeExit (h : Base mid s) (hc : Current s i) (hr : s.running = none)
    (hn : Noticed (s.cores s.core)) : Watched mid s (s.writeExit i s.core) := by
  refine ⟨?_,?_,rfl,fun hr' => ?_⟩
  · have hb := @base_setPc _ _ h i (.written s.core) (Or.inl hc.done)
    refine base_note ?_ (by simp [hc.core]) _
    exact ⟨hb.coreLt,hb.watchersLt,hb.doneLt,hb.past,hb.retired,hb.handlers,hb.handlersEnd,hb.session,hb.tun,hb.mishaps⟩
  · have hc' := current_setPc hc (.written s.core)
    refine Or.inr ⟨i,⟨hc'.done,hc'.core,hc'.gen,hc'.stopping,hc'.doneOpen⟩,?_⟩
    change PcTracks _ ((s.setPc i (.written s.core)).watchers i).pc
    rw [setPc_watchers]
    exact ⟨rfl,hn,rfl⟩
  · rw [hr] at hr'
    cases hr'

theorem watched_notify (h : Base mid s) (hc : Current s i) (hn : Noticed (s.cores s.core))
    (hst : s.status.isConnected = false) :
    Watched mid s (s.notifyUnexpectedExit i s.core) := by
  have hclear : Clear (s.cores s.core).report :=
    ⟨hn.running,hn.exitSent,fun _ => by simp [Core.report,hn.reports],
      fun hx => absurd (hn.crashed.symm.trans hx) (by simp),
      fun hx => absurd (hn.stopped.symm.trans hx) (by simp)⟩
  have hb : Base mid (s.setCore s.core Core.report) :=
    base_setCore h _ rfl fun he hr => ⟨he,hr⟩
  refine ⟨?_,?_,rfl,fun _ => ?_⟩
  · refine base_setPc (base_setHandler hb ?_ (Nat.le_succ s.nextHandler)
      (Nat.lt_succ_self s.nextHandler)) (Or.inl hc.done)
    rw [setCore_cores]
    exact h.session
  · change Tracks (State.setPc _ i .loop)
    refine tracks_setPc ?_ .loop (Or.inr ⟨?_,?_,hst⟩)
    · exact ⟨hc.done,hc.core,hc.gen,hc.stopping,hc.doneOpen⟩
    · change Clear ((s.setCore s.core Core.report).cores s.core)
      rw [setCore_cores]
      exact hclear
    · change ((s.setCore s.core Core.report).cores s.core).channelClosed = true
      rw [setCore_cores]
      exact hn.closed
  · change (s.status.isConnected && ((s.setCore s.core Core.report).cores s.core).running) = _
    rw [setCore_cores]
    rfl

/-- Every step of the current watcher, by where it stands. -/
theorem tracks_watch (h : Base mid s) (ht : Tracks s) (hd : s.watchDone = some i)
    (hs : s.watch i choice = some s') : Watched mid s s' := by
  obtain ⟨hc,hp⟩ : Current s i ∧ PcTracks s (s.watchers i).pc := by
    rcases ht with ⟨hn,_,_⟩ | ⟨k,hk,hpk⟩
    · rw [hd] at hn
      cases hn
    · have hki : k = i := Option.some.inj (hk.done.symm.trans hd)
      subst hki
      exact ⟨hk,hpk⟩
  unfold State.watch at hs
  cases hpc : (s.watchers i).pc with
  | loop =>
    rw [hpc] at hs hp
    cases hs
    exact watched_setPc h hc ⟨rfl,hp⟩
  | selecting c =>
    rw [hpc] at hs hp
    obtain ⟨rfl,hw⟩ := hp
    cases choice with
    | done => simp [hc.doneOpen] at hs
    | channel =>
      simp only at hs
      split_ifs at hs with he hcl
      · cases hs
        exact watched_receive h hc hw he
      · cases hs
        refine watched_setPc h hc ?_
        rcases hw with ⟨hl,_⟩ | ⟨hcl',_,hst⟩
        · rcases hl.exit with ⟨_,_,_,ho⟩ | ⟨_,_,hx,_⟩
          · rw [ho] at hcl
            cases hcl
          · exact absurd hx he
        · exact ⟨hcl',hst⟩
  | received c =>
    rw [hpc] at hs hp
    have hfresh : s.watcherIsStale (s.watchers i).gen = false := by
      simp [State.watcherIsStale,hc.gen,hc.stopping]
    simp only [hfresh,Bool.false_eq_true,if_false,Option.some.injEq] at hs
    subst hs
    exact watched_setPc h hc hp
  | fresh c =>
    rw [hpc] at hs hp
    obtain ⟨rfl,hn,_⟩ := hp
    simp only [Option.ite_none_right_eq_some,Option.some.injEq,Option.isNone_iff_eq_none] at hs
    obtain ⟨hr,rfl⟩ := hs
    exact watched_writeExit h hc hr hn
  | written c =>
    rw [hpc] at hs hp
    cases hs
    have hb : Base mid (s.send (.disconnected exitReason)) :=
      ⟨h.coreLt,h.watchersLt,h.doneLt,h.past,h.retired,h.handlers,h.handlersEnd,h.session,h.tun,h.mishaps⟩
    have hc' : Current (s.send (.disconnected exitReason)) i :=
      ⟨hc.done,hc.core,hc.gen,hc.stopping,hc.doneOpen⟩
    exact ⟨base_setPc hb (Or.inl hc.done),tracks_setPc hc' (.notifying c) hp,rfl,fun _ => rfl⟩
  | notifying c =>
    rw [hpc] at hs hp
    obtain ⟨rfl,hn,hst⟩ := hp
    cases hs
    exact watched_notify h hc hn hst
  | returned =>
    rw [hpc] at hs
    cases hs

theorem waiting_returned (hw : Waiting s) (hd : s.watchDone = some i) :
    Waiting (s.setPc i .returned) := by
  intro k hk
  have hki : k = i := Option.some.inj (hk.symm.trans hd)
  subst hki
  rw [setPc_watchers]
  exact ⟨(hw k hd).1,Or.inr rfl⟩

theorem idle_watch (h : Base mid s) (hi : Idle s) (hd : s.watchDone = some i)
    (hs : s.watch i choice = some s') : Idle s' := by
  have ht := (tracks_watch h hi.tracks hd hs).tracks
  obtain rfl := select_returns (hi.waiting i hd).2 hi.exitSent hs
  exact ⟨ht,hi.exitSent,waiting_returned hi.waiting hd⟩

theorem halted_watch (hi : Halted s) (hd : s.watchDone = some i)
    (hs : s.watch i choice = some s') : s' = s.setPc i .returned ∧ Halted s' := by
  have hr := select_returns (hi.waiting i hd).2 hi.core.exitSent hs
  subst hr
  exact ⟨rfl,waiting_returned hi.waiting hd,hi.core⟩

theorem idle_watch_eq (hi : Idle s) (hd : s.watchDone = some i)
    (hs : s.watch i choice = some s') : s' = s.setPc i .returned :=
  select_returns (hi.waiting i hd).2 hi.exitSent hs

theorem watch_inv (h : Inv s) (hs : s.watch i choice = some s') : Inv s' := by
  by_cases hd : s.watchDone = some i
  · have hb := h.base
    have hp := h.phase
    cases hr : s.running with
    | none =>
      rw [hr] at hb hp
      have hw := tracks_watch hb hp hd hs
      exact ⟨by rw [hw.running,hr]; exact hw.base,by rw [hw.running,hr]; exact hw.tracks⟩
    | some r =>
      rw [hr] at hb hp
      have hoff : ∀ {P : Prop}, s.watchDone = none → P := fun hn => by rw [hn] at hd; cases hd
      have hret : ∀ {t : State}, t = s.setPc i .returned → PhaseInv t r → Inv t := by
        rintro t rfl ht
        exact ⟨base_setPc h.base (Or.inr rfl),by
          change RunningInv _ s.running
          rw [hr]
          exact ht⟩
      simp only [RunningInv,PhaseInv] at hp
      cases hph : r.phase <;> rw [hph] at hp <;> simp only at hp
      · exact hret (idle_watch_eq hp.1 hd hs) (by
          have ht := idle_watch hb hp.1 hd hs
          obtain rfl := idle_watch_eq hp.1 hd hs
          simp only [PhaseInv,hph]
          exact ⟨ht,hp.2⟩)
      · obtain ⟨rfl,ht⟩ := halted_watch hp.1 hd hs
        exact hret rfl (by simp only [PhaseInv,hph]; exact ⟨ht,hp.2⟩)
      · exact hoff hp.1.done
      · exact hoff hp.1.done
      · exact hoff hp.1.done
      · exact hoff hp.done
      · exact hoff hp.1.done
      · exact hret (idle_watch_eq hp hd hs) (by
          simp only [PhaseInv,hph]
          exact idle_watch hb hp hd hs)
      · exact hoff hp.done
      · exact hoff hp.done
      · have hw := tracks_watch hb hp.1 hd hs
        refine ⟨by rw [hw.running,hr]; exact hw.base,?_⟩
        rw [hw.running,hr]
        simp only [RunningInv,PhaseInv,hph]
        rw [hw.reloads (by rw [hr]; rfl)]
        exact ⟨hw.tracks,hp.2.imp_right fun h' => h'.imp_right fun hi => idle_watch hb hi hd hs⟩
      · have ht := idle_watch hb hp.1 hd hs
        obtain rfl := idle_watch_eq hp.1 hd hs
        exact hret rfl (by simp only [PhaseInv,hph]; exact ⟨ht,hp.2⟩)
      · exact hoff hp.1.done
      · exact hoff hp.1.done
      · exact hoff hp.1.done
  · exact retired_watch_inv h hd hs

end Watch

section Exit

variable {s s' : State} {c : ℕ}

/-- Only the current core can exit. -/
theorem running_current (h : Inv s) (hr : (s.cores c).running = true) : c = s.core := by
  by_contra hc
  rw [(h.base.past c hc).running] at hr
  cases hr

theorem base_exit (h : Base False s) (hr : (s.cores s.core).running = true) :
    Base False (s.setCore s.core Core.exit) :=
  base_setCore h Core.exit rfl fun _ hf => (hf hr).elim

theorem tracks_exit (ht : Tracks s) (hr : (s.cores s.core).running = true) :
    Tracks (s.setCore s.core Core.exit) := by
  have hw : ∀ {P : Prop}, Clear (s.cores s.core) → P := fun hc => by
    rw [hc.running] at hr
    cases hr
  have hn : ∀ {P : Prop}, Noticed (s.cores s.core) → P := fun hc => by
    rw [hc.running] at hr
    cases hr
  have hwatch : Watching s → Watching (s.setCore s.core Core.exit) := by
    rintro (⟨hl,hst⟩ | ⟨hc,_⟩)
    · refine Or.inl ⟨?_,hst⟩
      change Live ((s.setCore s.core Core.exit).cores s.core)
      rw [setCore_cores]
      exact live_exit hl hr
    · exact hw hc
  rcases ht with ⟨_,hc,_⟩ | ⟨i,hi,hp⟩
  · exact hw hc
  · refine Or.inr ⟨i,⟨hi.done,hi.core,hi.gen,hi.stopping,hi.doneOpen⟩,?_⟩
    change PcTracks _ (s.watchers i).pc
    cases hpc : (s.watchers i).pc <;> rw [hpc] at hp
    · exact hwatch hp
    · exact ⟨hp.1,hwatch hp.2⟩
    · exact hn hp.2.1
    · exact hn hp.2.1
    · exact hn hp.2.1
    · exact hn hp.2.1
    · exact hw hp.1

theorem on_exit (ho : On s) (hr : (s.cores s.core).running = true) :
    On (s.setCore s.core Core.exit) := by
  refine ⟨ho.done,?_⟩
  change Live ((s.setCore s.core Core.exit).cores s.core)
  rw [setCore_cores]
  exact live_exit ho.core hr

theorem exit_inv (h : Inv s) (ho : Orderly s (.exit c)) (hs : step (.exit c) s = some s') :
    Inv s' := by
  simp only [step,Option.ite_none_right_eq_some,Option.some.injEq] at hs
  obtain ⟨hr,rfl⟩ := hs
  obtain rfl := running_current h hr
  have hb := h.base
  have hp := h.phase
  refine ⟨?_,?_⟩
  · change Base (MidStop s.running) _
    cases hrun : s.running with
    | none =>
      rw [hrun] at hb
      exact base_exit hb hr
    | some r =>
      rw [hrun] at hb
      have hsp := ho r hrun
      have hmid : ¬ MidStop (some r) := by
        rintro (hm | hm) <;> simp [spares,hm] at hsp
      exact base_mono False.elim (base_exit (base_mono hmid hb) hr)
  · change RunningInv _ s.running
    cases hrun : s.running with
    | none =>
      rw [hrun] at hp
      exact tracks_exit hp hr
    | some r =>
      rw [hrun] at hp
      have hsp := ho r hrun
      simp only [RunningInv,PhaseInv] at hp ⊢
      cases hph : r.phase <;> rw [hph] at hp <;> simp only [spares,hph] at hp hsp ⊢ <;>
        try cases hsp
      · exact on_exit hp hr
      · exact ⟨on_exit hp.1 hr,hp.2⟩
      · exact ⟨tracks_exit hp.1 hr,Or.inl (of_decide_eq_true hsp)⟩
      · exact ⟨on_exit hp.1 hr,hp.2⟩

end Exit

section Begin

variable {s s' : State} {mid : Prop} {command : Command}

theorem idle_of_quiet (hb : Base mid s) (ht : Tracks s) (hq : Quiet s) : Idle s := by
  refine ⟨ht,hq.1 s.core hb.coreLt,fun i hi => ?_⟩
  rcases ht with ⟨hn,_,_⟩ | ⟨k,hk,_⟩
  · rw [hi] at hn
    cases hn
  · have hki : k = i := Option.some.inj (hk.done.symm.trans hi)
    subst hki
    refine ⟨hk.core,?_⟩
    rw [← hk.core]
    exact (hq.2 k (hb.doneLt k hi)).symm

theorem begin_inv (h : Inv s) (ho : Orderly s (.begin command))
    (hs : step (.begin command) s = some s') : Inv s' := by
  simp only [step,Option.ite_none_right_eq_some,Option.some.injEq,Option.isNone_iff_eq_none] at hs
  obtain ⟨hr,rfl⟩ := hs
  have ht : Tracks s := by
    have hp := h.phase
    rw [hr] at hp
    exact hp
  have hb : Base False s := by
    have hb := h.base
    rw [hr] at hb
    exact hb
  have hview : SameView s (s.begin command) := by
    cases command <;> exact ⟨rfl,rfl,rfl,rfl,rfl,rfl,fun _ _ => rfl,fun hn => hn⟩
  have hquiet : reloads command = false → Idle (s.begin command) ∧
      (connects command = true → NoHandlers (s.begin command)) := fun hn => by
    rcases ho with ⟨hrl,_⟩ | ⟨hq,hh⟩
    · rw [hn] at hrl
      cases hrl
    · exact ⟨idle_congr hview (idle_of_quiet hb ht hq),fun hc => hview.handlers (hh hc)⟩
  have hreload : reloads command = true → Tracks (s.begin command) ∧
      (command.outcome = .prepareFails ∨ (s.begin command).reloads = false ∨
        Idle (s.begin command)) := fun _ => by
    refine ⟨tracks_congr hview ht,?_⟩
    rcases ho with ⟨_,hf | hf⟩ | ⟨hq,_⟩
    · exact Or.inl hf
    · exact Or.inr (Or.inl ((reloads_congr hview).trans hf))
    · exact Or.inr (Or.inr (idle_congr hview (idle_of_quiet hb ht hq)))
  refine ⟨base_mono False.elim ?_,?_⟩
  · cases command <;>
      exact ⟨hb.coreLt,hb.watchersLt,hb.doneLt,hb.past,hb.retired,hb.handlers,hb.handlersEnd,hb.session,hb.tun,hb.mishaps⟩
  · cases command with
    | connect profile tunEnabled outcome => exact ⟨(hquiet rfl).1,(hquiet rfl).2 rfl⟩
    | stop => exact (hquiet rfl).1
    | setTunMode enabled outcome => exact hreload rfl
    | reloadRouting outcome => exact hreload rfl

end Begin

section Advance

variable {s s' : State} {mid : Prop} {command : Command}

theorem sameView_at (phase : Phase) : SameView s (s.at command phase) :=
  ⟨rfl,rfl,rfl,rfl,rfl,rfl,fun _ _ => rfl,fun hn => hn⟩

theorem sameView_unlock : SameView s s.unlock :=
  ⟨rfl,rfl,rfl,rfl,rfl,rfl,fun _ _ => rfl,fun hn => hn⟩

/-- The command goes on to a phase. -/
theorem inv_at {phase : Phase} (hb : Base mid s)
    (hm : mid → phase = .stopCore ∨ phase = .reloadStop)
    (hp : PhaseInv s { command := command, phase := phase }) : Inv (s.at command phase) :=
  ⟨base_at (base_mono hm hb) command phase,phase_congr (sameView_at phase) hp⟩

/-- The command returns. -/
theorem inv_unlock (hb : Base False s) (ht : Tracks s) : Inv s.unlock :=
  ⟨base_unlock hb,tracks_congr sameView_unlock ht⟩

theorem tracks_off (ho : Off s) (hst : s.status.isConnected = false) : Tracks s :=
  Or.inl ⟨ho.done,ho.core,hst⟩

/-- Between its start and its stop the core of a quiet manager runs or is accounted for. -/
theorem idle_core (hi : Idle s) : Clear (s.cores s.core) ∨ Live (s.cores s.core) := by
  rcases hi.tracks with ⟨_,hc,_⟩ | ⟨i,hc,hp⟩
  · exact Or.inl hc
  · rcases (hi.waiting i hc.done).2 with hpc | hpc <;> rw [hpc] at hp
    · rcases hp.2 with ⟨hl,_⟩ | ⟨hcl,_⟩
      · exact Or.inr hl
      · exact Or.inl hcl
    · exact Or.inl hp.1

theorem stop_core (hb : Base mid s) (he : (s.cores s.core).exitSent = false)
    (hc : Clear (s.cores s.core) ∨ Live (s.cores s.core)) :
    Base False (s.setCore s.core Core.stop) ∧
    Clear ((s.setCore s.core Core.stop).cores s.core) := by
  refine ⟨base_setCore hb Core.stop rfl fun he' _ => ⟨he',fun hr => by simp [Core.stop] at hr⟩,?_⟩
  rw [setCore_cores]
  exact clear_stop he hc

theorem stopRunning_halted (hb : Base False s) (hi : Idle s) :
    Base False s.stopRunning ∧ Halted s.stopRunning := by
  unfold State.stopRunning
  split_ifs with hr
  · have hst := stop_core hb hi.exitSent (idle_core hi)
    exact ⟨hst.1,hi.waiting,hst.2⟩
  · refine ⟨hb,hi.waiting,(idle_core hi).resolve_right fun hl => ?_⟩
    rcases hl.exit with ⟨hr',_⟩ | ⟨_,_,hx,_⟩
    · exact hr hr'
    · rw [hi.exitSent] at hx
      cases hx

theorem waiting_retired (hw : Waiting s) (he : (s.cores s.core).exitSent = false)
    (hr : (s.cores s.core).running = true → mid) {i : ℕ} (hi : s.watchDone = some i) :
    Retired mid s (s.watchers i) := by
  obtain ⟨hc,hpc | hpc⟩ := hw i hi
  · refine Or.inr ?_
    rw [hc]
    exact ⟨hpc,he,hr⟩
  · exact Or.inl hpc

theorem retire_off (hb : Base False s) (hh : Halted s) :
    Base False s.retireExitWatcher ∧ Off s.retireExitWatcher :=
  ⟨base_retire hb id fun _ hi => waiting_retired hh.waiting hh.core.exitSent
    (fun hr => by rw [hh.core.running] at hr; cases hr) hi,rfl,hh.core⟩

theorem retire_stopping (hb : Base False s) (hi : Idle s) :
    Base True s.retireExitWatcher ∧ Stopping s.retireExitWatcher :=
  have hc : Clear (s.cores s.core) ∨ Live (s.cores s.core) := idle_core hi
  ⟨base_retire hb False.elim fun _ hd => waiting_retired hi.waiting hi.exitSent
    (fun _ => trivial) hd,rfl,hi.exitSent,hc⟩

theorem stop_off (hb : Base mid s) (hs : Stopping s) :
    Base False (s.setCore s.core Core.stop) ∧ Off (s.setCore s.core Core.stop) :=
  have h := stop_core hb hs.exitSent hs.core
  ⟨h.1,hs.done,h.2⟩

theorem replace_off (hb : Base mid s) (ho : Off s) {n : ℕ} (hn : s.session ≤ n)
    (hh : n = s.session ∨ NoHandlers s) :
    Base False (s.replaceCore n false) ∧ Off (s.replaceCore n false) := by
  refine ⟨base_replaceCore hb ho.core hn hh false,ho.done,?_⟩
  simpa [State.replaceCore] using clear_new n

theorem replace_on (hb : Base mid s) (ho : Off s) {n : ℕ} (hn : s.session ≤ n)
    (hh : n = s.session ∨ NoHandlers s) :
    Base False (s.replaceCore n true) ∧ On (s.replaceCore n true) := by
  refine ⟨base_replaceCore hb ho.core hn hh true,ho.done,?_⟩
  simpa [State.replaceCore] using live_new n

/-- The new watcher starts on a core that runs or waits to be noticed. -/
theorem start_tracks (ho : On s) (hst : s.status.isConnected = true) :
    Tracks s.startExitWatcher := by
  refine Or.inr ⟨s.nextWatcher,?_,?_⟩
  · refine ⟨rfl,?_,?_,rfl,?_⟩ <;> simp [State.startExitWatcher]
  · have hpc : (s.startExitWatcher.watchers s.nextWatcher).pc = .loop := by
      simp [State.startExitWatcher]
    rw [hpc]
    exact Or.inl ⟨ho.core,hst⟩

theorem start_inv (hb : Base False s) (ho : On s) (hst : s.status.isConnected = true) :
    Inv s.startExitWatcher.unlock :=
  inv_unlock (base_start hb ho.done) (start_tracks ho hst)

theorem advance_inv (h : Inv s) (hs : step .advance s = some s') : Inv s' := by
  have hb := h.base
  have hp := h.phase
  simp only [step,Option.map_eq_some_iff] at hs
  obtain ⟨⟨command,phase⟩,hr,rfl⟩ := hs
  rw [hr] at hb hp
  have hmid : phase ≠ .stopCore → phase ≠ .reloadStop → Base False s := fun h1 h2 =>
    base_mono (fun hm => hm.elim h1 h2) hb
  cases phase with
  | connectStop =>
    have hst := stopRunning_halted (hmid (by simp) (by simp)) hp.1
    refine inv_at hst.1 False.elim ⟨hst.2,?_⟩
    unfold State.stopRunning
    split_ifs
    · exact hp.2
    · exact hp.2
  | connectRetire =>
    have hst := retire_off (hmid (by simp) (by simp)) hp.1
    exact inv_at hst.1 False.elim ⟨hst.2,hp.2⟩
  | connectClear =>
    have hb' := hmid (by simp) (by simp)
    simp only [State.advance]
    split_ifs with hc
    · exact inv_at (base_changeStatus hb' (.disconnected "")) False.elim
        ⟨⟨hp.1.done,hp.1.core⟩,hp.2,rfl⟩
    · exact inv_at hb' False.elim ⟨hp.1,hp.2,by simpa using hc⟩
  | connectPrepare =>
    have hb' := hmid (by simp) (by simp)
    simp only [State.advance]
    split_ifs
    · exact inv_unlock hb' (tracks_off hp.1 hp.2.2)
    · exact inv_at hb' False.elim hp
  | connectStart =>
    simp only [State.advance]
    split_ifs
    · have hst := replace_off hb hp.1 (Nat.le_succ s.session) (Or.inr hp.2.1)
      exact inv_unlock hst.1 (tracks_off hst.2 hp.2.2)
    · have hst := replace_on hb hp.1 (Nat.le_succ s.session) (Or.inr hp.2.1)
      exact inv_at hst.1 False.elim hst.2
  | connectReport =>
    exact inv_at (base_changeStatus (hmid (by simp) (by simp)) (.connected command.profile))
      False.elim ⟨⟨hp.done,hp.core⟩,rfl⟩
  | connectWatch => exact start_inv (hmid (by simp) (by simp)) hp.1 hp.2
  | stopRetire =>
    have hst := retire_stopping (hmid (by simp) (by simp)) hp
    exact inv_at hst.1 (fun _ => Or.inl rfl) hst.2
  | stopCore =>
    have hst := stop_off hb hp
    exact inv_at hst.1 False.elim hst.2
  | stopReport =>
    exact inv_unlock (base_changeStatus (hmid (by simp) (by simp)) (.disconnected ""))
      (tracks_off ⟨hp.done,hp.core⟩ rfl)
  | reloadCheck =>
    have hb' := hmid (by simp) (by simp)
    simp only [State.advance]
    split_ifs with hc
    · simp only [Bool.and_eq_true,decide_eq_true_eq] at hc
      have hi : Idle s := (hp.2.resolve_left hc.2).resolve_left (by rw [hc.1]; simp)
      refine inv_at hb' False.elim ⟨hi,?_⟩
      have hrel := hc.1
      simp only [State.reloads,Bool.and_eq_true] at hrel
      exact hrel.1
    · exact inv_unlock hb' hp.1
  | reloadRetire =>
    have hst := retire_stopping (hmid (by simp) (by simp)) hp.1
    exact inv_at hst.1 (fun _ => Or.inr rfl) ⟨hst.2,hp.2⟩
  | reloadStop =>
    have hst := stop_off hb hp.1
    exact inv_at hst.1 False.elim ⟨hst.2,hp.2⟩
  | reloadStart =>
    simp only [State.advance]
    split_ifs
    · have hst := replace_off hb hp.1 (Nat.le_refl s.session) (Or.inl rfl)
      exact inv_unlock (base_changeStatus hst.1 (.disconnected ""))
        (tracks_off ⟨hst.2.done,hst.2.core⟩ rfl)
    · have hst := replace_on hb hp.1 (Nat.le_refl s.session) (Or.inl rfl)
      exact inv_at hst.1 False.elim ⟨hst.2,hp.2⟩
  | reloadWatch => exact start_inv (hmid (by simp) (by simp)) hp.1 hp.2

end Advance

section Run

variable {s s' : State}

theorem initial_inv : Inv initial := by
  have hclear := clear_new 0
  refine ⟨⟨Nat.zero_lt_one,fun _ => Nat.zero_lt_one,fun _ hn => (nomatch hn),
    fun _ _ => hclear,fun _ _ => Or.inl rfl,fun _ => trivial,fun _ _ => rfl,rfl,fun n hn => by simp [initial] at hn,rfl⟩,Or.inl ⟨rfl,hclear,rfl⟩⟩

theorem step_inv (h : Inv s) {a : Action} (ho : Orderly s a) (hs : step a s = some s') :
    Inv s' := by
  cases a with
  | begin command => exact begin_inv h ho hs
  | advance => exact advance_inv h hs
  | exit c => exact exit_inv h ho hs
  | watch i choice => exact watch_inv h hs
  | handle j => exact handle_inv h hs
  | startTun =>
    cases hs
    exact tun_inv h fun n hn => Nat.le_of_eq (Option.some.inj hn).symm
  | stopTun =>
    cases hs
    exact tun_inv h fun n hn => by simp at hn
  | deliver => exact deliver_inv h hs

theorem run_inv {as : List Action} (h : Inv s) (ho : OrderlyRun as s) (hr : run as s = some s') :
    Inv s' := by
  induction as generalizing s with
  | nil =>
    cases hr
    exact h
  | cons a as ih =>
    obtain ⟨t,hs,hr⟩ := Option.bind_eq_some_iff.mp hr
    exact ih (step_inv h ho.1 hs) (ho.2 t hs) hr

/-- The current core in any phase. -/
theorem core_cases (h : Inv s) :
    Clear (s.cores s.core) ∨ Live (s.cores s.core) ∨ Noticed (s.cores s.core) := by
  have htracks : Tracks s →
      Clear (s.cores s.core) ∨ Live (s.cores s.core) ∨ Noticed (s.cores s.core) := by
    have hw : Watching s →
        Clear (s.cores s.core) ∨ Live (s.cores s.core) ∨ Noticed (s.cores s.core) := fun hw =>
      hw.elim (fun hl => Or.inr (Or.inl hl.1)) fun hc => Or.inl hc.1
    rintro (⟨_,hc,_⟩ | ⟨i,_,hp⟩)
    · exact Or.inl hc
    · cases hpc : (s.watchers i).pc <;> rw [hpc] at hp
      · exact hw hp
      · exact hw hp.2
      · exact Or.inr (Or.inr hp.2.1)
      · exact Or.inr (Or.inr hp.2.1)
      · exact Or.inr (Or.inr hp.2.1)
      · exact Or.inr (Or.inr hp.2.1)
      · exact Or.inl hp.1
  have hstopping : Stopping s →
      Clear (s.cores s.core) ∨ Live (s.cores s.core) ∨ Noticed (s.cores s.core) := fun hs =>
    hs.core.imp_right Or.inl
  have hp := h.phase
  cases hr : s.running with
  | none =>
    rw [hr] at hp
    exact htracks hp
  | some r =>
    rw [hr] at hp
    simp only [RunningInv,PhaseInv] at hp
    cases hph : r.phase <;> rw [hph] at hp <;> simp only at hp
    · exact htracks hp.1.tracks
    · exact Or.inl hp.1.core
    · exact Or.inl hp.1.core
    · exact Or.inl hp.1.core
    · exact Or.inl hp.1.core
    · exact Or.inr (Or.inl hp.core)
    · exact Or.inr (Or.inl hp.1.core)
    · exact htracks hp.tracks
    · exact hstopping hp
    · exact Or.inl hp.core
    · exact htracks hp.1
    · exact htracks hp.1.tracks
    · exact hstopping hp.1
    · exact Or.inl hp.1.core
    · exact Or.inr (Or.inl hp.1.core)

/-- When nothing is pending the core is accounted for or runs under its watcher. -/
theorem settled_core (h : Inv s) (hs : Settled s) :
    (Clear (s.cores s.core) ∧ s.status.isConnected = false) ∨
    ((s.cores s.core).running = true ∧ (s.cores s.core).crashed = false ∧
      s.status.isConnected = true) := by
  have hp := h.phase
  rw [hs.1] at hp
  rcases hp with ⟨_,hc,hst⟩ | ⟨i,hi,hp⟩
  · exact Or.inl ⟨hc,hst⟩
  · have hno := hs.2 i .channel
    unfold State.watch at hno
    cases hpc : (s.watchers i).pc <;> rw [hpc] at hp hno
    case selecting c =>
      obtain ⟨rfl,hw⟩ := hp
      rcases hw with ⟨hl,hst⟩ | ⟨_,hcl,_⟩
      · rcases hl.exit with ⟨hr,hcr,_,_⟩ | ⟨_,_,hx,_⟩
        · exact Or.inr ⟨hr,hcr,hst⟩
        · simp [hx] at hno
      · simp only [hcl,if_true] at hno
        split_ifs at hno
    case received c =>
      simp only at hno
      split_ifs at hno
    case fresh c => simp [hs.1] at hno
    case returned => exact Or.inl hp
    all_goals cases hno

theorem lawful_of_inv (h : Inv s) : Lawful s := by
  have hpast : ∀ c, Clear (s.cores c) ∨ Live (s.cores c) ∨ Noticed (s.cores c) := fun c => by
    by_cases hc : c = s.core
    · rw [hc]
      exact core_cases h
    · exact Or.inl (h.base.past c hc)
  refine ⟨fun hs => ?_,fun c hc => ?_,fun c => ?_,fun hs c hc => ?_,h.base.mishaps⟩
  · rcases settled_core h hs with ⟨hcl,hst⟩ | ⟨hr,_,hst⟩
    · rw [hcl.running,hst]
    · rw [hr,hst]
  · rcases hpast c with hcl | hl | hn
    · exact hcl.calm (hcl.stopped hc)
    · exact hl.reports
    · exact hn.reports
  · rcases hpast c with hcl | hl | hn
    · cases hcr : (s.cores c).crashed with
      | false => rw [hcl.calm hcr]; exact Nat.zero_le 1
      | true => exact Nat.le_of_eq (hcl.crashed hcr)
    · rw [hl.reports]; exact Nat.zero_le 1
    · rw [hn.reports]; exact Nat.zero_le 1
  · by_cases hcc : c = s.core
    · subst hcc
      rcases settled_core h hs with ⟨hcl,_⟩ | ⟨_,hcr,_⟩
      · exact hcl.crashed hc
      · rw [hcr] at hc
        cases hc
    · exact (h.base.past c hcc).crashed hc

end Run

section Law

theorem orderly_run_lawful {as : List Action} {s : State} (ho : OrderlyRun as initial)
    (hr : run as initial = some s) : Lawful s :=
  lawful_of_inv (run_inv initial_inv ho hr)

def connecting (profile : ℤ) : List Action :=
  .begin (.connect profile false .succeeds) :: List.replicate 7 .advance

/-- A core crashes, is reported, and the next one is stopped. -/
def crashThenStop : List Action :=
  connecting 1 ++ [.startTun,.watch 0 .channel,.exit 1] ++ List.replicate 7 (.watch 0 .channel) ++
  [.handle 0,.handle 0] ++ connecting 2 ++ [.watch 1 .channel,.begin .stop] ++
  List.replicate 3 .advance ++ [.watch 1 .done]

theorem crash_then_stop_lawful : ∃ s, run crashThenStop initial = some s ∧
    (s.cores 1).reports = 1 ∧ (s.cores 2).reports = 0 ∧ Lawful s := by
  have hrun : ((run crashThenStop initial).map fun s =>
      ((s.cores 1).reports,(s.cores 2).reports)) = some (1,0) := by decide
  obtain ⟨s,hs,hc⟩ := Option.map_eq_some_iff.mp hrun
  exact ⟨s,hs,congrArg Prod.fst hc,congrArg Prod.snd hc,
    orderly_run_lawful (by decide) hs⟩

/-- The watcher of core 1 is past its check for staleness when the next connect begins. -/
def crashMeetsConnect : List Action :=
  connecting 1 ++ [.watch 0 .channel,.startTun,.exit 1,.watch 0 .channel,.watch 0 .channel] ++
  connecting 2 ++
  [.startTun,.watch 0 .channel,.watch 0 .channel,.watch 0 .channel,.handle 0,.handle 0]

theorem crash_meets_connect : ∃ s, run crashMeetsConnect initial = some s ∧
    s.status = .disconnected exitReason ∧ (s.cores s.core).running = true ∧ s.running = none ∧
    s.tun = none ∧ s.mishaps = [.toreDownTun 1 2,.overwroteStatus 1 2] ∧ ¬ Lawful s := by
  have hrun : ((run crashMeetsConnect initial).map fun s =>
      (s.status,(s.cores s.core).running,s.running.isNone,s.tun,s.mishaps)) =
      some (.disconnected exitReason,true,true,none,
        [.toreDownTun 1 2,.overwroteStatus 1 2]) := by decide
  obtain ⟨s,hs,hc⟩ := Option.map_eq_some_iff.mp hrun
  simp only [Prod.mk.injEq,Option.isNone_iff_eq_none] at hc
  obtain ⟨hst,hr,hn,ht,hm⟩ := hc
  refine ⟨s,hs,hst,hr,hn,ht,hm,fun hl => ?_⟩
  rw [hl.mishaps] at hm
  cases hm

end Law

end Whoisthat.ProxyRuns
