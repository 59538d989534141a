import Whoisthat.ScriptRuns

/-!
# Structured scripts

Commands put together: in sequence up to the first failure, both in any case,
with failures ignored, with a second try, or chosen by the state they meet. A
run lists every state it passes; a fault makes a command fail without effect.
-/

set_option autoImplicit false

namespace Whoisthat.ShellScripts
open Whoisthat.ScriptRuns

variable {σ : Type}

inductive Script (σ : Type) where
  | done
  | command (c : Command σ)
  | seq (p q : Script σ)
  | both (p q : Script σ)
  | tolerate (p : Script σ)
  | orElse (p q : Script σ)
  | read (p : σ → Script σ)

structure Outcome (σ : Type) where
  passed : List σ
  state : σ
  ok : Bool
  faults : List Bool

/-- The states passed before come first. -/
def Outcome.after (o : Outcome σ) (before : List σ) (ok : Bool) : Outcome σ :=
  ⟨before ++ o.passed,o.state,o.ok && ok,o.faults⟩

def Script.run : Script σ → List Bool → σ → Outcome σ
  | .done, faults, s => ⟨[],s,true,faults⟩
  | .command c, faults, s =>
    match c.exec (faults.headD false) s with
    | none => ⟨[],s,false,faults.tail⟩
    | some t => ⟨[t],t,true,faults.tail⟩
  | .seq p q, faults, s =>
    if (p.run faults s).ok then
      (q.run (p.run faults s).faults (p.run faults s).state).after (p.run faults s).passed true
    else p.run faults s
  | .both p q, faults, s =>
    (q.run (p.run faults s).faults (p.run faults s).state).after (p.run faults s).passed
      (p.run faults s).ok
  | .tolerate p, faults, s => { p.run faults s with ok := true }
  | .orElse p q, faults, s =>
    if (p.run faults s).ok then p.run faults s
    else (q.run (p.run faults s).faults (p.run faults s).state).after (p.run faults s).passed true
  | .read p, faults, s => (p s).run faults s

theorem run_command (c : Command σ) (faults : List Bool) (s : σ) :
    (Script.command c).run faults s = match c.exec (faults.headD false) s with
      | none => ⟨[],s,false,faults.tail⟩
      | some t => ⟨[t],t,true,faults.tail⟩ := rfl

theorem run_seq (p q : Script σ) (faults : List Bool) (s : σ) :
    (Script.seq p q).run faults s = if (p.run faults s).ok then
      (q.run (p.run faults s).faults (p.run faults s).state).after (p.run faults s).passed true
    else p.run faults s := rfl

theorem run_both (p q : Script σ) (faults : List Bool) (s : σ) :
    (Script.both p q).run faults s =
      (q.run (p.run faults s).faults (p.run faults s).state).after (p.run faults s).passed
        (p.run faults s).ok := rfl

theorem run_orElse (p q : Script σ) (faults : List Bool) (s : σ) :
    (Script.orElse p q).run faults s = if (p.run faults s).ok then p.run faults s
    else (q.run (p.run faults s).faults (p.run faults s).state).after (p.run faults s).passed true := rfl

theorem run_read (p : σ → Script σ) (faults : List Bool) (s : σ) :
    (Script.read p).run faults s = (p s).run faults s := rfl

def sequence (ps : List (Script σ)) : Script σ := ps.foldr Script.seq .done

/-- `errors.Join` of what each part returns. -/
def joined (ps : List (Script σ)) : Script σ := ps.foldr Script.both .done

/-- A script without `set -e`: only its last part decides. -/
def lenient : List (Script σ) → Script σ
  | [] => .done
  | [p] => p
  | p::q::ps => .seq (.tolerate p) (lenient (q::ps))

def commands (cs : List (Command σ)) : Script σ := sequence (cs.map Script.command)

section Invariants

variable {P : σ → Prop} {p q : Script σ}

/-- `P` holds at every state that a run of `p` from `s` passes. -/
def KeepsFrom (P : σ → Prop) (p : Script σ) (s : σ) : Prop :=
  ∀ faults, (∀ t ∈ (p.run faults s).passed, P t) ∧ P (p.run faults s).state

def Keeps (P : σ → Prop) (p : Script σ) : Prop := ∀ s, P s → KeepsFrom P p s

theorem keeps_done : Keeps P .done := by
  intro s h faults
  refine ⟨?_,h⟩
  intro t ht
  cases ht

theorem keepsFrom_command {c : Command σ} {s : σ} (h : P s) (hc : ∀ t, c.run s = some t → P t) :
    KeepsFrom P (.command c) s := by
  intro faults
  rw [run_command]
  cases he : c.exec (faults.headD false) s with
  | none =>
    refine ⟨?_,h⟩
    intro t ht
    cases ht
  | some t =>
    have ht : P t := by
      rcases exec_cases he with hr | rfl
      · exact hc t hr
      · exact h
    exact ⟨fun u hu => List.mem_singleton.mp hu ▸ ht,ht⟩

theorem keeps_command {c : Command σ} (hc : ∀ s t, P s → c.run s = some t → P t) :
    Keeps P (.command c) := fun s h => keepsFrom_command h fun t => hc s t h

theorem after_keeps {o : Outcome σ} {before : List σ} {ok : Bool} (hb : ∀ t ∈ before, P t)
    (ho : (∀ t ∈ o.passed, P t) ∧ P o.state) :
    (∀ t ∈ (o.after before ok).passed, P t) ∧ P (o.after before ok).state := by
  refine ⟨?_,ho.2⟩
  intro t ht
  rcases List.mem_append.mp ht with ht | ht
  · exact hb t ht
  · exact ho.1 t ht

theorem keepsFrom_seq {s : σ} (hp : KeepsFrom P p s) (hq : Keeps P q) :
    KeepsFrom P (.seq p q) s := by
  intro faults
  rw [run_seq]
  split_ifs
  · exact after_keeps (hp faults).1 (hq _ (hp faults).2 _)
  · exact hp faults

theorem keeps_seq (hp : Keeps P p) (hq : Keeps P q) : Keeps P (.seq p q) :=
  fun s h => keepsFrom_seq (hp s h) hq

theorem keeps_both (hp : Keeps P p) (hq : Keeps P q) : Keeps P (.both p q) := by
  intro s h faults
  exact after_keeps (hp s h faults).1 (hq _ (hp s h faults).2 _)

theorem keeps_tolerate (hp : Keeps P p) : Keeps P (.tolerate p) := fun s h faults => hp s h faults

theorem keeps_orElse (hp : Keeps P p) (hq : Keeps P q) : Keeps P (.orElse p q) := by
  intro s h faults
  rw [run_orElse]
  split_ifs
  · exact hp s h faults
  · exact after_keeps (hp s h faults).1 (hq _ (hp s h faults).2 _)

theorem keeps_read {p : σ → Script σ} (hp : ∀ s, P s → KeepsFrom P (p s) s) :
    Keeps P (.read p) := hp

theorem keeps_sequence {ps : List (Script σ)} (h : ∀ p ∈ ps, Keeps P p) : Keeps P (sequence ps) := by
  induction ps with
  | nil => exact keeps_done
  | cons p ps ih =>
    exact keeps_seq (h p List.mem_cons_self) (ih fun q hq => h q (List.mem_cons_of_mem p hq))

theorem keeps_joined {ps : List (Script σ)} (h : ∀ p ∈ ps, Keeps P p) : Keeps P (joined ps) := by
  induction ps with
  | nil => exact keeps_done
  | cons p ps ih =>
    exact keeps_both (h p List.mem_cons_self) (ih fun q hq => h q (List.mem_cons_of_mem p hq))

theorem keeps_lenient {ps : List (Script σ)} (h : ∀ p ∈ ps, Keeps P p) : Keeps P (lenient ps) := by
  induction ps with
  | nil => exact keeps_done
  | cons p ps ih =>
    cases ps with
    | nil => exact h p List.mem_cons_self
    | cons q ps =>
      exact keeps_seq (keeps_tolerate (h p List.mem_cons_self))
        (ih fun r hr => h r (List.mem_cons_of_mem p hr))

theorem keeps_commands {cs : List (Command σ)}
    (h : ∀ c ∈ cs, ∀ s t, P s → c.run s = some t → P t) : Keeps P (commands cs) := by
  apply keeps_sequence
  intro p hp
  obtain ⟨c,hc,rfl⟩ := List.mem_map.mp hp
  exact keeps_command (h c hc)

end Invariants

section Certain

variable {p q : Script σ}

/-- A script that cannot fail. -/
def Sure (p : Script σ) : Prop := ∀ faults s, (p.run faults s).ok = true

theorem sure_done : Sure (σ := σ) .done := fun _ _ => rfl

theorem sure_command {c : Command σ} (h : c.tolerated = true) : Sure (.command c) := by
  intro faults s
  rw [run_command]
  cases he : c.exec (faults.headD false) s with
  | some t => rfl
  | none =>
    unfold Command.exec at he
    split at he
    · cases he
    · rw [if_pos h] at he
      cases he

theorem must_ok {r : σ → Option σ} {faults : List Bool} {s : σ}
    (h : ((Script.command (must r)).run faults s).ok = true) :
    r s = some ((Script.command (must r)).run faults s).state := by
  rw [run_command] at h ⊢
  generalize faults.headD false = fault at h ⊢
  cases fault with
  | true => cases h
  | false =>
    cases hr : r s with
    | none => simp [Command.exec,must,hr] at h
    | some t => simp [Command.exec,must,hr]

theorem command_failed {c : Command σ} {faults : List Bool} {s : σ}
    (h : ((Script.command c).run faults s).ok = false) :
    ((Script.command c).run faults s).state = s := by
  rw [run_command] at h ⊢
  generalize c.exec (faults.headD false) s = result at h ⊢
  cases result with
  | none => rfl
  | some t => cases h

/-- What both parts of a sequence lead to. -/
theorem seq_leads {R : σ → Prop} {faults : List Bool} {s : σ}
    (hp : (p.run faults s).ok = false → R (p.run faults s).state)
    (hq : (p.run faults s).ok = true → ∀ faults', R (q.run faults' (p.run faults s).state).state) :
    R ((Script.seq p q).run faults s).state := by
  rw [run_seq]
  split_ifs with hok
  · exact hq hok (p.run faults s).faults
  · exact hp (Bool.eq_false_iff.mpr hok)

theorem seq_run_ok {faults : List Bool} {s : σ} (h : ((Script.seq p q).run faults s).ok = true) :
    (p.run faults s).ok = true ∧ ∃ faults', (q.run faults' (p.run faults s).state).ok = true := by
  rw [run_seq] at h
  split_ifs at h with hok
  · rw [Outcome.after,Bool.and_true] at h
    exact ⟨hok,_,h⟩
  · exact absurd h hok

theorem commands_run_must {r : σ → Option σ} {cs : List (Command σ)} {faults : List Bool} {s : σ}
    (h : ((commands (must r::cs)).run faults s).ok = true) :
    ∃ t faults', r s = some t ∧ ((commands cs).run faults' t).ok = true := by
  obtain ⟨hr,faults',hcs⟩ := seq_run_ok h
  exact ⟨_,faults',must_ok hr,hcs⟩

theorem sure_seq (hp : Sure p) (hq : Sure q) : Sure (.seq p q) := by
  intro faults s
  rw [run_seq,if_pos (hp faults s),Outcome.after,Bool.and_true]
  exact hq _ _

theorem sure_both (hp : Sure p) (hq : Sure q) : Sure (.both p q) := by
  intro faults s
  rw [run_both,Outcome.after,hp faults s,Bool.and_true]
  exact hq _ _

theorem sure_tolerate (p : Script σ) : Sure (.tolerate p) := fun _ _ => rfl

theorem sure_read {p : σ → Script σ} (h : ∀ s, Sure (p s)) : Sure (.read p) :=
  fun faults s => h s faults s

theorem sure_sequence {ps : List (Script σ)} (h : ∀ p ∈ ps, Sure p) : Sure (sequence ps) := by
  induction ps with
  | nil => exact sure_done
  | cons p ps ih =>
    exact sure_seq (h p List.mem_cons_self) (ih fun q hq => h q (List.mem_cons_of_mem p hq))

theorem sure_joined {ps : List (Script σ)} (h : ∀ p ∈ ps, Sure p) : Sure (joined ps) := by
  induction ps with
  | nil => exact sure_done
  | cons p ps ih =>
    exact sure_both (h p List.mem_cons_self) (ih fun q hq => h q (List.mem_cons_of_mem p hq))

theorem sure_commands {cs : List (Command σ)} (h : ∀ c ∈ cs, c.tolerated = true) :
    Sure (commands cs) := by
  apply sure_sequence
  intro p hp
  obtain ⟨c,hc,rfl⟩ := List.mem_map.mp hp
  exact sure_command (h c hc)

end Certain

section Faultless

variable {p q : Script σ}

/-- Where a run without faults ends. -/
def Script.final (p : Script σ) (s : σ) : σ := (p.run [] s).state

def Script.succeeds (p : Script σ) (s : σ) : Bool := (p.run [] s).ok

theorem run_faults (p : Script σ) (s : σ) : (p.run [] s).faults = [] := by
  induction p generalizing s with
  | done => rfl
  | command c =>
    rw [run_command]
    cases c.exec (([] : List Bool).headD false) s <;> rfl
  | seq p q ihp ihq =>
    rw [run_seq]
    split_ifs
    · rw [Outcome.after,ihp]
      exact ihq _
    · exact ihp s
  | both p q ihp ihq =>
    rw [run_both,Outcome.after,ihp]
    exact ihq _
  | tolerate p ih => exact ih s
  | orElse p q ihp ihq =>
    rw [run_orElse]
    split_ifs
    · exact ihp s
    · rw [Outcome.after,ihp]
      exact ihq _
  | read p ih => exact ih s s

@[simp] theorem final_done (s : σ) : Script.final .done s = s := rfl

@[simp] theorem succeeds_done (s : σ) : Script.succeeds .done s = true := rfl

@[simp] theorem final_command (c : Command σ) (s : σ) :
    (Script.command c).final s = (c.run s).getD s := by
  rw [Script.final,run_command]
  cases hc : c.run s with
  | some t => simp [Command.exec,hc]
  | none => cases ht : c.tolerated <;> simp [Command.exec,hc,ht]

@[simp] theorem succeeds_command (c : Command σ) (s : σ) :
    (Script.command c).succeeds s = ((c.run s).isSome || c.tolerated) := by
  rw [Script.succeeds,run_command]
  cases hc : c.run s with
  | some t => simp [Command.exec,hc]
  | none => cases ht : c.tolerated <;> simp [Command.exec,hc,ht]

theorem final_seq (p q : Script σ) (s : σ) :
    (Script.seq p q).final s = if p.succeeds s then q.final (p.final s) else p.final s := by
  simp only [Script.final,Script.succeeds,run_seq]
  by_cases h : (p.run [] s).ok = true
  · simp [h,Outcome.after,run_faults]
  · simp [h]

theorem succeeds_seq (p q : Script σ) (s : σ) :
    (Script.seq p q).succeeds s = (p.succeeds s && q.succeeds (p.final s)) := by
  simp only [Script.final,Script.succeeds,run_seq]
  cases h : (p.run [] s).ok with
  | false => simp [h]
  | true => simp [Outcome.after,run_faults]

@[simp] theorem final_both (p q : Script σ) (s : σ) :
    (Script.both p q).final s = q.final (p.final s) := by
  rw [Script.final,run_both,Outcome.after,run_faults]
  rfl

@[simp] theorem succeeds_both (p q : Script σ) (s : σ) :
    (Script.both p q).succeeds s = (p.succeeds s && q.succeeds (p.final s)) := by
  rw [Script.succeeds,run_both,Outcome.after,run_faults,Bool.and_comm]
  rfl

@[simp] theorem final_tolerate (p : Script σ) (s : σ) :
    (Script.tolerate p).final s = p.final s := rfl

@[simp] theorem succeeds_tolerate (p : Script σ) (s : σ) :
    (Script.tolerate p).succeeds s = true := rfl

theorem final_orElse (p q : Script σ) (s : σ) :
    (Script.orElse p q).final s = if p.succeeds s then p.final s else q.final (p.final s) := by
  simp only [Script.final,Script.succeeds,run_orElse]
  by_cases h : (p.run [] s).ok = true
  · simp [h]
  · simp [h,Outcome.after,run_faults]

theorem succeeds_orElse (p q : Script σ) (s : σ) :
    (Script.orElse p q).succeeds s = (p.succeeds s || q.succeeds (p.final s)) := by
  simp only [Script.final,Script.succeeds,run_orElse]
  cases h : (p.run [] s).ok with
  | true => simp [h]
  | false => simp [Outcome.after,run_faults]

@[simp] theorem final_read (p : σ → Script σ) (s : σ) :
    (Script.read p).final s = (p s).final s := rfl

@[simp] theorem succeeds_read (p : σ → Script σ) (s : σ) :
    (Script.read p).succeeds s = (p s).succeeds s := rfl

theorem seq_ok {s : σ} : (Script.seq p q).succeeds s = true ↔
    p.succeeds s = true ∧ q.succeeds (p.final s) = true := by
  rw [succeeds_seq,Bool.and_eq_true]

theorem final_seq_ok {s : σ} (h : p.succeeds s = true) :
    (Script.seq p q).final s = q.final (p.final s) := by
  rw [final_seq,if_pos h]

theorem final_seq_tolerate (p q : Script σ) (s : σ) :
    (Script.seq (.tolerate p) q).final s = q.final (p.final s) := by
  rw [final_seq_ok rfl]
  rfl

theorem final_sequence {ps : List (Script σ)} (h : ∀ p ∈ ps, Sure p) (s : σ) :
    (sequence ps).final s = (joined ps).final s := by
  induction ps generalizing s with
  | nil => rfl
  | cons p ps ih =>
    have hp : p.succeeds s = true := h p List.mem_cons_self [] s
    change (Script.seq p (sequence ps)).final s = (Script.both p (joined ps)).final s
    rw [final_seq_ok hp,final_both]
    exact ih (fun q hq => h q (List.mem_cons_of_mem p hq)) _

theorem final_joined_append (ps qs : List (Script σ)) (s : σ) :
    (joined (ps ++ qs)).final s = (joined qs).final ((joined ps).final s) := by
  induction ps generalizing s with
  | nil => rfl
  | cons p ps ih =>
    change (Script.both p (joined (ps ++ qs))).final s =
      (joined qs).final ((Script.both p (joined ps)).final s)
    rw [final_both,final_both,ih]

theorem commands_cons (c : Command σ) (cs : List (Command σ)) :
    commands (c::cs) = .seq (.command c) (commands cs) := rfl

@[simp] theorem final_commands_nil (s : σ) : (commands []).final s = s := rfl

@[simp] theorem final_commands_may (r : σ → Option σ) (cs : List (Command σ)) (s : σ) :
    (commands (may r::cs)).final s = (commands cs).final ((r s).getD s) := by
  rw [commands_cons,final_seq_ok]
  · rw [final_command]
    rfl
  · rw [succeeds_command]
    exact Bool.or_true _

theorem commands_must_ok {r : σ → Option σ} {cs : List (Command σ)} {s : σ}
    (h : (commands (must r::cs)).succeeds s = true) :
    ∃ t, r s = some t ∧ (commands cs).succeeds t = true ∧
      (commands (must r::cs)).final s = (commands cs).final t := by
  rw [commands_cons] at h ⊢
  obtain ⟨hr,hcs⟩ := seq_ok.mp h
  rw [final_seq_ok hr]
  rw [succeeds_command] at hr
  rw [final_command] at hcs ⊢
  cases ht : r s with
  | none => simp [must,ht] at hr
  | some t =>
    simp only [must,ht,Option.getD_some] at hcs ⊢
    exact ⟨t,rfl,hcs,rfl⟩

theorem commands_may_ok {r : σ → Option σ} {cs : List (Command σ)} {s : σ} :
    (commands (may r::cs)).succeeds s = (commands cs).succeeds ((r s).getD s) := by
  rw [commands_cons,succeeds_seq,succeeds_command,final_command]
  simp only [may,Bool.or_true,Bool.true_and]

end Faultless

end Whoisthat.ShellScripts
