import Mathlib.Data.List.Basic

/-!
# Scripts of single commands

A command changes the state or fails without a change. A script stops at the
first failure that is not tolerated (`set -e`, `|| true`). Besides failing by
the state it meets, any command may be made to fail by a fault. The trace of a
run is every state it passes.
-/

set_option autoImplicit false

namespace Whoisthat.ScriptRuns

variable {σ τ : Type}

structure Command (σ : Type) where
  run : σ → Option σ
  tolerated : Bool

def must (run : σ → Option σ) : Command σ := ⟨run,false⟩

def may (run : σ → Option σ) : Command σ := ⟨run,true⟩

def Command.exec (c : Command σ) (fault : Bool) (s : σ) : Option σ :=
  match if fault then none else c.run s with
  | some t => some t
  | none => if c.tolerated then some s else none

def trace : List (Command σ) → List Bool → σ → List σ
  | [], _, s => [s]
  | c::cs, faults, s =>
    s::match c.exec (faults.headD false) s with
      | none => []
      | some t => trace cs faults.tail t

/-- A command on a part of the state. -/
def Command.lift (get : τ → σ) (set : τ → σ → τ) (c : Command σ) : Command τ :=
  ⟨fun t => (c.run (get t)).map (set t),c.tolerated⟩

theorem exec_cases {c : Command σ} {fault : Bool} {s t : σ} (h : c.exec fault s = some t) :
    c.run s = some t ∨ t = s := by
  unfold Command.exec at h
  split at h
  · rename_i u hu
    cases h
    cases fault with
    | false => exact Or.inl hu
    | true => cases hu
  · split_ifs at h
    exact Or.inr (Option.some.inj h).symm

/-- What every command keeps holds at every state of a run. -/
theorem trace_keeps {P : σ → Prop} {cs : List (Command σ)}
    (hc : ∀ c ∈ cs, ∀ s t, P s → c.run s = some t → P t) (faults : List Bool) {s : σ} (h : P s) :
    ∀ t ∈ trace cs faults s, P t := by
  induction cs generalizing s faults with
  | nil =>
    intro t ht
    rw [List.mem_singleton.mp ht]
    exact h
  | cons c cs ih =>
    intro t ht
    rcases List.mem_cons.mp ht with rfl | ht
    · exact h
    · cases he : c.exec (faults.headD false) s with
      | none =>
        rw [he] at ht
        cases ht
      | some u =>
        rw [he] at ht
        have hu : P u := by
          rcases exec_cases he with hr | rfl
          · exact hc c List.mem_cons_self s u h hr
          · exact h
        exact ih (fun d hd => hc d (List.mem_cons_of_mem _ hd)) faults.tail hu t ht

theorem start_mem_trace (cs : List (Command σ)) (faults : List Bool) (s : σ) :
    s ∈ trace cs faults s := by
  cases cs with
  | nil => exact List.mem_singleton_self s
  | cons c cs => exact List.mem_cons_self

/-- After a first command that succeeds the run goes on. -/
theorem mem_trace_of_run {c : Command σ} {cs : List (Command σ)} {s t u : σ}
    (h : c.run s = some t) (hu : u ∈ trace cs [] t) : u ∈ trace (c::cs) [] s := by
  refine List.mem_cons_of_mem _ ?_
  have he : c.exec false s = some t := by simp [Command.exec,h]
  simpa [he] using hu

end Whoisthat.ScriptRuns
