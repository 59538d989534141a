import Whoisthat.NetworkChanges

/-!
# Total triples for scripts

A script achieves `Q` from `P` if without faults it succeeds from every state
of `P` and ends in a state of `Q`. One rule for each way to put scripts
together, and a frame rule for what the steps of a script keep.
-/

set_option autoImplicit false

namespace Whoisthat.ScriptTriples
open Whoisthat.ScriptRuns Whoisthat.ShellScripts Whoisthat.NetworkChanges

variable {σ : Type} {C : σ → σ → Prop} {P P' Q Q' R : σ → Prop} {p q : Script σ}

def Achieves (P : σ → Prop) (p : Script σ) (Q : σ → Prop) : Prop :=
  ∀ s, P s → p.succeeds s = true ∧ Q (p.final s)

theorem achieves_done : Achieves P .done P := fun _ h => ⟨rfl,h⟩

theorem achieves_must {r : σ → Option σ} (h : ∀ s, P s → ∃ t, r s = some t ∧ Q t) :
    Achieves P (.command (must r)) Q := by
  intro s hs
  obtain ⟨t,ht,hq⟩ := h s hs
  rw [succeeds_command,final_command]
  exact ⟨by simp [must,ht],by simpa [must,ht] using hq⟩

theorem achieves_may {r : σ → Option σ} (h : ∀ s, P s → Q ((r s).getD s)) :
    Achieves P (.command (may r)) Q := by
  intro s hs
  rw [succeeds_command,final_command]
  exact ⟨by simp [may],h s hs⟩

theorem achieves_seq (hp : Achieves P p R) (hq : Achieves R q Q) : Achieves P (.seq p q) Q := by
  intro s hs
  obtain ⟨hok,hmid⟩ := hp s hs
  obtain ⟨hok',hend⟩ := hq _ hmid
  exact ⟨seq_ok.mpr ⟨hok,hok'⟩,by rwa [final_seq_ok hok]⟩

theorem achieves_both (hp : Achieves P p R) (hq : Achieves R q Q) : Achieves P (.both p q) Q := by
  intro s hs
  obtain ⟨hok,hmid⟩ := hp s hs
  obtain ⟨hok',hend⟩ := hq _ hmid
  rw [succeeds_both,final_both,hok,hok']
  exact ⟨rfl,hend⟩

theorem achieves_tolerate (h : ∀ s, P s → Q (p.final s)) : Achieves P (.tolerate p) Q :=
  fun s hs => ⟨rfl,h s hs⟩

theorem achieves_first (hp : Achieves P p Q) : Achieves P (.orElse p q) Q := by
  intro s hs
  obtain ⟨hok,hend⟩ := hp s hs
  rw [succeeds_orElse,final_orElse,if_pos hok,hok]
  exact ⟨rfl,hend⟩

theorem achieves_read {p : σ → Script σ} (h : ∀ s, P s → (p s).succeeds s = true ∧ Q ((p s).final s)) :
    Achieves P (.read p) Q := h

theorem achieves_weaken (h : Achieves P p Q) (hp : ∀ s, P' s → P s) (hq : ∀ s, Q s → Q' s) :
    Achieves P' p Q' := fun s hs => ⟨(h s (hp s hs)).1,hq _ (h s (hp s hs)).2⟩

theorem achieves_sure (hp : Sure p) (h : ∀ s, P s → Q (p.final s)) : Achieves P p Q :=
  fun s hs => ⟨hp [] s,h s hs⟩

/-- What the steps of a script keep stays true besides. -/
theorem achieves_frame (h : Achieves P p Q) (hp : Acts C p) (hR : ∀ s t, C s t → R s → R t) :
    Achieves (fun s => P s ∧ R s) p fun s => Q s ∧ R s :=
  fun s hs => ⟨(h s hs.1).1,(h s hs.1).2,hp.final hR hs.2⟩

theorem achieves_sequence {ps : List (Script σ)} (h : ∀ p ∈ ps, Achieves P p P) :
    Achieves P (sequence ps) P := by
  induction ps with
  | nil => exact achieves_done
  | cons p ps ih =>
    exact achieves_seq (h p List.mem_cons_self) (ih fun q hq => h q (List.mem_cons_of_mem p hq))

theorem achieves_joined {ps : List (Script σ)} (h : ∀ p ∈ ps, Achieves P p P) :
    Achieves P (joined ps) P := by
  induction ps with
  | nil => exact achieves_done
  | cons p ps ih =>
    exact achieves_both (h p List.mem_cons_self) (ih fun q hq => h q (List.mem_cons_of_mem p hq))

theorem achieves_commands {cs : List (Command σ)} (h : ∀ c ∈ cs, Achieves P (.command c) P) :
    Achieves P (commands cs) P := by
  apply achieves_sequence
  intro p hp
  obtain ⟨c,hc,rfl⟩ := List.mem_map.mp hp
  exact h c hc

theorem achieves_append {cs ds : List (Command σ)} (hc : Achieves P (commands cs) R)
    (hd : Achieves R (commands ds) Q) : Achieves P (commands (cs ++ ds)) Q := by
  induction cs generalizing P with
  | nil => exact fun s hs => hd s (hc s hs).2
  | cons c cs ih =>
    intro s hs
    have hfirst := hc s hs
    rw [commands_cons,seq_ok] at hfirst
    have hrest : Achieves (fun t => t = (Script.command c).final s) (commands cs) R := by
      rintro t rfl
      exact ⟨hfirst.1.2,by simpa [final_seq_ok hfirst.1.1] using hfirst.2⟩
    obtain ⟨hok,hend⟩ := ih hrest _ rfl
    rw [List.cons_append,commands_cons,seq_ok,final_seq_ok hfirst.1.1]
    exact ⟨⟨hfirst.1.1,hok⟩,hend⟩

end Whoisthat.ScriptTriples
