import Mathlib.Data.List.Basic

/-!
# First-match packet filters

A chain is a list of rules read from the top; the first rule all of whose
conditions hold gives the verdict, and the policy is the verdict where none
does. Conditions and packets are parameters.
-/

set_option autoImplicit false

namespace Whoisthat.PacketFilter

variable {μ ν α : Type}

inductive Verdict where
  | accept
  | drop
  deriving DecidableEq, Repr

structure Rule (μ : Type) where
  conditions : List μ
  verdict : Verdict
  deriving DecidableEq

def accepting (c : μ) : Rule μ := { conditions := [c], verdict := .accept }

def dropAll : Rule μ := { conditions := [], verdict := .drop }

def verdict (holds : μ → α → Bool) (policy : Verdict) : List (Rule μ) → α → Verdict
  | [], _ => policy
  | r::rs, p => if r.conditions.all fun c => holds c p then r.verdict else verdict holds policy rs p

/-- An allowlist: whatever matches none of the conditions is dropped. -/
def allowlist (cs : List μ) : List (Rule μ) := cs.map accepting ++ [dropAll]

theorem verdict_cons_accepting (holds : μ → α → Bool) (policy : Verdict) (c : μ)
    (rs : List (Rule μ)) (p : α) :
    verdict holds policy (accepting c::rs) p =
      if holds c p then .accept else verdict holds policy rs p := by
  simp [verdict,accepting]

theorem verdict_allowlist (holds : μ → α → Bool) (policy : Verdict) (cs : List μ) (p : α) :
    verdict holds policy (allowlist cs) p = if cs.any fun c => holds c p then .accept else .drop := by
  induction cs with
  | nil => simp [allowlist,verdict,dropAll]
  | cons c cs ih =>
    have hstep : allowlist (c::cs) = accepting c::allowlist cs := rfl
    rw [hstep,verdict_cons_accepting,ih,List.any_cons]
    cases holds c p <;> simp

theorem allowlist_accepts_iff (holds : μ → α → Bool) (policy : Verdict) (cs : List μ) (p : α) :
    verdict holds policy (allowlist cs) p = .accept ↔ ∃ c ∈ cs, holds c p = true := by
  rw [verdict_allowlist,← List.any_eq_true]
  cases cs.any fun c => holds c p <;> simp

/-- Chains in two languages agree when they accept the same packets. -/
theorem verdict_eq_of_iff {v w : Verdict} (h : v = .accept ↔ w = .accept) : v = w := by
  cases v <;> cases w <;> simp at h ⊢

end Whoisthat.PacketFilter
