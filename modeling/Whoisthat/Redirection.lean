import Mathlib.Logic.Relation

/-!
# Redirected edges

Some sources of a relation get new edges to a set of targets. A path with new
edges in it breaks at them into old paths, each but the first starting at a
target and each but the last ending at a source. So the only cycles that can
appear are those a source closes by being reachable from a target.
-/

set_option autoImplicit false

namespace Whoisthat.Redirection
open Relation

variable {α : Type*} {r : α → α → Prop} {source target : α → Prop}

def Acyclic (r : α → α → Prop) : Prop := ∀ a, ¬TransGen r a a

/-- The relation with an edge from every source to every target. -/
def redirect (r : α → α → Prop) (source target : α → Prop) (a b : α) : Prop :=
  r a b ∨ source a ∧ target b

/-- A source lies behind a target. -/
def Returns (r : α → α → Prop) (source target : α → Prop) : Prop :=
  ∃ t s, target t ∧ source s ∧ ReflTransGen r t s

theorem old_path {a b : α} (h : ReflTransGen r a b) :
    ReflTransGen (redirect r source target) a b :=
  h.lift id fun _ _ => .inl

/-- Without a way back a path uses at most one new edge. -/
theorem path_split (hno : ¬Returns r source target) {a b : α}
    (h : ReflTransGen (redirect r source target) a b) :
    ReflTransGen r a b ∨
      ∃ s t, source s ∧ target t ∧ ReflTransGen r a s ∧ ReflTransGen r t b := by
  induction h with
  | refl => exact .inl .refl
  | @tail b c _ hstep ih =>
    rcases hstep with hold | ⟨hb,hc⟩
    · rcases ih with hpath | ⟨s,t,hs,ht,has,htb⟩
      · exact .inl (hpath.tail hold)
      · exact .inr ⟨s,t,hs,ht,has,htb.tail hold⟩
    · rcases ih with hpath | ⟨s,t,_,ht,_,htb⟩
      · exact .inr ⟨b,c,hb,hc,hpath,.refl⟩
      · exact absurd ⟨t,b,ht,hb,htb⟩ hno

theorem returns_cycle {s t : α} (hs : source s) (ht : target t) (h : ReflTransGen r t s) :
    TransGen (redirect r source target) t t :=
  TransGen.tail' (old_path h) (.inr ⟨hs,ht⟩)

/-- New edges close a cycle exactly if a source lies behind a target. -/
theorem acyclic_redirect (h : Acyclic r) :
    Acyclic (redirect r source target) ↔ ¬Returns r source target := by
  constructor
  · rintro hnew ⟨t,s,ht,hs,hpath⟩
    exact hnew t (returns_cycle hs ht hpath)
  · intro hno a hcycle
    obtain ⟨b,hpath,hstep⟩ := TransGen.tail'_iff.mp hcycle
    rcases path_split hno hpath with hold | ⟨s,t,hs,ht,has,htb⟩
    · rcases hstep with hedge | ⟨hb,ha⟩
      · exact h a (TransGen.tail' hold hedge)
      · exact hno ⟨a,b,ha,hb,hold⟩
    · rcases hstep with hedge | ⟨hb,_⟩
      · exact hno ⟨t,s,ht,hs,(htb.tail hedge).trans has⟩
      · exact hno ⟨t,b,ht,hb,htb⟩

end Whoisthat.Redirection
