import Mathlib.Algebra.Ring.Nat
import Mathlib.Algebra.BigOperators.Group.List.Basic

/-!
# Changing the first element found

The first element of a list that meets a condition is changed in place, and what
that does to a sum over the list: the weight of the changed element is exchanged,
and nothing happens where no element meets the condition.
-/

set_option autoImplicit false

namespace Whoisthat.FirstFound

variable {α : Type} {p : α → Bool} {f : α → α} {xs : List α} {x : α} {w : α → ℕ}

def modifyFirst (p : α → Bool) (f : α → α) (xs : List α) : List α :=
  xs.replaceF fun x => if p x then some (f x) else none

theorem modifyFirst_cons_pos (h : p x = true) : modifyFirst p f (x::xs) = f x::xs := by
  rw [modifyFirst,List.replaceF,h]
  rfl

theorem modifyFirst_cons_neg (h : p x = false) :
    modifyFirst p f (x::xs) = x::modifyFirst p f xs := by
  rw [modifyFirst,List.replaceF,h]
  rfl

theorem modifyFirst_none (h : xs.find? p = none) : modifyFirst p f xs = xs := by
  induction xs with
  | nil => rfl
  | cons x xs ih =>
    have hx : p x = false := by simpa using List.find?_eq_none.mp h x List.mem_cons_self
    rw [modifyFirst_cons_neg hx,ih (by rwa [List.find?_cons_of_neg (by simp [hx])] at h)]

/-- The weight of the element found is exchanged for that of its new value. -/
theorem sum_modifyFirst (h : xs.find? p = some x) :
    ((modifyFirst p f xs).map w).sum+w x = (xs.map w).sum+w (f x) := by
  induction xs with
  | nil => cases h
  | cons y xs ih =>
    cases hy : p y with
    | true =>
      rw [List.find?_cons_of_pos hy] at h
      obtain rfl := Option.some.inj h
      rw [modifyFirst_cons_pos hy,List.map_cons,List.map_cons,List.sum_cons,List.sum_cons]
      omega
    | false =>
      rw [List.find?_cons_of_neg (by simp [hy])] at h
      have htail := ih h
      rw [modifyFirst_cons_neg hy,List.map_cons,List.map_cons,List.sum_cons,List.sum_cons]
      omega

theorem sum_modifyFirst_le (h : ∀ x, w x ≤ w (f x)) :
    (xs.map w).sum ≤ ((modifyFirst p f xs).map w).sum := by
  rcases hfind : xs.find? p with _ | x
  · exact Nat.le_of_eq (congrArg (fun ys => (ys.map w).sum) (modifyFirst_none hfind)).symm
  · have hsum := @sum_modifyFirst _ p f _ _ w hfind
    have hx := h x
    omega

theorem sum_modifyFirst_eq (h : ∀ x ∈ xs, p x = true → w (f x) = w x) :
    ((modifyFirst p f xs).map w).sum = (xs.map w).sum := by
  rcases hfind : xs.find? p with _ | x
  · rw [modifyFirst_none hfind]
  · have hsum := @sum_modifyFirst _ p f _ _ w hfind
    have hx := h x (List.mem_of_find?_eq_some hfind) (List.find?_some hfind)
    omega

end Whoisthat.FirstFound
