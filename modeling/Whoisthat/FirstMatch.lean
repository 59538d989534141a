import Mathlib.Data.List.Basic

/-!
# Ordered rule lists

A rule accepts some destinations and names a target; the first rule that
accepts decides. The same holds for a list without repetitions: of each kind of
entry the first is kept.
-/

set_option autoImplicit false

namespace Whoisthat.FirstMatch

variable {δ ρ τ : Type*} (accepts : ρ → δ → Bool) (target : ρ → τ)

/-- The target of the first rule that accepts, `otherwise` without one. -/
def verdict (rules : List ρ) (otherwise : τ) (d : δ) : τ :=
  match rules with
  | [] => otherwise
  | r::rest => if accepts r d then target r else verdict rest otherwise d

@[simp] theorem verdict_nil (otherwise : τ) (d : δ) :
    verdict accepts target [] otherwise d = otherwise := rfl

@[simp] theorem verdict_cons (r : ρ) (rest : List ρ) (otherwise : τ) (d : δ) :
    verdict accepts target (r::rest) otherwise d =
      if accepts r d then target r else verdict accepts target rest otherwise d := rfl

theorem verdict_append (front back : List ρ) (otherwise : τ) (d : δ) :
    verdict accepts target (front ++ back) otherwise d =
      verdict accepts target front (verdict accepts target back otherwise d) d := by
  induction front with
  | nil => rfl
  | cons r rest ih => simp [ih]

section Kinds

variable {α κ : Type*} [DecidableEq κ] (key : α → κ)

/-- The first entry of each kind, in their order. -/
def firsts (l : List α) : List α :=
  l.foldl (fun kept a => if kept.any (fun b => key b = key a) then kept else kept ++ [a]) []

theorem mem_foldl_firsts (a : α) (l kept : List α) :
    a ∈ l.foldl (fun kept a => if kept.any (fun b => key b = key a) then kept else kept ++ [a]) kept
      ↔ a ∈ kept ∨ (kept.any (fun b => key b = key a) = false ∧
        l.find? (fun b => key b = key a) = some a) := by
  induction l generalizing kept with
  | nil => simp
  | cons b l ih =>
    rw [List.foldl_cons,ih]
    by_cases hkey : key b = key a
    · -- later entries of the kind no longer count
      rw [List.find?_cons_of_pos (by simpa using hkey)]
      by_cases hb : kept.any (fun c => key c = key a) = true
      · simp [hkey,hb]
      · have hnot : kept.any (fun c => key c = key a) = false := by simpa using hb
        simp only [hkey,hnot,Bool.false_eq_true,if_false,List.any_append,List.mem_append,
          List.mem_singleton,Option.some.injEq]
        simp [hkey,eq_comm]
    · have hne : a ≠ b := fun h => hkey (h ▸ rfl)
      rw [List.find?_cons_of_neg (by simpa using hkey)]
      by_cases hb : kept.any (fun c => key c = key b) = true
      · simp [hb]
      · simp [hb,hkey,hne]

theorem mem_firsts {a : α} {l : List α} :
    a ∈ firsts key l ↔ l.find? (fun b => key b = key a) = some a := by
  simpa [firsts] using mem_foldl_firsts key a l []

/-- Every kind keeps an entry. -/
theorem firsts_covers {a : α} {l : List α} (h : a ∈ l) : ∃ b ∈ firsts key l, key b = key a := by
  have hsome : (l.find? fun b => key b = key a).isSome := by
    rw [List.find?_isSome]
    exact ⟨a,h,by simp⟩
  obtain ⟨b,hb⟩ := Option.isSome_iff_exists.mp hsome
  have hkey : key b = key a := by simpa using List.find?_some hb
  refine ⟨b,(mem_firsts key).mpr ?_,hkey⟩
  rw [hkey,hb]

end Kinds

end Whoisthat.FirstMatch
