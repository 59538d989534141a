import Mathlib.Data.List.Basic
import Mathlib.Data.List.Nodup

/-!
# Numbering the occurrences of equal keys

Every key of a list is paired with the number of its occurrence. The pairs
are distinct and a key gets exactly the numbers up to its count, so a naming
of the pairs gives distinct names exactly if it is injective on them.
-/

set_option autoImplicit false

namespace Whoisthat.Numbering

variable {α β : Type*} [DecidableEq α]

/-- The keys with their numbers, after those already seen. -/
def number (seen : List α) : List α → List (α × ℕ)
  | [] => []
  | a::l => (a,seen.count a+1)::number (a::seen) l

theorem mem_number {seen l : List α} {a : α} {n : ℕ} :
    (a,n) ∈ number seen l ↔ seen.count a < n ∧ n ≤ seen.count a+l.count a := by
  induction l generalizing seen with
  | nil =>
    simp only [number,List.not_mem_nil,List.count_nil,false_iff]
    omega
  | cons b l ih =>
    rw [number,List.mem_cons,ih,Prod.mk.injEq]
    by_cases hab : a = b
    · subst hab
      simp only [List.count_cons_self,true_and]
      omega
    · simp [hab,List.count_cons_of_ne (Ne.symm hab)]

theorem nodup_number (seen l : List α) : (number seen l).Nodup := by
  induction l generalizing seen with
  | nil => exact List.nodup_nil
  | cons a l ih =>
    rw [number,List.nodup_cons]
    refine ⟨fun hin => ?_,ih _⟩
    have hlt := (mem_number.mp hin).1
    rw [List.count_cons_self] at hlt
    omega

/-- The key at a place and its number. -/
theorem getElem_number (seen l : List α) (i : ℕ) :
    (number seen l)[i]? = l[i]?.map fun a => (a,seen.count a+(l.take i).count a+1) := by
  induction l generalizing seen i with
  | nil => rfl
  | cons b l ih =>
    cases i with
    | zero => simp [number]
    | succ i =>
      rw [number,List.getElem?_cons_succ,ih,List.getElem?_cons_succ,List.take_succ_cons]
      refine congrArg (l[i]?.map ·) (funext fun a => ?_)
      rw [Prod.mk.injEq]
      refine ⟨rfl,?_⟩
      rw [List.count_cons,List.count_cons]
      omega

/-- Names are distinct if no two numbered keys get the same one. -/
theorem nodup_names (name : α × ℕ → β) (l : List α) :
    ((number [] l).map name).Nodup ↔ ∀ a n b m, 1 ≤ n → n ≤ l.count a → 1 ≤ m → m ≤ l.count b →
      name (a,n) = name (b,m) → a = b ∧ n = m := by
  rw [List.nodup_map_iff_inj_on (nodup_number [] l)]
  have hmem : ∀ a n, (a,n) ∈ number [] l ↔ 1 ≤ n ∧ n ≤ l.count a := fun a n => by
    rw [mem_number,List.count_nil]
    omega
  constructor
  · intro h a n b m hn hna hm hmb hname
    exact Prod.mk.inj (h _ ((hmem a n).mpr ⟨hn,hna⟩) _ ((hmem b m).mpr ⟨hm,hmb⟩) hname)
  · rintro h ⟨a,n⟩ ha ⟨b,m⟩ hb hname
    obtain ⟨hn,hna⟩ := (hmem a n).mp ha
    obtain ⟨hm,hmb⟩ := (hmem b m).mp hb
    obtain ⟨rfl,rfl⟩ := h a n b m hn hna hm hmb hname
    rfl

end Whoisthat.Numbering
