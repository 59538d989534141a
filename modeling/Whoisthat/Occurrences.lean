import Mathlib.Data.List.Infix
import Mathlib.Data.List.Nodup
import Mathlib.Data.List.Sort

/-!
# Occurrences of a word in a text

Search for the first occurrence, and the list of all positions at which a word
occurs. A search that resumes after each occurrence finds all of them when the
first symbol of the word does not come again in it. Symbols are a parameter.
-/

set_option autoImplicit false

namespace Whoisthat.Occurrences

variable {α : Type} [DecidableEq α]

/-- The position of the first occurrence. -/
def index (p : List α) : List α → Option ℕ
  | [] => if p = [] then some 0 else none
  | c::s => if p.isPrefixOf (c::s) then some 0 else (index p s).map (· + 1)

/-- The positions at which a word occurs, counted from `n`. -/
def occurrences (p : List α) : List α → ℕ → List ℕ
  | [], _ => []
  | c::s, n =>
    if p.isPrefixOf (c::s) then n :: occurrences p s (n+1) else occurrences p s (n+1)

theorem occurrences_cons_hit {p s : List α} {c : α} {n : ℕ} (h : p <+: c::s) :
    occurrences p (c::s) n = n :: occurrences p s (n+1) := by
  rw [occurrences,if_pos (List.isPrefixOf_iff_prefix.mpr h)]

theorem occurrences_cons_miss {p s : List α} {c : α} {n : ℕ} (h : ¬p <+: c::s) :
    occurrences p (c::s) n = occurrences p s (n+1) := by
  rw [occurrences,if_neg fun hp => h (List.isPrefixOf_iff_prefix.mp hp)]

theorem mem_occurrences {p : List α} (hp : p ≠ []) (s : List α) (n i : ℕ) :
    i ∈ occurrences p s n ↔ ∃ k, i = n+k ∧ p <+: s.drop k := by
  induction s generalizing n with
  | nil => simp [occurrences,hp]
  | cons c s ih =>
    by_cases h : p <+: c::s
    · rw [occurrences_cons_hit h,List.mem_cons,ih]
      constructor
      · rintro (rfl | ⟨k,rfl,hk⟩)
        · exact ⟨0,rfl,h⟩
        · exact ⟨k+1,by omega,hk⟩
      · rintro ⟨k,rfl,hk⟩
        cases k with
        | zero => exact Or.inl rfl
        | succ k => exact Or.inr ⟨k,by omega,hk⟩
    · rw [occurrences_cons_miss h,ih]
      constructor
      · rintro ⟨k,rfl,hk⟩
        exact ⟨k+1,by omega,hk⟩
      · rintro ⟨k,rfl,hk⟩
        cases k with
        | zero => exact absurd hk h
        | succ k => exact ⟨k,by omega,hk⟩

theorem le_of_mem_occurrences {p s : List α} {n i : ℕ} (h : i ∈ occurrences p s n) : n ≤ i := by
  induction s generalizing n with
  | nil => simp [occurrences] at h
  | cons c s ih =>
    by_cases hp : p <+: c::s
    · rw [occurrences_cons_hit hp,List.mem_cons] at h
      rcases h with rfl | h
      · exact Nat.le_refl i
      · have hle := ih h
        omega
    · rw [occurrences_cons_miss hp] at h
      have hle := ih h
      omega

/-- Positions come in order. -/
theorem occurrences_increasing (p s : List α) (n : ℕ) :
    (occurrences p s n).Pairwise (fun i j => i < j) := by
  induction s generalizing n with
  | nil => exact List.Pairwise.nil
  | cons c s ih =>
    by_cases h : p <+: c::s
    · rw [occurrences_cons_hit h,List.pairwise_cons]
      exact ⟨fun j hj => le_of_mem_occurrences hj,ih (n+1)⟩
    · rw [occurrences_cons_miss h]
      exact ih (n+1)

/-- Increasing lists with the same members are equal. -/
theorem increasing_ext {l l' : List ℕ} (h : l.Pairwise (fun i j => i < j))
    (h' : l'.Pairwise (fun i j => i < j)) (hmem : ∀ i, i ∈ l ↔ i ∈ l') : l = l' := by
  have hperm : l.Perm l' := (List.perm_ext_iff_of_nodup (h.imp fun hab => Nat.ne_of_lt hab)
    (h'.imp fun hab => Nat.ne_of_lt hab)).mpr hmem
  exact hperm.eq_of_pairwise (fun a b _ _ hab hba => absurd hab (Nat.lt_asymm hba)) h h'

section Search

variable {h : α} {q : List α}

/-- No occurrence starts inside one whose first symbol does not come again. -/
theorem occurrences_skip (hq : h ∉ q) (u : List α) (n : ℕ) :
    occurrences (h::q) (q ++ u) n = occurrences (h::q) u (n+q.length) := by
  have hskip : ∀ (q' : List α), h ∉ q' → ∀ n,
      occurrences (h::q) (q' ++ u) n = occurrences (h::q) u (n+q'.length) := by
    intro q'
    induction q' with
    | nil => exact fun _ n => rfl
    | cons c q' ih =>
      intro hc n
      rw [List.mem_cons,not_or] at hc
      have hnot : ¬(h::q) <+: c::(q' ++ u) := fun hp => hc.1 (List.cons_prefix_cons.mp hp).1
      rw [List.cons_append,occurrences_cons_miss hnot,ih hc.2,List.length_cons]
      congr 1
      omega
  exact hskip q hq n

theorem index_none (s : List α) (hi : index (h::q) s = none) (n : ℕ) :
    occurrences (h::q) s n = [] := by
  induction s generalizing n with
  | nil => rfl
  | cons c s ih =>
    rw [index] at hi
    split at hi
    · cases hi
    · rename_i hp
      rw [occurrences_cons_miss fun hpre => hp (List.isPrefixOf_iff_prefix.mpr hpre)]
      exact ih (Option.map_eq_none_iff.mp hi) (n+1)

/-- The first occurrence, and the search after it. -/
theorem index_some (hq : h ∉ q) (s : List α) {k : ℕ} (hi : index (h::q) s = some k) (n : ℕ) :
    (h::q) <+: s.drop k ∧
      occurrences (h::q) s n =
        (n+k) :: occurrences (h::q) (s.drop (k+(h::q).length)) (n+k+(h::q).length) := by
  induction s generalizing k n with
  | nil => simp [index] at hi
  | cons c s ih =>
    rw [index] at hi
    split at hi
    · rename_i hp
      obtain rfl := Option.some.inj hi
      have hpre := List.isPrefixOf_iff_prefix.mp hp
      refine ⟨hpre,?_⟩
      rw [occurrences_cons_hit hpre]
      obtain ⟨u,hu⟩ := hpre
      rw [List.cons_append,List.cons.injEq] at hu
      obtain ⟨rfl,rfl⟩ := hu
      have hdrop : (h::(q ++ u)).drop (0+(h::q).length) = u := by simp
      have hn : n+1+q.length = n+0+(h::q).length := by
        rw [List.length_cons]
        omega
      rw [occurrences_skip hq,hdrop,hn]
      rfl
    · rename_i hp
      obtain ⟨k',hk',rfl⟩ := Option.map_eq_some_iff.mp hi
      obtain ⟨hpre,hrest⟩ := ih hk' (n+1)
      refine ⟨hpre,?_⟩
      rw [occurrences_cons_miss fun hpre => hp (List.isPrefixOf_iff_prefix.mpr hpre),
        hrest]
      have hdrop : (c::s).drop (k'+1+(h::q).length) = s.drop (k'+(h::q).length) := by
        rw [Nat.add_right_comm,List.drop_succ_cons]
      have hn : n+1+k' = n+(k'+1) := by omega
      rw [hdrop,hn]

theorem index_le {p s : List α} {k : ℕ} (hi : index p s = some k) : k+p.length ≤ s.length := by
  induction s generalizing k with
  | nil =>
    rw [index] at hi
    split_ifs at hi with hp
    obtain rfl := Option.some.inj hi
    simp [hp]
  | cons c s ih =>
    rw [index] at hi
    split at hi
    · rename_i hp
      obtain rfl := Option.some.inj hi
      have hlen := (List.isPrefixOf_iff_prefix.mp hp).length_le
      omega
    · obtain ⟨k',hk',rfl⟩ := Option.map_eq_some_iff.mp hi
      have hlen := ih hk'
      rw [List.length_cons]
      omega

end Search

end Whoisthat.Occurrences
