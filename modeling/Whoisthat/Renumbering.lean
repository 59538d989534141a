import Mathlib.Data.List.Count
import Mathlib.Data.Int.Notation
import Mathlib.Logic.Function.Basic

/-!
# Stable renumbering by key

Items arrive as a list of keys. Every key owns a queue of numbers given out
earlier; an arrival takes the front of its key's queue, and once the queue is
empty it takes the next number above everything given out so far. The queues
of different keys share no number. Keys are arbitrary.
-/

set_option autoImplicit false

namespace Whoisthat.Renumbering

variable {κ : Type} [DecidableEq κ]

def renumber (pool : κ → List ℤ) (last : ℤ) : List κ → List (κ × ℤ)
  | [] => []
  | k::ks =>
    match pool k with
    | [] => (k,last+1) :: renumber pool (last+1) ks
    | i::rest => (k,i) :: renumber (Function.update pool k rest) last ks

/-- The counter after all arrivals. -/
def lastAfter (pool : κ → List ℤ) (last : ℤ) : List κ → ℤ
  | [] => last
  | k::ks =>
    match pool k with
    | [] => lastAfter pool (last+1) ks
    | _::rest => lastAfter (Function.update pool k rest) last ks

theorem renumber_empty {pool : κ → List ℤ} {k : κ} (hk : pool k = []) (last : ℤ) (ks : List κ) :
    renumber pool last (k::ks) = (k,last+1) :: renumber pool (last+1) ks := by
  rw [renumber,hk]

theorem renumber_queued {pool : κ → List ℤ} {k : κ} {i : ℤ} {rest : List ℤ}
    (hk : pool k = i::rest) (last : ℤ) (ks : List κ) :
    renumber pool last (k::ks) = (k,i) :: renumber (Function.update pool k rest) last ks := by
  rw [renumber,hk]

theorem lastAfter_empty {pool : κ → List ℤ} {k : κ} (hk : pool k = []) (last : ℤ) (ks : List κ) :
    lastAfter pool last (k::ks) = lastAfter pool (last+1) ks := by
  rw [lastAfter,hk]

theorem lastAfter_queued {pool : κ → List ℤ} {k : κ} {i : ℤ} {rest : List ℤ}
    (hk : pool k = i::rest) (last : ℤ) (ks : List κ) :
    lastAfter pool last (k::ks) = lastAfter (Function.update pool k rest) last ks := by
  rw [lastAfter,hk]

def numbersOf (k : κ) (l : List (κ × ℤ)) : List ℤ :=
  (l.filter (fun e => e.1 = k)).map Prod.snd

/-- Queues hold distinct numbers up to `last` and share none. -/
structure Supply (pool : κ → List ℤ) (last : ℤ) : Prop where
  nodup : ∀ k, (pool k).Nodup
  disjoint : ∀ k k' i, i ∈ pool k → i ∈ pool k' → k = k'
  bounded : ∀ k, ∀ i ∈ pool k, i ≤ last

omit [DecidableEq κ] in
theorem supply_fresh {pool : κ → List ℤ} {last : ℤ} (h : Supply pool last) :
    Supply pool (last+1) :=
  ⟨h.nodup,h.disjoint,fun k i hi => by have := h.bounded k i hi; omega⟩

theorem mem_update {pool : κ → List ℤ} {k : κ} {i : ℤ} {rest : List ℤ}
    (hk : pool k = i::rest) {k' : κ} {j : ℤ} (hj : j ∈ Function.update pool k rest k') :
    j ∈ pool k' := by
  by_cases hkk : k' = k
  · subst hkk
    rw [Function.update_self] at hj
    simp [hk,hj]
  · rwa [Function.update_of_ne hkk] at hj

theorem supply_take {pool : κ → List ℤ} {last : ℤ} (h : Supply pool last) {k : κ} {i : ℤ}
    {rest : List ℤ} (hk : pool k = i::rest) : Supply (Function.update pool k rest) last := by
  refine ⟨fun k' => ?_,fun a b j ha hb => ?_,fun a j ha => h.bounded a j (mem_update hk ha)⟩
  · by_cases hkk : k' = k
    · subst hkk
      have hn := h.nodup k'
      rw [hk] at hn
      rw [Function.update_self]
      exact hn.of_cons
    · simpa [hkk] using h.nodup k'
  · exact h.disjoint a b j (mem_update hk ha) (mem_update hk hb)

theorem taken_gone {pool : κ → List ℤ} {last : ℤ} (h : Supply pool last) {k : κ} {i : ℤ}
    {rest : List ℤ} (hk : pool k = i::rest) (k' : κ) :
    i ∉ Function.update pool k rest k' := by
  intro hi
  have hmem : i ∈ pool k := by simp [hk]
  have hkk := h.disjoint k' k i (mem_update hk hi) hmem
  subst hkk
  have hn := h.nodup k'
  rw [hk] at hn
  rw [Function.update_self] at hi
  exact (List.nodup_cons.mp hn).1 hi

theorem last_le_lastAfter (pool : κ → List ℤ) (last : ℤ) (ks : List κ) :
    last ≤ lastAfter pool last ks := by
  induction ks generalizing pool last with
  | nil => exact Int.le_refl last
  | cons k ks ih =>
    unfold lastAfter
    split
    · have := ih pool (last+1)
      omega
    · exact ih _ last

theorem keys_renumber (pool : κ → List ℤ) (last : ℤ) (ks : List κ) :
    (renumber pool last ks).map Prod.fst = ks := by
  induction ks generalizing pool last with
  | nil => rfl
  | cons k ks ih =>
    unfold renumber
    split <;> simp [ih]

theorem take_renumber (pool : κ → List ℤ) (last : ℤ) (ks : List κ) (n : ℕ) :
    (renumber pool last ks).take n = renumber pool last (ks.take n) := by
  induction ks generalizing pool last n with
  | nil => simp [renumber]
  | cons k ks ih =>
    cases n with
    | zero => simp [renumber]
    | succ n =>
      cases hk : pool k with
      | nil => simp [renumber_empty hk,ih]
      | cons i rest => simp [renumber_queued hk,ih]

/-- Arrivals of `k` take its queue in order; only the surplus is new. -/
theorem numbersOf_renumber (pool : κ → List ℤ) (last : ℤ) (ks : List κ) (k : κ) :
    ∃ fresh, numbersOf k (renumber pool last ks) = (pool k).take (ks.count k) ++ fresh ∧
      ∀ i ∈ fresh, last < i := by
  induction ks generalizing pool last with
  | nil => exact ⟨[],by simp [renumber,numbersOf]⟩
  | cons j ks ih =>
    unfold renumber
    split
    · rename_i hj
      obtain ⟨fresh,heq,hfresh⟩ := ih pool (last+1)
      by_cases hk : j = k
      · subst hk
        refine ⟨(last+1)::fresh,?_,?_⟩
        · have hstep : numbersOf j ((j,last+1) :: renumber pool (last+1) ks) =
              (last+1) :: numbersOf j (renumber pool (last+1) ks) := by simp [numbersOf]
          rw [hstep,heq,hj]
          simp
        · intro i hi
          rcases List.mem_cons.mp hi with rfl | hi
          · omega
          · have := hfresh i hi
            omega
      · refine ⟨fresh,?_,fun i hi => by have := hfresh i hi; omega⟩
        have hstep : numbersOf k ((j,last+1) :: renumber pool (last+1) ks) =
            numbersOf k (renumber pool (last+1) ks) := by simp [numbersOf,hk]
        rw [hstep,heq,List.count_cons_of_ne hk]
    · rename_i c rest hj
      obtain ⟨fresh,heq,hfresh⟩ := ih (Function.update pool j rest) last
      refine ⟨fresh,?_,hfresh⟩
      by_cases hk : j = k
      · subst hk
        have hstep : numbersOf j ((j,c) :: renumber (Function.update pool j rest) last ks) =
            c :: numbersOf j (renumber (Function.update pool j rest) last ks) := by
          simp [numbersOf]
        rw [hstep,heq,hj,Function.update_self,List.count_cons_self]
        rfl
      · have hstep : numbersOf k ((j,c) :: renumber (Function.update pool j rest) last ks) =
            numbersOf k (renumber (Function.update pool j rest) last ks) := by
          simp [numbersOf,hk]
        rw [hstep,heq,Function.update_of_ne (Ne.symm hk),List.count_cons_of_ne hk]

theorem length_numbersOf (pool : κ → List ℤ) (last : ℤ) (ks : List κ) (k : κ) :
    (numbersOf k (renumber pool last ks)).length = ks.count k := by
  have hkeys := keys_renumber pool last ks
  calc (numbersOf k (renumber pool last ks)).length
      = (renumber pool last ks).countP (fun e => e.1 = k) := by
        rw [numbersOf,List.length_map,List.countP_eq_length_filter]
    _ = ((renumber pool last ks).map Prod.fst).count k := by
        rw [List.count,List.countP_map]
        rfl
    _ = ks.count k := by rw [hkeys]

theorem mem_renumber {pool : κ → List ℤ} {last : ℤ} {ks : List κ} {e : κ × ℤ}
    (he : e ∈ renumber pool last ks) :
    e.2 ∈ pool e.1 ∨ (last < e.2 ∧ e.2 ≤ lastAfter pool last ks) := by
  induction ks generalizing pool last with
  | nil => simp [renumber] at he
  | cons k ks ih =>
    unfold renumber at he
    unfold lastAfter
    split at he <;> rename_i hk
    · have hmono := last_le_lastAfter pool (last+1) ks
      rcases List.mem_cons.mp he with rfl | he
      · exact Or.inr ⟨Int.lt_succ last,by simpa [hk] using hmono⟩
      · rcases ih he with h | ⟨h₁,h₂⟩
        · exact Or.inl h
        · exact Or.inr ⟨by omega,by simpa [hk] using h₂⟩
    · rcases List.mem_cons.mp he with rfl | he
      · exact Or.inl (by simp [hk])
      · rcases ih he with h | ⟨h₁,h₂⟩
        · exact Or.inl (mem_update hk h)
        · exact Or.inr ⟨h₁,by simpa [hk] using h₂⟩

theorem nodup_renumber {pool : κ → List ℤ} {last : ℤ} (h : Supply pool last) (ks : List κ) :
    ((renumber pool last ks).map Prod.snd).Nodup := by
  induction ks generalizing pool last with
  | nil => simp [renumber]
  | cons k ks ih =>
    unfold renumber
    split <;> rename_i hk <;> rw [List.map_cons,List.nodup_cons]
    · refine ⟨?_,ih (supply_fresh h)⟩
      intro hmem
      obtain ⟨e,he,hlast⟩ := List.mem_map.mp hmem
      simp only at hlast
      rcases mem_renumber he with hp | ⟨hp,-⟩
      · have := h.bounded _ _ hp
        omega
      · omega
    · rename_i c rest
      refine ⟨?_,ih (supply_take h hk)⟩
      intro hmem
      obtain ⟨e,he,hc⟩ := List.mem_map.mp hmem
      simp only at hc
      have hle : c ≤ last := h.bounded k c (by simp [hk])
      rcases mem_renumber he with hp | ⟨hp,-⟩
      · rw [hc] at hp
        exact taken_gone h hk e.1 hp
      · omega

/-- No arrival gets a new number exactly when no key arrives more often than
its queue is long. -/
theorem all_old_iff {pool : κ → List ℤ} {last : ℤ} (h : Supply pool last) (ks : List κ) :
    (∀ e ∈ renumber pool last ks, e.2 ≤ last) ↔ ∀ k, ks.count k ≤ (pool k).length := by
  constructor
  · intro hold k
    obtain ⟨fresh,heq,hfresh⟩ := numbersOf_renumber pool last ks k
    have hlen := length_numbersOf pool last ks k
    cases fresh with
    | nil =>
      rw [heq] at hlen
      simp only [List.append_nil,List.length_take] at hlen
      omega
    | cons i fresh =>
      have hi : i ∈ numbersOf k (renumber pool last ks) := by simp [heq]
      obtain ⟨e,he,rfl⟩ := List.mem_map.mp hi
      have hle := hold e (List.mem_filter.mp he).1
      have hlt := hfresh e.2 (by simp)
      omega
  · intro hcount e he
    obtain ⟨fresh,heq,-⟩ := numbersOf_renumber pool last ks e.1
    have hlen := length_numbersOf pool last ks e.1
    have hmem : e.2 ∈ numbersOf e.1 (renumber pool last ks) :=
      List.mem_map.mpr ⟨e,List.mem_filter.mpr ⟨he,by simp⟩,rfl⟩
    have hnil : fresh = [] := by
      rw [heq,List.length_append,List.length_take] at hlen
      have := hcount e.1
      exact List.eq_nil_of_length_eq_zero (by omega)
    rw [heq,hnil,List.append_nil] at hmem
    exact h.bounded e.1 e.2 (List.mem_of_mem_take hmem)

end Whoisthat.Renumbering
