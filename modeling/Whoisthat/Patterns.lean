import Mathlib.Data.List.TakeWhile
import Mathlib.Data.Nat.Notation

/-!
# Searching with a pattern

A pattern gives all ways to match at the beginning of a list, in order of
preference, each with a result and what is left. A repetition prefers to take
more. A search takes the first way at the first place where there is one, and a
replacement goes on behind each place it finds.
-/

set_option autoImplicit false

namespace Whoisthat.Patterns

variable {α β : Type}

abbrev Pattern (α β : Type) := List α → List (β × List α)

section Definitions

variable [DecidableEq α]

/-- One element. -/
def exactly (c : α) : Pattern α Unit
  | [] => []
  | x::s => if x = c then [((),s)] else []

/-- One element or more of a class, as many as possible first. -/
def plus (p : α → Bool) : Pattern α (List α)
  | [] => []
  | x::s =>
    if p x = true then (plus p s).map (fun r => (x::r.1,r.2)) ++ [([x],s)] else []

/-- One pattern behind another, with the result of the second. -/
def followedBy {γ : Type} (m : Pattern α γ) (k : Pattern α β) : Pattern α β :=
  fun s => (m s).flatMap fun r => k r.2

def find (m : Pattern α β) : List α → Option β
  | [] => ((m []).head?).map Prod.fst
  | x::s =>
    match (m (x::s)).head? with
    | some r => some r.1
    | none => find m s

end Definitions

section Repetition

variable {p : α → Bool} {x : α} {s rest : List α}

/-- No way to go on where the next element is of another class. -/
theorem plus_stop (h : ∀ x ∈ s.head?, p x = false) : plus p s = [] := by
  cases s with
  | nil => rfl
  | cons x s =>
    rw [plus,h x rfl]
    rfl

/-- The first way takes all that is of the class. -/
theorem plus_head {run : List α} (hne : run ≠ []) (hrun : ∀ x ∈ run, p x = true)
    (hrest : ∀ x ∈ rest.head?, p x = false) :
    (plus p (run ++ rest)).head? = some (run,rest) := by
  induction run with
  | nil => exact absurd rfl hne
  | cons x run ih =>
    have hx : p x = true := hrun x List.mem_cons_self
    rw [List.cons_append,plus,if_pos hx]
    by_cases hnil : run = []
    · subst hnil
      rw [List.nil_append,plus_stop hrest]
      rfl
    · have hmore := ih hnil fun y hy => hrun y (List.mem_cons_of_mem x hy)
      rw [List.head?_append,List.head?_map,hmore]
      rfl

variable (m : Pattern α β)

theorem followedBy_plus (hx : p x = true) (s : List α) :
    followedBy (plus p) m (x::s) = followedBy (plus p) m s ++ m s := by
  simp [followedBy,plus,hx,List.flatMap_map]

theorem followedBy_stop (h : ∀ x ∈ s.head?, p x = false) : followedBy (plus p) m s = [] := by
  rw [followedBy,plus_stop h]
  rfl

/-- Nothing is found in a run behind which there is no way to go on. -/
theorem followedBy_none {run : List α} (hrun : ∀ x ∈ run, p x = true)
    (hrest : ∀ x ∈ rest.head?, p x = false)
    (hm : ∀ back, back <:+ run.tail → m (back ++ rest) = []) :
    followedBy (plus p) m (run ++ rest) = [] := by
  induction run with
  | nil => exact followedBy_stop m hrest
  | cons x run ih =>
    have hback : m (run ++ rest) = [] := hm run (List.suffix_refl run)
    rw [List.cons_append,followedBy_plus m (hrun x List.mem_cons_self),hback,List.append_nil]
    exact ih (fun y hy => hrun y (List.mem_cons_of_mem x hy)) fun back hb =>
      hm back (hb.trans (List.tail_suffix run))

/-- A run ends at the last place behind which there is a way to go on. -/
theorem followedBy_last {run back : List α} (hne : run ≠ []) (hrun : ∀ x ∈ run, p x = true)
    (hm : m back ≠ []) (hno : followedBy (plus p) m back = []) :
    (followedBy (plus p) m (run ++ back)).head? = (m back).head? := by
  induction run with
  | nil => exact absurd rfl hne
  | cons x run ih =>
    rw [List.cons_append,followedBy_plus m (hrun x List.mem_cons_self)]
    by_cases hnil : run = []
    · subst hnil
      rw [List.nil_append,hno,List.nil_append]
    · have hmore := ih hnil fun y hy => hrun y (List.mem_cons_of_mem x hy)
      rw [List.head?_append,hmore]
      exact Option.or_of_isSome (List.isSome_head?.mpr hm)

end Repetition

section Search

variable [DecidableEq α] {m : Pattern α β} {c : α}

theorem exactly_other {s : List α} (h : s.head? ≠ some c) : exactly c s = [] := by
  cases s with
  | nil => rfl
  | cons x s => exact if_neg fun hx => h (congrArg some hx)

theorem exactly_hit (c : α) (s : List α) : exactly c (c::s) = [((),s)] := if_pos rfl

theorem followedBy_hit (c : α) (s : List α) : followedBy (exactly c) m (c::s) = m s := by
  simp [followedBy,exactly_hit]

theorem followedBy_other {s : List α} (h : s.head? ≠ some c) : followedBy (exactly c) m s = [] := by
  rw [followedBy,exactly_other h]
  rfl

/-- A search for a pattern with a first element skips what does not have it. -/
theorem find_skip {front : List α} (h : c ∉ front) (back : List α) :
    find (followedBy (exactly c) m) (front ++ back) = find (followedBy (exactly c) m) back := by
  induction front with
  | nil => rfl
  | cons x front ih =>
    have hx : (x::(front ++ back)).head? ≠ some c := fun hx =>
      h (List.mem_cons.mpr (.inl (Option.some.inj hx).symm))
    rw [List.cons_append,find,followedBy_other hx]
    exact ih fun hc => h (List.mem_cons_of_mem x hc)

theorem find_free {s : List α} (h : c ∉ s) : find (followedBy (exactly c) m) s = none := by
  have hskip := find_skip (m := m) h []
  rw [List.append_nil] at hskip
  rw [hskip]
  rfl

omit [DecidableEq α] in
theorem find_hit {s : List α} {r : β × List α} (h : (m s).head? = some r) :
    find m s = some r.1 := by
  cases s with
  | nil => rw [find,h,Option.map_some]
  | cons x s => rw [find,h]

end Search

section Replacement

/-- Each match becomes `new`, where `m` tells how many elements match at the beginning
of a list; the first argument counts those still to be skipped. -/
def replaceAfter (m : List α → ℕ) (new : List α) : ℕ → List α → List α
  | _,[] => []
  | skip+1,_::t => replaceAfter m new skip t
  | 0,c::t =>
    match m (c::t) with
    | 0 => c::replaceAfter m new 0 t
    | n+1 => new ++ replaceAfter m new n t

def replaceAll (m : List α → ℕ) (new s : List α) : List α := replaceAfter m new 0 s

variable {m : List α → ℕ} {new : List α}

theorem replaceAfter_skip (n : ℕ) (s : List α) :
    replaceAfter m new n s = replaceAll m new (s.drop n) := by
  induction s generalizing n with
  | nil => cases n <;> rfl
  | cons c t ih =>
    cases n with
    | zero => rfl
    | succ n => exact ih n

theorem replaceAll_miss {c : α} {t : List α} (h : m (c::t) = 0) :
    replaceAll m new (c::t) = c::replaceAll m new t := by
  rw [replaceAll,replaceAfter,h]
  rfl

theorem replaceAll_hit {c : α} {t : List α} {n : ℕ} (h : m (c::t) = n+1) :
    replaceAll m new (c::t) = new ++ replaceAll m new ((c::t).drop (n+1)) := by
  rw [replaceAll,replaceAfter,h]
  exact congrArg (new ++ ·) (replaceAfter_skip n t)

/-- What no match begins in stays. -/
theorem replaceAll_keep {front behind : List α}
    (h : ∀ a b, a ++ b = front → b ≠ [] → m (b ++ behind) = 0) :
    replaceAll m new (front ++ behind) = front ++ replaceAll m new behind := by
  induction front with
  | nil => rfl
  | cons c front ih =>
    have hmiss : m (c::(front ++ behind)) = 0 := h [] (c::front) rfl (List.cons_ne_nil c front)
    rw [List.cons_append,replaceAll_miss hmiss,
      ih fun a b hab hb => h (c::a) b (congrArg (c::·) hab) hb]
    rfl

end Replacement

end Whoisthat.Patterns
