import Mathlib.Data.List.TakeWhile
import Whoisthat.Occurrences

/-!
# Cutting a list at a delimiter

What stands before and after the first occurrence of an element, and where the
last one is. A list that contains the element is cut into two parts of which the
one in front, or the one behind, is free of it.
-/

set_option autoImplicit false

namespace Whoisthat.Delimiters
open Whoisthat.Occurrences

variable {α : Type} [DecidableEq α] {c : α} {a b s : List α}

/-- The part in front of the first `c`, or all. -/
def before (c : α) (s : List α) : List α := s.takeWhile fun x => x ≠ c

/-- The part behind the first `c`, or nothing. -/
def after (c : α) (s : List α) : List α := (s.dropWhile fun x => x ≠ c).tail

def lastIndex (c : α) : List α → Option ℕ
  | [] => none
  | x::s =>
    match lastIndex c s with
    | some k => some (k+1)
    | none => if x = c then some 0 else none

def trimPrefix (p s : List α) : List α := if p.isPrefixOf s then s.drop p.length else s

def trimSuffix (p s : List α) : List α := if p.isSuffixOf s then s.take (s.length-p.length) else s

section First

omit [DecidableEq α] in
theorem first_cut (h : c ∈ s) : ∃ a b, s = a ++ c::b ∧ c ∉ a := List.eq_append_cons_of_mem h

theorem before_cut (h : c ∉ a) : before c (a ++ c::b) = a := by
  have hall : ∀ x ∈ a, decide (x ≠ c) = true := fun x hx =>
    decide_eq_true fun heq => h (heq ▸ hx)
  rw [before,List.takeWhile_append_of_pos hall]
  simp

theorem after_cut (h : c ∉ a) : after c (a ++ c::b) = b := by
  have hall : ∀ x ∈ a, decide (x ≠ c) = true := fun x hx =>
    decide_eq_true fun heq => h (heq ▸ hx)
  rw [after,List.dropWhile_append_of_pos hall]
  simp

theorem before_free (h : c ∉ s) : before c s = s :=
  List.takeWhile_eq_self_iff.mpr fun _ hx => decide_eq_true fun heq => h (heq ▸ hx)

theorem after_free (h : c ∉ s) : after c s = [] := by
  have hnil : (s.dropWhile fun x => x ≠ c) = [] :=
    List.dropWhile_eq_nil_iff.mpr fun x hx => decide_eq_true fun heq => h (heq ▸ hx)
  rw [after,hnil]
  rfl

theorem not_mem_before (c : α) (s : List α) : c ∉ before c s := fun h => by
  have hc := List.mem_takeWhile_imp h
  simp at hc

/-- What is cut off begins with the delimiter. -/
theorem before_append (c : α) (s : List α) :
    ∃ rest, s = before c s ++ rest ∧ ∀ x ∈ rest.head?, x = c := by
  by_cases h : c ∈ s
  · obtain ⟨a,b,rfl,ha⟩ := first_cut h
    refine ⟨c::b,by rw [before_cut ha],?_⟩
    rintro x ⟨⟩
    rfl
  · refine ⟨[],by rw [before_free h,List.append_nil],?_⟩
    rintro x ⟨⟩

theorem before_sublist (c : α) (s : List α) : (before c s).Sublist s := List.takeWhile_sublist _

theorem after_sublist (c : α) (s : List α) : (after c s).Sublist s :=
  (List.tail_sublist _).trans (List.dropWhile_sublist _)

theorem mem_of_before {x : α} (h : x ∈ before c s) : x ∈ s := (before_sublist c s).subset h

theorem mem_of_after {x : α} (h : x ∈ after c s) : x ∈ s := (after_sublist c s).subset h

theorem index_cut (h : c ∉ a) (b : List α) : index [c] (a ++ c::b) = some a.length := by
  induction a with
  | nil => simp [index]
  | cons x a ih =>
    have hne : c ≠ x := fun heq => h (heq ▸ List.mem_cons_self)
    rw [List.cons_append,index,if_neg (by simp [hne]),
      ih fun hc => h (List.mem_cons_of_mem x hc)]
    rfl

/-- A word whose first element occurs nowhere in front of it. -/
theorem index_word (h : c ∉ a) (p b : List α) :
    index (c::p) (a ++ c::p ++ b) = some a.length := by
  induction a with
  | nil =>
    have hp : (c::p).isPrefixOf (c::(p ++ b)) = true :=
      List.isPrefixOf_iff_prefix.mpr (List.prefix_append (c::p) b)
    rw [List.nil_append,List.cons_append,index,if_pos hp]
    rfl
  | cons x a ih =>
    have hne : c ≠ x := fun heq => h (heq ▸ List.mem_cons_self)
    rw [List.cons_append,List.cons_append,index,if_neg (by simp [hne]),
      ih fun hc => h (List.mem_cons_of_mem x hc)]
    rfl

theorem index_free (h : c ∉ s) : index [c] s = none := by
  induction s with
  | nil => rfl
  | cons x s ih =>
    have hne : c ≠ x := fun heq => h (heq ▸ List.mem_cons_self)
    rw [index,if_neg (by simp [hne]),ih fun hc => h (List.mem_cons_of_mem x hc)]
    rfl

omit [DecidableEq α] in
theorem mem_intercalate {x : α} {parts : List (List α)} (h : x ∈ [c].intercalate parts) :
    x = c ∨ ∃ part ∈ parts, x ∈ part := by
  induction parts with
  | nil => cases h
  | cons part parts ih =>
    by_cases hnil : parts = []
    · subst hnil
      rw [List.intercalate_singleton] at h
      exact .inr ⟨part,List.mem_cons_self,h⟩
    · rw [List.intercalate_cons_of_ne_nil hnil] at h
      rcases List.mem_append.mp h with hfront | hin
      · rcases List.mem_append.mp hfront with hin | hc
        · exact .inr ⟨part,List.mem_cons_self,hin⟩
        · exact .inl (List.mem_singleton.mp hc)
      · exact (ih hin).imp_right fun ⟨p,hp,hx⟩ => ⟨p,List.mem_cons_of_mem _ hp,hx⟩

end First

section Last

omit [DecidableEq α] in
theorem last_cut (h : c ∈ s) : ∃ a b, s = a ++ c::b ∧ c ∉ b := by
  obtain ⟨a,b,hs,ha⟩ := List.eq_append_cons_of_mem (List.mem_reverse.mpr h)
  refine ⟨b.reverse,a.reverse,?_,fun hc => ha (List.mem_reverse.mp hc)⟩
  rw [← List.reverse_reverse s,hs]
  simp

theorem lastIndex_free (h : c ∉ s) : lastIndex c s = none := by
  induction s with
  | nil => rfl
  | cons x s ih =>
    have hne : x ≠ c := fun heq => h (heq ▸ List.mem_cons_self)
    rw [lastIndex,ih fun hc => h (List.mem_cons_of_mem x hc)]
    exact if_neg hne

theorem lastIndex_cut (a : List α) (h : c ∉ b) : lastIndex c (a ++ c::b) = some a.length := by
  induction a with
  | nil => simp [lastIndex,lastIndex_free h]
  | cons x a ih =>
    rw [List.cons_append,lastIndex,ih]
    rfl

/-- There is one way to cut at the last occurrence. -/
theorem last_cut_unique {a' b' : List α} (h : c ∉ b) (h' : c ∉ b')
    (heq : a ++ c::b = a' ++ c::b') : a = a' ∧ b = b' := by
  have hlen : a.length = a'.length := by
    have hi := lastIndex_cut a h
    rw [heq,lastIndex_cut a' h'] at hi
    exact (Option.some.inj hi).symm
  obtain ⟨ha,hb⟩ := List.append_inj heq hlen
  exact ⟨ha,(List.cons.inj hb).2⟩

theorem first_cut_unique {a' b' : List α} (h : c ∉ a) (h' : c ∉ a')
    (heq : a ++ c::b = a' ++ c::b') : a = a' ∧ b = b' := by
  have ha := before_cut (b := b) h
  have hb := after_cut (b := b) h
  rw [heq,before_cut h'] at ha
  rw [heq,after_cut h'] at hb
  exact ⟨ha.symm,hb.symm⟩

end Last

section Trimming

theorem trimPrefix_hit (p s : List α) : trimPrefix p (p ++ s) = s := by
  rw [trimPrefix,if_pos (List.isPrefixOf_iff_prefix.mpr (List.prefix_append p s)),
    List.drop_left]

theorem trimPrefix_miss {p s : List α} (h : ¬p <+: s) : trimPrefix p s = s :=
  if_neg fun hp => h (List.isPrefixOf_iff_prefix.mp hp)

theorem trimSuffix_hit (p s : List α) : trimSuffix p (s ++ p) = s := by
  rw [trimSuffix,if_pos (List.isSuffixOf_iff_suffix.mpr (List.suffix_append s p))]
  simp

theorem trimSuffix_miss {p s : List α} (h : ¬p <:+ s) : trimSuffix p s = s :=
  if_neg fun hp => h (List.isSuffixOf_iff_suffix.mp hp)

theorem trimSuffix_free (h : c ∉ s) : trimSuffix [c] s = s :=
  trimSuffix_miss fun hs => h (hs.subset List.mem_cons_self)

theorem trimPrefix_free (h : c ∉ s) : trimPrefix [c] s = s :=
  trimPrefix_miss fun hs => h (hs.subset List.mem_cons_self)

end Trimming

end Whoisthat.Delimiters
