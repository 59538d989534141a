import Mathlib.Data.List.Find
import Mathlib.Data.List.Infix

/-!
# Splitting at separators of any length

A text is trimmed and split into fields at a given set of separators, each a
sequence of letters. Text without separators is one field, and at a separator
of one letter that is part of no other the fields of both sides are put
together. Letters are a parameter.
-/

set_option autoImplicit false

namespace Whoisthat.Separators

variable {α : Type} [DecidableEq α]

/-- How long the separator in front of a text is. -/
def front (seps : List (List α)) (s : List α) : ℕ :=
  match seps.find? fun w => w.isPrefixOf s with
  | some w => w.length
  | none => 0

/-- The text after `skip` letters of a separator and the separators behind it. -/
def dropFrom (seps : List (List α)) : ℕ → List α → List α
  | _,[] => []
  | skip+1,_::t => dropFrom seps skip t
  | 0,a::t =>
    match front seps (a::t) with
    | 0 => a::t
    | w+1 => dropFrom seps w t

def trimFront (seps : List (List α)) (s : List α) : List α := dropFrom seps 0 s

def trimEnd (seps : List (List α)) (s : List α) : List α :=
  (trimFront (seps.map List.reverse) s.reverse).reverse

def trim (seps : List (List α)) (s : List α) : List α := trimEnd seps (trimFront seps s)

def emit (field : List α) (rest : List (List α)) : List (List α) :=
  if field = [] then rest else field :: rest

/-- The fields of a text after `skip` letters of a separator, where `field` has
been read of the first. -/
def fieldsFrom (seps : List (List α)) (field : List α) : ℕ → List α → List (List α)
  | _,[] => emit field []
  | skip+1,_::t => fieldsFrom seps field skip t
  | 0,a::t =>
    match front seps (a::t) with
    | 0 => fieldsFrom seps (field ++ [a]) 0 t
    | w+1 => emit field (fieldsFrom seps [] w t)

def fields (seps : List (List α)) (s : List α) : List (List α) := fieldsFrom seps [] 0 s

/-- No separator anywhere. -/
def Free (seps : List (List α)) (s : List α) : Prop := ∀ w ∈ seps, ¬w <:+: s

/-- A letter of a separator. -/
def Separating (seps : List (List α)) (a : α) : Prop := ∃ w ∈ seps, a ∈ w

variable {seps : List (List α)} {s : List α}

theorem front_some {n : ℕ} (h : front seps s = n+1) : ∃ w ∈ seps, w <+: s ∧ w.length = n+1 := by
  unfold front at h
  split at h
  · rename_i w hw
    exact ⟨w,List.mem_of_find?_eq_some hw,
      List.isPrefixOf_iff_prefix.mp (by simpa using List.find?_some hw),h⟩
  · cases h

theorem front_free (h : ∀ w ∈ seps, ¬w <+: s) : front seps s = 0 := by
  have hnone : (seps.find? fun w => w.isPrefixOf s) = none :=
    List.find?_eq_none.mpr fun w hw hp => h w hw (List.isPrefixOf_iff_prefix.mp (by simpa using hp))
  rw [front,hnone]

section Trimming

theorem dropFrom_spec (skip : ℕ) (s : List α) :
    ∃ gone, s = gone ++ dropFrom seps skip s ∧ ∀ a ∈ gone.drop skip, Separating seps a := by
  induction s generalizing skip with
  | nil => exact ⟨[],by simp [dropFrom],by simp⟩
  | cons a t ih =>
    cases skip with
    | succ skip =>
      obtain ⟨gone,hsplit,hgone⟩ := ih skip
      refine ⟨a::gone,?_,hgone⟩
      rw [dropFrom,List.cons_append,← hsplit]
    | zero =>
      rw [dropFrom]
      split
      · exact ⟨[],rfl,by simp⟩
      · rename_i w hw
        obtain ⟨gone,hsplit,hgone⟩ := ih w
        obtain ⟨sep,hsep,hstarts,hlen⟩ := front_some hw
        refine ⟨a::gone,by rw [List.cons_append,← hsplit],fun b hb => ?_⟩
        rw [List.drop_zero] at hb
        have htake : (a::t).take (w+1) = sep := by
          rw [← hlen]
          exact (List.prefix_iff_eq_take.mp hstarts).symm
        rw [← List.take_append_drop (w+1) (a::gone),List.mem_append] at hb
        rcases hb with hb | hb
        · refine ⟨sep,hsep,htake ▸ ?_⟩
          rw [hsplit,← List.cons_append,List.take_append]
          exact List.mem_append_left _ hb
        · exact hgone b hb

theorem trimFront_spec (seps : List (List α)) (s : List α) :
    ∃ gone, s = gone ++ trimFront seps s ∧ ∀ a ∈ gone, Separating seps a :=
  dropFrom_spec 0 s

theorem trim_spec (seps : List (List α)) (s : List α) :
    ∃ before after, s = before ++ trim seps s ++ after ∧
      (∀ a ∈ before, Separating seps a) ∧ ∀ a ∈ after, Separating seps a := by
  obtain ⟨before,hbefore,hsepb⟩ := trimFront_spec seps s
  obtain ⟨after,hafter,hsepa⟩ := trimFront_spec (seps.map List.reverse) (trimFront seps s).reverse
  refine ⟨before,after.reverse,?_,hsepb,fun a ha => ?_⟩
  · have hmiddle : trimFront seps s = trim seps s ++ after.reverse := by
      rw [trim,trimEnd,← List.reverse_append,← hafter,List.reverse_reverse]
    rw [List.append_assoc,← hmiddle,← hbefore]
  · obtain ⟨w,hw,haw⟩ := hsepa a (List.mem_reverse.mp ha)
    obtain ⟨sep,hsep,rfl⟩ := List.mem_map.mp hw
    exact ⟨sep,hsep,List.mem_reverse.mp haw⟩

theorem mem_of_trim {a : α} (h : a ∈ trim seps s) : a ∈ s := by
  obtain ⟨before,after,hsplit,-,-⟩ := trim_spec seps s
  rw [hsplit]
  simp [h]

theorem trimFront_of_front (h : ∀ w ∈ seps, ¬w <+: s) : trimFront seps s = s := by
  cases s with
  | nil => rfl
  | cons a t => rw [trimFront,dropFrom,front_free h]

theorem trimEnd_of_end (h : ∀ w ∈ seps, ¬w <:+ s) : trimEnd seps s = s := by
  rw [trimEnd,trimFront_of_front,List.reverse_reverse]
  intro w hw hstarts
  obtain ⟨sep,hsep,rfl⟩ := List.mem_map.mp hw
  exact h sep hsep (List.reverse_prefix.mp hstarts)

/-- Trimming leaves a text alone that separators neither begin nor end. -/
theorem trim_of_ends (hfront : ∀ w ∈ seps, ¬w <+: s) (hend : ∀ w ∈ seps, ¬w <:+ s) :
    trim seps s = s := by
  rw [trim,trimFront_of_front hfront,trimEnd_of_end hend]

theorem trim_free (h : Free seps s) : trim seps s = s :=
  trim_of_ends (fun w hw hp => h w hw hp.isInfix) fun w hw hs => h w hw hs.isInfix

end Trimming

section Fields

omit [DecidableEq α] in
theorem emit_append (field : List α) (rest more : List (List α)) :
    emit field (rest ++ more) = emit field rest ++ more := by
  unfold emit
  split <;> rfl

omit [DecidableEq α] in
theorem mem_emit {field f : List α} {rest : List (List α)} (h : f ∈ emit field rest) :
    f = field ∨ f ∈ rest := by
  unfold emit at h
  split at h
  · exact .inr h
  · exact List.mem_cons.mp h

theorem fieldsFrom_mem {field f : List α} {skip : ℕ} {a : α}
    (h : f ∈ fieldsFrom seps field skip s) (ha : a ∈ f) : a ∈ field ∨ a ∈ s := by
  induction s generalizing field skip with
  | nil =>
    rw [fieldsFrom] at h
    rcases mem_emit h with rfl | hnil
    · exact .inl ha
    · cases hnil
  | cons b t ih =>
    cases skip with
    | succ skip =>
      rw [fieldsFrom] at h
      exact (ih h).imp_right fun hin => List.mem_cons_of_mem b hin
    | zero =>
      rw [fieldsFrom] at h
      split at h
      · have hmem := ih h
        simp only [List.mem_append,List.mem_cons,List.not_mem_nil,or_false] at hmem ⊢
        tauto
      · rcases mem_emit h with rfl | hrest
        · exact .inl ha
        · exact .inr (List.mem_cons_of_mem b ((ih hrest).resolve_left List.not_mem_nil))

theorem mem_of_field {f : List α} {a : α} (h : f ∈ fields seps s) (ha : a ∈ f) : a ∈ s :=
  (fieldsFrom_mem h ha).resolve_left List.not_mem_nil

theorem fieldsFrom_free (h : Free seps s) (field : List α) :
    fieldsFrom seps field 0 s = emit (field ++ s) [] := by
  induction s generalizing field with
  | nil => rw [fieldsFrom,List.append_nil]
  | cons a t ih =>
    have htail : Free seps t := fun w hw hin => h w hw (hin.trans (List.suffix_cons a t).isInfix)
    rw [fieldsFrom,front_free fun w hw hp => h w hw hp.isInfix]
    show fieldsFrom seps (field ++ [a]) 0 t = emit (field ++ a::t) []
    rw [ih htail,List.append_assoc]
    rfl

theorem fields_free (h : Free seps s) (hne : s ≠ []) : fields seps s = [s] := by
  rw [fields,fieldsFrom_free h,List.nil_append,emit,if_neg hne]

/-- A separator of one letter that is part of no other. -/
structure Lone (seps : List (List α)) (c : α) : Prop where
  mem : [c] ∈ seps
  only : ∀ w ∈ seps, c ∈ w → w = [c]
  proper : [] ∉ seps

variable {c : α}

theorem front_lone (h : Lone seps c) (b : List α) : front seps (c::b) = 1 := by
  cases hfront : front seps (c::b) with
  | zero =>
    unfold front at hfront
    split at hfront
    · rename_i w hw
      exact absurd (List.length_eq_zero_iff.mp hfront ▸ List.mem_of_find?_eq_some hw) h.proper
    · rename_i hnone
      have := List.find?_eq_none.mp hnone [c] h.mem
      simp at this
  | succ n =>
    obtain ⟨w,hw,hstarts,hlen⟩ := front_some hfront
    cases w with
    | nil => cases hlen
    | cons a w =>
      obtain ⟨rfl,-⟩ := List.cons_prefix_cons.mp hstarts
      rw [← hlen,h.only _ hw List.mem_cons_self]
      rfl

omit [DecidableEq α] in
theorem prefix_lone (h : Lone seps c) {w : List α} (hw : w ∈ seps) {a : List α} (ha : a ≠ [])
    (b : List α) : w <+: a ++ c::b ↔ w <+: a := by
  constructor
  · intro hp
    rcases Nat.lt_or_ge a.length w.length with hlong | hshort
    · have hin : a ++ [c] <+: w := List.prefix_of_prefix_length_le
        ((List.prefix_append_right_inj a).mpr (List.prefix_append [c] b)) hp
        (by rw [List.length_append,List.length_singleton]; exact hlong)
      have hone := h.only w hw (hin.subset (by simp))
      rw [hone,List.length_singleton,Nat.lt_one_iff] at hlong
      exact absurd (List.length_eq_zero_iff.mp hlong) ha
    · exact List.prefix_of_prefix_length_le hp (List.prefix_append a (c::b)) hshort
  · exact fun hp => hp.trans (List.prefix_append a (c::b))

theorem front_append (h : Lone seps c) {a : List α} (ha : a ≠ []) (b : List α) :
    front seps (a ++ c::b) = front seps a := by
  have hsame : (seps.find? fun w => w.isPrefixOf (a ++ c::b)) =
      seps.find? fun w => w.isPrefixOf a := by
    refine List.find?_congr fun w hw => ?_
    rw [Bool.eq_iff_iff,List.isPrefixOf_iff_prefix,List.isPrefixOf_iff_prefix,prefix_lone h hw ha]
  rw [front,hsame,front]

theorem front_le (a : List α) : front seps a ≤ a.length := by
  cases hfront : front seps a with
  | zero => exact Nat.zero_le _
  | succ n =>
    obtain ⟨w,-,hstarts,hlen⟩ := front_some hfront
    rw [← hlen]
    exact hstarts.length_le

theorem fieldsFrom_append (h : Lone seps c) (b : List α) {a field : List α} {skip : ℕ}
    (hskip : skip ≤ a.length) :
    fieldsFrom seps field skip (a ++ c::b) = fieldsFrom seps field skip a ++ fields seps b := by
  induction a generalizing field skip with
  | nil =>
    rw [List.length_nil,Nat.le_zero] at hskip
    rw [hskip,List.nil_append,show fieldsFrom seps field 0 [] = emit field [] from rfl,
      ← emit_append,fieldsFrom,front_lone h]
    rfl
  | cons x a ih =>
    cases skip with
    | succ skip =>
      rw [List.cons_append,fieldsFrom,fieldsFrom,ih (Nat.le_of_succ_le_succ hskip)]
    | zero =>
      have hfront := front_append h (List.cons_ne_nil x a) b
      rw [List.cons_append] at hfront
      rw [List.cons_append,fieldsFrom,hfront,fieldsFrom]
      cases hw : front seps (x::a) with
      | zero => exact ih (Nat.zero_le _)
      | succ w =>
        have hle : w+1 ≤ (x::a).length := hw ▸ front_le (x::a)
        show emit field (fieldsFrom seps [] w (a ++ c::b)) = _
        rw [ih (Nat.le_of_succ_le_succ hle),emit_append]

/-- The fields of both sides of such a separator. -/
theorem fields_append (h : Lone seps c) (a b : List α) :
    fields seps (a ++ c::b) = fields seps a ++ fields seps b :=
  fieldsFrom_append h b (Nat.zero_le _)

end Fields

end Whoisthat.Separators
