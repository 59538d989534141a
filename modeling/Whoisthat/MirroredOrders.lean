import Whoisthat.Listings
import Whoisthat.TreeEvents

/-!
# Orders kept in two places

A listing by an order is determined by what is stored. It grows at its end when a new
number is put behind the order, shrinks with the order, and another order of the same
numbers arranges it anew. A list of keyed elements follows: by appending, by leaving out
a key, by taking the keys of an order one after the other.
-/

set_option autoImplicit false

namespace Whoisthat.MirroredOrders
open Whoisthat.FirstFound (modifyFirst modifyFirst_cons_pos modifyFirst_cons_neg)
open Whoisthat.Listings (ListedBy)
open Whoisthat.TreeEvents (mapOf takeInOrder rebuild)

section Listed

variable {stored : ℤ → Prop} {order listed other : List ℤ} {n : ℤ}

theorem listed_unique (h : ListedBy stored order listed) (h' : ListedBy stored order other) :
    listed = other := by
  have hperm : listed.Perm other := by
    apply (List.perm_ext_iff_of_nodup h.once h'.once).mpr
    intro n
    exact (h.all n).trans (h'.all n).symm
  refine List.Perm.eq_of_pairwise (fun a b _ _ hab hba => ?_) h.ordered h'.ordered hperm
  omega

/-- A list without repetitions is its own order. -/
theorem listed_self (hn : listed.Nodup) (h : ∀ m, m ∈ listed ↔ stored m) :
    ListedBy stored listed listed := by
  refine ⟨hn,h,?_⟩
  rw [List.pairwise_iff_getElem]
  intro i j hi hj hij
  left
  rw [hn.idxOf_getElem i hi,hn.idxOf_getElem j hj]
  exact hij

theorem listed_nil (order : List ℤ) (h : ∀ n, ¬stored n) : ListedBy stored order [] :=
  ⟨List.nodup_nil,fun n => iff_of_false (by simp) (h n),.nil⟩

/-- A new number behind an order that mentions all that is stored. -/
theorem listed_push (h : ListedBy stored order listed) (hc : ∀ m, stored m → m ∈ order)
    (hn : n ∉ order) : ListedBy (fun m => stored m ∨ m = n) (order++[n]) (listed++[n]) := by
  have hold : ∀ a ∈ listed, a ∈ order := fun a ha => hc a ((h.all a).mp ha)
  have hnew : n ∉ listed := fun hin => hn (hold n hin)
  constructor
  · refine List.nodup_append.mpr ⟨h.once,List.nodup_singleton n,?_⟩
    rintro a ha b hb rfl
    exact hnew (List.mem_singleton.mp hb ▸ ha)
  · intro m
    simp [h.all m]
  · refine List.pairwise_append.mpr ⟨?_,List.pairwise_singleton _ _,?_⟩
    · refine h.ordered.imp_of_mem fun {a b} ha hb hab => ?_
      rw [List.idxOf_append_of_mem (hold a ha),List.idxOf_append_of_mem (hold b hb)]
      exact hab
    · intro a ha b hb
      obtain rfl := List.mem_singleton.mp hb
      left
      rw [List.idxOf_append_of_mem (hold a ha),List.idxOf_append_of_notMem hn]
      have hlt := List.idxOf_lt_length_of_mem (hold a ha)
      omega

theorem idxOf_filter {a b : ℤ} (order : List ℤ) (ha : a ≠ n) (hb : b ≠ n) :
    (order.filter (· ≠ n)).idxOf a < (order.filter (· ≠ n)).idxOf b ↔
      order.idxOf a < order.idxOf b := by
  induction order with
  | nil => simp
  | cons m order ih =>
    by_cases hm : m = n
    · subst hm
      rw [List.filter_cons_of_neg (by simp),List.idxOf_cons_ne _ ha.symm,
        List.idxOf_cons_ne _ hb.symm,ih]
      omega
    · rw [List.filter_cons_of_pos (by simpa using hm)]
      by_cases hma : m = a
      · subst hma
        by_cases hmb : m = b
        · simp [hmb]
        · rw [List.idxOf_cons_self,List.idxOf_cons_self,List.idxOf_cons_ne _ hmb,
            List.idxOf_cons_ne _ hmb]
          omega
      · by_cases hmb : m = b
        · subst hmb
          simp
        · rw [List.idxOf_cons_ne _ hma,List.idxOf_cons_ne _ hma,List.idxOf_cons_ne _ hmb,
            List.idxOf_cons_ne _ hmb]
          omega

theorem listed_drop (h : ListedBy stored order listed) (n : ℤ) :
    ListedBy (fun m => stored m ∧ m ≠ n) (order.filter (· ≠ n)) (listed.filter (· ≠ n)) := by
  constructor
  · exact h.once.filter _
  · intro m
    simp [h.all m]
  · refine (h.ordered.filter _).imp_of_mem fun {a b} ha hb hab => ?_
    have hane : a ≠ n := by simpa using (List.mem_filter.mp ha).2
    have hbne : b ≠ n := by simpa using (List.mem_filter.mp hb).2
    have hab' := idxOf_filter order hane hbne
    have hba' := idxOf_filter order hbne hane
    omega

end Listed

section Keyed

variable {α β : Type} {key : α → Int32} {f : α → α} {i : Int32} {xs ys : List α}

theorem keys_modifyFirst (hf : ∀ x, key x = i → key (f x) = i) :
    (modifyFirst (fun x => key x = i) f xs).map key = xs.map key := by
  induction xs with
  | nil => rfl
  | cons x xs ih =>
    by_cases hi : key x = i
    · rw [modifyFirst_cons_pos (by simpa using hi),List.map_cons,List.map_cons,hf x hi,hi]
    · rw [modifyFirst_cons_neg (by simpa using hi),List.map_cons,List.map_cons,ih]

/-- The element with a key, of which there is one at most, is changed in place. -/
theorem mem_modifyFirst (hn : (xs.map key).Nodup) {y : α}
    (hy : y ∈ modifyFirst (fun x => key x = i) f xs) :
    (y ∈ xs ∧ key y ≠ i) ∨ ∃ x ∈ xs, key x = i ∧ y = f x := by
  induction xs with
  | nil => exact absurd hy (List.not_mem_nil)
  | cons x xs ih =>
    obtain ⟨hx,hxs⟩ := List.nodup_cons.mp hn
    by_cases hi : key x = i
    · rw [modifyFirst_cons_pos (by simpa using hi)] at hy
      cases List.mem_cons.mp hy with
      | inl he => exact .inr ⟨x,List.mem_cons_self,hi,he⟩
      | inr hy =>
        left
        refine ⟨List.mem_cons_of_mem _ hy,fun he => hx ?_⟩
        rw [hi,← he]
        exact List.mem_map_of_mem hy
    · rw [modifyFirst_cons_neg (by simpa using hi)] at hy
      cases List.mem_cons.mp hy with
      | inl he => exact .inl ⟨he ▸ List.mem_cons_self,he ▸ hi⟩
      | inr hy =>
        cases ih hxs hy with
        | inl h => exact .inl ⟨List.mem_cons_of_mem _ h.1,h.2⟩
        | inr h =>
          obtain ⟨z,hz,hk,he⟩ := h
          exact .inr ⟨z,List.mem_cons_of_mem _ hz,hk,he⟩

theorem modify_eq_modifyFirst {n : ℕ} {x : α} (hn : (xs.map key).Nodup)
    (hx : xs[n]? = some x) : xs.modify n f = modifyFirst (fun y => key y = key x) f xs := by
  induction xs generalizing n with
  | nil => cases hx
  | cons y xs ih =>
    obtain ⟨hy,hxs⟩ := List.nodup_cons.mp hn
    cases n with
    | zero =>
      obtain rfl := Option.some.inj hx
      rw [modifyFirst_cons_pos (by simp)]
      rfl
    | succ n =>
      have hin : x ∈ xs := List.mem_of_getElem? hx
      have hne : key y ≠ key x := fun he => hy (he ▸ List.mem_map_of_mem hin)
      rw [modifyFirst_cons_neg (by simpa using hne),List.modify_succ_cons,ih hxs hx]

/-- Lists with the same keys in the same order look the same when what has the same
key does. -/
theorem map_eq_of_keys {g : α → β} {k : α → ℤ} (hk : xs.map k = ys.map k)
    (h : ∀ x ∈ xs, ∀ y ∈ ys, k x = k y → g x = g y) : xs.map g = ys.map g := by
  induction xs generalizing ys with
  | nil =>
    cases ys with
    | nil => rfl
    | cons y ys => cases hk
  | cons x xs ih =>
    cases ys with
    | nil => cases hk
    | cons y ys =>
      obtain ⟨hxy,hrest⟩ := List.cons.inj hk
      rw [List.map_cons,List.map_cons,
        h x List.mem_cons_self y List.mem_cons_self hxy,
        ih hrest fun x hx y hy => h x (List.mem_cons_of_mem _ hx) y (List.mem_cons_of_mem _ hy)]

theorem idxOf_toInt (ids : List Int32) (i : Int32) :
    (ids.map Int32.toInt).idxOf i.toInt = ids.idxOf i := by
  induction ids with
  | nil => rfl
  | cons j ids ih =>
    by_cases hj : j = i
    · rw [hj,List.map_cons,List.idxOf_cons_self,List.idxOf_cons_self]
    · rw [List.map_cons,List.idxOf_cons_ne _ (mt Int32.toInt_inj.mp hj),List.idxOf_cons_ne _ hj,ih]

theorem mapOf_nodup (hn : (xs.map key).Nodup) : mapOf key xs = xs := by
  induction xs with
  | nil => rfl
  | cons x xs ih =>
    obtain ⟨hx,hxs⟩ := List.nodup_cons.mp hn
    have hno : xs.any (fun y => key y = key x) = false := by
      rw [List.any_eq_false]
      intro y hy he
      exact hx (of_decide_eq_true he ▸ List.mem_map_of_mem hy)
    rw [mapOf,hno,ih hxs]
    rfl

/-- An order that mentions every key takes out all elements, in its order. -/
theorem takeInOrder_all (ids : List Int32) (hn : (xs.map key).Nodup)
    (hc : ∀ x ∈ xs, key x ∈ ids) :
    (takeInOrder key ids xs).2 = [] ∧ (takeInOrder key ids xs).1.Perm xs ∧
      (takeInOrder key ids xs).1.Pairwise fun x y => ids.idxOf (key x) < ids.idxOf (key y) := by
  induction ids generalizing xs with
  | nil =>
    cases xs with
    | nil => exact ⟨rfl,.refl _,.nil⟩
    | cons x xs => exact absurd (hc x List.mem_cons_self) (by simp)
  | cons i ids ih =>
    -- away from the first key all positions move by one
    have hlift : ∀ {l : List α}, (∀ x ∈ l, key x ≠ i) →
        (l.Pairwise fun x y => ids.idxOf (key x) < ids.idxOf (key y)) →
        l.Pairwise fun x y => (i::ids).idxOf (key x) < (i::ids).idxOf (key y) := by
      intro l hl hp
      refine hp.imp_of_mem fun {x y} hx hy hxy => ?_
      rw [List.idxOf_cons_ne _ (hl x hx).symm,List.idxOf_cons_ne _ (hl y hy).symm]
      omega
    rw [takeInOrder]
    cases hfind : xs.find? (fun x => key x = i) with
    | none =>
      have hne : ∀ x ∈ xs, key x ≠ i := by simpa using hfind
      obtain ⟨hrest,hperm,hord⟩ := ih hn fun x hx =>
        (List.mem_cons.mp (hc x hx)).resolve_left (hne x hx)
      exact ⟨hrest,hperm,hlift (fun x hx => hne x (hperm.subset hx)) hord⟩
    | some x =>
      have hx : key x = i := by simpa using List.find?_some hfind
      have hmem : x ∈ xs := List.mem_of_find?_eq_some hfind
      have hnd : ((xs.filter fun y => key y ≠ i).map key).Nodup :=
        hn.sublist (List.filter_sublist.map _)
      have hne : ∀ y ∈ xs.filter (fun y => key y ≠ i), key y ≠ i := fun y hy => by
        simpa using (List.mem_filter.mp hy).2
      obtain ⟨hrest,hperm,hord⟩ := ih hnd fun y hy =>
        (List.mem_cons.mp (hc y (List.mem_filter.mp hy).1)).resolve_left (hne y hy)
      have hne' : ∀ y ∈ (takeInOrder key ids (xs.filter fun y => key y ≠ i)).1, key y ≠ i :=
        fun y hy => hne y (hperm.subset hy)
      have htaken : xs.Perm (x::xs.filter fun y => key y ≠ i) := by
        apply (List.perm_ext_iff_of_nodup hn.of_map (List.nodup_cons.mpr
          ⟨fun hin => hne x hin hx,hn.of_map.filter _⟩)).mpr
        intro y
        rw [List.mem_cons,List.mem_filter]
        constructor
        · intro hy
          by_cases he : key y = i
          · exact .inl (List.inj_on_of_nodup_map hn hy hmem (he.trans hx.symm))
          · exact .inr ⟨hy,by simpa using he⟩
        · rintro (rfl | hy)
          · exact hmem
          · exact hy.1
      refine ⟨hrest,(hperm.cons x).trans htaken.symm,List.pairwise_cons.mpr ⟨?_,hlift hne' hord⟩⟩
      intro y hy
      rw [hx,List.idxOf_cons_self,List.idxOf_cons_ne _ (hne' y hy).symm]
      omega

theorem numbers_of_keys (h : xs.map key = ys.map key) :
    (xs.map fun x => (key x).toInt) = ys.map fun x => (key x).toInt := by
  have hnumbers := congrArg (List.map Int32.toInt) h
  rwa [List.map_map,List.map_map] at hnumbers

theorem nodup_keys {stored : ℤ → Prop} {order : List ℤ}
    (h : ListedBy stored order (xs.map fun x => (key x).toInt)) : (xs.map key).Nodup := by
  have honce := h.once
  rw [← Function.comp_def,← List.map_map] at honce
  exact honce.of_map

/-- A list that is rebuilt by an order of exactly its keys is listed by it. -/
theorem listed_rebuild {stored : ℤ → Prop} {old : List ℤ} {order : List α → List α}
    {ids : List Int32} (h : ListedBy stored old (xs.map fun x => (key x).toInt))
    (hids : ∀ n, n ∈ ids.map Int32.toInt ↔ stored n) (hrest : order [] = []) :
    (rebuild key order ids xs).Perm xs ∧
      ListedBy stored (ids.map Int32.toInt)
        ((rebuild key order ids xs).map fun x => (key x).toInt) := by
  have hn := nodup_keys h
  have hc : ∀ x ∈ xs, key x ∈ ids := by
    intro x hx
    have hstored := (h.all _).mp (List.mem_map_of_mem hx)
    obtain ⟨i,hi,he⟩ := List.mem_map.mp ((hids _).mpr hstored)
    rwa [← Int32.toInt_inj.mp he]
  obtain ⟨hempty,hperm,hord⟩ := takeInOrder_all ids hn hc
  have hsame : rebuild key order ids xs = (takeInOrder key ids xs).1 := by
    rw [rebuild,mapOf_nodup hn]
    simp only [hempty,hrest,List.append_nil]
  rw [hsame]
  refine ⟨hperm,?_,?_,?_⟩
  · exact (hperm.map fun x => (key x).toInt).nodup_iff.mpr h.once
  · intro n
    rw [(hperm.map fun x => (key x).toInt).mem_iff]
    exact h.all n
  · rw [List.pairwise_map]
    refine hord.imp fun {x y} hxy => ?_
    rw [idxOf_toInt,idxOf_toInt]
    exact .inl hxy

end Keyed

end Whoisthat.MirroredOrders
