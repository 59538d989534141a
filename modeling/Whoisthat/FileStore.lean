import Mathlib.Data.List.AList

/-!
# Finite stores of named nodes

A directory tree seen as a finite map from full names to nodes. Removal of a
subtree is removal of every name under it, one by one, so an interrupted
removal is a prefix of the same fold. Listings are the present names of one
kind. Names and nodes are parameters.
-/

set_option autoImplicit false

namespace Whoisthat.FileStore

variable {κ β ι : Type} [DecidableEq κ]

abbrev Store (κ β : Type) := AList (fun _ : κ => β)

def eraseAll (ks : List κ) (s : Store κ β) : Store κ β :=
  ks.foldl (fun t k => t.erase k) s

theorem lookup_eraseAll (ks : List κ) (s : Store κ β) (k : κ) :
    (eraseAll ks s).lookup k = if k ∈ ks then none else s.lookup k := by
  induction ks generalizing s with
  | nil => simp [eraseAll]
  | cons j ks ih =>
    have hstep : eraseAll (j::ks) s = eraseAll ks (s.erase j) := rfl
    rw [hstep, ih]
    by_cases hj : k = j
    · subst hj
      simp [AList.lookup_erase]
    · by_cases hk : k ∈ ks <;> simp [hj, hk, AList.lookup_erase_ne hj]

def removeAll (under : κ → Bool) (s : Store κ β) : Store κ β :=
  eraseAll (s.keys.filter under) s

/-- Removing a subtree empties exactly the names under it. -/
theorem lookup_removeAll (under : κ → Bool) (s : Store κ β) (k : κ) :
    (removeAll under s).lookup k = if under k then none else s.lookup k := by
  rw [removeAll, lookup_eraseAll]
  by_cases hu : under k
  · by_cases hk : k ∈ s
    · simp [hu, AList.mem_keys.mp hk]
    · simp [hu, AList.lookup_eq_none.mpr hk]
  · simp [hu]

def listing (name : κ → Option ι) (s : Store κ β) : List ι :=
  s.keys.filterMap name

theorem mem_listing (name : κ → Option ι) (s : Store κ β) (i : ι) :
    i ∈ listing name s ↔ ∃ k, (s.lookup k).isSome ∧ name k = some i := by
  simp only [listing, List.mem_filterMap, ← AList.mem_keys, AList.lookup_isSome]

omit [DecidableEq κ] in
theorem nodup_listing (name : κ → Option ι) (s : Store κ β)
    (hinj : ∀ k k' i, name k = some i → name k' = some i → k = k') :
    (listing name s).Nodup := by
  apply List.Nodup.filterMap _ s.keys_nodup
  intro k k' i hk hk'
  exact hinj k k' i hk hk'

theorem lookup_insert (k k' : κ) (b : β) (s : Store κ β) :
    (s.insert k b).lookup k' = if k' = k then some b else s.lookup k' := by
  by_cases h : k' = k
  · subst h
    simp
  · simp [h, AList.lookup_insert_ne h]

theorem lookup_erase (k k' : κ) (s : Store κ β) :
    (s.erase k).lookup k' = if k' = k then none else s.lookup k' := by
  by_cases h : k' = k
  · subst h
    simp
  · simp [h, AList.lookup_erase_ne h]

end Whoisthat.FileStore
