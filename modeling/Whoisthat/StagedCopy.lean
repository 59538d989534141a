import Whoisthat.FileStore

/-!
# Copying and removing whole directories, one effect at a time

A family of named directories changes by single effects, so that a prefix of an
effect list is what an interruption leaves. A directory that no effect of the
prefix touches is as before; a removal run to its end leaves nothing and a copy
run to its end leaves the same content. Names, paths and nodes are parameters,
as is how a node comes into being.
-/

set_option autoImplicit false

namespace Whoisthat.StagedCopy
open Whoisthat.FileStore

variable {ν κ β : Type} [DecidableEq ν] [DecidableEq κ]

abbrev Dirs (ν κ β : Type) := Store ν (Store κ β)

inductive Effect (ν κ β : Type) where
  | mkdir (name : ν)
  | put (name : ν) (path : κ) (node : β)
  | erase (name : ν) (path : κ)
  | rmdir (name : ν)
  | rename (old new : ν)

def onDir (name : ν) (f : Store κ β → Store κ β) (d : Dirs ν κ β) : Dirs ν κ β :=
  match d.lookup name with
  | some t => d.insert name (f t)
  | none => d

def Effect.apply : Effect ν κ β → Dirs ν κ β → Dirs ν κ β
  | .mkdir name, d => if (d.lookup name).isSome then d else d.insert name ∅
  | .put name path node, d => onDir name (fun t => t.insert path node) d
  | .erase name path, d => onDir name (fun t => t.erase path) d
  | .rmdir name, d => d.erase name
  | .rename old new, d =>
    match d.lookup old with
    | some t => (d.erase old).insert new t
    | none => d

def run (es : List (Effect ν κ β)) (d : Dirs ν κ β) : Dirs ν κ β :=
  es.foldl (fun d e => e.apply d) d

def Effect.touches (name : ν) : Effect ν κ β → Prop
  | .mkdir n => n = name
  | .put n _ _ => n = name
  | .erase n _ => n = name
  | .rmdir n => n = name
  | .rename old new => old = name ∨ new = name

@[simp] theorem run_nil (d : Dirs ν κ β) : run [] d = d := rfl

@[simp] theorem run_cons (e : Effect ν κ β) (es : List (Effect ν κ β)) (d : Dirs ν κ β) :
    run (e::es) d = run es (e.apply d) := rfl

theorem run_append (es es' : List (Effect ν κ β)) (d : Dirs ν κ β) :
    run (es++es') d = run es' (run es d) := List.foldl_append

omit [DecidableEq κ] in
theorem lookup_onDir (name n : ν) (f : Store κ β → Store κ β) (d : Dirs ν κ β) :
    (onDir name f d).lookup n = if n = name then (d.lookup name).map f else d.lookup n := by
  unfold onDir
  cases h : d.lookup name with
  | none =>
    split_ifs with hn
    · rw [hn,h]
      rfl
    · rfl
  | some t =>
    rw [lookup_insert]
    rfl

theorem lookup_apply_of_not_touches {e : Effect ν κ β} {name : ν} (h : ¬e.touches name)
    (d : Dirs ν κ β) : (e.apply d).lookup name = d.lookup name := by
  cases e with
  | mkdir n =>
    have hn : name ≠ n := fun he => h he.symm
    simp only [Effect.apply]
    split_ifs
    · rfl
    · rw [lookup_insert,if_neg hn]
  | put n path node => exact (lookup_onDir _ _ _ _).trans (if_neg fun he => h he.symm)
  | erase n path => exact (lookup_onDir _ _ _ _).trans (if_neg fun he => h he.symm)
  | rmdir n => exact (lookup_erase _ _ _).trans (if_neg fun he => h he.symm)
  | rename old new =>
    simp only [Effect.touches,not_or] at h
    simp only [Effect.apply]
    split
    · rw [lookup_insert,lookup_erase,if_neg (Ne.symm h.2),if_neg (Ne.symm h.1)]
    · rfl

theorem lookup_run_of_not_touches {es : List (Effect ν κ β)} {name : ν}
    (h : ∀ e ∈ es, ¬e.touches name) (d : Dirs ν κ β) :
    (run es d).lookup name = d.lookup name := by
  induction es generalizing d with
  | nil => rfl
  | cons e es ih =>
    rw [run_cons,ih (fun e' he' => h e' (by simp [he'])),
      lookup_apply_of_not_touches (h e (by simp))]

section Removal

/-- The names under a directory, then the directory itself. -/
def removeDir (name : ν) (d : Dirs ν κ β) : List (Effect ν κ β) :=
  match d.lookup name with
  | none => []
  | some t => t.keys.map (.erase name) ++ [.rmdir name]

omit [DecidableEq κ] in
theorem touches_removeDir {name n : ν} {d : Dirs ν κ β} {e : Effect ν κ β}
    (he : e ∈ removeDir name d) (ht : e.touches n) : n = name := by
  unfold removeDir at he
  split at he
  · simp at he
  · rcases List.mem_append.mp he with he | he
    · obtain ⟨path,_,rfl⟩ := List.mem_map.mp he
      exact ht.symm
    · obtain rfl := List.mem_singleton.mp he
      exact ht.symm

theorem lookup_run_removeDir {name : ν} {d d' : Dirs ν κ β}
    (h : d'.lookup name = d.lookup name) : (run (removeDir name d) d').lookup name = none := by
  unfold removeDir
  cases hd : d.lookup name with
  | none => rw [run_nil,h,hd]
  | some t =>
    rw [run_append]
    simp [Effect.apply]

/-- An effect that brings no node of its own. -/
def Effect.moves : Effect ν κ β → Prop
  | .put _ _ _ => False
  | _ => True

omit [DecidableEq κ] in
theorem moves_removeDir {name : ν} {d : Dirs ν κ β} {e : Effect ν κ β}
    (he : e ∈ removeDir name d) : e.moves := by
  unfold removeDir at he
  split at he
  · simp at he
  · rcases List.mem_append.mp he with he | he
    · obtain ⟨path,_,rfl⟩ := List.mem_map.mp he
      trivial
    · obtain rfl := List.mem_singleton.mp he
      trivial

/-- A property of directories that survives removals survives every effect that
brings no node. -/
theorem forall_run_moves {P : Store κ β → Prop} (hempty : P ∅)
    (herase : ∀ t path, P t → P (t.erase path)) {es : List (Effect ν κ β)}
    (hes : ∀ e ∈ es, e.moves) {d : Dirs ν κ β} (hd : ∀ name t, d.lookup name = some t → P t) :
    ∀ name t, (run es d).lookup name = some t → P t := by
  induction es generalizing d with
  | nil => exact hd
  | cons e es ih =>
    refine ih (fun e' he' => hes e' (by simp [he'])) fun name t ht => ?_
    cases e with
    | put n path node => exact False.elim (hes (.put n path node) List.mem_cons_self)
    | mkdir n =>
      simp only [Effect.apply] at ht
      split_ifs at ht
      · exact hd name t ht
      · rw [lookup_insert] at ht
        split_ifs at ht
        · exact Option.some.inj ht ▸ hempty
        · exact hd name t ht
    | erase n path =>
      simp only [Effect.apply,lookup_onDir] at ht
      split_ifs at ht
      · obtain ⟨u,hu,rfl⟩ := Option.map_eq_some_iff.mp ht
        exact herase u path (hd n u hu)
      · exact hd name t ht
    | rmdir n =>
      simp only [Effect.apply,lookup_erase] at ht
      split_ifs at ht
      exact hd name t ht
    | rename old new =>
      simp only [Effect.apply] at ht
      split at ht
      · rename_i u hu
        rw [lookup_insert,lookup_erase] at ht
        split_ifs at ht
        · exact Option.some.inj ht ▸ hd old u hu
        · exact hd name t ht
      · exact hd name t ht

end Removal

section Copy

variable (steps : β → List β)

/-- A directory is made, then each entry is put through its steps. -/
def copyDir (name : ν) (entries : List (κ × β)) : List (Effect ν κ β) :=
  .mkdir name :: entries.flatMap fun e => (steps e.2).map (.put name e.1)

omit [DecidableEq ν] [DecidableEq κ] in
theorem touches_copyDir {name n : ν} {entries : List (κ × β)} {e : Effect ν κ β}
    (he : e ∈ copyDir steps name entries) (ht : e.touches n) : n = name := by
  rcases List.mem_cons.mp he with rfl | he
  · exact ht.symm
  · obtain ⟨entry,_,he⟩ := List.mem_flatMap.mp he
    obtain ⟨node,_,rfl⟩ := List.mem_map.mp he
    exact ht.symm

/-- Nothing but what some step of an entry put there. -/
def PartialCopy (entries : List (κ × β)) (t : Store κ β) : Prop :=
  ∀ path n, t.lookup path = some n → ∃ e ∈ entries, e.1 = path ∧ n ∈ steps e.2

/-- A copy that is cut off anywhere leaves a partial copy. -/
theorem partialCopy_run {name : ν} {entries : List (κ × β)} {es : List (Effect ν κ β)}
    (hes : ∀ e ∈ es, e ∈ copyDir steps name entries) {d : Dirs ν κ β}
    (hd : ∀ t, d.lookup name = some t → PartialCopy steps entries t) :
    ∀ t, (run es d).lookup name = some t → PartialCopy steps entries t := by
  induction es generalizing d with
  | nil => exact hd
  | cons e es ih =>
    refine ih (fun e' he' => hes e' (by simp [he'])) fun t ht => ?_
    rcases List.mem_cons.mp (hes e (by simp)) with rfl | he
    · simp only [Effect.apply] at ht
      split_ifs at ht with hs
      · exact hd t ht
      · rw [lookup_insert,if_pos rfl] at ht
        obtain rfl := Option.some.inj ht
        intro path n hn
        simp at hn
    · obtain ⟨entry,hentry,he⟩ := List.mem_flatMap.mp he
      obtain ⟨node,hnode,rfl⟩ := List.mem_map.mp he
      simp only [Effect.apply,lookup_onDir,if_true] at ht
      obtain ⟨u,hu,rfl⟩ := Option.map_eq_some_iff.mp ht
      intro path n hn
      rw [lookup_insert] at hn
      split_ifs at hn with hp
      · exact ⟨entry,hentry,hp.symm,Option.some.inj hn ▸ hnode⟩
      · exact hd u hu path n hn

variable {steps} (hsteps : ∀ b, (steps b).getLast? = some b)

theorem lookup_run_puts {name : ν} {path : κ} (nodes : List β) {d : Dirs ν κ β}
    {t : Store κ β} (hd : d.lookup name = some t) {b : β} (hb : nodes.getLast? = some b) :
    ∃ t', (run (nodes.map (.put name path)) d).lookup name = some t' ∧
      ∀ p, t'.lookup p = if p = path then some b else t.lookup p := by
  induction nodes generalizing d t with
  | nil => simp at hb
  | cons c cs ih =>
    have hput : ((Effect.put name path c).apply d).lookup name = some (t.insert path c) := by
      simp [Effect.apply,lookup_onDir,hd]
    cases cs with
    | nil =>
      obtain rfl : c = b := by simpa using hb
      exact ⟨t.insert path c,hput,fun p => lookup_insert path p c t⟩
    | cons c' cs =>
      obtain ⟨t',ht',hl⟩ := ih hput (by simpa using hb)
      refine ⟨t',ht',fun p => ?_⟩
      rw [hl,lookup_insert]
      split_ifs <;> rfl

include hsteps in
theorem lookup_run_entries {name : ν} (entries : List (κ × β))
    (hn : (entries.map Prod.fst).Nodup) {d : Dirs ν κ β} {t : Store κ β}
    (hd : d.lookup name = some t) :
    ∃ t', (run (entries.flatMap fun e => (steps e.2).map (.put name e.1)) d).lookup name = some t' ∧
      (∀ e ∈ entries, t'.lookup e.1 = some e.2) ∧
      ∀ p, p ∉ entries.map Prod.fst → t'.lookup p = t.lookup p := by
  induction entries generalizing d t with
  | nil => exact ⟨t,hd,by simp,fun _ _ => rfl⟩
  | cons e es ih =>
    rw [List.map_cons,List.nodup_cons] at hn
    obtain ⟨u,hu,hul⟩ := @lookup_run_puts _ _ _ _ _ _ e.1 (steps e.2) _ _ hd _ (hsteps e.2)
    obtain ⟨t',ht',hes,hrest⟩ := ih hn.2 hu
    refine ⟨t',?_,fun e' he' => ?_,fun p hp => ?_⟩
    · rw [List.flatMap_cons,run_append]
      exact ht'
    · rcases List.mem_cons.mp he' with rfl | he'
      · rw [hrest _ hn.1,hul,if_pos rfl]
      · exact hes e' he'
    · rw [List.map_cons,List.mem_cons,not_or] at hp
      rw [hrest p hp.2,hul,if_neg hp.1]

include hsteps in
/-- A copy run to its end has the content of the copied entries. -/
theorem lookup_run_copyDir {name : ν} {d : Dirs ν κ β} (hd : d.lookup name = none)
    {entries : List (κ × β)} {src : Store κ β} (hn : (entries.map Prod.fst).Nodup)
    (hsrc : ∀ e, e ∈ entries ↔ src.lookup e.1 = some e.2) :
    ∃ t, (run (copyDir steps name entries) d).lookup name = some t ∧
      ∀ p, t.lookup p = src.lookup p := by
  have hmk : ((Effect.mkdir name : Effect ν κ β).apply d).lookup name = some ∅ := by
    simp [Effect.apply,hd]
  obtain ⟨t,ht,hin,hout⟩ := lookup_run_entries hsteps entries hn hmk
  refine ⟨t,ht,fun p => ?_⟩
  cases hp : src.lookup p with
  | some b => exact hin (p,b) ((hsrc (p,b)).mpr hp)
  | none =>
    refine (hout p fun hmem => ?_).trans (by simp)
    obtain ⟨e,he,rfl⟩ := List.mem_map.mp hmem
    rw [(hsrc e).mp he] at hp
    simp at hp

end Copy

end Whoisthat.StagedCopy
