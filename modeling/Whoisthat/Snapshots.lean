import Mathlib.Data.List.Sort
import Mathlib.Data.String.Basic
import Whoisthat.Database
import Whoisthat.StagedCopy

/-!
# Daily snapshots

The backups directory holds one directory `db-` followed by a day for each
snapshot, and `db-`, the day and `.tmp` while one is being made. Directories
are keyed by what follows the prefix; the code looks at no others. Every
operation is the list of its effects, so that a start cut off after `n` of them
leaves what the first `n` did.
-/

set_option autoImplicit false

namespace Whoisthat.Snapshots
open Whoisthat.FileStore Whoisthat.Database Whoisthat.StagedCopy

abbrev Backups := Dirs String Path Node

abbrev BackupEffect := Effect String Path Node

def snapshotKeep : ℕ := 3

/-- `time.Now().Format("20060102")` -/
structure Day where
  text : String
  digits : ∀ c ∈ text.toList, c.isDigit = true

def Day.staging (day : Day) : String := day.text ++ ".tmp"

def snapshotDays (b : Backups) : List String := b.keys.insertionSort (fun d e => d ≤ e)

def latestSnapshotDay (b : Backups) : String := (snapshotDays b).getLast?.getD ""

/-- `filepath.Walk`: lexical order, a directory before what it holds -/
def walk (t : Tree) : List (Path × Node) :=
  (t.entries.map fun e => (e.1,e.2)).insertionSort (fun e f => e.1.components ≤ f.1.components)

/-- What is seen of a node while it is copied: a file is created empty. -/
def nodeSteps : Node → List Node
  | .dir => [.dir]
  | .file b => [.file (.junk []),.file b]

def copyTree (src : Tree) (name : String) : List BackupEffect :=
  copyDir nodeSteps name (walk src)

/-- How one attempt to save a snapshot goes; a copy may fail after any number
of effects. -/
inductive Fate where
  | saved
  | copyFailed (n : ℕ)
  | renameFailed
  deriving DecidableEq

/-- `snapshotDaily` up to the point where its staging directory is gone again,
renamed or removed. -/
def stagingEffects (day : Day) (fate : Fate) (src : Tree) (b : Backups) : List BackupEffect :=
  if day.text ∈ snapshotDays b then []
  else
    let tmp := day.staging
    let cleared := removeDir tmp b
    match fate with
    | .copyFailed n =>
      let tried := cleared ++ (copyTree src tmp).take n
      tried ++ removeDir tmp (run tried b)
    | .renameFailed =>
      let staged := cleared ++ copyTree src tmp
      let replaced := staged ++ removeDir day.text (run staged b)
      replaced ++ removeDir tmp (run replaced b)
    | .saved =>
      let staged := cleared ++ copyTree src tmp
      staged ++ removeDir day.text (run staged b) ++ [.rename tmp day.text]

/-- The loop over the oldest days. -/
def retentionEffects (b : Backups) : List BackupEffect :=
  let days := snapshotDays b
  (days.take (days.length-snapshotKeep)).flatMap fun d => removeDir d b

/-- Whether an attempt ends with a new snapshot. -/
def saves (day : Day) (fate : Fate) (b : Backups) : Bool :=
  decide (day.text ∉ snapshotDays b) && decide (fate = .saved)

def snapshotDaily (day : Day) (fate : Fate) (src : Tree) (b : Backups) : List BackupEffect :=
  let staging := stagingEffects day fate src b
  staging ++ if saves day fate b then retentionEffects (run staging b) else []

section Listing

theorem mem_snapshotDays {b : Backups} {d : String} :
    d ∈ snapshotDays b ↔ (b.lookup d).isSome := by
  rw [snapshotDays,List.mem_insertionSort,AList.lookup_isSome,AList.mem_keys]

theorem nodup_snapshotDays (b : Backups) : (snapshotDays b).Nodup :=
  (List.perm_insertionSort _ _).nodup_iff.mpr b.keys_nodup

theorem sorted_snapshotDays (b : Backups) : (snapshotDays b).Pairwise (fun d e => d ≤ e) :=
  List.pairwise_insertionSort _ _

/-- The last listed day is the greatest one. -/
theorem latest_iff {b : Backups} {d : String} :
    (snapshotDays b).getLast? = some d ↔
      (b.lookup d).isSome ∧ ∀ e, (b.lookup e).isSome → e ≤ d := by
  have hs := sorted_snapshotDays b
  constructor
  · intro h
    obtain ⟨init,hinit⟩ := List.getLast?_eq_some_iff.mp h
    refine ⟨mem_snapshotDays.mp (List.mem_of_getLast? h),fun e he => ?_⟩
    have hmem := mem_snapshotDays.mpr he
    rw [hinit] at hmem hs
    rcases List.mem_append.mp hmem with hmem | hmem
    · exact (List.pairwise_append.mp hs).2.2 e hmem d (by simp)
    · exact le_of_eq (List.mem_singleton.mp hmem)
  · rintro ⟨hd,hmax⟩
    have hmem := mem_snapshotDays.mpr hd
    obtain ⟨l,hl⟩ : ∃ l, (snapshotDays b).getLast? = some l :=
      ⟨_,List.getLast?_eq_some_getLast (List.ne_nil_of_mem hmem)⟩
    rw [hl]
    obtain ⟨init,hinit⟩ := List.getLast?_eq_some_iff.mp hl
    have hle := hmax l (mem_snapshotDays.mp (List.mem_of_getLast? hl))
    have hge : d ≤ l := by
      rw [hinit] at hmem hs
      rcases List.mem_append.mp hmem with hmem | hmem
      · exact (List.pairwise_append.mp hs).2.2 d hmem l (by simp)
      · exact le_of_eq (List.mem_singleton.mp hmem)
    rw [le_antisymm hle hge]

theorem staging_ne (day e : Day) : day.staging ≠ e.text := by
  intro h
  have hmem : '.' ∈ e.text.toList := by
    rw [← h]
    simp [Day.staging]
  exact absurd (e.digits '.' hmem) (by decide)

end Listing

section Effects

variable {day : Day} {fate : Fate} {src : Tree} {b : Backups}

theorem nodeSteps_last (n : Node) : (nodeSteps n).getLast? = some n := by
  cases n <;> rfl

theorem mem_walk (t : Tree) (e : Path × Node) : e ∈ walk t ↔ t.lookup e.1 = some e.2 := by
  rw [walk,List.mem_insertionSort,← Option.mem_def,AList.mem_lookup_iff]
  constructor
  · intro h
    obtain ⟨s,hs,rfl⟩ := List.mem_map.mp h
    exact hs
  · intro h
    exact List.mem_map.mpr ⟨⟨e.1,e.2⟩,h,rfl⟩

theorem nodup_walk (t : Tree) : ((walk t).map Prod.fst).Nodup := by
  have hp := (List.perm_insertionSort (fun e f : Path × Node => e.1.components ≤ f.1.components)
    (t.entries.map fun e => (e.1,e.2))).map Prod.fst
  rw [walk,hp.nodup_iff,List.map_map]
  exact t.keys_nodup

theorem run_copyTree {name : String} (h : b.lookup name = none) :
    ∃ t, (run (copyTree src name) b).lookup name = some t ∧ ∀ p, t.lookup p = src.lookup p :=
  lookup_run_copyDir nodeSteps_last h (nodup_walk src) (mem_walk src)

theorem touches_copyTree {e : BackupEffect} {tmp name : String} (he : e ∈ copyTree src tmp)
    (ht : e.touches name) : name = tmp := touches_copyDir _ he ht

theorem touches_staged {e : BackupEffect} {tmp name : String}
    (he : e ∈ removeDir tmp b ++ copyTree src tmp) (ht : e.touches name) : name = tmp := by
  rcases List.mem_append.mp he with he | he
  · exact touches_removeDir he ht
  · exact touches_copyTree he ht

theorem lookup_run_staged {tmp name : String} (h : name ≠ tmp) :
    (run (removeDir tmp b ++ copyTree src tmp) b).lookup name = b.lookup name :=
  lookup_run_of_not_touches (fun _ he ht => h (touches_staged he ht)) b

theorem removeDir_absent {name : String} (h : b.lookup name = none) : removeDir name b = [] := by
  unfold removeDir
  rw [h]

theorem lookup_of_not_listed (h : day.text ∉ snapshotDays b) : b.lookup day.text = none := by
  rw [mem_snapshotDays] at h
  simpa using h

/-- With no directory of the day in the way, nothing is replaced. -/
theorem stagingEffects_eq (h : day.text ∉ snapshotDays b) :
    stagingEffects day fate src b =
      match fate with
      | .copyFailed n =>
        removeDir day.staging b ++ (copyTree src day.staging).take n ++
          removeDir day.staging
            (run (removeDir day.staging b ++ (copyTree src day.staging).take n) b)
      | .renameFailed =>
        removeDir day.staging b ++ copyTree src day.staging ++
          removeDir day.staging (run (removeDir day.staging b ++ copyTree src day.staging) b)
      | .saved =>
        removeDir day.staging b ++ copyTree src day.staging ++
          [.rename day.staging day.text] := by
  have hdest : removeDir day.text
      (run (removeDir day.staging b ++ copyTree src day.staging) b) = [] :=
    removeDir_absent ((lookup_run_staged (staging_ne day day).symm).trans (lookup_of_not_listed h))
  cases fate <;> simp only [stagingEffects,if_neg h,hdest,List.append_nil]

/-- Before its last effect, an attempt has touched the staging directory only. -/
theorem touches_stagingEffects {n : ℕ} (hn : n < (stagingEffects day fate src b).length)
    {e : BackupEffect} (he : e ∈ (stagingEffects day fate src b).take n) {name : String}
    (ht : e.touches name) : name = day.staging := by
  by_cases h : day.text ∈ snapshotDays b
  · simp [stagingEffects,h] at hn
  · rw [stagingEffects_eq h] at he hn
    cases fate with
    | copyFailed k =>
      rcases List.mem_append.mp (List.mem_of_mem_take he) with he | he
      · refine @touches_staged src b _ _ _ (List.mem_append.mpr ?_) ht
        exact (List.mem_append.mp he).imp_right List.mem_of_mem_take
      · exact touches_removeDir he ht
    | renameFailed =>
      rcases List.mem_append.mp (List.mem_of_mem_take he) with he | he
      · exact touches_staged he ht
      · exact touches_removeDir he ht
    | saved =>
      simp only [List.length_append,List.length_singleton] at hn
      rw [List.take_append_of_le_length (by simp only [List.length_append]; omega)] at he
      exact touches_staged (List.mem_of_mem_take he) ht

theorem run_staging_failed (h : day.text ∉ snapshotDays b) (hf : fate ≠ .saved) :
    (run (stagingEffects day fate src b) b).lookup day.staging = none ∧
    ∀ name, name ≠ day.staging →
      (run (stagingEffects day fate src b) b).lookup name = b.lookup name := by
  rw [stagingEffects_eq h]
  cases fate with
  | saved => exact absurd rfl hf
  | copyFailed n =>
    rw [run_append]
    refine ⟨lookup_run_removeDir rfl,fun name hne => ?_⟩
    rw [lookup_run_of_not_touches fun e he ht => hne (touches_removeDir he ht)]
    refine lookup_run_of_not_touches (fun e he ht => hne ?_) b
    refine @touches_staged src b _ _ _ (List.mem_append.mpr ?_) ht
    exact (List.mem_append.mp he).imp_right List.mem_of_mem_take
  | renameFailed =>
    rw [run_append]
    refine ⟨lookup_run_removeDir rfl,fun name hne => ?_⟩
    rw [lookup_run_of_not_touches fun e he ht => hne (touches_removeDir he ht)]
    exact lookup_run_staged hne

theorem run_staging_saved (h : day.text ∉ snapshotDays b) :
    (run (stagingEffects day .saved src b) b).lookup day.staging = none ∧
    (∃ t, (run (stagingEffects day .saved src b) b).lookup day.text = some t ∧
      ∀ p, t.lookup p = src.lookup p) ∧
    ∀ name, name ≠ day.staging → name ≠ day.text →
      (run (stagingEffects day .saved src b) b).lookup name = b.lookup name := by
  have hne := staging_ne day day
  obtain ⟨t,ht,hsame⟩ := @run_copyTree src (run (removeDir day.staging b) b) _
    (lookup_run_removeDir rfl)
  have hrun : run (stagingEffects day .saved src b) b =
      ((run (removeDir day.staging b ++ copyTree src day.staging) b).erase day.staging).insert
        day.text t := by
    rw [stagingEffects_eq h]
    rw [run_append,run_cons,run_nil,Effect.apply,run_append,ht]
  rw [hrun]
  refine ⟨?_,⟨t,by rw [lookup_insert,if_pos rfl],hsame⟩,fun name hs hd => ?_⟩
  · rw [lookup_insert,if_neg hne,lookup_erase,if_pos rfl]
  · rw [lookup_insert,if_neg hd,lookup_erase,if_neg hs]
    exact lookup_run_staged hs

theorem touches_retention {e : BackupEffect} (he : e ∈ retentionEffects b) {name : String}
    (ht : e.touches name) :
    name ∈ (snapshotDays b).take ((snapshotDays b).length-snapshotKeep) := by
  obtain ⟨d,hd,he⟩ := List.mem_flatMap.mp he
  rw [touches_removeDir he ht]
  exact hd

/-- A day that retention removes is older than the last one. -/
theorem lt_latest_of_retained {d l : String}
    (hd : d ∈ (snapshotDays b).take ((snapshotDays b).length-snapshotKeep))
    (hl : (snapshotDays b).getLast? = some l) : d < l := by
  obtain ⟨init,hinit⟩ := List.getLast?_eq_some_iff.mp hl
  have hs := sorted_snapshotDays b
  have hn := nodup_snapshotDays b
  rw [hinit] at hd hs hn
  have hlen : (init ++ [l]).length-snapshotKeep ≤ init.length := by
    simp [snapshotKeep]
  rw [List.take_append_of_le_length hlen] at hd
  have hmem := List.mem_of_mem_take hd
  refine lt_of_le_of_ne ((List.pairwise_append.mp hs).2.2 d hmem l (by simp)) ?_
  exact (List.nodup_append.mp hn).2.2 d hmem l (by simp)

theorem run_removeDirs {b' : Backups} (days : List String) (hn : days.Nodup)
    (h : ∀ d ∈ days, b'.lookup d = b.lookup d) :
    ∀ d ∈ days, (run (days.flatMap fun d => removeDir d b) b').lookup d = none := by
  induction days generalizing b' with
  | nil => simp
  | cons d ds ih =>
    rw [List.nodup_cons] at hn
    have hrest : ∀ e ∈ ds, (run (removeDir d b) b').lookup e = b.lookup e := by
      intro e he
      refine (lookup_run_of_not_touches (fun f hf ht => hn.1 ?_) b').trans (h e (by simp [he]))
      exact touches_removeDir hf ht ▸ he
    intro e he
    rw [List.flatMap_cons,run_append]
    rcases List.mem_cons.mp he with rfl | he
    · rw [lookup_run_of_not_touches]
      · exact lookup_run_removeDir (h e (by simp))
      · intro f hf ht
        obtain ⟨d,hd,hf⟩ := List.mem_flatMap.mp hf
        exact hn.1 (touches_removeDir hf ht ▸ hd)
    · exact ih hn.2 hrest e he

/-- Retention leaves at most `snapshotKeep` directories. -/
theorem length_run_retention : (snapshotDays (run (retentionEffects b) b)).length ≤ snapshotKeep := by
  have hgone := run_removeDirs (b := b)
    ((snapshotDays b).take ((snapshotDays b).length-snapshotKeep))
    ((nodup_snapshotDays b).sublist (List.take_sublist _ _)) (fun _ _ => rfl)
  have hsub : snapshotDays (run (retentionEffects b) b) ⊆
      (snapshotDays b).drop ((snapshotDays b).length-snapshotKeep) := by
    intro d hd
    rw [mem_snapshotDays] at hd
    by_cases ht : d ∈ (snapshotDays b).take ((snapshotDays b).length-snapshotKeep)
    · rw [retentionEffects,hgone d ht] at hd
      simp at hd
    · rw [lookup_run_of_not_touches fun e he hte => ht (touches_retention he hte)] at hd
      have hmem := mem_snapshotDays.mpr hd
      rw [← List.take_append_drop ((snapshotDays b).length-snapshotKeep) (snapshotDays b)] at hmem
      exact (List.mem_append.mp hmem).resolve_left ht
  have hle := (nodup_snapshotDays _).length_le_of_subset hsub
  rw [List.length_drop] at hle
  omega

end Effects

end Whoisthat.Snapshots
