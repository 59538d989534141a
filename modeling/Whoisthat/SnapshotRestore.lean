import Mathlib.Data.List.Sort
import Mathlib.Data.String.Basic
import Whoisthat.FileStore

/-!
# A restore that fails

`RestoreSnapshot` over arbitrary directory trees, with a copy that may fail at
any entry of the walk and a database directory that may be missing. The
rollback is a rename, and a directory that holds anything is not replaced by
one. What is copied before the failure decides whether the database is back.
-/

set_option autoImplicit false

namespace Whoisthat.SnapshotRestore
open Whoisthat.FileStore

section Source

/-- `special` is anything but a directory or a regular file. -/
inductive Entry where
  | dir
  | file (content : List UInt8)
  | special
  deriving DecidableEq

/-- What a directory holds, by path relative to it. -/
abbrev Files := Store (List String) Entry

structure Disk where
  /-- The last element of `db.Path`. -/
  name : String
  /-- The directories beside `db.Path` and the one under its name. -/
  dirs : Store String Files
  /-- The snapshots, by what follows the prefix. -/
  backups : Store String Files
  degraded : Bool

inductive RenameError where
  | notExist
  | notEmpty
  deriving DecidableEq

/-- `os.Rename` of a directory on Linux -/
def rename (old new : String) (dirs : Store String Files) :
    Except RenameError (Store String Files) :=
  match dirs.lookup old with
  | none => .error .notExist
  | some t =>
    match dirs.lookup new with
    | none => .ok ((dirs.erase old).insert new t)
    | some u => if u.keys = [] then .ok ((dirs.erase old).insert new t) else .error .notEmpty

def mkdir (path : List String) (t : Files) : Files :=
  if (t.lookup path).isSome then t else t.insert path .dir

/-- `os.MkdirAll` of the directory a path lies in -/
def mkdirParents (path : List String) (t : Files) : Files :=
  path.dropLast.inits.tail.foldl (fun t p => mkdir p t) t

/-- One call of the function `copyTree` walks with. -/
def copyEntry (t : Files) (e : List String × Entry) : Files :=
  match e.2 with
  | .dir => mkdir e.1 (mkdirParents e.1 t)
  | .file b => (mkdirParents e.1 t).insert e.1 (.file b)
  | .special => t

/-- `filepath.Walk` below its root: lexical order, a directory before what it
holds -/
def walk (t : Files) : List (List String × Entry) :=
  (t.entries.map fun e => (e.1,e.2)).insertionSort (fun e f => e.1 ≤ f.1)

/-- Where a copy fails: at the root, or at an entry, where a file may have been
created and its first bytes written. -/
inductive Fault where
  | root
  | entry (i : ℕ) (written : Option ℕ)

def cutShort (e : List String × Entry) (written : Option ℕ) (t : Files) : Files :=
  match e.2,written with
  | .file b,some n => copyEntry t (e.1,.file (b.take n))
  | _,_ => t

/-- Whether the copy went through, and what it leaves at its destination. -/
def copyTree (src : Files) : Option Fault → Bool × Option Files
  | none => (true,some ((walk src).foldl copyEntry ∅))
  | some .root => (false,none)
  | some (.entry i written) =>
    match (walk src)[i]? with
    | none => (true,some ((walk src).foldl copyEntry ∅))
    | some e => (false,some (cutShort e written (((walk src).take i).foldl copyEntry ∅)))

def snapshotDays (b : Store String Files) : List String := b.keys.insertionSort (fun d e => d ≤ e)

inductive RestoreError where
  | noBackup
  | moveAside
  | copy
  deriving DecidableEq

def place (name : String) (t : Option Files) (dirs : Store String Files) : Store String Files :=
  match t with
  | none => dirs
  | some t => dirs.insert name t

def Disk.broken (d : Disk) (time : String) : String := d.name ++ ".broken-" ++ time

def restoreSnapshot (time : String) (fault : Option Fault) (d : Disk) :
    Except RestoreError String × Disk :=
  match (snapshotDays d.backups).getLast? with
  | none => (.error .noBackup,d)
  | some day =>
    let src := (d.backups.lookup day).getD ∅
    match rename d.name (d.broken time) d.dirs with
    | .error .notEmpty => (.error .moveAside,d)
    | .error .notExist =>
      match copyTree src fault with
      | (true,t) => (.ok day,{ d with dirs := place d.name t d.dirs, degraded := false })
      | (false,t) => (.error .copy,{ d with dirs := place d.name t d.dirs })
    | .ok dirs =>
      match copyTree src fault with
      | (true,t) => (.ok day,{ d with dirs := place d.name t dirs, degraded := false })
      | (false,t) =>
        let made := place d.name t dirs
        match rename (d.broken time) d.name made with
        | .ok back => (.error .copy,{ d with dirs := back })
        | .error _ => (.error .copy,{ d with dirs := made })

end Source

section Specification

/-- What lies at a path below `db.Path`. -/
def Disk.holds (d : Disk) (path : List String) : Option Entry :=
  ((d.dirs.lookup d.name).getD ∅).lookup path

/-- A failed restore leaves the database directory as it was. -/
def RolledBack (time : String) (fault : Option Fault) (d : Disk) : Prop :=
  match restoreSnapshot time fault d with
  | (.ok _,_) => True
  | (.error _,d') => ∀ path, d'.holds path = d.holds path

/-- Nothing is in the way of moving the database aside. -/
def Movable (time : String) (d : Disk) : Prop :=
  rename d.name (d.broken time) d.dirs ≠ .error .notEmpty

/-- The failing entry is a file that was created. -/
def created (e : List String × Entry) (written : Option ℕ) : Bool :=
  match e.2,written with
  | .file _,some _ => true
  | _,_ => false

/-- Nothing is copied before the failure, or just what the directory held. -/
def Harmless (time : String) (fault : Option Fault) (d : Disk) : Prop :=
  ∀ day i written e, (snapshotDays d.backups).getLast? = some day → Movable time d →
    fault = some (.entry i written) →
    (walk ((d.backups.lookup day).getD ∅))[i]? = some e →
    ((∀ e' ∈ (walk ((d.backups.lookup day).getD ∅)).take i, e'.2 = .special) ∧
      created e written = false) ∨
    ∀ path, (cutShort e written
      (((walk ((d.backups.lookup day).getD ∅)).take i).foldl copyEntry ∅)).lookup path =
        d.holds path

end Specification

section Copies

theorem lookup_mkdir (path : List String) (t : Files) :
    ((mkdir path t).lookup path).isSome = true := by
  unfold mkdir
  split
  · assumption
  · simp

theorem keys_ne_of_lookup {t : Files} {path : List String}
    (h : (t.lookup path).isSome = true) : t.keys ≠ [] := by
  intro hk
  have hmem := AList.mem_keys.mp (AList.lookup_isSome.mp h)
  rw [hk] at hmem
  cases hmem

theorem keys_eq_nil (t : Files) : t.keys = [] ↔ ∀ path, t.lookup path = none := by
  constructor
  · intro h path
    by_contra hne
    exact keys_ne_of_lookup (Option.isSome_iff_ne_none.mpr hne) h
  · intro h
    refine List.eq_nil_iff_forall_not_mem.mpr fun path hmem => ?_
    exact AList.lookup_eq_none.mp (h path) (AList.mem_keys.mpr hmem)

/-- An entry that is copied leaves something behind. -/
theorem copyEntry_keys (t : Files) (e : List String × Entry) :
    (copyEntry t e).keys = [] ↔ e.2 = .special ∧ t.keys = [] := by
  obtain ⟨path,x⟩ := e
  cases x with
  | dir => simpa [copyEntry] using keys_ne_of_lookup (lookup_mkdir path _)
  | file b =>
    have hthere : ((copyEntry t (path,.file b)).lookup path).isSome = true := by simp [copyEntry]
    simpa using keys_ne_of_lookup hthere
  | special => simp [copyEntry]

theorem copied_keys (es : List (List String × Entry)) (t : Files) :
    (es.foldl copyEntry t).keys = [] ↔ (∀ e ∈ es, e.2 = .special) ∧ t.keys = [] := by
  induction es generalizing t with
  | nil => simp
  | cons e es ih =>
    rw [List.foldl_cons,ih,copyEntry_keys]
    simp [and_assoc,and_left_comm]

theorem cutShort_keys (e : List String × Entry) (written : Option ℕ) (t : Files) :
    (cutShort e written t).keys = [] ↔ created e written = false ∧ t.keys = [] := by
  obtain ⟨path,x⟩ := e
  cases x with
  | dir => simp [cutShort,created]
  | special => simp [cutShort,created]
  | file b =>
    cases written with
    | none => simp [cutShort,created]
    | some n => simp [cutShort,created,copyEntry_keys]

end Copies

section Rollback

variable {d : Disk} {time : String} {t : Files} {dirs : Store String Files}

theorem broken_ne (d : Disk) (time : String) : d.name ≠ d.broken time := by
  intro h
  have hlen := congrArg String.length h
  simp only [Disk.broken,String.length_append] at hlen
  have hdot : ".broken-".length = 8 := rfl
  omega

/-- A rename that goes through leaves its old name free. -/
theorem rename_ok (h : rename d.name (d.broken time) d.dirs = .ok dirs) :
    ∃ t, d.dirs.lookup d.name = some t ∧ dirs.lookup (d.broken time) = some t ∧
      dirs.lookup d.name = none := by
  have hmoved : ∀ t, d.dirs.lookup d.name = some t →
      ((d.dirs.erase d.name).insert (d.broken time) t).lookup (d.broken time) = some t ∧
        ((d.dirs.erase d.name).insert (d.broken time) t).lookup d.name = none := by
    intro t _
    rw [lookup_insert,if_pos rfl,lookup_insert,if_neg (broken_ne d time),lookup_erase,if_pos rfl]
    exact ⟨rfl,rfl⟩
  unfold rename at h
  cases ht : d.dirs.lookup d.name with
  | none => simp [ht] at h
  | some t =>
    rw [ht] at h
    dsimp only at h
    split at h
    · rw [← Except.ok.inj h]
      exact ⟨t,rfl,hmoved t ht⟩
    · split_ifs at h
      rw [← Except.ok.inj h]
      exact ⟨t,rfl,hmoved t ht⟩

theorem rename_missing (h : rename d.name (d.broken time) d.dirs = .error .notExist) :
    d.dirs.lookup d.name = none := by
  unfold rename at h
  cases ht : d.dirs.lookup d.name with
  | none => rfl
  | some t =>
    rw [ht] at h
    dsimp only at h
    split at h
    · cases h
    · split_ifs at h
      cases Except.error.inj h

/-- The rename back goes through if nothing or an empty directory is there. -/
theorem rename_back (t : Files) {made : Store String Files}
    (hb : made.lookup (d.broken time) = some t) :
    match rename (d.broken time) d.name made with
    | .ok back => back.lookup d.name = some t ∧ ((made.lookup d.name).getD ∅).keys = []
    | .error _ => ((made.lookup d.name).getD ∅).keys ≠ [] := by
  unfold rename
  rw [hb]
  cases hn : made.lookup d.name with
  | none =>
    refine ⟨?_,rfl⟩
    rw [lookup_insert,if_pos rfl]
  | some u =>
    dsimp only
    split_ifs with hu
    · refine ⟨?_,hu⟩
      rw [lookup_insert,if_pos rfl]
    · exact hu

/-- What a copy that failed has made at its destination. -/
def leftAt (src : Files) (fault : Option Fault) : Files := (copyTree src fault).2.getD ∅

/-- The state of the database after a failed copy. -/
theorem failed_copy (hdays : ∃ day, (snapshotDays d.backups).getLast? = some day ∧
      ((d.backups.lookup day).getD ∅) = t) (fault : Option Fault)
    (hmove : Movable time d) (hfail : (copyTree t fault).1 = false) :
    RolledBack time fault d ↔ (leftAt t fault).keys = [] ∨
      ∀ path, (leftAt t fault).lookup path = d.holds path := by
  obtain ⟨day,hday,rfl⟩ := hdays
  rcases hcopy : copyTree ((d.backups.lookup day).getD ∅) fault with ⟨ok,left⟩
  obtain rfl : ok = false := by rw [hcopy] at hfail; exact hfail
  rw [leftAt,hcopy,RolledBack,restoreSnapshot,hday]
  dsimp only
  rcases hr : rename d.name (d.broken time) d.dirs with e | dirs
  · cases e with
    | notEmpty => exact absurd hr hmove
    | notExist =>
      rw [hcopy]
      dsimp only
      have hbefore : ∀ path, d.holds path = none := fun path => by
        rw [Disk.holds,rename_missing hr]
        rfl
      have hafter : ∀ path,
          Disk.holds { d with dirs := place d.name left d.dirs } path = (left.getD ∅).lookup path :=
        fun path => by
        cases left with
        | none => exact (hbefore path).trans rfl
        | some u => rw [Disk.holds,place,lookup_insert,if_pos rfl]
      simp only [hafter]
      constructor
      · exact Or.inr
      · rintro (hempty | hsame)
        · exact fun path => ((keys_eq_nil _).mp hempty path).trans (hbefore path).symm
        · exact hsame
  · rw [hcopy]
    dsimp only
    obtain ⟨t,ht,hb,hn⟩ := rename_ok hr
    have hname : ((place d.name left dirs).lookup d.name).getD ∅ = left.getD ∅ := by
      cases left with
      | none => rw [place,hn]
      | some u => rw [place,lookup_insert,if_pos rfl]
    have hside : (place d.name left dirs).lookup (d.broken time) = some t := by
      cases left with
      | none => exact hb
      | some u => rw [place,lookup_insert,if_neg (broken_ne d time).symm,hb]
    have hback := rename_back t hside
    rw [hname] at hback
    rcases hb' : rename (d.broken time) d.name (place d.name left dirs) with e | back <;>
      rw [hb'] at hback
    · simp only [hback,false_or]
      simp only [Disk.holds,hname]
    · simp only [hback.2,true_or,iff_true]
      intro path
      rw [Disk.holds,hback.1,Disk.holds,ht]

/-- What makes a failed copy harmless. -/
theorem left_iff (src : Files) (fault : Option Fault) (hfail : (copyTree src fault).1 = false)
    (P : Files → Prop) :
    ((leftAt src fault).keys = [] ∨ P (leftAt src fault)) ↔
      ∀ i written e, fault = some (.entry i written) → (walk src)[i]? = some e →
        ((∀ e' ∈ (walk src).take i, e'.2 = .special) ∧ created e written = false) ∨
          P (cutShort e written (((walk src).take i).foldl copyEntry ∅)) := by
  cases fault with
  | none => simp [copyTree] at hfail
  | some fault =>
    cases fault with
    | root =>
      have hleft : (leftAt src (some .root)).keys = [] := rfl
      simp [hleft]
    | entry i written =>
      cases he : (walk src)[i]? with
      | none => simp [copyTree,he] at hfail
      | some e =>
        have hleft : leftAt src (some (.entry i written)) =
            cutShort e written (((walk src).take i).foldl copyEntry ∅) := by
          simp [leftAt,copyTree,he]
        rw [hleft,cutShort_keys,copied_keys]
        constructor
        · intro h i' written' e' heq he'
          cases heq
          obtain rfl := Option.some.inj (he.symm.trans he')
          exact h.imp_left fun h => ⟨h.2.1,h.1⟩
        · intro h
          exact (h i written e rfl he).imp_left fun h => ⟨h.2,h.1,rfl⟩

theorem copied_ok {src : Files} {fault : Option Fault} (h : (copyTree src fault).1 = true)
    (i : ℕ) (written : Option ℕ) (e : List String × Entry)
    (hf : fault = some (.entry i written)) : (walk src)[i]? ≠ some e := by
  rintro he
  simp [hf,copyTree,he] at h

/-- A restore whose copy goes through does not fail. -/
theorem copied_rolledBack {day : String} {fault : Option Fault}
    (hday : (snapshotDays d.backups).getLast? = some day) (hmove : Movable time d)
    (hok : (copyTree ((d.backups.lookup day).getD ∅) fault).1 = true) :
    RolledBack time fault d := by
  rcases hcopy : copyTree ((d.backups.lookup day).getD ∅) fault with ⟨ok,left⟩
  obtain rfl : ok = true := by rw [hcopy] at hok; exact hok
  rw [RolledBack,restoreSnapshot,hday]
  dsimp only
  rcases hr : rename d.name (d.broken time) d.dirs with e | dirs
  · cases e with
    | notEmpty => exact absurd hr hmove
    | notExist =>
      rw [hcopy]
      trivial
  · rw [hcopy]
    trivial

/-- A restore that fails leaves the database as it was exactly when it is
harmless. -/
theorem restoreSnapshot_rolledBack (time : String) (fault : Option Fault) (d : Disk) :
    RolledBack time fault d ↔ Harmless time fault d := by
  cases hday : (snapshotDays d.backups).getLast? with
  | none =>
    have hrun : restoreSnapshot time fault d = (.error .noBackup,d) := by
      rw [restoreSnapshot,hday]
    rw [RolledBack,hrun]
    refine ⟨fun _ day i written e hd => ?_,fun _ path => rfl⟩
    rw [hday] at hd
    cases hd
  | some day =>
    by_cases hmove : Movable time d
    · cases hok : (copyTree ((d.backups.lookup day).getD ∅) fault).1 with
      | true =>
        refine ⟨fun _ day' i written e hd _ hf he => ?_,fun _ => copied_rolledBack hday hmove hok⟩
        obtain rfl := Option.some.inj (hday.symm.trans hd)
        exact absurd he (copied_ok hok i written e hf)
      | false =>
        refine (failed_copy ⟨day,hday,rfl⟩ fault hmove hok).trans
          ((left_iff _ _ hok fun t => ∀ path, t.lookup path = d.holds path).trans ?_)
        constructor
        · intro h day' i written e hd _
          obtain rfl := Option.some.inj (hday.symm.trans hd)
          exact h i written e
        · intro h i written e
          exact h day i written e hday hmove
    · have hr : rename d.name (d.broken time) d.dirs = .error .notEmpty := not_not.mp hmove
      have hrun : restoreSnapshot time fault d = (.error .moveAside,d) := by
        rw [restoreSnapshot,hday]
        simp only [hr]
      rw [RolledBack,hrun]
      exact ⟨fun _ _ _ _ _ _ hm => absurd hm hmove,fun _ path => rfl⟩

theorem rolledBack_holds {fault : Option Fault} {e : RestoreError} (h : RolledBack time fault d)
    (he : (restoreSnapshot time fault d).1 = .error e) (path : List String) :
    (restoreSnapshot time fault d).2.holds path = d.holds path := by
  have hrun : restoreSnapshot time fault d = (.error e,(restoreSnapshot time fault d).2) :=
    Prod.ext he rfl
  rw [RolledBack,hrun] at h
  exact h path

/-- A database of one file beside a snapshot of a file and a directory. -/
def snapshotted : Disk :=
  { name := "db"
    dirs := (∅ : Store String Files).insert "db"
      ((∅ : Files).insert ["config.json"] (.file [1]))
    backups := (∅ : Store String Files).insert "20250101"
      (((∅ : Files).insert ["config.json"] (.file [2])).insert ["groups"] .dir)
    degraded := true }

/-- When the second entry cannot be copied the first one stays in place of the
database. -/
theorem half_restored : ¬∀ (time : String) (fault : Option Fault) (d : Disk),
    RolledBack time fault d := by
  intro h
  have hheld := rolledBack_holds (h "t" (some (.entry 1 none)) snapshotted)
    (e := .copy) (by decide +kernel) ["config.json"]
  revert hheld
  decide +kernel

end Rollback

end Whoisthat.SnapshotRestore
