import Whoisthat.Snapshots
import Whoisthat.KeyFiles

/-!
# Daemon start and restore

`Initialize` loads the key, recreates a missing config, takes the daily
snapshot and encrypts what is still plain; a fatal error or a cut-off leaves a
machine without a running daemon. `RestoreSnapshot` moves the database aside
and copies the latest snapshot in its place.
-/

set_option autoImplicit false

namespace Whoisthat.Startup
open Whoisthat.FileStore Whoisthat.FallibleState Whoisthat.Records Whoisthat.Database
open Whoisthat.StagedCopy Whoisthat.Snapshots Whoisthat.KeyFiles

structure Machine where
  world : World
  /-- The key file lies outside the database directory. -/
  dedicated : Bool
  preferred : Option (List UInt8)
  stale : Store String (List UInt8)
  backups : Backups
  /-- Databases that a restore moved aside, by time. -/
  aside : Store String Tree
  running : Bool

def Machine.keyring (m : Machine) : Keyring :=
  { dedicated := m.dedicated, preferred := m.preferred, stale := m.stale, tree := m.world.disk }

/-- What one start meets: the day, the outcomes of its file operations and,
for a start that is cut off, after how many effects of the snapshot. -/
structure StartIO where
  keys : KeyIO
  faults : List Bool
  day : Day
  fate : Fate
  crash : Option ℕ

def ensureDBConfigExistance : DBM Unit := fun w =>
  if (w.disk.lookup .dbConfig).isSome then (.ok (),w) else saveDBConfig ⟨0,[]⟩ w

/-- `Initialize` before the snapshot, on a handle that is not read-only. -/
def openDatabase (io : StartIO) : Prog Machine Fatal Unit := fun m =>
  match loadOrCreateKey io.keys m.keyring with
  | (.error e,k) =>
    (.error e,{ m with
      preferred := k.preferred, stale := k.stale, world := { m.world with disk := k.tree } })
  | (.ok key,k) =>
    match ensureDBConfigExistance
      { m.world with disk := k.tree, key := key, degraded := false, faults := io.faults } with
    | (.error _,w) =>
      (.error .writeDBConfig,{ m with preferred := k.preferred, stale := k.stale, world := w })
    | (.ok _,w) => (.ok (),{ m with preferred := k.preferred, stale := k.stale, world := w })

def Machine.snapshotDue (m : Machine) : Bool :=
  let r := keyMatchesDatabase m.world.key m.world.disk
  m.dedicated && (!r.2 || r.1)

def Machine.snapshotEffects (io : StartIO) (m : Machine) : List BackupEffect :=
  if m.snapshotDue then snapshotDaily io.day io.fate m.world.disk m.backups else []

def initializeDB (io : StartIO) (m : Machine) : Machine :=
  match openDatabase io m with
  | (.error _,m) => { m with running := false }
  | (.ok _,m) =>
    match io.crash with
    | some n => { m with
        backups := run ((m.snapshotEffects io).take n) m.backups
        running := false }
    | none => { m with
        backups := run (m.snapshotEffects io) m.backups
        world := (migrateToEncrypted m.world).2
        running := true }

inductive RestoreError where
  | noBackup
  | moveAside
  | copy
  deriving DecidableEq

/-- How one restore goes; the copy may fail after any number of effects. -/
structure RestoreIO where
  now : String
  movedAside : Bool
  copyFails : Option ℕ

/-- What copying `src` to a new directory leaves there. -/
def copied (src : Tree) (upTo : Option ℕ) : Tree :=
  let effects := copyTree src ""
  ((run (effects.take (upTo.getD effects.length)) ∅).lookup "").getD ∅

/-- After a failed copy the database goes back only if nothing is in its place:
a directory that is not empty cannot be replaced by a rename. -/
def restoreSnapshot (io : RestoreIO) : Prog Machine RestoreError String := fun m =>
  match (snapshotDays m.backups).getLast? with
  | none => (.error .noBackup,m)
  | some day =>
    if io.movedAside then
      let disk := copied ((m.backups.lookup day).getD ∅) io.copyFails
      let aside := m.aside.insert io.now m.world.disk
      match io.copyFails with
      | none =>
        (.ok day,{ m with world := { m.world with disk := disk, degraded := false }, aside := aside })
      | some _ =>
        if disk.keys = [] then (.error .copy,m)
        else (.error .copy,{ m with world := { m.world with disk := disk }, aside := aside })
    else (.error .moveAside,m)

section Opening

theorem openDatabase_backups (io : StartIO) (m : Machine) :
    (openDatabase io m).2.backups = m.backups := by
  unfold openDatabase
  split
  · rfl
  · split <;> rfl

theorem restoreSnapshot_backups (io : RestoreIO) (m : Machine) :
    (restoreSnapshot io m).2.backups = m.backups := by
  unfold restoreSnapshot
  split
  · rfl
  · split_ifs
    · simp only
      split
      · rfl
      · split_ifs <;> rfl
    · rfl

end Opening

section Sample

/-- A machine without a database or a key. -/
def freshMachine : Machine :=
  { world := { root := ["db"], disk := ∅, key := [], degraded := false, nonce := 0, faults := [] }
    dedicated := true
    preferred := none
    stale := ∅
    backups := ∅
    aside := ∅
    running := false }

/-- A start that meets no error, cut off after `crash` effects if any. -/
def calmStart (crash : Option ℕ) : StartIO :=
  { keys := calmKeyFiles (some (List.replicate 32 1))
    faults := []
    day := ⟨"20250101",by simp⟩
    fate := .saved
    crash := crash }

end Sample

end Whoisthat.Startup
