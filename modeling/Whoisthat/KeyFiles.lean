import Whoisthat.Database

/-!
# Key files

The database key lives at the preferred path; older releases kept it inside the
database directory. `loadOrCreateKey` chooses between the two files by trying
them on two sample files. What it may lose is decided by the keys on disk
before and after: the preferred file, the legacy file and the stale backups.
-/

set_option autoImplicit false

namespace Whoisthat.KeyFiles
open Whoisthat.FileStore Whoisthat.FallibleState Whoisthat.Database

def encryptionKeySize : ℕ := 32

def legacyPath : Path := .rootFile ".key"

/-- The bytes of a key file. A database file in its place is longer or shorter
than a key; its bytes do not matter. -/
def keyBytes : Blob → List UInt8
  | .sealed _ _ _ => []
  | .tampered bytes => bytes
  | .plain _ => []
  | .junk bytes => bytes

structure Keyring where
  /-- The preferred path differs from the legacy one. -/
  dedicated : Bool
  /-- The file at the preferred path when that is not the legacy one. -/
  preferred : Option (List UInt8)
  /-- The `.stale-` backups beside it, by time. -/
  stale : Store String (List UInt8)
  tree : Tree

def Keyring.legacyFile (k : Keyring) : Option (List UInt8) := (readFile legacyPath k.tree).map keyBytes

def Keyring.preferredFile (k : Keyring) : Option (List UInt8) :=
  if k.dedicated then k.preferred else k.legacyFile

/-- How the file operations of one call go. -/
structure KeyIO where
  now : String
  preferredReadable : Bool
  legacyReadable : Bool
  /-- The generated key, if the random source works. -/
  fresh : Option Key
  backupWritten : Bool
  preferredWritten : Bool
  legacyRemoved : Bool

inductive Fatal where
  | readPreferred
  | readLegacy
  | invalidKey
  | migrateKey
  | restoreLegacy
  | restoreFromBackup
  | generateKey
  | writeKey
  | writeDBConfig
  deriving DecidableEq

abbrev KeyM (α : Type) := Prog Keyring Fatal α

structure KeyFile where
  data : List UInt8
  valid : Bool
  found : Bool

def readKeyFile : Option (List UInt8) → KeyFile
  | none => { data := [], valid := false, found := false }
  | some data => { data := data, valid := decide (data.length = encryptionKeySize), found := true }

/-- Whether `key` opens one of the files, and whether one of them is encrypted. -/
def matchesAny (key : Key) (t : Tree) : List Path → Bool × Bool
  | [] => (false,false)
  | path::paths =>
    match readFile path t with
    | none => matchesAny key t paths
    | some b =>
      if b.encrypted then
        if (openBlob key b).isSome then (true,true) else ((matchesAny key t paths).1,true)
      else matchesAny key t paths

def keyMatchesDatabase (key : Key) (t : Tree) : Bool × Bool := matchesAny key t [.dbConfig,.routing]

def setPreferred (key : Key) (k : Keyring) : Keyring :=
  if k.dedicated then { k with preferred := some key }
  else { k with tree := k.tree.insert legacyPath (.file (.junk key)) }

def writePreferred (io : KeyIO) (key : Key) (e : Fatal) : KeyM Unit :=
  if io.preferredWritten then modify (setPreferred key) else fail e

def dropLegacy (io : KeyIO) (k : Keyring) : Keyring :=
  if k.dedicated ∧ io.legacyRemoved then { k with tree := k.tree.erase legacyPath } else k

def removeLegacyKey (io : KeyIO) : KeyM Unit := modify (dropLegacy io)

def adoptLegacyKey (io : KeyIO) (staleKey legacyKey : Key) : KeyM Unit := do
  when (!staleKey.isEmpty && io.backupWritten)
    (modify fun k => { k with stale := k.stale.insert io.now staleKey })
  writePreferred io legacyKey .restoreLegacy

def generateKey (io : KeyIO) : KeyM Key :=
  match io.fresh with
  | none => fail .generateKey
  | some key => do
    writePreferred io key .writeKey
    pure key

def loadOrCreateKey (io : KeyIO) : KeyM Key := do
  let k ← get
  let pref := readKeyFile k.preferredFile
  let legacy := readKeyFile k.legacyFile
  if pref.found ∧ io.preferredReadable = false then fail .readPreferred
  else if legacy.found ∧ io.legacyReadable = false then fail .readLegacy
  else if k.dedicated = false then
    if pref.valid then pure pref.data
    else if pref.found then fail .invalidKey
    else generateKey io
  else if pref.valid ∧ legacy.valid then
    if pref.data = legacy.data then do
      removeLegacyKey io
      pure pref.data
    else
      let (prefMatches,checked) := keyMatchesDatabase pref.data k.tree
      if prefMatches then do
        removeLegacyKey io
        pure pref.data
      else if (keyMatchesDatabase legacy.data k.tree).1 then do
        adoptLegacyKey io pref.data legacy.data
        removeLegacyKey io
        pure legacy.data
      else do
        when (!checked) (removeLegacyKey io)
        pure pref.data
  else if pref.valid then do
    when legacy.found (removeLegacyKey io)
    pure pref.data
  else if legacy.valid then do
    writePreferred io legacy.data .migrateKey
    removeLegacyKey io
    pure legacy.data
  else if pref.found ∨ legacy.found then fail .restoreFromBackup
  else generateKey io

section Samples

/-- `path` holds a file that `key` opens. -/
def SealedAt (key : Key) (t : Tree) (path : Path) : Prop :=
  ∃ n p, readFile path t = some (.sealed key n p)

def EncryptedAt (t : Tree) (path : Path) : Prop :=
  ∃ b, readFile path t = some b ∧ b.encrypted = true

theorem sealed_of_open {key : Key} {b : Blob} (he : b.encrypted = true)
    (ho : (openBlob key b).isSome) : ∃ n p, b = .sealed key n p := by
  cases b with
  | «sealed» k n p =>
    by_cases hk : k = key
    · exact ⟨n,p,by rw [hk]⟩
    · simp [openBlob,hk] at ho
  | tampered bytes => simp [openBlob] at ho
  | plain p => simp [Blob.encrypted] at he
  | junk bytes => simp [Blob.encrypted] at he

theorem matchesAny_fst (key : Key) (t : Tree) (paths : List Path) :
    (matchesAny key t paths).1 = true ↔ ∃ path ∈ paths, SealedAt key t path := by
  induction paths with
  | nil => simp [matchesAny]
  | cons path paths ih =>
    rw [List.exists_mem_cons_iff,← ih,matchesAny]
    have hnot : ∀ b, readFile path t = some b → ¬(b.encrypted = true ∧ (openBlob key b).isSome) →
        ¬SealedAt key t path := by
      rintro b hb hn ⟨n,p,h⟩
      obtain rfl := Option.some.inj (hb.symm.trans h)
      exact hn ⟨rfl,by simp [openBlob]⟩
    cases hr : readFile path t with
    | none =>
      have hno : ¬SealedAt key t path := fun ⟨n,p,h⟩ => by rw [hr] at h; simp at h
      simp [hno]
    | some b =>
      by_cases he : b.encrypted
      · by_cases ho : (openBlob key b).isSome
        · obtain ⟨n,p,rfl⟩ := sealed_of_open he ho
          have hyes : SealedAt key t path := ⟨n,p,hr⟩
          simp [he,ho,hyes]
        · simp [he,ho,hnot b hr (fun h => ho h.2)]
      · simp [he,hnot b hr (fun h => he h.1)]

theorem matchesAny_snd (key : Key) (t : Tree) (paths : List Path) :
    (matchesAny key t paths).2 = true ↔ ∃ path ∈ paths, EncryptedAt t path := by
  induction paths with
  | nil => simp [matchesAny]
  | cons path paths ih =>
    rw [List.exists_mem_cons_iff,← ih,matchesAny]
    cases hr : readFile path t with
    | none => simp [EncryptedAt,hr]
    | some b =>
      by_cases he : b.encrypted
      · by_cases ho : (openBlob key b).isSome <;> simp [EncryptedAt,hr,he,ho]
      · simp [EncryptedAt,hr,he]

end Samples

section Files

/-- Every database file is as before. -/
def SameFiles (k k' : Keyring) : Prop :=
  ∀ path, path ≠ legacyPath → k'.tree.lookup path = k.tree.lookup path

theorem sameFiles_refl (k : Keyring) : SameFiles k k := fun _ _ => rfl

theorem sameFiles_trans (k l m : Keyring) (h : SameFiles k l) (h' : SameFiles l m) :
    SameFiles k m := fun path hp => (h' path hp).trans (h path hp)

theorem sameFiles_dropLegacy (io : KeyIO) (k : Keyring) : SameFiles k (dropLegacy io k) := by
  intro path hp
  unfold dropLegacy
  split_ifs
  · exact (lookup_erase _ _ _).trans (if_neg hp)
  · rfl

theorem sameFiles_setPreferred (key : Key) (k : Keyring) : SameFiles k (setPreferred key k) := by
  intro path hp
  unfold setPreferred
  split_ifs
  · rfl
  · exact (lookup_insert _ _ _ _).trans (if_neg hp)

theorem sameFiles_removeLegacyKey (io : KeyIO) : Keeps SameFiles (removeLegacyKey io) :=
  sameFiles_dropLegacy io

theorem sameFiles_writePreferred (io : KeyIO) (key : Key) (e : Fatal) :
    Keeps SameFiles (writePreferred io key e) := by
  unfold writePreferred
  split_ifs
  · exact sameFiles_setPreferred key
  · exact keeps_fail sameFiles_refl e

theorem sameFiles_generateKey (io : KeyIO) : Keeps SameFiles (generateKey io) := by
  unfold generateKey
  split
  · exact keeps_fail sameFiles_refl _
  · exact keeps_bind sameFiles_trans (sameFiles_writePreferred io _ _)
      fun _ => keeps_pure sameFiles_refl _

theorem sameFiles_adoptLegacyKey (io : KeyIO) (staleKey legacyKey : Key) :
    Keeps SameFiles (adoptLegacyKey io staleKey legacyKey) :=
  keeps_bind sameFiles_trans (keeps_when sameFiles_refl fun _ _ _ _ => rfl)
    fun _ => sameFiles_writePreferred io _ _

/-- Loading the key touches key files only. -/
theorem sameFiles_loadOrCreateKey (io : KeyIO) : Keeps SameFiles (loadOrCreateKey io) := by
  have hremove := sameFiles_removeLegacyKey io
  have hpure : ∀ key : Key, Keeps SameFiles (pure key : KeyM Key) :=
    fun key => keeps_pure sameFiles_refl key
  refine keeps_bind sameFiles_trans (keeps_get sameFiles_refl) fun k => ?_
  simp only
  split_ifs
  · exact keeps_fail sameFiles_refl _
  · exact keeps_fail sameFiles_refl _
  · exact hpure _
  · exact keeps_fail sameFiles_refl _
  · exact sameFiles_generateKey io
  · exact keeps_bind sameFiles_trans hremove fun _ => hpure _
  · exact keeps_bind sameFiles_trans hremove fun _ => hpure _
  · exact keeps_bind sameFiles_trans (sameFiles_adoptLegacyKey io _ _) fun _ =>
      keeps_bind sameFiles_trans hremove fun _ => hpure _
  · exact keeps_bind sameFiles_trans (keeps_when sameFiles_refl fun _ => hremove) fun _ => hpure _
  · exact keeps_bind sameFiles_trans (keeps_when sameFiles_refl fun _ => hremove) fun _ => hpure _
  · exact keeps_bind sameFiles_trans (sameFiles_writePreferred io _ _) fun _ =>
      keeps_bind sameFiles_trans hremove fun _ => hpure _
  · exact keeps_fail sameFiles_refl _
  · exact sameFiles_generateKey io

end Files

/-- Every file operation succeeds. -/
def calmKeyFiles (fresh : Option Key) : KeyIO :=
  { now := "20250101-000000"
    preferredReadable := true
    legacyReadable := true
    fresh := fresh
    backupWritten := true
    preferredWritten := true
    legacyRemoved := true }

end Whoisthat.KeyFiles
