import Mathlib.Data.List.AList
import Whoisthat.FileStore
import Whoisthat.FallibleState
import Whoisthat.Records

/-!
# The encrypted database directory

Everything below `db.Path` as a finite store of typed names. A file is sealed
under a key, plain JSON from before encryption, or bytes that are neither.
Sealing is ideal: another key never opens it, and two encryptions of one
payload differ by their nonce. Every encrypted write may fail; the coming
outcomes are a list in the state, and a failed write leaves its file as it was.
-/

set_option autoImplicit false

namespace Whoisthat.Database
open Whoisthat.FileStore Whoisthat.FallibleState Whoisthat.Records

/-- Names below `db.Path`. Group and profile numbers are the decimal numerals
the code prints; `groupFile` and `rootFile` stand for files it never names. -/
inductive Path where
  | dbConfig
  | routing
  | rootFile (name : String)
  | groupDir (gid : ℤ)
  | groupConfig (gid : ℤ)
  | profile (gid id : ℤ)
  | profileXrayConfig (gid id : ℤ)
  | groupRouting (gid : ℤ)
  | routingProfile (gid : ℤ) (id : String)
  | routingGeoDir (gid : ℤ) (id version : String)
  | routingGeo (gid : ℤ) (id version file : String)
  | groupFile (gid : ℤ) (name : String)
  deriving DecidableEq, Repr

/-- The components of a name below `db.Path`. -/
def Path.components : Path → List String
  | .dbConfig => ["config.json"]
  | .routing => ["routing.json"]
  | .rootFile name => [name]
  | .groupDir gid => ["groups",toString gid]
  | .groupConfig gid => ["groups",toString gid,"group_config.json"]
  | .profile gid id => ["groups",toString gid,toString id ++ ".json"]
  | .profileXrayConfig gid id => ["groups",toString gid,"xray",toString id ++ ".json"]
  | .groupRouting gid => ["groups",toString gid,"routing","manual.json"]
  | .routingProfile gid id => ["groups",toString gid,"routing","profiles",id ++ ".json"]
  | .routingGeoDir gid id version => ["groups",toString gid,"routing","geo",id,version]
  | .routingGeo gid id version file => ["groups",toString gid,"routing","geo",id,version,file]
  | .groupFile gid name => ["groups",toString gid,name]

/-- `filepath.Join` of an absolute directory and a relative name -/
def joinPath (dir : List String) (name : String) : List String :=
  (name.toList.splitOn '/').foldl (fun acc part =>
    if part = [] ∨ part = ['.'] then acc
    else if part = ['.','.'] then acc.dropLast
    else acc ++ [String.ofList part]) dir

/-- The group directory a name lies in. -/
def Path.group? : Path → Option ℤ
  | .dbConfig => none
  | .routing => none
  | .rootFile _ => none
  | .groupDir gid => some gid
  | .groupConfig gid => some gid
  | .profile gid _ => some gid
  | .profileXrayConfig gid _ => some gid
  | .groupRouting gid => some gid
  | .routingProfile gid _ => some gid
  | .routingGeoDir gid _ _ => some gid
  | .routingGeo gid _ _ _ => some gid
  | .groupFile gid _ => some gid

abbrev Key := List UInt8

inductive Payload where
  | dbConfig (c : DBConfig)
  | group (g : Group)
  | profile (p : Profile)
  | raw (r : RawMessage)
  | routing (r : RoutingConfig)
  | routingProfile (r : RoutingProfile)
  | bytes (b : List UInt8)
  deriving DecidableEq

inductive Blob where
  | sealed (key : Key) (nonce : ℕ) (payload : Payload)
  | tampered (bytes : List UInt8)
  | plain (payload : Payload)
  | junk (bytes : List UInt8)
  deriving DecidableEq

inductive Node where
  | dir
  | file (b : Blob)
  deriving DecidableEq

abbrev Tree := Store Path Node

def readFile (path : Path) (t : Tree) : Option Blob :=
  match t.lookup path with
  | some (.file b) => some b
  | _ => none

inductive DBError where
  | notExist
  | decrypt (path : Path)
  | badJSON
  | readOnly (path : Path)
  | write (path : Path)
  | loadGroup (gid : ℤ) (cause : DBError)
  | readProfile (gid id : ℤ) (cause : DBError)
  | gettingGroup (cause : DBError)
  | loadingGroup (gid : ℤ) (cause : DBError)
  | routingGroup (gid : ℤ) (cause : DBError)
  | writeFile (path : Path) (cause : DBError)
  | writeProfile (id : ℤ) (cause : DBError)
  | writeXrayConfig (id : ℤ) (cause : DBError)
  | writeGroupConfig (gid : ℤ) (cause : DBError)
  | sameGroups
  | getMoved (id gid : ℤ) (cause : DBError)
  | loadTarget (gid : ℤ) (cause : DBError)
  | writeUpdate (path : Path) (cause : DBError)
  | writeMoved (path : Path) (cause : DBError)
  | moveXrayConfig (cause : DBError)
  | saveTarget (gid : ℤ) (cause : DBError)
  | badInterval (seconds : ℤ)
  | updateMissing (gid id : ℤ) (cause : DBError)
  | nanoIDMismatch (gid id : ℤ) (old new : String)
  | loadDBConfig (cause : DBError)
  | loadRoutingProfile (id : String) (cause : DBError)
  | foreignRoutingProfile (id : String) (gid : ℤ)
  | noRules
  | geoMissing (file : String) (dir : List String)
  | badRoutingMode (mode : String)
  | badRoutingSource (source : String)
  | globalHasNoSource
  deriving DecidableEq

/-- `errors.Is(err, os.ErrNotExist)`, which looks through wrapped causes -/
def DBError.isNotExist : DBError → Bool
  | .notExist => true
  | .loadGroup _ e => e.isNotExist
  | .readProfile _ _ e => e.isNotExist
  | .gettingGroup e => e.isNotExist
  | .loadingGroup _ e => e.isNotExist
  | .routingGroup _ e => e.isNotExist
  | _ => false

structure World where
  /-- The components of `db.Path`. -/
  root : List String
  disk : Tree
  key : Key
  degraded : Bool
  nonce : ℕ
  /-- Outcomes of the coming encrypted writes, `true` for a failure; writes
  past the end of the list succeed. -/
  faults : List Bool

abbrev DBM (α : Type) := Prog World DBError α

/-- What a file's bytes hold for somebody with the key. -/
def openBlob (key : Key) : Blob → Option Payload
  | .sealed k _ p => if k = key then some p else none
  | .tampered _ => none
  | .plain p => some p
  | .junk _ => none

def Blob.encrypted : Blob → Bool
  | .sealed _ _ _ => true
  | .tampered _ => true
  | .plain _ => false
  | .junk _ => false

def Payload.asDBConfig : Payload → Option DBConfig
  | .dbConfig c => some c
  | _ => none

def Payload.asGroup : Payload → Option Group
  | .group g => some g
  | _ => none

def Payload.asProfile : Payload → Option Profile
  | .profile p => some p
  | _ => none

def Payload.asRaw : Payload → Option RawMessage
  | .raw r => some r
  | _ => none

def Payload.asRouting : Payload → Option RoutingConfig
  | .routing r => some r
  | _ => none

def Payload.asRoutingProfile : Payload → Option RoutingProfile
  | .routingProfile r => some r
  | _ => none

def markDegraded (w : World) : World := { w with degraded := true }

/-- A file that looks encrypted but does not open makes the database
read-only; anything else that does not decode is only an error. -/
def readEncryptedJSON {α : Type} (path : Path) (target : Payload → Option α) : DBM α := fun w =>
  match readFile path w.disk with
  | none => (.error .notExist, w)
  | some b =>
    match openBlob w.key b with
    | some p =>
      match target p with
      | some a => (.ok a, w)
      | none => (.error .badJSON, w)
    | none =>
      if b.encrypted then (.error (.decrypt path), markDegraded w)
      else (.error .badJSON, w)

/-- `os.MkdirAll` of the group directory a name lies in -/
def mkdirFor (path : Path) (t : Tree) : Tree :=
  match path.group? with
  | none => t
  | some gid => if (t.lookup (.groupDir gid)).isSome then t else t.insert (.groupDir gid) .dir

def store (path : Path) (p : Payload) (w : World) : World :=
  { w with
    disk := (mkdirFor path w.disk).insert path (.file (.sealed w.key w.nonce p))
    nonce := w.nonce+1
    faults := w.faults.tail }

def writeEncryptedJSON (path : Path) (data : Payload) : DBM Unit := fun w =>
  if w.degraded then (.error (.readOnly path), w)
  else match w.faults with
    | true::rest => (.error (.write path), { w with faults := rest })
    | _ => (.ok (), store path data w)

/-- `fmt.Errorf` with a wrapped cause -/
def wrapping {α : Type} (wrap : DBError → DBError) (m : DBM α) : DBM α := fun w =>
  match m w with
  | (.ok a, w') => (.ok a, w')
  | (.error e, w') => (.error (wrap e), w')

/-- `os.Remove`; callers ignore a file that is not there -/
def remove (path : Path) : DBM Unit :=
  modify fun w => { w with disk := w.disk.erase path }

def osRemoveAll (under : Path → Bool) : DBM Unit :=
  modify fun w => { w with disk := removeAll under w.disk }

def osMkdirAll (path : Path) : DBM Unit :=
  modify fun w => { w with disk := mkdirFor path w.disk }

/-- `os.ReadDir`, keeping the entries of one kind -/
def readDir {ι : Type} (name : Path → Option ι) : DBM (List ι) := fun w =>
  (.ok (listing name w.disk), w)

def inGroupDir (gid : ℤ) (path : Path) : Bool := path.group? = some gid

def saveDBConfig (c : DBConfig) : DBM Unit := writeEncryptedJSON .dbConfig (.dbConfig c)

def loadDBConfig : DBM DBConfig := readEncryptedJSON .dbConfig Payload.asDBConfig

/-- What `migrateFileToEncrypted` would encrypt: the bytes of a file that is not
encrypted yet. -/
def rawPayload : Blob → Option Payload
  | .sealed _ _ _ => none
  | .tampered _ => none
  | .plain p => some p
  | .junk b => some (.bytes b)

/-- The write goes past the read-only check; its failure is only logged. -/
def migrateFileToEncrypted (path : Path) : DBM Unit := fun w =>
  match (readFile path w.disk).bind rawPayload with
  | none => (.ok (), w)
  | some p =>
    match w.faults with
    | true::rest => (.ok (), { w with faults := rest })
    | _ => (.ok (), store path p w)

def groupDirName : Path → Option ℤ
  | .groupDir gid => some gid
  | _ => none

/-- The plain files of a group directory other than its config. -/
def groupEntryName (gid : ℤ) : Path → Option Path
  | .profile g id => if g = gid then some (.profile g id) else none
  | .groupFile g name => if g = gid then some (.groupFile g name) else none
  | _ => none

def migrateGroup (gid : ℤ) : DBM Unit := do
  migrateFileToEncrypted (.groupConfig gid)
  let entries ← readDir (groupEntryName gid)
  forEach migrateFileToEncrypted entries

def migrateToEncrypted : DBM Unit := do
  migrateFileToEncrypted .dbConfig
  migrateFileToEncrypted .routing
  let gids ← readDir groupDirName
  forEach migrateGroup gids

section Effects

theorem readFile_mkdirFor (path q : Path) (t : Tree) :
    readFile path (mkdirFor q t) = readFile path t := by
  unfold mkdirFor
  split
  · rfl
  · rename_i gid _
    split
    · rfl
    · rename_i hd
      unfold readFile
      rw [lookup_insert]
      split_ifs with hp
      · subst hp
        rw [Option.not_isSome_iff_eq_none.mp hd]
      · rfl

theorem readFile_insert (path q : Path) (b : Blob) (t : Tree) :
    readFile path (t.insert q (.file b)) = if path = q then some b else readFile path t := by
  unfold readFile
  rw [lookup_insert]
  split_ifs <;> rfl

theorem readFile_erase (path q : Path) (t : Tree) :
    readFile path (t.erase q) = if path = q then none else readFile path t := by
  unfold readFile
  rw [lookup_erase]
  split_ifs <;> rfl

theorem readFile_removeAll (path : Path) (under : Path → Bool) (t : Tree) :
    readFile path (removeAll under t) = if under path then none else readFile path t := by
  unfold readFile
  rw [lookup_removeAll]
  split_ifs <;> rfl

theorem readFile_store (path q : Path) (p : Payload) (w : World) :
    readFile path (store q p w).disk =
      if path = q then some (.sealed w.key w.nonce p) else readFile path w.disk := by
  simp only [store,readFile_insert,readFile_mkdirFor]

/-- What an encrypted write can do: be refused, fail, or replace one file. -/
theorem write_cases (path : Path) (data : Payload) (w : World) :
    (w.degraded = true ∧ writeEncryptedJSON path data w = (.error (.readOnly path),w)) ∨
    (w.degraded = false ∧ w.faults.head? = some true ∧
      writeEncryptedJSON path data w = (.error (.write path),{ w with faults := w.faults.tail })) ∨
    (w.degraded = false ∧ w.faults.head? ≠ some true ∧
      writeEncryptedJSON path data w = (.ok (),store path data w)) := by
  unfold writeEncryptedJSON
  cases hd : w.degraded with
  | true => exact Or.inl ⟨rfl,by simp⟩
  | false =>
    right
    cases hf : w.faults with
    | nil => exact Or.inr ⟨rfl,by simp⟩
    | cons b rest => cases b <;> simp

/-- The files outside `P`, the key and the read-only flag are as before. -/
structure Frame (P : Path → Prop) (w w' : World) : Prop where
  key : w'.key = w.key
  degraded : w'.degraded = w.degraded
  files : ∀ path, ¬P path → readFile path w'.disk = readFile path w.disk

theorem frame_refl (P : Path → Prop) (w : World) : Frame P w w := ⟨rfl,rfl,fun _ _ => rfl⟩

theorem frame_trans {P : Path → Prop} (u v w : World) (h : Frame P u v) (h' : Frame P v w) :
    Frame P u w :=
  ⟨h'.key.trans h.key,h'.degraded.trans h.degraded,
    fun path hp => (h'.files path hp).trans (h.files path hp)⟩

theorem frame_mono {P Q : Path → Prop} {w w' : World} (h : Frame P w w')
    (hpq : ∀ path, P path → Q path) : Frame Q w w' :=
  ⟨h.key,h.degraded,fun path hq => h.files path fun hp => hq (hpq path hp)⟩

theorem frame_store (path : Path) (p : Payload) (w : World) :
    Frame (fun q => q = path) w (store path p w) :=
  ⟨rfl,rfl,fun q hq => by rw [readFile_store,if_neg hq]⟩

variable {α : Type}

theorem keeps_wrapping {R : World → World → Prop} {m : DBM α} (wrap : DBError → DBError)
    (h : Keeps R m) : Keeps R (wrapping wrap m) := by
  intro w
  have hw := h w
  unfold wrapping
  rcases hm : m w with ⟨a | e,w'⟩ <;> rw [hm] at hw <;> exact hw

theorem keeps_frame_mono {P Q : Path → Prop} {m : DBM α} (h : Keeps (Frame P) m)
    (hpq : ∀ path, P path → Q path) : Keeps (Frame Q) m :=
  fun w => frame_mono (h w) hpq

theorem frame_write (path : Path) (data : Payload) :
    Keeps (Frame (fun q => q = path)) (writeEncryptedJSON path data) := by
  intro w
  rcases write_cases path data w with ⟨_,h⟩ | ⟨_,_,h⟩ | ⟨_,_,h⟩ <;> rw [h]
  · exact frame_refl _ w
  · exact ⟨rfl,rfl,fun _ _ => rfl⟩
  · exact frame_store path data w

theorem frame_remove (path : Path) : Keeps (Frame (fun q => q = path)) (remove path) :=
  fun w => ⟨rfl,rfl,fun q hq => by simp [remove,readFile_erase,hq]⟩

theorem frame_osMkdirAll (P : Path → Prop) (path : Path) : Keeps (Frame P) (osMkdirAll path) :=
  fun w => ⟨rfl,rfl,fun q _ => by simp [osMkdirAll,readFile_mkdirFor]⟩

theorem frame_osRemoveAll (under : Path → Bool) :
    Keeps (Frame (fun q => under q = true)) (osRemoveAll under) :=
  fun w => ⟨rfl,rfl,fun q hq => by simp [osRemoveAll,readFile_removeAll,hq]⟩

@[simp] theorem wrapping_snd (wrap : DBError → DBError) (m : DBM α) (w : World) :
    (wrapping wrap m w).2 = (m w).2 := by
  unfold wrapping
  rcases m w with ⟨a | e,w'⟩ <;> rfl

theorem wrapping_fst (wrap : DBError → DBError) (m : DBM α) (w : World) :
    (wrapping wrap m w).1 = (m w).1.mapError wrap := by
  unfold wrapping
  rcases m w with ⟨a | e,w'⟩ <;> rfl

theorem wrapping_ok {wrap : DBError → DBError} {m : DBM α} {w w' : World} {a : α} :
    wrapping wrap m w = (.ok a,w') ↔ m w = (.ok a,w') := by
  unfold wrapping
  rcases m w with ⟨e | b,u⟩ <;> simp

theorem wrapped_write_cases (wrap : DBError → DBError) (path : Path) (data : Payload) (w : World) :
    (w.degraded = true ∧
      wrapping wrap (writeEncryptedJSON path data) w = (.error (wrap (.readOnly path)),w)) ∨
    (w.degraded = false ∧ w.faults.head? = some true ∧
      wrapping wrap (writeEncryptedJSON path data) w =
        (.error (wrap (.write path)),{ w with faults := w.faults.tail })) ∨
    (w.degraded = false ∧ w.faults.head? ≠ some true ∧
      wrapping wrap (writeEncryptedJSON path data) w = (.ok (),store path data w)) := by
  unfold wrapping
  rcases write_cases path data w with ⟨hd,h⟩ | ⟨hd,hf,h⟩ | ⟨hd,hf,h⟩ <;> rw [h]
  · exact Or.inl ⟨hd,rfl⟩
  · exact Or.inr (Or.inl ⟨hd,hf,rfl⟩)
  · exact Or.inr (Or.inr ⟨hd,hf,rfl⟩)

theorem write_ok {path : Path} {data : Payload} {w w' : World} {u : Unit}
    (h : writeEncryptedJSON path data w = (.ok u,w')) :
    w.degraded = false ∧ w' = store path data w := by
  rcases write_cases path data w with ⟨_,h'⟩ | ⟨_,_,h'⟩ | ⟨hd,_,h'⟩ <;> rw [h'] at h
  · simp at h
  · simp at h
  · exact ⟨hd,by simpa using h.symm⟩

end Effects

end Whoisthat.Database
