import Whoisthat.KeyFiles

/-!
# What a key migration may lose

A database file is recoverable while its key is in a key file: the preferred
one, the legacy one or a stale backup. The call never touches database files,
so only its key files matter. It is safe except where two different valid keys
meet and the sample files do not show which of them other files still need.
-/

set_option autoImplicit false

namespace Whoisthat.KeySafety
open Whoisthat.FileStore Whoisthat.FallibleState Whoisthat.Database Whoisthat.KeyFiles

def Held (stale : Store String (List UInt8)) (key : Key) : Prop :=
  ∃ name, stale.lookup name = some key

/-- A key file of the right length holds `key`. -/
structure OnDisk (k : Keyring) (key : Key) : Prop where
  size : key.length = encryptionKeySize
  file : k.preferredFile = some key ∨ k.legacyFile = some key ∨ Held k.stale key

def Needed (k : Keyring) (key : Key) : Prop :=
  ∃ path, path ≠ legacyPath ∧ SealedAt key k.tree path

def OpensAll (key : Key) (t : Tree) : Prop :=
  ∀ path, path ≠ legacyPath → EncryptedAt t path → SealedAt key t path

/-- Nothing that a key file could open becomes unrecoverable, and a key that
opened the whole database is replaced by one that does. -/
structure KeepsData (k : Keyring) (r : Except Fatal Key × Keyring) : Prop where
  files : ∀ path key, path ≠ legacyPath → SealedAt key k.tree path → OnDisk k key →
    SealedAt key r.2.tree path ∧ OnDisk r.2 key
  whole : ∀ key loaded, key.length = encryptionKeySize →
    k.preferredFile = some key ∨ k.legacyFile = some key → OpensAll key k.tree →
    r.1 = .ok loaded → OpensAll loaded r.2.tree

/-- Two readable, valid and different key files. -/
structure Contested (io : KeyIO) (k : Keyring) (pref legacy : Key) : Prop where
  dedicated : k.dedicated = true
  preferred : k.preferred = some pref
  legacyFile : k.legacyFile = some legacy
  prefSize : pref.length = encryptionKeySize
  legacySize : legacy.length = encryptionKeySize
  differ : pref ≠ legacy
  prefReadable : io.preferredReadable = true
  legacyReadable : io.legacyReadable = true

/-- Removing the legacy file loses nothing. -/
def LegacyUnneeded (io : KeyIO) (k : Keyring) (legacy : Key) : Prop :=
  io.legacyRemoved = true → Needed k legacy → Held k.stale legacy

/-- Replacing the preferred file loses nothing: its backup is written unless
nobody needs it, and replaces no backup that is still needed. -/
def BackupSuffices (io : KeyIO) (k : Keyring) (pref legacy : Key) : Prop :=
  if io.backupWritten then
    ∀ key, k.stale.lookup io.now = some key → key.length = encryptionKeySize → key ≠ pref →
      key ≠ legacy → Needed k key → ∃ name, name ≠ io.now ∧ k.stale.lookup name = some key
  else io.preferredWritten = true → Needed k pref → Held k.stale pref

def Unambiguous (io : KeyIO) (k : Keyring) (pref legacy : Key) : Prop :=
  if (keyMatchesDatabase pref k.tree).1 then LegacyUnneeded io k legacy
  else if (keyMatchesDatabase legacy k.tree).1 then BackupSuffices io k pref legacy
  else if (keyMatchesDatabase pref k.tree).2 then True
  else LegacyUnneeded io k legacy ∧
    ¬(OpensAll legacy k.tree ∧ ∃ path, path ≠ legacyPath ∧ EncryptedAt k.tree path)

section Files

variable {io : KeyIO} {k k' : Keyring} {key : Key} {path : Path}

theorem readFile_same (h : SameFiles k k') (hp : path ≠ legacyPath) :
    readFile path k'.tree = readFile path k.tree := by
  rw [readFile,readFile,h path hp]

theorem sealedAt_congr (h : SameFiles k k') (hp : path ≠ legacyPath) :
    SealedAt key k'.tree path ↔ SealedAt key k.tree path := by
  unfold SealedAt
  rw [readFile_same h hp]

theorem opensAll_congr (h : SameFiles k k') : OpensAll key k'.tree ↔ OpensAll key k.tree := by
  unfold OpensAll EncryptedAt
  refine forall_congr' fun path => forall_congr' fun hp => ?_
  rw [readFile_same h hp,sealedAt_congr h hp]

/-- With the database files untouched, only the key files count. -/
theorem keepsData_iff {r : Except Fatal Key} (h : SameFiles k k') :
    KeepsData k (r,k') ↔
      (∀ key, Needed k key → OnDisk k key → OnDisk k' key) ∧
      ∀ key loaded, key.length = encryptionKeySize →
        k.preferredFile = some key ∨ k.legacyFile = some key → OpensAll key k.tree →
        r = .ok loaded → OpensAll loaded k.tree := by
  constructor
  · intro hk
    refine ⟨fun key ⟨path,hp,hs⟩ ho => (hk.files path key hp hs ho).2,?_⟩
    intro key loaded hl hf ha hr
    exact (opensAll_congr h).mp (hk.whole key loaded hl hf ha hr)
  · intro ⟨hf,hw⟩
    refine ⟨fun path key hp hs ho => ⟨(sealedAt_congr h hp).mpr hs,hf key ⟨path,hp,hs⟩ ho⟩,?_⟩
    intro key loaded hl hk ha hr
    exact (opensAll_congr h).mpr (hw key loaded hl hk ha hr)

theorem keepsData_fatal (e : Fatal) : KeepsData k (.error e,k) :=
  (keepsData_iff (sameFiles_refl k)).mpr ⟨fun _ _ h => h,fun _ _ _ _ _ h => by simp at h⟩

theorem stale_dropLegacy : (dropLegacy io k).stale = k.stale := by
  unfold dropLegacy
  split_ifs <;> rfl

theorem preferred_dropLegacy : (dropLegacy io k).preferred = k.preferred := by
  unfold dropLegacy
  split_ifs <;> rfl

theorem dedicated_dropLegacy : (dropLegacy io k).dedicated = k.dedicated := by
  unfold dropLegacy
  split_ifs <;> rfl

theorem legacyFile_dropLegacy (hd : k.dedicated = true) :
    (dropLegacy io k).legacyFile = if io.legacyRemoved then none else k.legacyFile := by
  unfold dropLegacy Keyring.legacyFile
  cases io.legacyRemoved <;> simp [hd,readFile_erase]

theorem preferredFile_dedicated (hd : k.dedicated = true) : k.preferredFile = k.preferred := by
  rw [Keyring.preferredFile,if_pos hd]

/-- Removing the legacy file keeps exactly the keys held elsewhere. -/
theorem onDisk_dropLegacy (hd : k.dedicated = true) :
    OnDisk (dropLegacy io k) key ↔ key.length = encryptionKeySize ∧
      (k.preferred = some key ∨ (io.legacyRemoved = false ∧ k.legacyFile = some key) ∨
        Held k.stale key) := by
  have hp : (dropLegacy io k).preferredFile = k.preferred := by
    rw [preferredFile_dedicated (dedicated_dropLegacy.trans hd),preferred_dropLegacy]
  constructor
  · intro ⟨hs,hf⟩
    rw [hp,legacyFile_dropLegacy hd,stale_dropLegacy] at hf
    refine ⟨hs,hf.imp_right fun h => h.imp_left fun hl => ?_⟩
    cases hr : io.legacyRemoved <;> simp [hr] at hl
    exact ⟨rfl,hl⟩
  · intro ⟨hs,hf⟩
    refine ⟨hs,?_⟩
    rw [hp,legacyFile_dropLegacy hd,stale_dropLegacy]
    exact hf.imp_right fun h => h.imp_left fun ⟨hr,hl⟩ => by rw [hr]; exact hl

end Files

section Uncontested

variable {io : KeyIO} {k : Keyring}

/-- A preferred file that stays in place is the key of the database if anything
but a contested legacy file is. -/
theorem keepsData_dropLegacy {pref : Key} (hd : k.dedicated = true) (hp : k.preferred = some pref)
    (hl : ∀ key, k.legacyFile = some key → key.length = encryptionKeySize → key = pref) :
    KeepsData k (.ok pref,dropLegacy io k) := by
  refine (keepsData_iff (sameFiles_dropLegacy io k)).mpr ⟨fun key _ ho => ?_,?_⟩
  · refine (onDisk_dropLegacy hd).mpr ⟨ho.size,?_⟩
    rcases ho.file with h | h | h
    · exact Or.inl (preferredFile_dedicated hd ▸ h)
    · exact Or.inl (by rw [hl key h ho.size,hp])
    · exact Or.inr (Or.inr h)
  · intro key loaded hs hf ha hr
    obtain rfl := Except.ok.inj hr
    rcases hf with hf | hf
    · rw [preferredFile_dedicated hd,hp] at hf
      exact Option.some.inj hf ▸ ha
    · exact hl key hf hs ▸ ha

theorem keepsData_kept {pref : Key} (hp : k.preferredFile = some pref)
    (hl : ∀ key, k.legacyFile = some key → key.length = encryptionKeySize → key = pref) :
    KeepsData k (.ok pref,k) := by
  refine (keepsData_iff (sameFiles_refl k)).mpr ⟨fun _ _ ho => ho,?_⟩
  intro key loaded hs hf ha hr
  obtain rfl := Except.ok.inj hr
  rcases hf with hf | hf
  · rw [hp] at hf
    exact Option.some.inj hf ▸ ha
  · exact hl key hf hs ▸ ha

/-- Without key files of the right length, the written key replaces nothing. -/
theorem keepsData_setPreferred {key : Key} (r : Except Fatal Key)
    (hp : ∀ old, k.preferredFile = some old → old.length ≠ encryptionKeySize)
    (hl : ∀ old, k.legacyFile = some old → old.length ≠ encryptionKeySize) :
    KeepsData k (r,setPreferred key k) := by
  have hstale : (setPreferred key k).stale = k.stale := by
    unfold setPreferred
    split_ifs <;> rfl
  refine (keepsData_iff (sameFiles_setPreferred key k)).mpr ⟨fun old _ ho => ?_,?_⟩
  · rcases ho.file with h | h | h
    · exact absurd ho.size (hp old h)
    · exact absurd ho.size (hl old h)
    · exact ⟨ho.size,Or.inr (Or.inr (hstale ▸ h))⟩
  · intro old loaded hs hf
    exact absurd hs (hf.elim (hp old) (hl old))

/-- A legacy key moves to the preferred path when no valid key is there. -/
theorem keepsData_migrated {legacy : Key} (hd : k.dedicated = true)
    (hl : k.legacyFile = some legacy)
    (hp : ∀ old, k.preferred = some old → old.length ≠ encryptionKeySize) :
    KeepsData k (.ok legacy,dropLegacy io (setPreferred legacy k)) := by
  have hset : setPreferred legacy k = { k with preferred := some legacy } := by
    rw [setPreferred,if_pos hd]
  have hsame := sameFiles_trans _ _ _ (sameFiles_setPreferred legacy k)
    (sameFiles_dropLegacy io (setPreferred legacy k))
  refine (keepsData_iff hsame).mpr ⟨fun key _ ho => ?_,?_⟩
  · rw [hset]
    refine (onDisk_dropLegacy (k := { k with preferred := some legacy }) hd).mpr ⟨ho.size,?_⟩
    rcases ho.file with h | h | h
    · exact absurd ho.size (hp key (preferredFile_dedicated hd ▸ h))
    · exact Or.inl (by rw [← hl,h])
    · exact Or.inr (Or.inr h)
  · intro key loaded hs hf ha hr
    obtain rfl := Except.ok.inj hr
    rcases hf with hf | hf
    · exact absurd hs (hp key (preferredFile_dedicated hd ▸ hf))
    · rw [hl] at hf
      exact Option.some.inj hf ▸ ha

theorem keepsData_generateKey
    (hp : ∀ old, k.preferredFile = some old → old.length ≠ encryptionKeySize)
    (hl : ∀ old, k.legacyFile = some old → old.length ≠ encryptionKeySize) :
    KeepsData k (generateKey io k) := by
  unfold generateKey
  cases io.fresh with
  | none => exact keepsData_fatal _
  | some key =>
    cases hw : io.preferredWritten with
    | false =>
      have hrun : (writePreferred io key .writeKey >>= fun _ => pure key : KeyM Key) k =
          (.error .writeKey,k) := by simp [writePreferred,hw,bind_run]
      change KeepsData k ((writePreferred io key .writeKey >>= fun _ => pure key : KeyM Key) k)
      rw [hrun]
      exact keepsData_fatal _
    | true =>
      have hrun : (writePreferred io key .writeKey >>= fun _ => pure key : KeyM Key) k =
          (.ok key,setPreferred key k) := by simp [writePreferred,hw,bind_run]
      change KeepsData k ((writePreferred io key .writeKey >>= fun _ => pure key : KeyM Key) k)
      rw [hrun]
      exact keepsData_setPreferred _ hp hl

end Uncontested

section Load

variable {io : KeyIO} {k : Keyring}

theorem readKeyFile_valid {file : Option (List UInt8)} :
    (readKeyFile file).valid = true ↔
      file = some (readKeyFile file).data ∧ (readKeyFile file).data.length = encryptionKeySize := by
  cases file <;> simp [readKeyFile]

theorem readKeyFile_invalid {file : Option (List UInt8)} (h : ¬(readKeyFile file).valid = true) :
    ∀ old, file = some old → old.length ≠ encryptionKeySize := by
  rintro old rfl
  simpa [readKeyFile] using h

theorem not_found {file : Option (List UInt8)} (h : ¬(readKeyFile file).found = true) :
    file = none := by
  cases file with
  | none => rfl
  | some data => simp [readKeyFile] at h

theorem contested_of_valid
    (h1 : ¬((readKeyFile k.preferredFile).found = true ∧ io.preferredReadable = false))
    (h2 : ¬((readKeyFile k.legacyFile).found = true ∧ io.legacyReadable = false))
    (hd : ¬k.dedicated = false)
    (hv : (readKeyFile k.preferredFile).valid = true ∧ (readKeyFile k.legacyFile).valid = true)
    (hne : (readKeyFile k.preferredFile).data ≠ (readKeyFile k.legacyFile).data) :
    Contested io k (readKeyFile k.preferredFile).data (readKeyFile k.legacyFile).data := by
  have hd' : k.dedicated = true := by simpa using hd
  obtain ⟨hp,hps⟩ := readKeyFile_valid.mp hv.1
  obtain ⟨hl,hls⟩ := readKeyFile_valid.mp hv.2
  have hpf : (readKeyFile k.preferredFile).found = true := by rw [hp]; rfl
  have hlf : (readKeyFile k.legacyFile).found = true := by rw [hl]; rfl
  exact ⟨hd',(preferredFile_dedicated hd').symm.trans hp,hl,hps,hls,hne,
    by simpa [hpf] using h1,by simpa [hlf] using h2⟩

/-- A call that does not meet two different valid keys loses nothing. -/
theorem keepsData_uncontested (h : ¬∃ pref legacy, Contested io k pref legacy) :
    KeepsData k (loadOrCreateKey io k) := by
  rw [loadOrCreateKey,bind_of_ok (get_run k)]
  simp only
  split_ifs with h1 h2 hd hpv hpf hboth heq hpm hlm hpv hlv hfound
  · exact keepsData_fatal _
  · exact keepsData_fatal _
  · have hp := readKeyFile_valid.mp hpv
    have hsame : k.preferredFile = k.legacyFile := by simp [Keyring.preferredFile,hd]
    exact keepsData_kept hp.1 fun key hkey _ =>
      Option.some.inj (hkey.symm.trans (hsame.symm.trans hp.1))
  · exact keepsData_fatal _
  · have hnone := not_found hpf
    have hsame : k.preferredFile = k.legacyFile := by simp [Keyring.preferredFile,hd]
    exact keepsData_generateKey (by simp [hnone]) (by simp [← hsame,hnone])
  · have hd' : k.dedicated = true := by simpa using hd
    have hp := (readKeyFile_valid.mp hboth.1).1
    have hl := (readKeyFile_valid.mp hboth.2).1
    refine keepsData_dropLegacy hd' ((preferredFile_dedicated hd').symm.trans hp) fun key hkey _ => ?_
    rw [heq]
    exact Option.some.inj (hkey.symm.trans hl)
  · exact absurd ⟨_,_,contested_of_valid h1 h2 hd hboth heq⟩ h
  · exact absurd ⟨_,_,contested_of_valid h1 h2 hd hboth heq⟩ h
  · exact absurd ⟨_,_,contested_of_valid h1 h2 hd hboth heq⟩ h
  · have hd' : k.dedicated = true := by simpa using hd
    have hp := (readKeyFile_valid.mp hpv).1
    have hl := readKeyFile_invalid fun hl => hboth ⟨hpv,hl⟩
    cases (readKeyFile k.legacyFile).found with
    | false => exact keepsData_kept hp fun key hkey hs => absurd hs (hl key hkey)
    | true =>
      exact keepsData_dropLegacy hd' ((preferredFile_dedicated hd').symm.trans hp)
        fun key hkey hs => absurd hs (hl key hkey)
  · have hd' : k.dedicated = true := by simpa using hd
    have hl := (readKeyFile_valid.mp hlv).1
    have hp := readKeyFile_invalid hpv
    rw [preferredFile_dedicated hd'] at hp
    cases hw : io.preferredWritten with
    | false =>
      rw [writePreferred,hw]
      exact keepsData_fatal _
    | true =>
      rw [writePreferred,hw]
      exact keepsData_migrated hd' hl hp
  · exact keepsData_fatal _
  · rw [not_or] at hfound
    exact keepsData_generateKey (by simp [not_found hfound.1]) (by simp [not_found hfound.2])

def backedUp (io : KeyIO) (pref : Key) (k : Keyring) : Keyring :=
  if io.backupWritten then { k with stale := k.stale.insert io.now pref } else k

theorem adopt_run {pref legacy : Key} (hd : k.dedicated = true) (hne : pref.isEmpty = false) :
    adoptLegacyKey io pref legacy k =
      if io.preferredWritten then (.ok (),{ backedUp io pref k with preferred := some legacy })
      else (.error .restoreLegacy,backedUp io pref k) := by
  unfold adoptLegacyKey writePreferred backedUp
  rw [hne]
  cases io.backupWritten <;> cases io.preferredWritten <;>
    simp [FallibleState.when,bind_run,setPreferred,hd]

/-- What a call does when it meets two different valid keys. -/
theorem load_contested {pref legacy : Key} (h : Contested io k pref legacy) :
    loadOrCreateKey io k =
      if (keyMatchesDatabase pref k.tree).1 then (.ok pref,dropLegacy io k)
      else if (keyMatchesDatabase legacy k.tree).1 then
        if io.preferredWritten then
          (.ok legacy,dropLegacy io { backedUp io pref k with preferred := some legacy })
        else (.error .restoreLegacy,backedUp io pref k)
      else (.ok pref,if (keyMatchesDatabase pref k.tree).2 then k else dropLegacy io k) := by
  have hp : k.preferredFile = some pref := (preferredFile_dedicated h.dedicated).trans h.preferred
  have hne : pref.isEmpty = false := by
    cases hpe : pref with
    | nil =>
      have hs := h.prefSize
      rw [hpe] at hs
      simp [encryptionKeySize] at hs
    | cons b bs => rfl
  rw [loadOrCreateKey,bind_of_ok (get_run k)]
  simp only [hp,h.legacyFile,readKeyFile,h.prefSize,h.legacySize,h.dedicated,h.prefReadable,
    h.legacyReadable,h.differ,decide_true,and_self,and_false,if_true,if_false,Bool.true_eq_false]
  split_ifs with hpm hlm hw hc
  · rfl
  · rw [bind_of_ok ((adopt_run h.dedicated hne).trans (if_pos hw))]
    rfl
  · rw [bind_of_error ((adopt_run h.dedicated hne).trans (if_neg hw))]
  · rw [hc]
    rfl
  · have hc' : (keyMatchesDatabase pref k.tree).2 = false := by simpa using hc
    rw [hc']
    rfl

end Load

section Contested

variable {io : KeyIO} {k : Keyring} {pref legacy : Key}

theorem sealedAt_unique {key key' : Key} {t : Tree} {path : Path} (h : SealedAt key t path)
    (h' : SealedAt key' t path) : key = key' := by
  obtain ⟨n,p,h⟩ := h
  obtain ⟨n',p',h'⟩ := h'
  rw [h] at h'
  simp only [Option.some.injEq,Blob.sealed.injEq] at h'
  exact h'.1

theorem encryptedAt_of_sealedAt {key : Key} {t : Tree} {path : Path} (h : SealedAt key t path) :
    EncryptedAt t path := by
  obtain ⟨n,p,h⟩ := h
  exact ⟨_,h,rfl⟩

theorem sample_ne_legacyPath {path : Path} (h : path ∈ [Path.dbConfig,Path.routing]) :
    path ≠ legacyPath := by
  rintro rfl
  simp [legacyPath] at h

/-- A key that opens a sample excludes every other from opening everything. -/
theorem not_opensAll_of_matches {key key' : Key} {t : Tree} (hne : key ≠ key')
    (h : (keyMatchesDatabase key t).1 = true) : ¬OpensAll key' t := by
  intro hall
  obtain ⟨path,hp,hs⟩ := (matchesAny_fst _ _ _).mp h
  exact hne (sealedAt_unique hs
    (hall path (sample_ne_legacyPath hp) (encryptedAt_of_sealedAt hs)))

theorem matches_of_opensAll {key : Key} {t : Tree} (hall : OpensAll key t)
    (h : ∃ path ∈ [Path.dbConfig,Path.routing], EncryptedAt t path) :
    (keyMatchesDatabase key t).1 = true := by
  obtain ⟨path,hp,he⟩ := h
  exact (matchesAny_fst _ _ _).mpr ⟨path,hp,hall path (sample_ne_legacyPath hp) he⟩

theorem held_insert {stale : Store String (List UInt8)} {now : String} {key : Key} :
    Held (stale.insert now pref) key ↔
      key = pref ∨ ∃ name, name ≠ now ∧ stale.lookup name = some key := by
  constructor
  · rintro ⟨name,h⟩
    rw [lookup_insert] at h
    split_ifs at h with hn
    · exact Or.inl (Option.some.inj h).symm
    · exact Or.inr ⟨name,hn,h⟩
  · rintro (rfl | ⟨name,hn,h⟩)
    · exact ⟨now,by rw [lookup_insert,if_pos rfl]⟩
    · exact ⟨name,by rw [lookup_insert,if_neg hn,h]⟩

theorem onDisk_contested (h : Contested io k pref legacy) {key : Key} (ho : OnDisk k key) :
    key = pref ∨ key = legacy ∨ Held k.stale key := by
  rcases ho.file with hf | hf | hf
  · rw [preferredFile_dedicated h.dedicated,h.preferred] at hf
    exact Or.inl (Option.some.inj hf).symm
  · rw [h.legacyFile] at hf
    exact Or.inr (Or.inl (Option.some.inj hf).symm)
  · exact Or.inr (Or.inr hf)

theorem keepsData_removed_iff (h : Contested io k pref legacy) :
    KeepsData k (.ok pref,dropLegacy io k) ↔
      LegacyUnneeded io k legacy ∧ (OpensAll legacy k.tree → OpensAll pref k.tree) := by
  rw [keepsData_iff (sameFiles_dropLegacy io k)]
  constructor
  · intro ⟨hf,hw⟩
    refine ⟨fun hr hn => ?_,fun ha => ?_⟩
    · have ho := hf legacy hn ⟨h.legacySize,Or.inr (Or.inl h.legacyFile)⟩
      rcases ((onDisk_dropLegacy h.dedicated).mp ho).2 with hp | ⟨hr',_⟩ | hs
      · exact absurd (Option.some.inj (h.preferred.symm.trans hp)) h.differ
      · rw [hr] at hr'
        simp at hr'
      · exact hs
    · exact hw legacy pref h.legacySize (Or.inr h.legacyFile) ha rfl
  · intro ⟨hu,hw⟩
    refine ⟨fun key hn ho => (onDisk_dropLegacy h.dedicated).mpr ⟨ho.size,?_⟩,?_⟩
    · rcases onDisk_contested h ho with rfl | rfl | hs
      · exact Or.inl h.preferred
      · cases hr : io.legacyRemoved with
        | false => exact Or.inr (Or.inl ⟨rfl,h.legacyFile⟩)
        | true => exact Or.inr (Or.inr (hu hr hn))
      · exact Or.inr (Or.inr hs)
    · intro key loaded hsize hf ha hr
      obtain rfl := Except.ok.inj hr
      rcases onDisk_contested h ⟨hsize,hf.imp_right Or.inl⟩ with rfl | rfl | _
      · exact ha
      · exact hw ha
      · rcases hf with hf | hf
        · rw [preferredFile_dedicated h.dedicated,h.preferred] at hf
          exact Option.some.inj hf ▸ ha
        · rw [h.legacyFile] at hf
          exact hw (Option.some.inj hf ▸ ha)

theorem backedUp_tree : (backedUp io pref k).tree = k.tree := by
  unfold backedUp
  split_ifs <;> rfl

theorem backedUp_dedicated : (backedUp io pref k).dedicated = k.dedicated := by
  unfold backedUp
  split_ifs <;> rfl

theorem backedUp_preferred : (backedUp io pref k).preferred = k.preferred := by
  unfold backedUp
  split_ifs <;> rfl

/-- After the backup, every needed key but the legacy one must be in a stale
file, or in the preferred one if that was not replaced. -/
theorem backupSuffices_iff (h : Contested io k pref legacy) :
    BackupSuffices io k pref legacy ↔
      ∀ key, Needed k key → OnDisk k key → key = legacy ∨
        (io.preferredWritten = false ∧ key = pref) ∨ Held (backedUp io pref k).stale key := by
  unfold BackupSuffices backedUp
  cases hb : io.backupWritten with
  | false =>
    simp only [Bool.false_eq_true,if_false]
    constructor
    · intro hs key hn ho
      rcases onDisk_contested h ho with rfl | hl | hst
      · cases hw : io.preferredWritten with
        | false => exact Or.inr (Or.inl ⟨rfl,rfl⟩)
        | true => exact Or.inr (Or.inr (hs hw hn))
      · exact Or.inl hl
      · exact Or.inr (Or.inr hst)
    · intro hall hw hn
      have ho : OnDisk k pref :=
        ⟨h.prefSize,Or.inl ((preferredFile_dedicated h.dedicated).trans h.preferred)⟩
      rcases hall pref hn ho with hl | ⟨hw',_⟩ | hst
      · exact absurd hl h.differ
      · rw [hw] at hw'
        simp at hw'
      · exact hst
  | true =>
    simp only [if_true]
    constructor
    · intro hs key hn ho
      by_cases hp : key = pref
      · exact Or.inr (Or.inr (held_insert.mpr (Or.inl hp)))
      · by_cases hl : key = legacy
        · exact Or.inl hl
        · refine Or.inr (Or.inr (held_insert.mpr (Or.inr ?_)))
          rcases onDisk_contested h ho with hp' | hl' | ⟨name,hst⟩
          · exact absurd hp' hp
          · exact absurd hl' hl
          · by_cases hname : name = io.now
            · exact hs key (hname ▸ hst) ho.size hp hl hn
            · exact ⟨name,hname,hst⟩
    · intro hall key hst hsize hp hl hn
      rcases hall key hn ⟨hsize,Or.inr (Or.inr ⟨_,hst⟩)⟩ with hl' | ⟨_,hp'⟩ | hheld
      · exact absurd hl' hl
      · exact absurd hp' hp
      · exact (held_insert.mp hheld).resolve_left hp

theorem keepsData_adopted_iff (h : Contested io k pref legacy) (hw : io.preferredWritten = true)
    (hm : (keyMatchesDatabase legacy k.tree).1 = true) :
    KeepsData k (.ok legacy,dropLegacy io { backedUp io pref k with preferred := some legacy }) ↔
      BackupSuffices io k pref legacy := by
  have hsame : SameFiles k
      (dropLegacy io { backedUp io pref k with preferred := some legacy }) := by
    refine sameFiles_trans _ _ _ (fun path _ => ?_) (sameFiles_dropLegacy io _)
    exact congrArg (AList.lookup path) backedUp_tree
  have hdisk : ∀ key,
      OnDisk (dropLegacy io { backedUp io pref k with preferred := some legacy }) key ↔
        key.length = encryptionKeySize ∧ (key = legacy ∨ Held (backedUp io pref k).stale key) := by
    intro key
    refine (onDisk_dropLegacy (k := { backedUp io pref k with preferred := some legacy })
      (backedUp_dedicated.trans h.dedicated)).trans (and_congr_right fun _ => ⟨?_,?_⟩)
    · rintro (hp | ⟨_,hl⟩ | hs)
      · exact Or.inl (Option.some.inj hp).symm
      · have hl' : k.legacyFile = some key := by
          rw [← hl,Keyring.legacyFile,Keyring.legacyFile,backedUp_tree]
        exact Or.inl (Option.some.inj (hl'.symm.trans h.legacyFile))
      · exact Or.inr hs
    · rintro (rfl | hs)
      · exact Or.inl rfl
      · exact Or.inr (Or.inr hs)
  rw [keepsData_iff hsame,backupSuffices_iff h]
  constructor
  · intro ⟨hf,_⟩ key hn ho
    rcases ((hdisk key).mp (hf key hn ho)).2 with hl | hs
    · exact Or.inl hl
    · exact Or.inr (Or.inr hs)
  · intro hall
    refine ⟨fun key hn ho => (hdisk key).mpr ⟨ho.size,?_⟩,?_⟩
    · rcases hall key hn ho with hl | ⟨hw',_⟩ | hs
      · exact Or.inl hl
      · rw [hw] at hw'
        simp at hw'
      · exact Or.inr hs
    · intro key loaded _ _ ha hr
      obtain rfl := Except.ok.inj hr
      by_cases hne : legacy = key
      · exact hne ▸ ha
      · exact absurd ha (not_opensAll_of_matches hne hm)

theorem keepsData_notAdopted_iff (h : Contested io k pref legacy)
    (hw : io.preferredWritten = false) :
    KeepsData k (.error .restoreLegacy,backedUp io pref k) ↔ BackupSuffices io k pref legacy := by
  have hsame : SameFiles k (backedUp io pref k) :=
    fun path _ => congrArg (AList.lookup path) backedUp_tree
  have hp : (backedUp io pref k).preferredFile = some pref := by
    rw [preferredFile_dedicated (backedUp_dedicated.trans h.dedicated),backedUp_preferred,
      h.preferred]
  have hl : (backedUp io pref k).legacyFile = some legacy := by
    rw [Keyring.legacyFile,backedUp_tree]
    exact h.legacyFile
  rw [keepsData_iff hsame,backupSuffices_iff h]
  constructor
  · intro ⟨hf,_⟩ key hn ho
    rcases (hf key hn ho).file with hk | hk | hs
    · exact Or.inr (Or.inl ⟨hw,(Option.some.inj (hp.symm.trans hk)).symm⟩)
    · exact Or.inl (Option.some.inj (hl.symm.trans hk)).symm
    · exact Or.inr (Or.inr hs)
  · intro hall
    refine ⟨fun key hn ho => ⟨ho.size,?_⟩,fun _ _ _ _ _ hr => by simp at hr⟩
    rcases hall key hn ho with rfl | ⟨_,rfl⟩ | hs
    · exact Or.inr (Or.inl hl)
    · exact Or.inl hp
    · exact Or.inr (Or.inr hs)

theorem keepsData_contested_iff (h : Contested io k pref legacy) :
    KeepsData k (loadOrCreateKey io k) ↔ Unambiguous io k pref legacy := by
  rw [load_contested h,Unambiguous]
  split_ifs with hpm hlm hw hc
  · rw [keepsData_removed_iff h,and_iff_left]
    exact fun ha => absurd ha (not_opensAll_of_matches h.differ hpm)
  · exact keepsData_adopted_iff h hw hlm
  · exact keepsData_notAdopted_iff h (by simpa using hw)
  · refine iff_of_true ?_ trivial
    refine (keepsData_iff (sameFiles_refl k)).mpr ⟨fun _ _ ho => ho,fun key _ _ hf ha _ => ?_⟩
    have hall := matches_of_opensAll ha ((matchesAny_snd _ _ _).mp hc)
    rcases hf with hf | hf
    · rw [preferredFile_dedicated h.dedicated,h.preferred] at hf
      rw [← Option.some.inj hf] at hall
      exact absurd hall hpm
    · rw [h.legacyFile] at hf
      rw [← Option.some.inj hf] at hall
      exact absurd hall hlm
  · rw [keepsData_removed_iff h]
    refine and_congr_right fun _ => ⟨fun hw ⟨ha,path,hp,he⟩ => ?_,fun hno ha path hp he => ?_⟩
    · exact h.differ (sealedAt_unique (hw ha path hp he) (ha path hp he))
    · exact absurd ⟨ha,path,hp,he⟩ hno

/-- A call keeps every recoverable file recoverable, and the database open,
exactly when two different valid keys either do not meet or the sample files
tell them apart without loss. -/
theorem loadOrCreateKey_keepsData_iff (io : KeyIO) (k : Keyring) :
    KeepsData k (loadOrCreateKey io k) ↔
      ∀ pref legacy, Contested io k pref legacy → Unambiguous io k pref legacy := by
  by_cases h : ∃ pref legacy, Contested io k pref legacy
  · obtain ⟨pref,legacy,h⟩ := h
    rw [keepsData_contested_iff h]
    refine ⟨fun hu p l hpl => ?_,fun hall => hall pref legacy h⟩
    obtain rfl := Option.some.inj (h.preferred.symm.trans hpl.preferred)
    obtain rfl := Option.some.inj (h.legacyFile.symm.trans hpl.legacyFile)
    exact hu
  · refine iff_of_true (keepsData_uncontested h) fun p l hpl => ?_
    exact absurd ⟨p,l,hpl⟩ h

/-- The config opens with the preferred key, one profile with the legacy key. -/
def mixedKeyring : Keyring :=
  { dedicated := true
    preferred := some (List.replicate 32 1)
    stale := ∅
    tree := (((∅ : Tree).insert .dbConfig
        (.file (.sealed (List.replicate 32 1) 0 (.dbConfig ⟨1,[1]⟩)))).insert (.profile 1 1)
        (.file (.sealed (List.replicate 32 2) 1 (.bytes [])))).insert legacyPath
        (.file (.junk (List.replicate 32 2))) }

theorem mixedKeyring_contested :
    Contested (calmKeyFiles none) mixedKeyring (List.replicate 32 1) (List.replicate 32 2) :=
  ⟨rfl,rfl,by decide,by decide,by decide,by decide,rfl,rfl⟩

/-- The sample opens with the preferred key, so the only key of the profile is
removed. -/
theorem mixed_keys_lose_profile :
    ¬KeepsData mixedKeyring (loadOrCreateKey (calmKeyFiles none) mixedKeyring) := by
  rw [keepsData_contested_iff mixedKeyring_contested,Unambiguous,if_pos (by decide)]
  intro hu
  obtain ⟨name,hname⟩ := hu rfl ⟨.profile 1 1,by decide,1,.bytes [],by decide⟩
  simp [mixedKeyring] at hname

end Contested

end Whoisthat.KeySafety
