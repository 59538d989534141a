import Mathlib.Data.Nat.Notation
import Mathlib.Logic.Function.Basic
import Mathlib.Tactic.SplitIfs

/-!
# The settings file, its two backups and the damaged copies

`LoadConfig`, `SaveConfig` and `RestoreFromBackup` over `config.json`,
`config.json.bak`, `config.json.bak.prev` and the `.corrupt-*` files, while
anything may happen to `config.json` between two calls. Backups follow loads,
not saves: `.bak` is the last file that a load found good, and `.bak.prev`
what `.bak` held before it was last replaced.
-/

set_option autoImplicit false

namespace Whoisthat.SettingsBackup

section Files

/-- `corrupt t` is the copy set aside in second `t`. -/
inductive Path where
  | config
  | backup
  | prev
  | corrupt (second : ℕ)
  deriving DecidableEq

/-- `rest` stands for the fields that no step below reads. -/
structure AppConfig (ρ : Type) where
  hwidEnabled : Bool
  hwid : String
  userAgent : String
  splitTunnelMode : String
  killSwitchEnabled : Bool
  rest : ρ
  deriving DecidableEq

/-- What `parseConfig` finds in a file: a configuration, an object with invalid
values and what could be read of it, or no JSON object. -/
inductive Contents (ρ : Type) where
  | valid (c : AppConfig ρ)
  | partly (c : AppConfig ρ)
  | garbage
  deriving DecidableEq

inductive LoadState where
  | ok
  | missing
  | repaired
  | corrupt
  | orphaned
  deriving DecidableEq

def legacyUserAgentPrefix : List Char := "whoisthat-core/".toList

def isLegacy (ua : String) : Bool := legacyUserAgentPrefix.isPrefixOf ua.toList

def migrateUserAgent (ua : String) : String :=
  if isLegacy ua then
    String.ofList ("whoisthat/".toList ++ ua.toList.drop legacyUserAgentPrefix.length)
  else ua

/-- JSON, the defaults, and the sanitizers of the fields in `rest`, which see
the configuration in memory too. -/
structure Format (β ρ : Type) where
  marshal : AppConfig ρ → β
  read : β → Contents ρ
  defaultConfig : AppConfig ρ
  sanitize : ρ → ρ → ρ
  read_marshal : ∀ c, read (marshal c) = .valid c
  default_current : isLegacy defaultConfig.userAgent = false

/-- The files and the package variables of `appconfig`. -/
structure State (β ρ : Type) where
  files : Path → Option β
  config : AppConfig ρ
  loadStatus : LoadState
  loaded : Bool

/-- How the system answers one call: which files can be read and written, the
device id it would generate, and the second of the clock. -/
structure Answer where
  readable : Path → Bool
  writable : Path → Bool
  hwid : String
  second : ℕ

variable {β ρ : Type}

def State.readFile (a : Answer) (p : Path) (s : State β ρ) : Option β :=
  if a.readable p then s.files p else none

/-- A failed `AtomicWriteFile` leaves the old content. -/
def State.atomicWriteFile (a : Answer) (p : Path) (data : β) (s : State β ρ) : State β ρ :=
  if a.writable p then { s with files := Function.update s.files p (some data) } else s

end Files

section Storage

variable {β ρ : Type} (f : Format β ρ) (a : Answer)

/-- A copy with device ids enabled and none in it. -/
def AppConfig.lacksHwid (c : AppConfig ρ) : Prop := c.hwidEnabled = true ∧ c.hwid = ""

instance (c : AppConfig ρ) : Decidable c.lacksHwid := inferInstanceAs (Decidable (_ ∧ _))

def usable (data : β) : Option (AppConfig ρ) :=
  match f.read data with
  | .valid c => if c.lacksHwid then none else some c
  | _ => none

def readUsableBackup (s : State β ρ) : Option (β × AppConfig ρ) :=
  [Path.backup,.prev].findSome? fun p =>
    (s.readFile a p).bind fun data => (usable f data).map (data,·)

def restoreBackupFile (s : State β ρ) : Option (AppConfig ρ × State β ρ) :=
  match readUsableBackup f a s with
  | some (data,c) => if a.writable .config then some (c,s.atomicWriteFile a .config data) else none
  | none => none

def parseConfig (data : β) (s : State β ρ) : AppConfig ρ × LoadState × State β ρ :=
  match f.read data with
  | .valid c => (c,.ok,s)
  | .garbage =>
    match restoreBackupFile f a s with
    | some (c,s) => (c,.repaired,s)
    | none => (f.defaultConfig,.corrupt,s)
  | .partly c => (c,.corrupt,s)

def readConfig (s : State β ρ) : AppConfig ρ × LoadState × State β ρ :=
  match s.files .config with
  | none => (f.defaultConfig,.missing,s)
  | some data => if a.readable .config then parseConfig f a data s else (f.defaultConfig,.corrupt,s)

/-- What `LoadConfig` makes of the values it read, `current` being in memory. -/
def normalised (current c : AppConfig ρ) : AppConfig ρ where
  hwidEnabled := c.hwidEnabled
  hwid := if c.lacksHwid then a.hwid else c.hwid
  userAgent := migrateUserAgent c.userAgent
  splitTunnelMode := c.splitTunnelMode
  killSwitchEnabled := c.killSwitchEnabled && c.splitTunnelMode ≠ "include"
  rest := f.sanitize current.rest c.rest

/-- The copy that `SaveConfig` makes of a damaged file before it writes over it. -/
def setAside (s : State β ρ) : State β ρ :=
  match s.readFile a .config with
  | some data => s.atomicWriteFile a (.corrupt a.second) data
  | none => s

def SaveConfig (s : State β ρ) : State β ρ :=
  if s.loaded = false then s
  else
    let s := if s.loadStatus = .corrupt then setAside a s else s
    if a.writable .config then
      { s.atomicWriteFile a .config (f.marshal s.config) with loadStatus := .ok }
    else s

variable [DecidableEq β]

def refreshBackup (s : State β ρ) : State β ρ :=
  match s.readFile a .config with
  | none => s
  | some data =>
    match s.readFile a .backup with
    | some old =>
      if old = data then s
      else (s.atomicWriteFile a .prev old).atomicWriteFile a .backup data
    | none => s.atomicWriteFile a .backup data

/-- The state `LoadConfig` reports for what `readConfig` returned. -/
def reported (c : AppConfig ρ) (status : LoadState) (s : State β ρ) : LoadState :=
  if status = .ok ∧ c.lacksHwid ∧ (readUsableBackup f a s).isSome then .orphaned else status

def assign (c : AppConfig ρ) (status : LoadState) (s : State β ρ) : State β ρ :=
  { s with config := normalised f a s.config c, loadStatus := status, loaded := true }

def LoadConfig (s : State β ρ) : State β ρ :=
  let (c,found,s) := readConfig f a s
  let status := reported f a c found s
  let s := assign f a c status s
  let s := if isLegacy c.userAgent ∨ status = .missing then SaveConfig f a s else s
  if status = .ok ∨ status = .repaired then refreshBackup a s else s

/-- The flag tells whether the call returned without an error. -/
def RestoreFromBackup (s : State β ρ) : Bool × State β ρ :=
  match readUsableBackup f a s with
  | none => (false,s)
  | some (data,_) =>
    if a.writable .config then
      let s := LoadConfig f a (s.atomicWriteFile a .config data)
      (s.loadStatus ≠ .corrupt,s)
    else (false,s)

end Storage

section Runs

variable {β ρ : Type} [DecidableEq β]

/-- `set` is any change of the values in memory, `damage` whatever else happens
to `config.json`, and `restart` a new process. -/
inductive Event (β ρ : Type) where
  | load (a : Answer)
  | save (a : Answer)
  | restore (a : Answer)
  | set (c : AppConfig ρ)
  | damage (data : Option β)
  | restart

def State.step (f : Format β ρ) (s : State β ρ) : Event β ρ → State β ρ
  | .load a => LoadConfig f a s
  | .save a => SaveConfig f a s
  | .restore a => (RestoreFromBackup f a s).2
  | .set c => { s with config := c }
  | .damage data => { s with files := Function.update s.files .config data }
  | .restart => { s with config := f.defaultConfig, loadStatus := .ok, loaded := false }

def State.run (f : Format β ρ) (s : State β ρ) (es : List (Event β ρ)) : State β ρ :=
  es.foldl (State.step f) s

end Runs

section Effects

variable {β ρ : Type} (f : Format β ρ) (a : Answer)

theorem atomicWriteFile_other {p q : Path} (h : q ≠ p) (data : β) (s : State β ρ) :
    (s.atomicWriteFile a p data).files q = s.files q := by
  unfold State.atomicWriteFile
  split_ifs <;> simp [h]

theorem atomicWriteFile_written {p : Path} (h : a.writable p = true) (data : β) (s : State β ρ) :
    (s.atomicWriteFile a p data).files p = some data := by
  simp [State.atomicWriteFile,h]

@[simp] theorem atomicWriteFile_config (p : Path) (data : β) (s : State β ρ) :
    (s.atomicWriteFile a p data).config = s.config := by
  unfold State.atomicWriteFile
  split_ifs <;> rfl

@[simp] theorem setAside_config (s : State β ρ) : (setAside a s).config = s.config := by
  unfold setAside
  split <;> simp

theorem setAside_other {p : Path} (h : p ≠ .corrupt a.second) (s : State β ρ) :
    (setAside a s).files p = s.files p := by
  unfold setAside
  split
  · exact atomicWriteFile_other a h _ s
  · rfl

theorem saveConfig_other {p : Path} (hc : p ≠ .config) (ha : p ≠ .corrupt a.second)
    (s : State β ρ) : (SaveConfig f a s).files p = s.files p := by
  unfold SaveConfig
  split_ifs
  · rfl
  · exact (atomicWriteFile_other a hc _ _).trans (setAside_other a ha s)
  · exact setAside_other a ha s
  · exact atomicWriteFile_other a hc _ s
  · rfl

theorem saveConfig_written (s : State β ρ) (hl : s.loaded = true)
    (hw : a.writable .config = true) :
    (SaveConfig f a s).files .config = some (f.marshal s.config) := by
  unfold SaveConfig
  split_ifs with h hs
  · simp [hl] at h
  · exact (atomicWriteFile_written a hw _ _).trans (by rw [setAside_config])
  · exact atomicWriteFile_written a hw _ s

theorem saveConfig_config (s : State β ρ) :
    (SaveConfig f a s).files .config = s.files .config ∨
      (SaveConfig f a s).files .config = some (f.marshal s.config) := by
  by_cases h : s.loaded = true ∧ a.writable .config = true
  · exact .inr (saveConfig_written f a s h.1 h.2)
  · unfold SaveConfig
    split_ifs with hl hs hw hw
    · exact .inl rfl
    · exact (h ⟨by simpa using hl,hw⟩).elim
    · exact .inl (setAside_other a (by simp) s)
    · exact (h ⟨by simpa using hl,hw⟩).elim
    · exact .inl rfl

theorem restoreBackupFile_other {p : Path} (hc : p ≠ .config) {s t : State β ρ}
    {c : AppConfig ρ} (h : restoreBackupFile f a s = some (c,t)) : t.files p = s.files p := by
  unfold restoreBackupFile at h
  split at h
  · split_ifs at h with hw
    obtain ⟨rfl,rfl⟩ := Prod.mk.inj (Option.some.inj h)
    exact atomicWriteFile_other a hc _ s
  · cases h

theorem readConfig_other {p : Path} (hc : p ≠ .config) (s : State β ρ) :
    (readConfig f a s).2.2.files p = s.files p := by
  unfold readConfig
  split
  · rfl
  split_ifs
  · unfold parseConfig
    split
    · rfl
    · split
      · exact restoreBackupFile_other f a hc ‹_›
      · rfl
    · rfl
  · rfl

theorem usable_some {data : β} {c : AppConfig ρ} (h : usable f data = some c) :
    f.read data = .valid c ∧ ¬c.lacksHwid := by
  unfold usable at h
  split at h
  · split_ifs at h with hl
    obtain rfl := Option.some.inj h
    exact ⟨‹_›,hl⟩
  · cases h

/-- A usable backup is one of the two, as it is on disk. -/
theorem readUsableBackup_some {s : State β ρ} {data : β} {c : AppConfig ρ}
    (h : readUsableBackup f a s = some (data,c)) :
    ∃ p ∈ [Path.backup,.prev], s.files p = some data ∧ f.read data = .valid c ∧ ¬c.lacksHwid := by
  obtain ⟨p,hp,hd⟩ := List.exists_of_findSome?_eq_some h
  obtain ⟨d,hr,hm⟩ := Option.bind_eq_some_iff.mp hd
  obtain ⟨c',hu,he⟩ := Option.map_eq_some_iff.mp hm
  obtain ⟨rfl,rfl⟩ := Prod.mk.inj he
  refine ⟨p,hp,?_,usable_some f hu⟩
  unfold State.readFile at hr
  split_ifs at hr
  exact hr

/-- What `readConfig` took as good is on disk and parses. -/
theorem readConfig_good {s t : State β ρ} {c : AppConfig ρ} {found : LoadState}
    (h : readConfig f a s = (c,found,t)) :
    (found = .ok → t = s ∧ ∃ d, s.files .config = some d ∧ f.read d = .valid c) ∧
      (found = .repaired → ¬c.lacksHwid ∧ ∃ d, t.files .config = some d ∧ f.read d = .valid c) ∧
      t.config = s.config := by
  unfold readConfig at h
  split at h
  · obtain ⟨rfl,rfl,rfl⟩ := h
    exact ⟨nofun,nofun,rfl⟩
  rename_i d hd
  split_ifs at h
  · unfold parseConfig at h
    split at h
    · obtain ⟨rfl,rfl,rfl⟩ := h
      exact ⟨fun _ => ⟨rfl,d,hd,‹_›⟩,nofun,rfl⟩
    · split at h
      · rename_i c' t' hr
        obtain ⟨rfl,rfl,rfl⟩ := h
        unfold restoreBackupFile at hr
        split at hr
        · rename_i d' c'' hb
          split_ifs at hr with hw
          obtain ⟨rfl,rfl⟩ := Prod.mk.inj (Option.some.inj hr)
          obtain ⟨p,-,-,hv,hl⟩ := readUsableBackup_some f a hb
          refine ⟨nofun,fun _ => ⟨hl,d',atomicWriteFile_written a hw d' s,hv⟩,?_⟩
          simp [State.atomicWriteFile,hw]
        · cases hr
      · obtain ⟨rfl,rfl,rfl⟩ := h
        exact ⟨nofun,nofun,rfl⟩
    · obtain ⟨rfl,rfl,rfl⟩ := h
      exact ⟨nofun,nofun,rfl⟩
  · obtain ⟨rfl,rfl,rfl⟩ := h
    exact ⟨nofun,nofun,rfl⟩

variable [DecidableEq β]

theorem refreshBackup_other {p : Path} (hb : p ≠ .backup) (hp : p ≠ .prev) (s : State β ρ) :
    (refreshBackup a s).files p = s.files p := by
  unfold refreshBackup
  split
  · rfl
  split
  · split_ifs
    · rfl
    · exact (atomicWriteFile_other a hb _ _).trans (atomicWriteFile_other a hp _ s)
  · exact atomicWriteFile_other a hb _ s

end Effects

section Rotation

variable {β ρ : Type} (f : Format β ρ) (a : Answer)

/-- Both backups can be read and written during the call. -/
def Answer.keepsBackups : Prop :=
  ∀ p ∈ [Path.backup,.prev], a.readable p = true ∧ a.writable p = true

instance : Decidable a.keepsBackups := inferInstanceAs (Decidable (∀ p ∈ _, _))

/-- No backup is usable. -/
def NoneUsable (s : State β ρ) : Prop :=
  ∀ p ∈ [Path.backup,.prev], (s.files p).bind (usable f) = none

/-- The backups of `t` are those of `s`, or `.bak` was replaced by what
`config.json` now holds and its old content moved to `.bak.prev`. -/
def Rotated (s t : State β ρ) : Prop :=
  (t.files .backup = s.files .backup ∧ t.files .prev = s.files .prev) ∨
    ∃ d, s.files .backup ≠ some d ∧ t.files .backup = some d ∧ t.files .config = some d ∧
      (∀ old, s.files .backup = some old → t.files .prev = some old) ∧
      ∃ c, f.read d = .valid c ∧ (c.lacksHwid → NoneUsable f s)

theorem Rotated.of_same {s s' t : State β ρ} (hb : s'.files .backup = s.files .backup)
    (hp : s'.files .prev = s.files .prev) (h : Rotated f s' t) : Rotated f s t := by
  have hn : NoneUsable f s' → NoneUsable f s := by simp [NoneUsable,hb,hp]
  rcases h with ⟨h₁,h₂⟩ | ⟨d,hnew,hd,hc,hold,c,hv,hl⟩
  · exact .inl ⟨h₁.trans hb,h₂.trans hp⟩
  · exact .inr ⟨d,hb ▸ hnew,hd,hc,fun old ho => hold old (hb.trans ho),c,hv,fun h => hn (hl h)⟩

theorem readUsableBackup_none {s : State β ρ} (ha : a.keepsBackups)
    (h : readUsableBackup f a s = none) : NoneUsable f s := by
  intro p hp
  have hr := List.findSome?_eq_none_iff.mp h p hp
  rw [State.readFile,if_pos (ha p hp).1] at hr
  simpa [Option.bind_eq_none_iff] using hr

theorem reported_good {c : AppConfig ρ} {found : LoadState} {s : State β ρ}
    (ha : a.keepsBackups)
    (h : reported f a c found s = .ok ∨ reported f a c found s = .repaired) :
    found = .ok ∧ (c.lacksHwid → NoneUsable f s) ∨ found = .repaired := by
  unfold reported at h
  split_ifs at h with ho
  · simp at h
  · refine h.imp (fun hok => ⟨hok,fun hl => ?_⟩) id
    have hn : readUsableBackup f a s = none := by
      by_contra hs
      exact ho ⟨hok,hl,Option.isSome_iff_ne_none.mpr hs⟩
    exact readUsableBackup_none f a ha hn

theorem normalised_lacks {current c : AppConfig ρ} (h : (normalised f a current c).lacksHwid) :
    c.lacksHwid := by
  obtain ⟨h₁,h₂⟩ := h
  by_contra hc
  refine hc ⟨h₁,?_⟩
  simpa [normalised,hc] using h₂

variable [DecidableEq β]

/-- `refreshBackup` makes `.bak` what `config.json` holds. -/
theorem refreshBackup_spec (ha : a.keepsBackups) {s : State β ρ} {d : β}
    (hc : s.files .config = some d) (hr : a.readable .config = true) :
    (refreshBackup a s).files .backup = some d ∧
      ((refreshBackup a s).files .prev = s.files .prev ∧ s.files .backup = some d ∨
        s.files .backup ≠ some d ∧
          ∀ old, s.files .backup = some old → (refreshBackup a s).files .prev = some old) := by
  have hb := ha .backup (by simp)
  have hp := ha .prev (by simp)
  simp only [refreshBackup,State.readFile,hr,hc,hb.1,if_true]
  split
  · rename_i old ho
    split_ifs with he
    · exact ⟨he ▸ ho,.inl ⟨rfl,he ▸ ho⟩⟩
    · refine ⟨atomicWriteFile_written a hb.2 d _,.inr ⟨by simp [ho,he],fun old' ho' => ?_⟩⟩
      obtain rfl := Option.some.inj (ho.symm.trans ho')
      exact (atomicWriteFile_other a (by simp) d _).trans (atomicWriteFile_written a hp.2 old s)
  · rename_i ho
    exact ⟨atomicWriteFile_written a hb.2 d s,.inr ⟨by simp [ho],by simp [ho]⟩⟩

/-- `LoadConfig` in its three phases: what it read, what it may have saved, and
the refreshed backup. -/
theorem loadConfig_phases (s : State β ρ) : ∃ c found t u,
    readConfig f a s = (c,found,t) ∧
      (u = assign f a c (reported f a c found t) t ∨
        u = SaveConfig f a (assign f a c (reported f a c found t) t)) ∧
      (isLegacy c.userAgent = false → found ≠ .missing →
        u = assign f a c (reported f a c found t) t) ∧
      LoadConfig f a s =
        if reported f a c found t = .ok ∨ reported f a c found t = .repaired then
          refreshBackup a u
        else u := by
  rcases hr : readConfig f a s with ⟨c,found,t⟩
  refine ⟨c,found,t,if isLegacy c.userAgent ∨ reported f a c found t = .missing then
    SaveConfig f a (assign f a c (reported f a c found t) t)
    else assign f a c (reported f a c found t) t,rfl,?_,?_,?_⟩
  · split_ifs
    · exact .inr rfl
    · exact .inl rfl
  · intro hl hm
    rw [if_neg]
    rintro (h | h)
    · simp [hl] at h
    · unfold reported at h
      split_ifs at h
      exact hm h
  · simp only [LoadConfig,hr]

/-- What one load does to the two backups. -/
theorem loadConfig_rotated (ha : a.keepsBackups) (s : State β ρ) :
    Rotated f s (LoadConfig f a s) := by
  obtain ⟨c,found,t,u,hr,hu,-,hload⟩ := loadConfig_phases f a s
  obtain ⟨hok,hrep,-⟩ := readConfig_good f a hr
  have ht : ∀ p ∈ [Path.backup,.prev], t.files p = s.files p := by
    intro p hp
    have hc : p ≠ .config := by rintro rfl; simp at hp
    simpa [hr] using readConfig_other f a hc s
  have hut : ∀ p ∈ [Path.backup,.prev], u.files p = s.files p := by
    intro p hp
    have hc : p ≠ .config := by rintro rfl; simp at hp
    have hd : p ≠ .corrupt a.second := by rintro rfl; simp at hp
    rcases hu with rfl | rfl
    · exact ht p hp
    · exact (saveConfig_other f a hc hd _).trans (ht p hp)
  have hb := hut .backup (by simp)
  have hp := hut .prev (by simp)
  by_cases hgood : reported f a c found t = .ok ∨ reported f a c found t = .repaired
  case neg => exact .inl (by rw [hload,if_neg hgood]; exact ⟨hb,hp⟩)
  rw [hload,if_pos hgood]
  cases hd : u.readFile a .config with
  | none => simp only [refreshBackup,hd]; exact .inl ⟨hb,hp⟩
  | some d =>
    have hread : a.readable .config = true ∧ u.files .config = some d := by
      unfold State.readFile at hd
      split_ifs at hd with h
      exact ⟨h,hd⟩
    obtain ⟨hback,hprev⟩ := refreshBackup_spec a ha hread.2 hread.1
    have hconf : (refreshBackup a u).files .config = some d :=
      (refreshBackup_other a (by simp) (by simp) u).trans hread.2
    rcases hprev with ⟨hsame,hbd⟩ | ⟨hnew,hprev⟩
    · exact .inl ⟨hback.trans (hbd.symm.trans hb),hsame.trans hp⟩
    refine .inr ⟨d,hb ▸ hnew,hback,hconf,fun old ho => hprev old (hb.trans ho),?_⟩
    -- the file is the one that was read, or what the migration saved of it
    have hfound : ∃ d', t.files .config = some d' ∧ f.read d' = .valid c ∧
        (c.lacksHwid → NoneUsable f s) := by
      rcases reported_good f a ha hgood with ⟨hf,hn⟩ | hf
      · obtain ⟨rfl,d',hd',hv⟩ := hok hf
        exact ⟨d',hd',hv,hn⟩
      · obtain ⟨hl,d',hd',hv⟩ := hrep hf
        exact ⟨d',hd',hv,fun h => (hl h).elim⟩
    obtain ⟨d',hd',hv,hn⟩ := hfound
    have hcases : u.files .config = t.files .config ∨
        u.files .config = some (f.marshal (normalised f a t.config c)) := by
      rcases hu with rfl | rfl
      · exact .inl rfl
      · exact saveConfig_config f a _
    rcases hcases with h | h
    · obtain rfl := Option.some.inj (hread.2.symm.trans (h.trans hd'))
      exact ⟨c,hv,hn⟩
    · obtain rfl := Option.some.inj (hread.2.symm.trans h)
      exact ⟨_,f.read_marshal _,fun hl => hn (normalised_lacks f a hl)⟩

theorem restoreFromBackup_rotated (ha : a.keepsBackups) (s : State β ρ) :
    Rotated f s (RestoreFromBackup f a s).2 := by
  unfold RestoreFromBackup
  split
  · exact .inl ⟨rfl,rfl⟩
  · split_ifs
    · exact (loadConfig_rotated f a ha _).of_same f (atomicWriteFile_other a (by simp) _ s)
        (atomicWriteFile_other a (by simp) _ s)
    · exact .inl ⟨rfl,rfl⟩

def Event.keepsBackups : Event β ρ → Prop
  | .load a | .save a | .restore a => a.keepsBackups
  | _ => True

instance : (e : Event β ρ) → Decidable e.keepsBackups
  | .load a | .save a | .restore a => inferInstanceAs (Decidable a.keepsBackups)
  | .set _ | .damage _ | .restart => .isTrue trivial

/-- One step leaves both backups alone or rotates them once. -/
theorem step_rotated {e : Event β ρ} (he : e.keepsBackups) (s : State β ρ) :
    Rotated f s (s.step f e) := by
  cases e with
  | load a => exact loadConfig_rotated f a he s
  | save a =>
    exact .inl ⟨saveConfig_other f a (by simp) (by simp) s,
      saveConfig_other f a (by simp) (by simp) s⟩
  | restore a => exact restoreFromBackup_rotated f a he s
  | set c => exact .inl ⟨rfl,rfl⟩
  | damage data => exact .inl ⟨by simp [State.step],by simp [State.step]⟩
  | restart => exact .inl ⟨rfl,rfl⟩

/-- How often `.bak` is replaced. -/
def rotations : State β ρ → List (Event β ρ) → ℕ
  | _, [] => 0
  | s, e :: es =>
    (if (s.step f e).files .backup = s.files .backup then 0 else 1) + rotations (s.step f e) es

theorem run_prev {es : List (Event β ρ)} (hes : ∀ e ∈ es, e.keepsBackups) {s : State β ρ}
    {d : β} (hp : s.files .prev = some d) (hr : rotations f s es = 0) :
    (s.run f es).files .prev = some d := by
  induction es generalizing s with
  | nil => exact hp
  | cons e es ih =>
    simp only [rotations] at hr
    split_ifs at hr with hb
    · refine ih (fun e' he' => hes e' (by simp [he'])) ?_ (by omega)
      rcases step_rotated f (hes e (by simp)) s with ⟨-,h⟩ | ⟨d',hnew,hd,-⟩
      · exact h.trans hp
      · exact (hnew (hb.symm.trans hd)).elim
    · omega

/-- What `.bak` holds is in one of the backups until the second rotation. -/
theorem run_backup {es : List (Event β ρ)} (hes : ∀ e ∈ es, e.keepsBackups) {s : State β ρ}
    {d : β} (hb : s.files .backup = some d) (hr : rotations f s es ≤ 1) :
    (s.run f es).files .backup = some d ∨ (s.run f es).files .prev = some d := by
  induction es generalizing s with
  | nil => exact .inl hb
  | cons e es ih =>
    have hes' : ∀ e' ∈ es, e'.keepsBackups := fun e' he' => hes e' (by simp [he'])
    simp only [rotations] at hr
    rcases step_rotated f (hes e (by simp)) s with ⟨h,-⟩ | ⟨d',hnew,hd,-,hold,-⟩
    · exact ih hes' (h.trans hb) (by omega)
    · rw [if_neg (by rw [hd]; exact hnew.symm)] at hr
      exact .inr (run_prev f hes' (hold d hb) (by omega))

end Rotation

section Recovery

variable {β ρ : Type} (f : Format β ρ) (a : Answer)

/-- The first save over a damaged file keeps a copy of it. -/
theorem saveConfig_aside {s : State β ρ} {d : β} (hl : s.loaded = true)
    (hs : s.loadStatus = .corrupt) (hd : s.files .config = some d)
    (hr : a.readable .config = true) (hw : a.writable (.corrupt a.second) = true) :
    (SaveConfig f a s).files (.corrupt a.second) = some d := by
  have aside : (setAside a s).files (.corrupt a.second) = some d := by
    simp only [setAside,State.readFile,hr,if_true,hd]
    exact atomicWriteFile_written a hw d s
  unfold SaveConfig
  split_ifs with h hw'
  · simp [hl] at h
  · exact (atomicWriteFile_other a (by simp) _ _).trans aside
  · exact aside

variable [DecidableEq β]

/-- One of the files holds `c`. -/
def Recoverable (c : AppConfig ρ) (s : State β ρ) : Prop :=
  ∃ p d, s.files p = some d ∧ f.read d = .valid c

def InBackups (c : AppConfig ρ) (s : State β ρ) : Prop :=
  ∃ p ∈ [Path.backup,.prev], ∃ d, s.files p = some d ∧ f.read d = .valid c

/-- A load that can read a good file takes its values. -/
theorem loadConfig_good {s : State β ρ} {c : AppConfig ρ} {d : β}
    (hd : s.files .config = some d) (hv : f.read d = .valid c) (hl : ¬c.lacksHwid)
    (hr : a.readable .config = true) :
    ∃ u d', LoadConfig f a s = refreshBackup a u ∧ u.files .config = some d' ∧
      (f.read d' = .valid c ∨ f.read d' = .valid (normalised f a s.config c)) ∧
      u.config = normalised f a s.config c := by
  obtain ⟨c',found,t,u,hread,hu,-,hload⟩ := loadConfig_phases f a s
  simp only [readConfig,hd,hr,if_true,parseConfig,hv,Prod.mk.injEq] at hread
  obtain ⟨rfl,rfl,rfl⟩ := hread
  have hrep : reported f a c .ok s = .ok := by simp [reported,hl]
  rw [hrep] at hu hload
  have hc : (SaveConfig f a (assign f a c .ok s)).config = normalised f a s.config c := by
    unfold SaveConfig
    split_ifs <;> simp [assign]
  rcases hu with rfl | rfl
  · exact ⟨assign f a c .ok s,d,by simp [hload],hd,.inl hv,rfl⟩
  rcases saveConfig_config f a (assign f a c .ok s) with h | h
  · exact ⟨_,d,by simp [hload],h.trans hd,.inl hv,hc⟩
  · exact ⟨_,_,by simp [hload],h,.inr (f.read_marshal _),hc⟩

@[simp] theorem refreshBackup_config (s : State β ρ) : (refreshBackup a s).config = s.config := by
  unfold refreshBackup
  split
  · rfl
  split
  · split_ifs <;> simp
  · simp

omit [DecidableEq β] in
theorem saveConfig_values (s : State β ρ) : (SaveConfig f a s).config = s.config := by
  unfold SaveConfig
  split_ifs <;> simp

/-- In memory a load leaves what it read, normalised. -/
theorem loadConfig_config (s : State β ρ) :
    (LoadConfig f a s).config = normalised f a s.config (readConfig f a s).1 := by
  obtain ⟨c,found,t,u,hread,hu,-,hload⟩ := loadConfig_phases f a s
  have hvalues : u.config = normalised f a s.config c := by
    rw [← (readConfig_good f a hread).2.2]
    rcases hu with rfl | rfl
    · rfl
    · exact saveConfig_values f a _
  rw [hload,hread]
  split_ifs
  · rw [refreshBackup_config,hvalues]
  · exact hvalues

/-- A load that cannot read the file says so. -/
theorem loadConfig_unreadable {s : State β ρ} {d : β} (hd : s.files .config = some d)
    (hr : a.readable .config = false) : (LoadConfig f a s).loadStatus = .corrupt := by
  obtain ⟨c,found,t,u,hread,-,hu,hload⟩ := loadConfig_phases f a s
  simp only [readConfig,hd,hr,Bool.false_eq_true,if_false,Prod.mk.injEq] at hread
  obtain ⟨rfl,rfl,rfl⟩ := hread
  have hrep : reported f a f.defaultConfig .corrupt s = .corrupt := by simp [reported]
  rw [hload,hrep,hu f.default_current nofun,hrep]
  rfl

/-- `RestoreFromBackup` puts back the newest usable backup. -/
theorem restoreFromBackup_spec {s : State β ρ} (h : (RestoreFromBackup f a s).1 = true) :
    ∃ c, InBackups f c s ∧ ¬c.lacksHwid ∧
      (RestoreFromBackup f a s).2.config = normalised f a s.config c ∧
      ∃ d, (RestoreFromBackup f a s).2.files .config = some d ∧
        (f.read d = .valid c ∨ f.read d = .valid (normalised f a s.config c)) := by
  unfold RestoreFromBackup at h ⊢
  split at h
  · cases h
  rename_i data c hb
  split_ifs at h with hw
  obtain ⟨p,hp,hd,hv,hl⟩ := readUsableBackup_some f a hb
  have hfile : (s.atomicWriteFile a .config data).files .config = some data :=
    atomicWriteFile_written a hw data s
  have hr : a.readable .config = true := by
    by_contra hn
    simp [loadConfig_unreadable f a hfile (by simpa using hn)] at h
  obtain ⟨u,d',hload,hd',hcont,hc⟩ := loadConfig_good f a hfile hv hl hr
  rw [atomicWriteFile_config] at hcont hc
  refine ⟨c,⟨p,hp,data,hd,hv⟩,hl,?_,d',?_,hcont⟩
  · simp only [hw,if_true,hload,refreshBackup_config]
    exact hc
  · simp only [hw,if_true,hload]
    exact (refreshBackup_other a (by simp) (by simp) u).trans hd'

/-- A loaded configuration is in a backup until `.bak` was replaced twice. -/
theorem loaded_inBackups {s : State β ρ} {c : AppConfig ρ} {d : β} {es : List (Event β ρ)}
    (hd : s.files .config = some d) (hv : f.read d = .valid c) (hl : ¬c.lacksHwid)
    (hr : a.readable .config = true) (ha : a.keepsBackups) (hes : ∀ e ∈ es, e.keepsBackups)
    (hrot : rotations f (LoadConfig f a s) es ≤ 1) :
    InBackups f c ((LoadConfig f a s).run f es) ∨
      InBackups f (normalised f a s.config c) ((LoadConfig f a s).run f es) := by
  obtain ⟨u,d',hload,hd',hcont,-⟩ := loadConfig_good f a hd hv hl hr
  have hb : (LoadConfig f a s).files .backup = some d' := by
    rw [hload]
    exact (refreshBackup_spec a ha hd' hr).1
  have held : ∃ p ∈ [Path.backup,.prev], ((LoadConfig f a s).run f es).files p = some d' := by
    rcases run_backup f hes hb hrot with h | h
    · exact ⟨.backup,by simp,h⟩
    · exact ⟨.prev,by simp,h⟩
  obtain ⟨p,hp,h⟩ := held
  exact hcont.imp (fun hc => ⟨p,hp,d',h,hc⟩) fun hc => ⟨p,hp,d',h,hc⟩

def Event.second : Event β ρ → Option ℕ
  | .load a | .save a | .restore a => some a.second
  | _ => none

theorem loadConfig_corrupt {t : ℕ} (ht : a.second ≠ t) (s : State β ρ) :
    (LoadConfig f a s).files (.corrupt t) = s.files (.corrupt t) := by
  obtain ⟨c,found,s',u,hread,hu,-,hload⟩ := loadConfig_phases f a s
  have hs : s'.files (.corrupt t) = s.files (.corrupt t) := by
    simpa [hread] using readConfig_other f a (p := .corrupt t) (by simp) s
  have hfiles : u.files (.corrupt t) = s.files (.corrupt t) := by
    rcases hu with rfl | rfl
    · exact hs
    · exact (saveConfig_other f a (by simp) (by simp [ht.symm]) _).trans hs
  rw [hload]
  split_ifs
  · exact (refreshBackup_other a (by simp) (by simp) u).trans hfiles
  · exact hfiles

theorem step_corrupt {t : ℕ} {e : Event β ρ} (he : e.second ≠ some t) (s : State β ρ) :
    (s.step f e).files (.corrupt t) = s.files (.corrupt t) := by
  cases e with
  | load a => exact loadConfig_corrupt f a (by simpa [Event.second] using he) s
  | save a =>
    have ht : a.second ≠ t := by simpa [Event.second] using he
    exact saveConfig_other f a (by simp) (by simp [ht.symm]) s
  | restore a =>
    have ht : a.second ≠ t := by simpa [Event.second] using he
    simp only [State.step,RestoreFromBackup]
    split
    · rfl
    · split_ifs
      · exact (loadConfig_corrupt f a ht _).trans (atomicWriteFile_other a (by simp) _ s)
      · rfl
  | set c => rfl
  | damage data => simp [State.step]
  | restart => rfl

theorem run_corrupt {t : ℕ} {es : List (Event β ρ)} (hes : ∀ e ∈ es, e.second ≠ some t)
    (s : State β ρ) : (s.run f es).files (.corrupt t) = s.files (.corrupt t) := by
  induction es generalizing s with
  | nil => rfl
  | cons e es ih =>
    exact (ih (fun e' he' => hes e' (by simp [he'])) _).trans (step_corrupt f (hes e (by simp)) s)

/-- What a save wrote and a later load found is in one of the backups until
`.bak` was replaced twice, which only a load that found another good file does.
A damaged file that was loaded is set aside by the first save over it, and
`RestoreFromBackup` puts back a backup that has its device id. -/
theorem backups_follow_loads :
    (∀ (s : State β ρ) (b : Answer) (mid : List (Event β ρ)) (es : List (Event β ρ)),
      s.loaded = true → b.writable .config = true → ¬s.config.lacksHwid →
      ((SaveConfig f b s).run f mid).files .config = (SaveConfig f b s).files .config →
      a.readable .config = true → a.keepsBackups → (∀ e ∈ es, e.keepsBackups) →
      rotations f (LoadConfig f a ((SaveConfig f b s).run f mid)) es ≤ 1 →
      InBackups f s.config ((LoadConfig f a ((SaveConfig f b s).run f mid)).run f es) ∨
        InBackups f (normalised f a ((SaveConfig f b s).run f mid).config s.config)
          ((LoadConfig f a ((SaveConfig f b s).run f mid)).run f es)) ∧
    (∀ (s : State β ρ) (e : Event β ρ), e.keepsBackups → Rotated f s (s.step f e)) ∧
    (∀ (s : State β ρ) (d : β) (es : List (Event β ρ)), s.loaded = true →
      s.loadStatus = .corrupt → s.files .config = some d → a.readable .config = true →
      a.writable (.corrupt a.second) = true → (∀ e ∈ es, e.second ≠ some a.second) →
      ((SaveConfig f a s).run f es).files (.corrupt a.second) = some d) ∧
    ∀ s : State β ρ, (RestoreFromBackup f a s).1 = true → ∃ c, InBackups f c s ∧ ¬c.lacksHwid ∧
      (RestoreFromBackup f a s).2.config = normalised f a s.config c ∧
      ∃ d, (RestoreFromBackup f a s).2.files .config = some d ∧
        (f.read d = .valid c ∨ f.read d = .valid (normalised f a s.config c)) := by
  refine ⟨fun s b mid es hl hw hc hkeep hr ha hes hrot => ?_,
    fun s e he => step_rotated f he s,fun s d es hl hs hd hr hw hes => ?_,
    fun s h => restoreFromBackup_spec f a h⟩
  · have hd := hkeep.trans (saveConfig_written f b s hl hw)
    exact loaded_inBackups f a hd (f.read_marshal s.config) hc hr ha hes hrot
  · exact (run_corrupt f hes _).trans (saveConfig_aside f a hl hs hd hr hw)

end Recovery

section Sample

def sampleFormat : Format (Contents Unit) Unit where
  marshal := .valid
  read := id
  defaultConfig := ⟨true,"","whoisthat/v1","",false,()⟩
  sanitize _ c := c
  read_marshal _ := rfl
  default_current := by decide

def sampleAnswer : Answer := ⟨fun _ => true,fun _ => true,"0123",0⟩

def sampleConfig (ua : String) : AppConfig Unit := ⟨true,"4567",ua,"",true,()⟩

def start : State (Contents Unit) Unit := ⟨fun _ => none,sampleFormat.defaultConfig,.ok,false⟩

def starts : List (Event (Contents Unit) Unit) := [.load sampleAnswer,.restart,.load sampleAnswer]

def saves (ua : String) : List (Event (Contents Unit) Unit) :=
  [.set (sampleConfig ua),.save sampleAnswer]

/-- Two starts, one saved configuration `mine`, then another one. -/
theorem loaded_stays : InBackups sampleFormat (sampleConfig "mine")
    ((start.run sampleFormat (starts ++ saves "mine" ++ [.restart,.load sampleAnswer] ++
      saves "other" ++ [.restart,.load sampleAnswer]))) := by
  have h := (backups_follow_loads sampleFormat sampleAnswer).1
    (start.run sampleFormat (starts ++ [.set (sampleConfig "mine")])) sampleAnswer [.restart]
    (saves "other" ++ [.restart,.load sampleAnswer]) rfl rfl (by decide) rfl rfl (by decide)
    (by decide) (by decide)
  rcases h with h | h
  · exact h
  · exact h

/-- Damage before the next start, or two saves and starts after it. -/
def truncated : List (Event (Contents Unit) Unit) :=
  starts ++ saves "mine" ++ [.damage (some .garbage),.restart,.load sampleAnswer]

def rotatedOut : List (Event (Contents Unit) Unit) :=
  starts ++ saves "mine" ++ [.restart,.load sampleAnswer] ++
    [.damage (some (.valid sampleFormat.defaultConfig)),.restart,.load sampleAnswer] ++
    saves "first" ++ [.restart,.load sampleAnswer] ++ saves "second" ++
    [.restart,.load sampleAnswer]

/-- A user who disabled device ids. -/
def disabled : List (Event (Contents Unit) Unit) :=
  [.damage (some (.valid ⟨false,"","mine","",false,()⟩)),.load sampleAnswer,
    .damage (some .garbage)]

theorem not_recoverable {c : AppConfig Unit} {s : State (Contents Unit) Unit}
    (h : ∀ p ∈ [Path.config,.backup,.prev], s.files p ≠ some (.valid c))
    (hc : ∀ t, s.files (.corrupt t) = none) : ¬Recoverable sampleFormat c s := by
  rintro ⟨p,d,hd,hv⟩
  have hs : s.files p = some (.valid c) := hd.trans (congrArg some hv)
  cases p with
  | corrupt t => simp [hc] at hs
  | config | backup | prev => exact h _ (by simp) hs

theorem saved_lost :
    ¬Recoverable sampleFormat (sampleConfig "mine") (start.run sampleFormat truncated) ∧
      ¬Recoverable sampleFormat (sampleConfig "mine") (start.run sampleFormat rotatedOut) ∧
      (RestoreFromBackup sampleFormat sampleAnswer (start.run sampleFormat disabled)).1 = true ∧
      (RestoreFromBackup sampleFormat sampleAnswer (start.run sampleFormat disabled)).2.config.hwid
        = "" := by
  exact ⟨not_recoverable (by decide) fun _ => rfl,not_recoverable (by decide) fun _ => rfl,
    by decide,by decide⟩

end Sample

end Whoisthat.SettingsBackup
