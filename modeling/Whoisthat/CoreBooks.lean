import Whoisthat.Listings

/-!
# Operations on a healthy database

While every file can be written and read, each operation on groups and profiles comes
to a change of what a listing reads: the order of the groups, the groups and their
profiles. A rule for every step of a program adds up these changes.
-/

set_option autoImplicit false

namespace Whoisthat.CoreBooks
open Whoisthat.FileStore Whoisthat.FallibleState Whoisthat.Records Whoisthat.Database
open Whoisthat.GroupFiles Whoisthat.GroupSync Whoisthat.CliRouting

section Books

/-- What a listing reads of the database. -/
@[ext] structure Book where
  config : Option DBConfig
  group : ℤ → Option Group
  profile : ℤ → ℤ → Option Profile

def bookOf (w : World) : Book where
  config := fileAt .dbConfig Payload.asDBConfig w.disk w.key
  group gid := groupAt gid w.disk w.key
  profile gid n := profileAt gid n w.disk w.key

namespace Book

def order (b : Book) : List ℤ := (b.config.map DBConfig.groupOrder).getD []

def setConfig (b : Book) (c : DBConfig) : Book := { b with config := some c }

def setGroup (b : Book) (gid : ℤ) (g : Group) : Book :=
  { b with group := Function.update b.group gid (some g) }

def setProfile (b : Book) (gid n : ℤ) (p : Option Profile) : Book :=
  { b with profile := Function.update b.profile gid (Function.update (b.profile gid) n p) }

def clear (b : Book) (gid : ℤ) : Book :=
  { b with
    group := Function.update b.group gid none
    profile := Function.update b.profile gid fun _ => none }

end Book

/-- Writes go through, and no file is sealed with another key. -/
structure Healthy (w : World) : Prop where
  writable : w.degraded = false
  faultless : w.faults = []
  opens : ∀ path b, readFile path w.disk = some b → b.encrypted = true →
    (openBlob w.key b).isSome = true

variable {w : World}

theorem write_healthy (h : Healthy w) (path : Path) (data : Payload) :
    writeEncryptedJSON path data w = (.ok (),store path data w) ∧
      Healthy (store path data w) := by
  constructor
  · rw [writeEncryptedJSON,h.writable,h.faultless]
    rfl
  · refine ⟨h.writable,by simp [store,h.faultless],fun q b hb he => ?_⟩
    rw [readFile_store] at hb
    split at hb
    · cases hb
      simp [store,openBlob]
    · exact h.opens q b hb he

theorem read_healthy {α : Type} (h : Healthy w) (path : Path) (target : Payload → Option α) :
    (readEncryptedJSON path target w).2 = w := by
  unfold readEncryptedJSON
  cases hf : readFile path w.disk with
  | none => rfl
  | some b =>
    have hopens := h.opens path b hf
    cases ho : openBlob w.key b with
    | none =>
      cases he : b.encrypted with
      | true =>
        rw [ho] at hopens
        exact absurd (hopens he) (by simp)
      | false => simp [ho,he]
    | some p => cases ht : target p <;> simp [ho,ht]

theorem fileAt_store {α : Type} (path q : Path) (target : Payload → Option α) (data : Payload)
    (w : World) : fileAt path target (store q data w).disk (store q data w).key =
      if path = q then target data else fileAt path target w.disk w.key := by
  rw [fileAt,readFile_store]
  split_ifs with h
  · simp [store,openBlob]
  · rfl

theorem bookOf_setConfig (c : DBConfig) (w : World) :
    bookOf (store .dbConfig (.dbConfig c) w) = (bookOf w).setConfig c := by
  simp [bookOf,Book.setConfig,groupAt,profileAt,fileAt_store,Payload.asDBConfig]

theorem bookOf_setGroup (gid : ℤ) (g : Group) (w : World) :
    bookOf (store (.groupConfig gid) (.group g) w) = (bookOf w).setGroup gid g := by
  apply Book.ext
  · simp [bookOf,Book.setGroup,fileAt_store]
  · funext i
    by_cases hi : i = gid <;>
      simp [bookOf,Book.setGroup,groupAt,fileAt_store,Payload.asGroup,hi]
  · simp [bookOf,Book.setGroup,profileAt,fileAt_store]

theorem bookOf_setProfile (gid n : ℤ) (p : Profile) (w : World) :
    bookOf (store (.profile gid n) (.profile p) w) = (bookOf w).setProfile gid n (some p) := by
  apply Book.ext
  · simp [bookOf,Book.setProfile,fileAt_store]
  · simp [bookOf,Book.setProfile,groupAt,fileAt_store]
  · funext i m
    by_cases hi : i = gid
    · subst hi
      by_cases hm : m = n <;>
        simp [bookOf,Book.setProfile,profileAt,fileAt_store,Payload.asProfile,hm]
    · simp [bookOf,Book.setProfile,profileAt,fileAt_store,hi]

theorem bookOf_xray (gid n : ℤ) (data : Payload) (w : World) :
    bookOf (store (.profileXrayConfig gid n) data w) = bookOf w := by
  simp [bookOf,groupAt,profileAt,fileAt_store]

theorem bookOf_erase (gid n : ℤ) (w : World) :
    bookOf { w with disk := w.disk.erase (.profile gid n) } =
      (bookOf w).setProfile gid n none := by
  apply Book.ext
  · simp [bookOf,Book.setProfile,fileAt,readFile_erase]
  · simp [bookOf,Book.setProfile,fileAt,groupAt,readFile_erase]
  · funext i m
    by_cases hi : i = gid
    · subst hi
      by_cases hm : m = n <;> simp [bookOf,Book.setProfile,fileAt,profileAt,readFile_erase,hm]
    · simp [bookOf,Book.setProfile,fileAt,profileAt,readFile_erase,hi]

theorem bookOf_removeAll (gid : ℤ) (w : World) :
    bookOf { w with disk := removeAll (inGroupDir gid) w.disk } = (bookOf w).clear gid := by
  apply Book.ext
  · simp [bookOf,Book.clear,fileAt,readFile_removeAll,inGroupDir,Path.group?]
  · funext i
    by_cases hi : i = gid <;>
      simp [bookOf,Book.clear,fileAt,groupAt,readFile_removeAll,inGroupDir,Path.group?,hi]
  · funext i m
    by_cases hi : i = gid <;>
      simp [bookOf,Book.clear,fileAt,profileAt,readFile_removeAll,inGroupDir,Path.group?,hi]

theorem erase_healthy (h : Healthy w) (path : Path) :
    Healthy { w with disk := w.disk.erase path } := by
  refine ⟨h.writable,h.faultless,fun q b hb he => ?_⟩
  rw [readFile_erase] at hb
  split at hb
  · cases hb
  · exact h.opens q b hb he

theorem removeAll_healthy (h : Healthy w) (under : Path → Bool) :
    Healthy { w with disk := removeAll under w.disk } := by
  refine ⟨h.writable,h.faultless,fun q b hb he => ?_⟩
  rw [readFile_removeAll] at hb
  split at hb
  · cases hb
  · exact h.opens q b hb he

theorem mkdirFor_healthy (h : Healthy w) (path : Path) :
    Healthy { w with disk := mkdirFor path w.disk } := by
  refine ⟨h.writable,h.faultless,fun q b hb he => ?_⟩
  rw [readFile_mkdirFor] at hb
  exact h.opens q b hb he

end Books

section Programs

variable {α β : Type} {m : DBM α} {w : World} {a : α} {b b' : Book} {r : Option α}

/-- What a program returns on a healthy database, and what it makes of it. -/
structure Leads (m : DBM α) (w : World) (r : Option α) (b : Book) : Prop where
  result : (m w).1.toOption = r
  healthy : Healthy (m w).2
  book : bookOf (m w).2 = b

theorem leads_pure (h : Healthy w) (a : α) : Leads (pure a) w (some a) (bookOf w) := ⟨rfl,h,rfl⟩

theorem leads_fail (h : Healthy w) (e : DBError) : Leads (fail e : DBM α) w none (bookOf w) :=
  ⟨rfl,h,rfl⟩

theorem leads_bind {f : α → DBM β} {r : Option β} (hm : Leads m w (some a) b)
    (hf : ∀ w', Healthy w' → bookOf w' = b → Leads (f a) w' r b') :
    Leads (m >>= f) w r b' := by
  have hok : m w = (.ok a,(m w).2) := Prod.ext (Listings.ok_of_toOption hm.result) rfl
  have hnext := hf _ hm.healthy hm.book
  refine ⟨?_,?_,?_⟩ <;> rw [bind_of_ok hok]
  · exact hnext.result
  · exact hnext.healthy
  · exact hnext.book

theorem leads_stop {f : α → DBM β} (hm : Leads m w none b) : Leads (m >>= f) w none b := by
  cases h : (m w).1 with
  | ok a =>
    have hr := hm.result
    rw [h] at hr
    cases hr
  | error e =>
    have herr : m w = (.error e,(m w).2) := Prod.ext h rfl
    refine ⟨?_,?_,?_⟩ <;> rw [bind_of_error herr]
    · rfl
    · exact hm.healthy
    · exact hm.book

theorem leads_next {f : Except DBError α → DBM β} {r' : Option β}
    (hf : Leads (f (m w).1) (m w).2 r' b') : Leads (attempt m >>= f) w r' b' := by
  have hok := attempt_run m w
  refine ⟨?_,?_,?_⟩ <;> rw [bind_of_ok hok]
  · exact hf.result
  · exact hf.healthy
  · exact hf.book

theorem leads_attempt {f : Except DBError α → DBM β} {r' : Option β} (hm : Leads m w r b)
    (hf : ∀ x w', x.toOption = r → Healthy w' → bookOf w' = b → Leads (f x) w' r' b') :
    Leads (attempt m >>= f) w r' b' :=
  leads_next (hf (m w).1 (m w).2 hm.result hm.healthy hm.book)

theorem leads_wrapping (wrap : DBError → DBError) (hm : Leads m w r b) :
    Leads (wrapping wrap m) w r b := by
  refine ⟨?_,?_,?_⟩
  · rw [wrapping_fst,← hm.result]
    cases (m w).1 <;> rfl
  · rw [wrapping_snd]
    exact hm.healthy
  · rw [wrapping_snd]
    exact hm.book

theorem leads_when {c : Bool} {m : DBM Unit} (h : Healthy w)
    (hm : Leads m w (some ()) (bookOf w)) : Leads (when c m) w (some ()) (bookOf w) := by
  cases c with
  | true => exact hm
  | false => exact leads_pure h ()

theorem leads_read (h : Healthy w) (path : Path) (target : Payload → Option α) :
    Leads (readEncryptedJSON path target) w (fileAt path target w.disk w.key) (bookOf w) := by
  have hsame := read_healthy h path target
  refine ⟨(readsAs_readEncryptedJSON path target w).2,?_,?_⟩ <;> rw [hsame]
  exact h

theorem leads_write (h : Healthy w) (path : Path) (data : Payload) :
    Leads (writeEncryptedJSON path data) w (some ()) (bookOf (store path data w)) := by
  obtain ⟨hrun,hhealthy⟩ := write_healthy h path data
  refine ⟨?_,?_,?_⟩ <;> rw [hrun]
  · rfl
  · exact hhealthy

theorem leads_loadGroup (h : Healthy w) (gid : ℤ) :
    Leads (loadGroupConfig gid) w ((bookOf w).group gid) (bookOf w) :=
  leads_wrapping _ (leads_read h _ _)

theorem leads_getProfile (h : Healthy w) (gid n : ℤ) :
    Leads (getProfile gid n) w ((bookOf w).profile gid n) (bookOf w) :=
  leads_wrapping _ (leads_read h _ _)

theorem leads_loadConfig (h : Healthy w) :
    Leads loadDBConfig w (bookOf w).config (bookOf w) := leads_read h _ _

theorem leads_saveGroup (h : Healthy w) (g : Group) :
    Leads (saveGroupConfig g) w (some ()) ((bookOf w).setGroup g.id g) :=
  bookOf_setGroup g.id g w ▸ leads_wrapping _ (leads_write h _ _)

theorem leads_updateGroup (h : Healthy w) (g : Group) :
    Leads (updateGroup g) w (some ()) ((bookOf w).setGroup g.id g) :=
  bookOf_setGroup g.id g w ▸ leads_wrapping _ (leads_write h _ _)

theorem leads_saveConfig (h : Healthy w) (c : DBConfig) :
    Leads (saveDBConfig c) w (some ()) ((bookOf w).setConfig c) :=
  bookOf_setConfig c w ▸ leads_write h _ _

theorem leads_saveProfile (h : Healthy w) (gid n : ℤ) (p : Profile) :
    Leads (writeEncryptedJSON (.profile gid n) (.profile p)) w (some ())
      ((bookOf w).setProfile gid n (some p)) :=
  bookOf_setProfile gid n p w ▸ leads_write h _ _

theorem leads_remove (h : Healthy w) (gid n : ℤ) :
    Leads (remove (.profile gid n)) w (some ()) ((bookOf w).setProfile gid n none) :=
  ⟨rfl,erase_healthy h _,bookOf_erase gid n w⟩

theorem leads_removeXray (h : Healthy w) (gid n : ℤ) :
    Leads (deleteProfileXrayConfig gid n) w (some ()) (bookOf w) := by
  refine ⟨rfl,erase_healthy h _,?_⟩
  simp [deleteProfileXrayConfig,remove,bookOf,fileAt,groupAt,profileAt,readFile_erase]

theorem leads_mkdir (h : Healthy w) (path : Path) :
    Leads (osMkdirAll path) w (some ()) (bookOf w) := by
  refine ⟨rfl,mkdirFor_healthy h _,?_⟩
  simp [osMkdirAll,bookOf,fileAt,groupAt,profileAt,readFile_mkdirFor]

theorem leads_saveXray (h : Healthy w) (gid n : ℤ) (raw : RawMessage) :
    Leads (saveProfileXrayConfig gid n raw) w (some ()) (bookOf w) := by
  apply leads_bind (leads_mkdir h _)
  intro w' h' hb
  rw [← hb,← bookOf_xray gid n (.raw raw) w']
  exact leads_write h' _ _

end Programs

section Operations

namespace Book

/-- A profile behind the last one of a group. -/
def push (b : Book) (gid : ℤ) (g : Group) (p : Profile) : Book :=
  (b.setGroup gid { g with
    lastId := g.lastId+1
    profileOrder := g.profileOrder++[g.lastId+1] }).setProfile gid (g.lastId+1) (some p)

def drop (b : Book) (gid n : ℤ) : Book :=
  (b.group gid).elim (b.setProfile gid n none) fun g =>
    (b.setProfile gid n none).setGroup gid { g with
      profileOrder := g.profileOrder.filter (· ≠ n) }

/-- A group is taken away, and its number out of the order. -/
def close (b : Book) (gid : ℤ) : Book :=
  b.config.elim (b.clear gid) fun c =>
    (b.clear gid).setConfig { c with groupOrder := c.groupOrder.filter (· ≠ gid) }

def openGroup (b : Book) (c : DBConfig) (g : Group) : Book :=
  ((b.setConfig ⟨c.lastGroupId+1,c.groupOrder++[c.lastGroupId+1]⟩).clear
    (c.lastGroupId+1)).setGroup (c.lastGroupId+1) g

theorem setProfile_twice (b : Book) (gid n : ℤ) (p q : Option Profile) :
    (b.setProfile gid n p).setProfile gid n q = b.setProfile gid n q := by
  simp [setProfile]

theorem setGroup_twice (b : Book) (gid : ℤ) (g g' : Group) :
    (b.setGroup gid g).setGroup gid g' = b.setGroup gid g' := by
  simp [setGroup]

end Book

variable {w : World} {gid n : ℤ} {g : Group} {c : DBConfig}

theorem leads_addProfile (h : Healthy w) {data : DBAddProfileData}
    (hg : (bookOf w).group data.groupId = some g) (hid : g.id = data.groupId) :
    Leads (ProfileStore.addProfile data) w (some (profileOf (g.lastId+1) data))
      ((bookOf w).push data.groupId g (profileOf (g.lastId+1) data)) := by
  apply leads_bind (hg ▸ leads_loadGroup h data.groupId)
  intro w₁ h₁ hb₁
  apply leads_bind (leads_saveGroup h₁ _)
  intro w₂ h₂ hb₂
  apply leads_bind (leads_remove h₂ _ _)
  intro w₃ h₃ hb₃
  apply leads_bind (leads_wrapping _ (leads_saveProfile h₃ _ _ _))
  intro w₄ h₄ hb₄
  apply leads_bind (leads_when h₄ (leads_wrapping _ (leads_saveXray h₄ _ _ _)))
  intro w₅ h₅ hb₅
  have hbook : bookOf w₅ = (bookOf w).push data.groupId g (profileOf (g.lastId+1) data) := by
    rw [hb₅,hb₄,hb₃,hb₂,hb₁,Book.setProfile_twice,← hid]
    rfl
  rw [← hbook]
  exact leads_pure h₅ _

theorem leads_addProfile_missing (h : Healthy w) {data : DBAddProfileData}
    (hg : (bookOf w).group data.groupId = none) :
    Leads (ProfileStore.addProfile data) w none (bookOf w) :=
  leads_stop (hg ▸ leads_loadGroup h data.groupId)

theorem leads_dropFromOrder (h : Healthy w)
    (hid : ∀ g, (bookOf w).group gid = some g → g.id = gid) (n : ℤ) :
    Leads (ProfileStore.dropFromOrder gid n) w (some ())
      (((bookOf w).group gid).elim (bookOf w) fun g =>
        (bookOf w).setGroup gid { g with profileOrder := g.profileOrder.filter (· ≠ n) }) := by
  apply leads_attempt (leads_loadGroup h gid)
  intro x w₁ hx h₁ hb₁
  cases x with
  | error e =>
    have hg : (bookOf w).group gid = none := hx.symm
    rw [hg,← hb₁]
    exact leads_pure h₁ ()
  | ok g =>
    have hg : (bookOf w).group gid = some g := hx.symm
    obtain rfl := hid g hg
    rw [hg]
    apply leads_attempt (leads_saveGroup h₁ _)
    intro y w₂ _ h₂ hb₂
    have hdone := leads_pure h₂ ()
    rwa [hb₂,hb₁] at hdone

/-- The profile is gone, and its number is taken out of the order. -/
theorem leads_dropErased {b : Book} (h : Healthy w) (hid : ∀ g, b.group gid = some g → g.id = gid)
    (hb : bookOf w = b.setProfile gid n none) :
    Leads (ProfileStore.dropFromOrder gid n) w (some ()) (b.drop gid n) := by
  have hgroup : (bookOf w).group gid = b.group gid := by rw [hb]; rfl
  have hdrop := leads_dropFromOrder h (fun g hg => hid g (hgroup ▸ hg)) n
  rwa [hgroup,hb] at hdrop

theorem leads_deleteProfile (h : Healthy w)
    (hid : ∀ g, (bookOf w).group gid = some g → g.id = gid) (n : ℤ) :
    Leads (ProfileStore.deleteProfile gid n) w (some ()) ((bookOf w).drop gid n) := by
  apply leads_bind (leads_remove h gid n)
  intro w₁ h₁ hb₁
  apply leads_bind (leads_removeXray h₁ gid n)
  intro w₂ h₂ hb₂
  exact leads_dropErased h₂ hid (hb₂.trans hb₁)

theorem leads_renameProfile (h : Healthy w) {p : Profile} (name : String)
    (hp : (bookOf w).profile gid n = some p) (hgid : p.groupId = gid) (hid : p.id = n) :
    Leads (ProfileStore.renameProfile gid n name) w (some { p with name := name })
      ((bookOf w).setProfile gid n (some { p with name := name })) := by
  apply leads_bind (hp ▸ leads_getProfile h gid n)
  intro w₁ h₁ hb₁
  have hold : (bookOf w₁).profile p.groupId p.id = some p := by rw [hb₁,hgid,hid,hp]
  have hupdate : Leads (ProfileStore.updateProfile { p with name := name }) w₁ (some ())
      ((bookOf w).setProfile gid n (some { p with name := name })) := by
    apply leads_bind (leads_wrapping _ (hold ▸ leads_getProfile h₁ p.groupId p.id))
    intro w₂ h₂ hb₂
    rw [if_neg (by simp),← hb₁,← hb₂]
    have hsave := leads_saveProfile h₂ p.groupId p.id { p with name := name }
    rw [hgid,hid] at hsave
    simp only [hgid,hid]
    exact leads_wrapping _ hsave
  apply leads_bind hupdate
  intro w₃ h₃ hb₃
  exact hb₃ ▸ leads_pure h₃ _

theorem leads_renameProfile_missing (h : Healthy w) (name : String)
    (hp : (bookOf w).profile gid n = none) :
    Leads (ProfileStore.renameProfile gid n name) w none (bookOf w) :=
  leads_stop (hp ▸ leads_getProfile h gid n)

theorem leads_reorderProfiles (h : Healthy w) (ids : List ℤ)
    (hg : (bookOf w).group gid = some g) (hid : g.id = gid) :
    Leads (ProfileStore.reorderProfiles gid ids) w (some ())
      ((bookOf w).setGroup gid { g with profileOrder := ids }) := by
  apply leads_bind (leads_wrapping _ (hg ▸ leads_loadGroup h gid))
  intro w₁ h₁ hb₁
  rw [← hb₁,← hid]
  exact leads_saveGroup h₁ _

theorem leads_reorderProfiles_missing (h : Healthy w) (ids : List ℤ)
    (hg : (bookOf w).group gid = none) :
    Leads (ProfileStore.reorderProfiles gid ids) w none (bookOf w) :=
  leads_stop (leads_wrapping _ (hg ▸ leads_loadGroup h gid))

theorem leads_moveXray (h : Healthy w) (fromGroup toGroup id newId : ℤ) :
    Leads (ProfileStore.moveXrayConfig fromGroup toGroup id newId) w (some ()) (bookOf w) := by
  have hload : Leads (loadProfileXrayConfig fromGroup id) w _ (bookOf w) := leads_read h _ _
  apply leads_attempt hload
  intro x w₁ _ h₁ hb₁
  cases x with
  | error e => exact hb₁ ▸ leads_pure h₁ ()
  | ok raw => exact hb₁ ▸ leads_wrapping _ (leads_saveXray h₁ _ _ _)

/-- What a moved profile becomes. -/
def movedProfile (p : Profile) (g : Group) : Profile :=
  { p with
    groupId := g.id
    id := g.lastId+1 }

theorem leads_moveProfile (h : Healthy w) {fromGroup toGroup id : ℤ} {p : Profile}
    (hne : fromGroup ≠ toGroup) (hp : (bookOf w).profile fromGroup id = some p)
    (hg : (bookOf w).group toGroup = some g) (hgid : g.id = toGroup)
    (hfrom : ∀ g, (bookOf w).group fromGroup = some g → g.id = fromGroup) :
    Leads (ProfileStore.moveProfile fromGroup toGroup id) w (some (movedProfile p g))
      (((bookOf w).push toGroup g (movedProfile p g)).drop fromGroup id) := by
  subst hgid
  rw [ProfileStore.moveProfile,if_neg hne]
  apply leads_bind (leads_wrapping _ (hp ▸ leads_getProfile h fromGroup id))
  intro w₁ h₁ hb₁
  have hg₁ : (bookOf w₁).group g.id = some g := by rw [hb₁,hg]
  apply leads_bind (leads_wrapping _ (hg₁ ▸ leads_loadGroup h₁ g.id))
  intro w₂ h₂ hb₂
  apply leads_bind (leads_wrapping _ (leads_saveProfile h₂ _ _ _))
  intro w₃ h₃ hb₃
  apply leads_bind (leads_when h₃ (leads_moveXray h₃ _ _ _ _))
  intro w₄ h₄ hb₄
  apply leads_attempt (leads_saveGroup h₄ _)
  intro x w₅ hx h₅ hb₅
  have hbook : bookOf w₅ = (bookOf w).push g.id g (movedProfile p g) := by
    rw [hb₅,hb₄,hb₃,hb₂,hb₁]
    rfl
  cases x with
  | error e => cases hx
  | ok u =>
    have hfrom₅ : ∀ g', (bookOf w₅).group fromGroup = some g' → g'.id = fromGroup := by
      intro g' hg'
      rw [hbook] at hg'
      exact hfrom g' (by simpa [Book.push,Book.setGroup,Book.setProfile,hne] using hg')
    rw [← hbook]
    apply leads_bind (leads_remove h₅ fromGroup id)
    intro w₆ h₆ hb₆
    apply leads_bind (leads_removeXray h₆ fromGroup id)
    intro w₇ h₇ hb₇
    apply leads_bind (leads_dropErased h₇ hfrom₅ (hb₇.trans hb₆))
    intro w₈ h₈ hb₈
    exact hb₈ ▸ leads_pure h₈ _

/-- A move that is refused leaves everything as it was. -/
theorem leads_moveProfile_refused (h : Healthy w) {fromGroup toGroup id : ℤ}
    (hno : fromGroup = toGroup ∨ (bookOf w).profile fromGroup id = none ∨
      (bookOf w).group toGroup = none) :
    Leads (ProfileStore.moveProfile fromGroup toGroup id) w none (bookOf w) := by
  unfold ProfileStore.moveProfile
  split_ifs with hsame
  · exact leads_fail h _
  · cases hp : (bookOf w).profile fromGroup id with
    | none => exact leads_stop (leads_wrapping _ (hp ▸ leads_getProfile h fromGroup id))
    | some p =>
      have hg : (bookOf w).group toGroup = none := by simpa [hsame,hp] using hno
      apply leads_bind (leads_wrapping _ (hp ▸ leads_getProfile h fromGroup id))
      intro w₁ h₁ hb₁
      rw [← hb₁] at hg ⊢
      exact leads_stop (leads_wrapping _ (hg ▸ leads_loadGroup h₁ toGroup))

theorem leads_removeAll (h : Healthy w) (gid : ℤ) :
    Leads (osRemoveAll (inGroupDir gid)) w (some ()) ((bookOf w).clear gid) :=
  ⟨rfl,removeAll_healthy h _,bookOf_removeAll gid w⟩

theorem leads_addGroup (h : Healthy w) (subscriptionHost : String → String) (name url : String)
    (hc : (bookOf w).config = some c) :
    let g := GroupStore.newGroupConfig subscriptionHost (c.lastGroupId+1) name url
    Leads (GroupStore.addGroup subscriptionHost name url) w (some ⟨g.id,url,g.name⟩)
      ((bookOf w).openGroup c g) := by
  intro g
  apply leads_bind (hc ▸ leads_loadConfig h)
  intro w₁ h₁ hb₁
  apply leads_bind (leads_saveConfig h₁ _)
  intro w₂ h₂ hb₂
  apply leads_bind (leads_removeAll h₂ _)
  intro w₃ h₃ hb₃
  apply leads_bind (leads_mkdir h₃ _)
  intro w₄ h₄ hb₄
  apply leads_bind (leads_updateGroup h₄ g)
  intro w₅ h₅ hb₅
  have hbook : bookOf w₅ = (bookOf w).openGroup c g := by
    rw [hb₅,hb₄,hb₃,hb₂,hb₁]
    rfl
  rw [← hbook]
  exact leads_pure h₅ _

theorem leads_addGroup_missing (h : Healthy w) (subscriptionHost : String → String)
    (name url : String) (hc : (bookOf w).config = none) :
    Leads (GroupStore.addGroup subscriptionHost name url) w none (bookOf w) :=
  leads_stop (hc ▸ leads_loadConfig h)

theorem leads_deleteGroup (h : Healthy w) (gid : ℤ) :
    Leads (GroupStore.deleteGroup gid) w (some ()) ((bookOf w).close gid) := by
  apply leads_bind (leads_removeAll h gid)
  intro w₁ h₁ hb₁
  have hconfig : (bookOf w₁).config = (bookOf w).config := by rw [hb₁]; rfl
  apply leads_attempt (leads_loadConfig h₁)
  intro x w₂ hx h₂ hb₂
  rw [hconfig] at hx
  rw [Book.close,← hx,← hb₁,← hb₂]
  cases x with
  | error e => exact leads_pure h₂ ()
  | ok c =>
    apply leads_attempt (leads_saveConfig h₂ _)
    intro y w₃ _ h₃ hb₃
    have hdone := leads_pure h₃ ()
    rwa [hb₃] at hdone

theorem leads_reorderGroups (h : Healthy w) (ids : List ℤ) (hc : (bookOf w).config = some c) :
    Leads (GroupStore.reorderGroups ids) w (some ())
      ((bookOf w).setConfig { c with groupOrder := ids }) := by
  apply leads_bind (leads_wrapping _ (hc ▸ leads_loadConfig h))
  intro w₁ h₁ hb₁
  exact hb₁ ▸ leads_saveConfig h₁ _

theorem leads_reorderGroups_missing (h : Healthy w) (ids : List ℤ)
    (hc : (bookOf w).config = none) :
    Leads (GroupStore.reorderGroups ids) w none (bookOf w) :=
  leads_stop (leads_wrapping _ (hc ▸ leads_loadConfig h))

theorem leads_updateGroupConfig (h : Healthy w) (subscriptionHost : String → String)
    (name url : String) (autoUpdate : Option Bool) (updateInterval : Option ℤ)
    (hg : (bookOf w).group gid = some g) {edited : Except DBError Group}
    (he : GroupStore.editedGroup subscriptionHost g gid name url autoUpdate updateInterval =
      edited) :
    Leads (GroupStore.updateGroupConfig subscriptionHost gid name url autoUpdate updateInterval) w
      edited.toOption (edited.toOption.elim (bookOf w) fun g' => (bookOf w).setGroup g'.id g') := by
  apply leads_bind (leads_wrapping _ (hg ▸ leads_loadGroup h gid))
  intro w₁ h₁ hb₁
  rw [← hb₁,he]
  cases edited with
  | error e => exact leads_fail h₁ e
  | ok g' =>
    apply leads_bind (leads_updateGroup h₁ g')
    intro w₂ h₂ hb₂
    have hdone := leads_pure h₂ g'
    rwa [hb₂] at hdone

theorem leads_updateGroupConfig_missing (h : Healthy w) (subscriptionHost : String → String)
    (name url : String) (autoUpdate : Option Bool) (updateInterval : Option ℤ)
    (hg : (bookOf w).group gid = none) :
    Leads (GroupStore.updateGroupConfig subscriptionHost gid name url autoUpdate updateInterval) w
      none (bookOf w) :=
  leads_stop (leads_wrapping _ (hg ▸ leads_loadGroup h gid))

end Operations

end Whoisthat.CoreBooks
