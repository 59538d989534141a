import Whoisthat.RuntimeArchive

/-!
# The runtime that the core keeps for itself

At its start the core looks for a binary of the pinned version, and otherwise
downloads one in the background. Answers of mirrors are anything, every step may
fail and the process may end at any moment, also in the middle of copying a binary.
The path that is handed out leads to a binary of the pinned version, which came out
of an archive with the published checksum if it was downloaded.
-/

set_option autoImplicit false

namespace Whoisthat.XrayRuntime
open Whoisthat.RuntimeArchive

section Model

def pinnedVersion : String := "v26.10.31"

def managedBin : String := "runtimes/xray/v26.10.31/xray"

def xrayPath : List Name := [['x','r','a','y']]

def downloadMirrors : List String :=
  ["https://github.com/XTLS/Xray-core/releases/download",
    "https://ghfast.top/https://github.com/XTLS/Xray-core/releases/download"]

/-- What the world gives: checksums, archives, what a binary prints when it is run with
`version`, and the checksum file at the origin. -/
structure Release where
  sha256 : Bytes → String
  sha256_hex : ∀ b, LowerHex (sha256 b)
  openZip : Bytes → Option (List Entry)
  prints : Bytes → Option String
  published : String

inductive Status where
  | missing
  | downloading
  | ready
  | error
  deriving DecidableEq, Repr

structure Manager where
  status : Status
  version : String
  progress : Int64
  bytesDownloaded : Int64
  totalBytes : Int64
  error : String
  binPath : String
  isDownloading : Bool

def newManager : Manager := ⟨.missing,"",0,0,0,"","",false⟩

/-- Where `downloadAndInstall` stands. -/
inductive Phase where
  | makeDirs
  | fetchDigest
  | mirror (expected : String) (left : List String) (lastErr : String)
  | verify (expected : String) (archive : Bytes)
  | extract (archive : Bytes)
  | stat (files : Files)
  | probe (files : Files) (bin : Bytes)
  | removeOld (files : Files)
  | rename (files : Files)
  | setBin
  | finish (err : Option String)

structure System where
  manager : Manager
  /-- The goroutines that download. -/
  jobs : List Phase
  /-- The files in the directory of the pinned runtime, if it is there. -/
  runtime : Option Files
  /-- The binaries of the system at the last start. -/
  found : List (String × Bytes)

inductive MirrorReply where
  | unreachable (cause : String)
  | status (code : String)
  | noFile (cause : String)
  | broken (cause : String)
  | body (archive : Bytes)

structure Answer where
  ok : Bool
  cause : String
  reply : MirrorReply
  takes : ℕ → Bool
  /-- The files that a failing removal leaves. -/
  stays : List Name → Bool

/-- `CheckBinaryVersion`; `ok` tells whether the binary could be run. -/
def checkBinaryVersion (R : Release) (ok : Bool) (bin : Bytes) : Option (Bool × String) :=
  if ok then
    (R.prints bin).bind fun out => (parseXrayVersion out).map fun v =>
      (decide (normalizeVersion v = normalizeVersion pinnedVersion),v)
  else none

def fail (text cause : String) : Phase := .finish (some (text++": "++cause))

/-- `GetXrayBin` -/
def getXrayBin (m : Manager) : Option String :=
  if m.status = .ready ∧ m.binPath ≠ "" then some m.binPath else none

/-- What the goroutine of a phase does next: nothing is left of it in the end. -/
def advance (R : Release) (a : Answer) (p : Phase) (s : System) : Option Phase × System :=
  match p with
  | .makeDirs =>
    (some (if a.ok then .fetchDigest else fail "failed to create runtimes directory" a.cause),s)
  | .fetchDigest =>
    (some (if a.ok then
      match parseDgstSHA256 R.published with
      | some digest => .mirror digest downloadMirrors ""
      | none => fail "failed to fetch Xray checksum" "no SHA2-256 entry found in .dgst content"
    else fail "failed to fetch Xray checksum" a.cause),s)
  | .mirror _ [] lastErr =>
    (some (fail "failed to download Xray archive"
      ("failed to download archive from all mirrors: "++lastErr)),s)
  | .mirror expected (_::left) _ =>
    match a.reply with
    | .unreachable cause => (some (.mirror expected left cause),s)
    | .status code => (some (.mirror expected left ("HTTP "++code)),s)
    | .noFile cause => (some (fail "failed to download Xray archive" cause),s)
    | .broken cause => (some (.mirror expected left cause),s)
    | .body archive => (some (.verify expected archive),s)
  | .verify expected archive =>
    (some (if !a.ok then fail "checksum verification failed" a.cause
    else if sameSHA256 (R.sha256 archive) expected then .extract archive
    else fail "checksum verification failed" ("checksum mismatch: expected "++expected++
      ", got "++R.sha256 archive)),s)
  | .extract archive =>
    (some (match (R.openZip archive).filter fun _ => a.ok with
      | none => fail "failed to extract Xray archive" a.cause
      | some es =>
        match unzipArchive (es.zipIdx.map fun e => (e.1,a.takes e.2)) [] with
        | none => fail "failed to extract Xray archive" a.cause
        | some files => .stat files),s)
  | .stat files =>
    (some (match files.lookup xrayPath with
      | none => fail "extracted archive did not contain xray binary" a.cause
      | some bin => .probe files bin),s)
  | .probe files bin =>
    (some (match checkBinaryVersion R a.ok bin with
      | none => fail "downloaded binary failed verification" a.cause
      | some (true,_) => .removeOld files
      | some (false,v) => .finish (some ("downloaded binary version "++v++
          " did not match pinned version "++pinnedVersion))),s)
  -- the error of `os.RemoveAll` is dropped
  | .removeOld files =>
    (some (.rename files),
      { s with runtime := if a.ok then none else s.runtime.map fun fs => fs.filter fun f => a.stays f.1 })
  | .rename files =>
    if a.ok && s.runtime.all (fun fs => fs.isEmpty) then
      (some .setBin,{ s with runtime := some files })
    else (some (fail "failed to move extracted runtime" a.cause),s)
  | .setBin => (some (.finish none),{ s with manager := { s.manager with binPath := managedBin } })
  | .finish none =>
    (none,{ s with manager := { s.manager with
      isDownloading := false, status := .ready, version := pinnedVersion, progress := 100,
      error := "" } })
  | .finish (some err) =>
    (none,{ s with manager := { s.manager with
      isDownloading := false, status := .error, error := err } })

/-- How `adoptSystemBinary` comes out: it may fail before it opens the file, or copy a
part of it. -/
inductive Adopted where
  | unopened
  | part (n : ℕ)
  | whole

structure BootAnswer where
  managed : Bool
  runs : String → Bool
  adopted : Adopted

/-- The runtime directory with this content of the binary. -/
def place (runtime : Option Files) (bin : Bytes) : Option Files :=
  some ((xrayPath,bin)::runtime.getD [])

def Adopted.apply (runtime : Option Files) (bin : Bytes) : Adopted → Option Files
  | .unopened => runtime
  | .part n => place runtime (bin.take n)
  | .whole => place runtime bin

def readyAt (path version : String) : Manager :=
  { newManager with status := .ready, version := version, progress := 100, binPath := path }

/-- The candidates of `Init` in the system, in order. -/
def adoptFirst (R : Release) (a : BootAnswer) (runtime : Option Files) :
    List (String × Bytes) → Manager × Option Files
  | [] => (newManager,runtime)
  | (path,bin)::rest =>
    match checkBinaryVersion R (a.runs path) bin with
    | some (true,v) =>
      (readyAt (match a.adopted with | .whole => managedBin | _ => path) v,
        a.adopted.apply runtime bin)
    | _ => adoptFirst R a runtime rest

/-- `Init` of a new manager. -/
def init (R : Release) (a : BootAnswer) (runtime : Option Files) (found : List (String × Bytes)) :
    Manager × Option Files :=
  match (runtime.bind fun fs => fs.lookup xrayPath).bind (checkBinaryVersion R a.managed) with
  | some (true,v) => (readyAt managedBin v,runtime)
  | _ => adoptFirst R a runtime found

inductive Event where
  /-- A new process of the core starts. -/
  | boot (found : List (String × Bytes)) (a : BootAnswer)
  /-- A new process ends while it copies a binary of the system. -/
  | bootKilled (found : List (String × Bytes)) (path : String) (bin : Bytes) (n : ℕ)
  | ensure
  | step (i : ℕ) (a : Answer)
  | progress (i : ℕ) (current total : Int64)

def startDownload (m : Manager) : Manager :=
  { m with isDownloading := true, status := .downloading, progress := 0, error := "" }

def report (m : Manager) (current total : Int64) : Manager :=
  { m with
    bytesDownloaded := current
    totalBytes := total
    progress := if 0 < total then current*100/total else m.progress }

def step (R : Release) (s : System) : Event → System
  | .boot found a =>
    let r := init R a s.runtime found
    ⟨r.1,[],r.2,found⟩
  | .bootKilled found path bin n =>
    if (path,bin) ∈ found then ⟨newManager,[],place s.runtime (bin.take n),found⟩ else s
  -- `EnsureRuntimeAsync`
  | .ensure =>
    if s.manager.status = .ready ∨ s.manager.isDownloading then s
    else { s with manager := startDownload s.manager, jobs := s.jobs++[.makeDirs] }
  | .step i a =>
    match s.jobs[i]? with
    | none => s
    | some p =>
      let r := advance R a p s
      { r.2 with jobs := match r.1 with | some q => s.jobs.set i q | none => s.jobs.eraseIdx i }
  -- the callback that `downloadArchive` calls while it reads
  | .progress i current total =>
    match s.jobs[i]? with
    | some (.mirror _ _ _) => { s with manager := report s.manager current total }
    | _ => s

def run (R : Release) : List Event → System → System
  | [], s => s
  | e::es, s => run R es (step R s e)

/-- Before the first start there is the runtime that an earlier installation left. -/
def start (runtime : Option Files) : System := ⟨newManager,[],runtime,[]⟩

end Model

section Invariant

def binOf (runtime : Option Files) : Option Bytes := runtime.bind fun fs => fs.lookup xrayPath

/-- The binary answers with the pinned version. -/
def Accepted (R : Release) (bin : Bytes) : Prop := ∃ v, checkBinaryVersion R true bin = some (true,v)

/-- Files that came out of an archive with the published checksum. -/
def Extracted (R : Release) (files : Files) : Prop :=
  ∃ (archive : Bytes) (es : List Entry) (takes : ℕ → Bool), parseDgstSHA256 R.published = some (R.sha256 archive) ∧
    R.openZip archive = some es ∧
    unzipArchive (es.zipIdx.map fun e => (e.1,takes e.2)) [] = some files

def Verified (R : Release) (bin : Bytes) : Prop :=
  ∃ files, Extracted R files ∧ files.lookup xrayPath = some bin

def Installed (R : Release) (s : System) : Prop :=
  ∃ bin, binOf s.runtime = some bin ∧ Accepted R bin ∧ Verified R bin

/-- What a download has found out so far. -/
def Known (R : Release) (s : System) : Phase → Prop
  | .mirror expected _ _ => parseDgstSHA256 R.published = some expected
  | .verify expected _ => parseDgstSHA256 R.published = some expected
  | .extract archive => parseDgstSHA256 R.published = some (R.sha256 archive)
  | .stat files => Extracted R files
  | .probe files bin => Extracted R files ∧ files.lookup xrayPath = some bin
  | .removeOld files => ∃ bin, Extracted R files ∧ files.lookup xrayPath = some bin ∧ Accepted R bin
  | .rename files => ∃ bin, Extracted R files ∧ files.lookup xrayPath = some bin ∧ Accepted R bin
  | .setBin => Installed R s
  | .finish none => Installed R s ∧ s.manager.binPath = managedBin
  | _ => True

/-- The binary that is handed out, by `O` of a known origin if it is the core's own. -/
structure Inv (R : Release) (O : Bytes → Prop) (s : System) : Prop where
  single : s.jobs = [] ∨ ∃ p, s.jobs = [p] ∧ Known R s p
  flag : s.manager.isDownloading = true ↔ s.jobs ≠ []
  busy : s.jobs ≠ [] → s.manager.status = .downloading
  origin : ∀ bin, binOf s.runtime = some bin → O bin
  ready : s.manager.status = .ready →
    (s.manager.binPath = managedBin ∧ ∃ bin, binOf s.runtime = some bin ∧ Accepted R bin) ∨
      ∃ bin, (s.manager.binPath,bin) ∈ s.found ∧ Accepted R bin

variable {R : Release} {O : Bytes → Prop} {s : System}

theorem Known.frame {t : System} {p : Phase} (h : Known R s p) (hr : t.runtime = s.runtime)
    (hb : t.manager.binPath = s.manager.binPath) : Known R t p := by
  cases p with
  | setBin => simpa [Known,Installed,hr] using h
  | finish err =>
    cases err with
    | none => simpa [Known,Installed,hr,hb] using h
    | some e => trivial
  | _ => exact h

theorem accepted_of_check {ok : Bool} {bin : Bytes} {v : String}
    (h : checkBinaryVersion R ok bin = some (true,v)) : Accepted R bin := by
  cases ok with
  | true => exact ⟨v,h⟩
  | false => simp [checkBinaryVersion] at h

theorem binOf_place (runtime : Option Files) (bin : Bytes) : binOf (place runtime bin) = some bin := by
  simp [binOf,place]

theorem binOf_filter {fs : Files} {keep : List Name → Bool} {bin : Bytes}
    (h : binOf (some (fs.filter fun f => keep f.1)) = some bin) : binOf (some fs) = some bin := by
  induction fs with
  | nil => exact h
  | cons f fs ih =>
    simp only [binOf,Option.bind_some] at ih h ⊢
    by_cases hk : keep f.1 = true
    · rw [List.filter_cons_of_pos (by exact hk),List.lookup_cons] at h
      rw [List.lookup_cons]
      split at h
      · exact h
      · exact ih h
    · rw [List.filter_cons_of_neg (by exact hk)] at h
      have hkeep := ih h
      by_cases hf : xrayPath = f.1
      · -- all entries of one path stay or go together
        exfalso
        have hgone : ∀ l : Files, (l.filter fun g => keep g.1).lookup xrayPath = none := by
          intro l
          rw [List.lookup_eq_none_iff]
          intro g hg
          have hkg := (List.mem_filter.mp hg).2
          simp only [bne_iff_ne,ne_eq]
          intro hg'
          exact hk (by rw [← hf,hg']; exact hkg)
        rw [hgone] at h
        exact absurd h (by simp)
      · rw [List.lookup_cons,beq_eq_false_iff_ne.mpr hf]
        exact hkeep

/-- What the origins of a run must hold of. -/
structure Origins (R : Release) (O : Bytes → Prop) (found : List (String × Bytes)) : Prop where
  copied : ∀ path bin n, (path,bin) ∈ found → O (bin.take n)
  verified : ∀ bin, Verified R bin → O bin

theorem adoptFirst_inv (a : BootAnswer) (runtime : Option Files) {found : List (String × Bytes)}
    (hO : Origins R O found) (horigin : ∀ bin, binOf runtime = some bin → O bin)
    {rest : List (String × Bytes)} (hrest : rest ⊆ found) :
    Inv R O ⟨(adoptFirst R a runtime rest).1,[],(adoptFirst R a runtime rest).2,found⟩ := by
  induction rest with
  | nil => exact ⟨.inl rfl,by simp [adoptFirst,newManager],by simp,horigin,by simp [adoptFirst,newManager]⟩
  | cons c rest ih =>
    have hskip := ih fun d hd => hrest (List.mem_cons_of_mem _ hd)
    obtain ⟨path,bin⟩ := c
    rw [adoptFirst]
    cases hc : checkBinaryVersion R (a.runs path) bin with
    | none => exact hskip
    | some r =>
      obtain ⟨matched,v⟩ := r
      cases matched with
      | false => exact hskip
      | true =>
        have hmem : (path,bin) ∈ found := hrest List.mem_cons_self
        have hacc := accepted_of_check hc
        refine ⟨.inl rfl,by simp [readyAt,newManager],by simp,?_,fun _ => ?_⟩
        · show ∀ b, binOf (a.adopted.apply runtime bin) = some b → O b
          cases a.adopted with
          | unopened => exact horigin
          | part n =>
            intro b hb
            rw [Adopted.apply,binOf_place] at hb
            cases hb
            exact hO.copied path bin n hmem
          | whole =>
            intro b hb
            rw [Adopted.apply,binOf_place,Option.some.injEq] at hb
            subst hb
            have htake := hO.copied path bin bin.length hmem
            rwa [List.take_length] at htake
        · cases ha : a.adopted with
          | unopened => exact .inr ⟨bin,hmem,hacc⟩
          | part n => exact .inr ⟨bin,hmem,hacc⟩
          | whole => exact .inl ⟨rfl,bin,binOf_place runtime bin,hacc⟩

theorem boot_inv (h : Inv R O s) (found : List (String × Bytes)) (a : BootAnswer)
    (hO : Origins R O found) : Inv R O (step R s (.boot found a)) := by
  have hfirst := adoptFirst_inv a s.runtime hO h.origin (List.Subset.refl found)
  have hinit : init R a s.runtime found = match (binOf s.runtime).bind (checkBinaryVersion R a.managed) with
      | some (true,v) => (readyAt managedBin v,s.runtime)
      | _ => adoptFirst R a s.runtime found := rfl
  simp only [step,hinit]
  cases hc : (binOf s.runtime).bind (checkBinaryVersion R a.managed) with
  | none => exact hfirst
  | some r =>
    obtain ⟨matched,v⟩ := r
    cases matched with
    | false => exact hfirst
    | true =>
      obtain ⟨bin,hbin,hcheck⟩ := Option.bind_eq_some_iff.mp hc
      exact ⟨.inl rfl,by simp [readyAt,newManager],by simp,h.origin,
        fun _ => .inl ⟨rfl,bin,hbin,accepted_of_check hcheck⟩⟩

theorem bootKilled_inv (h : Inv R O s) (found : List (String × Bytes)) (path : String) (bin : Bytes)
    (n : ℕ) (hO : Origins R O found) : Inv R O (step R s (.bootKilled found path bin n)) := by
  simp only [step]
  split_ifs with hmem
  · refine ⟨.inl rfl,by simp [newManager],by simp,fun b hb => ?_,by simp [newManager]⟩
    rw [binOf_place] at hb
    cases hb
    exact hO.copied path bin n hmem
  · exact h

theorem ensure_inv (h : Inv R O s) : Inv R O (step R s .ensure) := by
  simp only [step]
  split_ifs with hbusy
  · exact h
  · have hidle : s.jobs = [] := by
      by_contra hne
      exact hbusy (.inr (h.flag.mpr hne))
    refine ⟨.inr ⟨.makeDirs,by simp [hidle],trivial⟩,by simp [startDownload],fun _ => rfl,h.origin,?_⟩
    simp [startDownload]

theorem progress_inv (h : Inv R O s) (i : ℕ) (current total : Int64) :
    Inv R O (step R s (.progress i current total)) := by
  have hsame : Inv R O { s with manager := report s.manager current total } := by
    refine ⟨h.single.imp id ?_,h.flag,h.busy,h.origin,h.ready⟩
    rintro ⟨p,hp,hk⟩
    exact ⟨p,hp,hk.frame rfl rfl⟩
  simp only [step]
  split
  · exact hsame
  · exact h

/-- A step of the download that leaves the runtime and the manager alone. -/
theorem step_quiet (h : Inv R O s) {p q : Phase} (hp : s.jobs = [p]) (hk : Known R s q) :
    Inv R O { s with jobs := [q] } where
  single := .inr ⟨q,rfl,hk.frame rfl rfl⟩
  flag := by simpa [hp] using h.flag
  busy _ := h.busy (by simp [hp])
  origin := h.origin
  ready := h.ready

theorem known_fail (s : System) (text cause : String) : Known R s (fail text cause) := trivial

/-- What the phases that change nothing find out. -/
theorem advance_known {p : Phase} (hk : Known R s p) (a : Answer) :
    ∀ q, (advance R a p s).1 = some q → (advance R a p s).2 = s → Known R s q := by
  intro q hq hs
  cases p with
  | makeDirs =>
    simp only [advance,Option.some.injEq] at hq
    subst hq
    split_ifs <;> trivial
  | fetchDigest =>
    simp only [advance,Option.some.injEq] at hq
    subst hq
    split_ifs
    · cases hd : parseDgstSHA256 R.published with
      | none => trivial
      | some digest => exact hd
    · trivial
  | mirror expected left lastErr =>
    cases left with
    | nil =>
      cases hq
      trivial
    | cons m left =>
      simp only [advance] at hq
      cases hr : a.reply with
      | noFile cause =>
        rw [hr] at hq
        cases hq
        trivial
      | _ =>
        rw [hr] at hq
        cases hq
        exact hk
  | verify expected archive =>
    simp only [advance,Option.some.injEq] at hq
    subst hq
    split_ifs with hok hsame
    · trivial
    · -- the published checksum and the computed one are both in small letters
      have heq := sameSHA256_eq (R.sha256_hex archive) (parseDgstSHA256_hex hk).2 hsame
      show parseDgstSHA256 R.published = some (R.sha256 archive)
      rw [heq]
      exact hk
    · trivial
  | extract archive =>
    simp only [advance,Option.some.injEq] at hq
    subst hq
    cases hz : (R.openZip archive).filter fun _ => a.ok with
    | none => trivial
    | some es =>
      cases hu : unzipArchive (es.zipIdx.map fun e => (e.1,a.takes e.2)) [] with
      | none =>
        simp only [hu]
        trivial
      | some files =>
        simp only [hu]
        exact ⟨archive,es,a.takes,hk,(Option.filter_eq_some_iff.mp hz).1,hu⟩
  | stat files =>
    simp only [advance,Option.some.injEq] at hq
    subst hq
    cases hl : files.lookup xrayPath with
    | none => trivial
    | some bin => exact ⟨hk,hl⟩
  | probe files bin =>
    simp only [advance,Option.some.injEq] at hq
    subst hq
    cases hc : checkBinaryVersion R a.ok bin with
    | none => trivial
    | some r =>
      obtain ⟨matched,v⟩ := r
      cases matched with
      | true => exact ⟨bin,hk.1,hk.2,accepted_of_check hc⟩
      | false => trivial
  | removeOld files =>
    cases hq
    exact hk
  | rename files =>
    simp only [advance] at hq hs
    split_ifs at hq hs with hc
    · cases hq
      obtain ⟨bin,hex,hl,hacc⟩ := hk
      have hrt : s.runtime = some files := by rw [← hs]
      exact ⟨bin,by simp [binOf,hrt,hl],hacc,files,hex,hl⟩
    · cases hq
      trivial
  | setBin =>
    cases hq
    refine ⟨hk,?_⟩
    rw [← hs]
    rfl
  | finish err => cases err <;> simp [advance] at hq

theorem step_inv (h : Inv R O s) (hO : ∀ bin, Verified R bin → O bin) (i : ℕ) (a : Answer) :
    Inv R O (step R s (.step i a)) := by
  simp only [step]
  cases hi : s.jobs[i]? with
  | none => exact h
  | some p =>
    rcases h.single with hnil | ⟨p',hp,hk⟩
    · simp [hnil] at hi
    rw [hp] at hi
    cases i with
    | succ i => simp at hi
    | zero =>
    obtain rfl : p' = p := by simpa using hi
    have hknown := advance_known hk a
    have hidle : s.manager.isDownloading = true := h.flag.mpr (by simp [hp])
    cases p' with
    | removeOld files =>
      refine ⟨.inr ⟨.rename files,by simp [advance,hp],hk⟩,by simpa [advance,hp] using hidle,
        fun _ => h.busy (by simp [hp]),fun bin hbin => ?_,fun hr => ?_⟩
      · apply h.origin bin
        simp only [advance] at hbin
        split_ifs at hbin with ha
        · simp [binOf] at hbin
        · cases hrt : s.runtime with
          | none => simp [hrt,binOf] at hbin
          | some fs =>
            rw [hrt] at hbin
            exact binOf_filter hbin
      · have hbusy := h.busy (by simp [hp])
        exact absurd (hr.symm.trans hbusy) (by simp)
    | rename files =>
      simp only [advance] at hknown ⊢
      split_ifs at hknown ⊢ with hc
      · obtain ⟨bin,hex,hl,hacc⟩ := hk
        have hbin : binOf (some files) = some bin := by simpa [binOf] using hl
        refine ⟨.inr ⟨.setBin,by simp [hp],bin,hbin,hacc,files,hex,hl⟩,by simpa [hp] using hidle,
          fun _ => h.busy (by simp [hp]),fun b hb => ?_,fun hr => ?_⟩
        · exact hO b ⟨files,hex,by simpa [binOf] using hb⟩
        · exact absurd (hr.symm.trans (h.busy (by simp [hp]))) (by simp)
      · simpa [hp] using step_quiet h hp (hknown _ rfl rfl)
    | setBin =>
      refine ⟨.inr ⟨.finish none,by simp [advance,hp],hk,rfl⟩,by simpa [advance,hp] using hidle,
        fun _ => h.busy (by simp [hp]),h.origin,fun hr => ?_⟩
      exact absurd (hr.symm.trans (h.busy (by simp [hp]))) (by simp)
    | finish err =>
      cases err with
      | none =>
        obtain ⟨⟨bin,hbin,hacc,_⟩,hpath⟩ := hk
        exact ⟨.inl (by simp [advance,hp]),by simp [advance,hp],by simp [advance,hp],h.origin,
          fun _ => .inl ⟨hpath,bin,hbin,hacc⟩⟩
      | some e =>
        exact ⟨.inl (by simp [advance,hp]),by simp [advance,hp],by simp [advance,hp],h.origin,
          fun hr => absurd hr (by simp [advance])⟩
    | mirror expected left lastErr =>
      cases left with
      | nil => simpa [advance,hp] using step_quiet h hp (hknown _ rfl rfl)
      | cons m left =>
        simp only [advance] at hknown ⊢
        cases hr : a.reply <;> simp only [hr] at hknown ⊢ <;>
          simpa [hp] using step_quiet h hp (hknown _ rfl trivial)
    | _ => simpa [advance,hp] using step_quiet h hp (hknown _ rfl rfl)

/-- The binaries of the system that the starts of a run come across. -/
def offered : List Event → List Bytes
  | [] => []
  | .boot found _::es => found.map Prod.snd++offered es
  | .bootKilled found _ _ _::es => found.map Prod.snd++offered es
  | _::es => offered es

def Origin (R : Release) (runtime : Option Files) (es : List Event) (bin : Bytes) : Prop :=
  binOf runtime = some bin ∨ (∃ c ∈ offered es, bin <+: c) ∨ Verified R bin

theorem run_inv (h : Inv R O s) (es : List Event) (hcopied : ∀ c ∈ offered es, ∀ n, O (c.take n))
    (hverified : ∀ bin, Verified R bin → O bin) : Inv R O (run R es s) := by
  induction es generalizing s with
  | nil => exact h
  | cons e es ih =>
    have horigins : ∀ found, found.map Prod.snd ⊆ offered (e::es) → Origins R O found := by
      intro found hfound
      refine ⟨fun path bin n hmem => ?_,hverified⟩
      exact hcopied bin (hfound (List.mem_map.mpr ⟨(path,bin),hmem,rfl⟩)) n
    have hlater : ∀ c ∈ offered es, ∀ n, O (c.take n) := by
      intro c hc
      apply hcopied c
      cases e with
      | boot found a => exact List.mem_append_right _ hc
      | bootKilled found path bin n => exact List.mem_append_right _ hc
      | _ => exact hc
    apply ih _ hlater
    cases e with
    | boot found a => exact boot_inv h found a (horigins found (List.subset_append_left _ _))
    | bootKilled found path bin n =>
      exact bootKilled_inv h found path bin n (horigins found (List.subset_append_left _ _))
    | ensure => exact ensure_inv h
    | step i a => exact step_inv h hverified i a
    | progress i current total => exact progress_inv h i current total

end Invariant

end Whoisthat.XrayRuntime
