import Whoisthat.CrashFiles

/-!
# Writing a file through a temporary one

Any number of calls of `AtomicWriteFile` run side by side, each one step at a
time; every step may fail and a crash may come at any moment. The run is one of
the store of whole-file writes: a call is one write, at its rename, and the sync
of the directory settles it.
-/

set_option autoImplicit false

namespace Whoisthat.AtomicWrites
open Whoisthat.CrashFiles

abbrev Dir := List String

structure File where
  data : List UInt8
  perm : ℕ
  deriving DecidableEq, Repr

abbrev FileSystem := Disk Dir String File

def tempName (base suffix : String) : String := "."++base++".tmp-"++suffix

/-- A name that `os.CreateTemp` could have made for some file. -/
def Temporary (name : String) : Prop := ∃ base suffix, name = tempName base suffix

def Plain (name : String) : Prop := ¬Temporary name

/-- What a call does next. -/
inductive Phase where
  | mkdirAll
  | createTemp
  | chmod
  | write
  | sync
  | close
  | rename
  | syncDir
  | remove
  | returned (err : Bool)
  | killed
  deriving DecidableEq, Repr

structure Call where
  dir : Dir
  base : String
  data : List UInt8
  perm : ℕ
  phase : Phase
  temp : String
  inode : ℕ

/-- What the system answers to one step. -/
structure Answer where
  ok : Bool
  suffix : String
  /-- What a failing write still put down. -/
  written : List UInt8

def Call.file (c : Call) : File := ⟨c.data,c.perm⟩

def Call.isOpen (c : Call) : Bool :=
  match c.phase with
  | .chmod | .write | .sync | .close | .rename | .remove => true
  | _ => false

def append (f : File) (data : List UInt8) : File := ⟨f.data++data,f.perm⟩

/-- `AtomicWriteFile`, one system call at a time. -/
def advance (a : Answer) (c : Call) (s : FileSystem) : Call × FileSystem :=
  match c.phase with
  | .mkdirAll =>
    if a.ok then ({ c with phase := .createTemp },s.mkdir c.dir)
    else ({ c with phase := .returned true },s)
  | .createTemp =>
    let name := tempName c.base a.suffix
    if a.ok && s.present c.dir && (s.listing c.dir name).isNone then
      ({ c with phase := .chmod, temp := name, inode := s.next },s.create c.dir name ⟨[],0o600⟩)
    else ({ c with phase := .returned true },s)
  | .chmod =>
    if a.ok then
      ({ c with phase := .write },s.overwrite c.inode ⟨(s.file c.inode).data,c.perm⟩)
    else ({ c with phase := .remove },s)
  | .write =>
    if a.ok then ({ c with phase := .sync },s.overwrite c.inode (append (s.file c.inode) c.data))
    else ({ c with phase := .remove },s.overwrite c.inode (append (s.file c.inode) a.written))
  | .sync =>
    if a.ok then ({ c with phase := .close },s.sync c.inode)
    else ({ c with phase := .remove },s)
  | .close => ({ c with phase := if a.ok then .rename else .remove },s)
  | .rename =>
    if a.ok then ({ c with phase := .syncDir },s.rename c.dir c.temp c.base)
    else ({ c with phase := .remove },s)
  -- the error of `os.Remove` is dropped
  | .remove => ({ c with phase := .returned true },if a.ok then s.remove c.dir c.temp else s)
  -- as are those of opening and syncing the directory
  | .syncDir => ({ c with phase := .returned false },if a.ok then s.syncDir c.dir else s)
  | .returned _ => (c,s)
  | .killed => (c,s)

structure System where
  fs : FileSystem
  calls : List Call

inductive Event where
  | call (dir : Dir) (base : String) (data : List UInt8) (perm : ℕ)
  | step (i : ℕ) (a : Answer)
  | crash (c : Crash Dir String File)

def Call.kill (c : Call) : Call :=
  match c.phase with
  | .returned _ => c
  | _ => { c with phase := .killed }

def step (s : System) : Event → System
  | .call dir base data perm => { s with calls := s.calls++[⟨dir,base,data,perm,.mkdirAll,"",0⟩] }
  | .step i a =>
    match s.calls[i]? with
    | none => s
    | some c => ⟨(advance a c s.fs).2,s.calls.set i (advance a c s.fs).1⟩
  | .crash c => ⟨s.fs.crash c,s.calls.map Call.kill⟩

def run : List Event → System → System
  | [], s => s
  | e::es, s => run es (step s e)

/-- What a step of a call is to the store of whole files. -/
def Call.ops (a : Answer) (c : Call) (s : FileSystem) : List (Op Dir String File) :=
  match c.phase with
  | .rename => if a.ok then [.put c.dir c.base c.file] else []
  | .syncDir => if a.ok && s.settled c.dir then [.settle c.dir] else []
  | _ => []

def opsOf (s : System) : Event → List (Op Dir String File)
  | .call _ _ _ _ => []
  | .step i a => (s.calls[i]?).elim [] fun c => c.ops a s.fs
  | .crash _ => [.crash]

def ops : List Event → System → List (Op Dir String File)
  | [], _ => []
  | e::es, s => opsOf s e++ops es (step s e)

theorem run_append (es fs : List Event) (s : System) : run (es++fs) s = run fs (run es s) := by
  induction es generalizing s with
  | nil => rfl
  | cons e es ih => exact ih _

theorem ops_append (es fs : List Event) (s : System) :
    ops (es++fs) s = ops es s++ops fs (run es s) := by
  induction es generalizing s with
  | nil => rfl
  | cons e es ih =>
    show opsOf s e++ops (es++fs) (step s e) = _
    rw [ih,← List.append_assoc]
    rfl

/-- The targets of the calls are no temporary names. -/
def Targets : List Event → Prop
  | [] => True
  | .call _ base _ _::es => Plain base ∧ Targets es
  | _::es => Targets es

section Invariant

/-- What holds of a call between its steps: the directory is there and the
temporary file is the one it made, with what it wrote so far. -/
structure Sound (s : FileSystem) (c : Call) : Prop where
  dir : c.isOpen ∨ c.phase = .createTemp ∨ c.phase = .syncDir → s.present c.dir = true
  entry : c.isOpen → s.listing c.dir c.temp = some c.inode
  known : c.isOpen → c.inode < s.next
  hidden : c.isOpen → Temporary c.temp
  empty : c.phase = .chmod ∨ c.phase = .write → (s.file c.inode).data = []
  mode : c.phase = .write → (s.file c.inode).perm = c.perm
  whole : c.phase = .sync ∨ c.phase = .close ∨ c.phase = .rename → s.file c.inode = c.file
  synced : c.phase = .close ∨ c.phase = .rename → s.stable c.inode = true

def Owned (calls : List Call) (i : ℕ) : Prop := ∃ c ∈ calls, c.isOpen ∧ c.inode = i

structure Inv (base : Dir → String → Option File) (s : System) (st : Store Dir String File) :
    Prop where
  agrees : Agrees Plain base (Owned s.calls) s.fs st
  plain : ∀ c ∈ s.calls, Plain c.base
  sound : ∀ c ∈ s.calls, Sound s.fs c
  apart : ∀ (i j : ℕ) (c c' : Call), s.calls[i]? = some c → s.calls[j]? = some c' → c.isOpen → c'.isOpen →
    c.inode = c'.inode → i = j

variable {base : Dir → String → Option File} {s : System} {st u : Store Dir String File}
  {c c' : Call} {i : ℕ} {t : FileSystem}

theorem Call.isOpen_iff (c : Call) : c.isOpen ↔ c.phase = .chmod ∨ c.phase = .write ∨
    c.phase = .sync ∨ c.phase = .close ∨ c.phase = .rename ∨ c.phase = .remove := by
  unfold Call.isOpen
  cases c.phase <;> simp

/-- A change that leaves the directory, the entry and the file of a call alone. -/
theorem Sound.frame {s : FileSystem} (h : Sound s c)
    (hdir : s.present c.dir = true → t.present c.dir = true)
    (hentry : c.isOpen → t.listing c.dir c.temp = s.listing c.dir c.temp)
    (hnext : s.next ≤ t.next) (hfile : c.isOpen → t.file c.inode = s.file c.inode)
    (hstable : c.isOpen → t.stable c.inode = s.stable c.inode) : Sound t c where
  dir hp := hdir (h.dir hp)
  entry ho := (hentry ho).trans (h.entry ho)
  known ho := Nat.lt_of_lt_of_le (h.known ho) hnext
  hidden := h.hidden
  empty hp := by
    rw [hfile (c.isOpen_iff.mpr (by grind))]
    exact h.empty hp
  mode hp := by
    rw [hfile (c.isOpen_iff.mpr (by grind))]
    exact h.mode hp
  whole hp := by
    rw [hfile (c.isOpen_iff.mpr (by grind))]
    exact h.whole hp
  synced hp := by
    rw [hstable (c.isOpen_iff.mpr (by grind))]
    exact h.synced hp

/-- A call that has nothing open needs its directory at most. -/
theorem Sound.closed {s : FileSystem} (ho : c.isOpen = false)
    (hdir : c.phase = .createTemp ∨ c.phase = .syncDir → s.present c.dir = true) : Sound s c where
  dir hp := hdir (hp.resolve_left (by simp [ho]))
  entry hp := absurd hp (by simp [ho])
  known hp := absurd hp (by simp [ho])
  hidden hp := absurd hp (by simp [ho])
  empty hp := absurd (c.isOpen_iff.mpr (by grind)) (by simp [ho])
  mode hp := absurd (c.isOpen_iff.mpr (by grind)) (by simp [ho])
  whole hp := absurd (c.isOpen_iff.mpr (by grind)) (by simp [ho])
  synced hp := absurd (c.isOpen_iff.mpr (by grind)) (by simp [ho])

/-- One call takes a step and the others keep their files. -/
theorem Inv.replace (h : Inv base s st) (hi : s.calls[i]? = some c)
    (hagrees : Agrees Plain base (Owned (s.calls.set i c')) t u) (hsound : Sound t c')
    (hothers : ∀ (j : ℕ) (d : Call), j ≠ i → s.calls[j]? = some d → Sound t d)
    (hinode : c'.isOpen → c.isOpen ∧ c'.inode = c.inode ∨ c'.inode = s.fs.next)
    (hbase : c'.base = c.base) :
    Inv base ⟨t,s.calls.set i c'⟩ u := by
  have hlt : i < s.calls.length := (List.getElem?_eq_some_iff.mp hi).1
  have hget : ∀ (j : ℕ) (d : Call), (s.calls.set i c')[j]? = some d →
      (j = i ∧ d = c') ∨ (j ≠ i ∧ s.calls[j]? = some d) := by
    intro j d hd
    by_cases hj : j = i
    · subst hj
      rw [List.getElem?_set_self hlt] at hd
      exact .inl ⟨rfl,(Option.some.inj hd).symm⟩
    · rw [List.getElem?_set_ne (Ne.symm hj)] at hd
      exact .inr ⟨hj,hd⟩
  have hold : ∀ (j : ℕ) (d : Call), s.calls[j]? = some d → d.isOpen → d.inode < s.fs.next :=
    fun j d hd ho => (h.sound d (List.mem_of_getElem? hd)).known ho
  have hone : ∀ (j : ℕ) (d : Call), j ≠ i → s.calls[j]? = some d → c'.isOpen → d.isOpen →
      d.inode ≠ c'.inode := by
    intro j d hj hd ho hod he
    rcases hinode ho with ⟨hoc,hic⟩ | hnew
    · exact hj (h.apart j i d c hd hi hod hoc (he.trans hic))
    · have := hold j d hd hod
      omega
  exact {
    agrees := hagrees
    plain := by
      intro d hd
      obtain ⟨j,hj⟩ := List.getElem?_of_mem hd
      rcases hget j d hj with ⟨_,rfl⟩ | ⟨_,hd⟩
      · rw [hbase]
        exact h.plain c (List.mem_of_getElem? hi)
      · exact h.plain d (List.mem_of_getElem? hd)
    sound := by
      intro d hd
      obtain ⟨j,hj⟩ := List.getElem?_of_mem hd
      rcases hget j d hj with ⟨_,rfl⟩ | ⟨hj,hd⟩
      · exact hsound
      · exact hothers j d hj hd
    apart := by
      intro j k d e hd he hod hoe heq
      rcases hget j d hd with ⟨hj,hd'⟩ | ⟨hj,hd'⟩ <;> rcases hget k e he with ⟨hk,he'⟩ | ⟨hk,he'⟩
      · exact hj.trans hk.symm
      · subst hd'
        exact absurd heq.symm (hone k e hk he' hod hoe)
      · subst he'
        exact absurd heq (hone j d hj hd' hoe hod)
      · exact h.apart j k d e hd' he' hod hoe heq }

/-- After a step of one call the others own what they owned. -/
theorem owned_set {calls : List Call} {k : ℕ} (ho : Owned (calls.set i c') k) :
    (c'.isOpen ∧ c'.inode = k) ∨ ∃ (j : ℕ) (d : Call),
      j ≠ i ∧ calls[j]? = some d ∧ d.isOpen ∧ d.inode = k := by
  obtain ⟨d,hd,hod,hk⟩ := ho
  obtain ⟨j,hj⟩ := List.getElem?_of_mem hd
  by_cases hji : j = i
  · subst hji
    rw [List.getElem?_set] at hj
    by_cases hlt : j < calls.length
    · simp only [hlt,if_true,Option.some.injEq] at hj
      subst hj
      exact .inl ⟨hod,hk⟩
    · simp [hlt] at hj
  · rw [List.getElem?_set_ne (Ne.symm hji)] at hj
    exact .inr ⟨j,d,hji,hj,hod,hk⟩

theorem owned_mono {k : ℕ} (hi : s.calls[i]? = some c)
    (hinode : c'.isOpen → c.isOpen ∧ c'.inode = c.inode) (ho : Owned (s.calls.set i c') k) :
    Owned s.calls k := by
  rcases owned_set ho with ⟨ho,hk⟩ | ⟨j,d,_,hd,hod,hk⟩
  · exact ⟨c,List.mem_of_getElem? hi,(hinode ho).1,(hinode ho).2.symm.trans hk⟩
  · exact ⟨d,List.mem_of_getElem? hd,hod,hk⟩

/-- A step that touches no file. -/
theorem Inv.quiet (h : Inv base s st) (hi : s.calls[i]? = some c)
    (hsound : Sound s.fs c → Sound s.fs c')
    (hinode : c'.isOpen → c.isOpen ∧ c'.inode = c.inode) (hbase : c'.base = c.base) :
    Inv base ⟨s.fs,s.calls.set i c'⟩ st := by
  apply h.replace hi
  · exact h.agrees.owns fun k _ hk => owned_mono hi hinode hk
  · exact hsound (h.sound c (List.mem_of_getElem? hi))
  · exact fun j d _ hd => h.sound d (List.mem_of_getElem? hd)
  · exact fun ho => .inl (hinode ho)
  · exact hbase

/-- A step that changes the contents of the call's own file. -/
theorem Inv.contents (h : Inv base s st) (hi : s.calls[i]? = some c) (ho : c.isOpen)
    (f : File) (b : Bool)
    (hsound : Sound { s.fs with
      file := Function.update s.fs.file c.inode f
      stable := Function.update s.fs.stable c.inode b } c')
    (hinode : c'.inode = c.inode) (hbase : c'.base = c.base) :
    Inv base ⟨{ s.fs with
      file := Function.update s.fs.file c.inode f
      stable := Function.update s.fs.stable c.inode b },s.calls.set i c'⟩ st := by
  have hmem := List.mem_of_getElem? hi
  apply h.replace hi
  · apply (h.agrees.contents c.inode ⟨c,hmem,ho,rfl⟩ f b).owns
    exact fun k _ hk => owned_mono hi (fun _ => ⟨ho,hinode⟩) hk
  · exact hsound
  · intro j d hj hd
    have hne : d.isOpen → d.inode ≠ c.inode := fun hod he => hj (h.apart j i d c hd hi hod ho he)
    apply (h.sound d (List.mem_of_getElem? hd)).frame
    · exact id
    · exact fun _ => rfl
    · exact Nat.le_refl _
    · exact fun hod => Function.update_of_ne (hne hod) _ _
    · exact fun hod => Function.update_of_ne (hne hod) _ _
  · exact fun _ => .inl ⟨ho,hinode⟩
  · exact hbase

/-- A step that changes one entry or two of the call's directory keeps the entries
of the others. -/
theorem Sound.relist {s : FileSystem} {d : Call} {e : Dir} {l : Listing String} (h : Sound s d)
    (hl : d.dir = e → d.isOpen → l d.temp = s.listing e d.temp) : Sound (s.relist e l) d := by
  apply h.frame (t := s.relist e l) id _ (Nat.le_refl _) (fun _ => rfl) (fun _ => rfl)
  intro ho
  by_cases he : d.dir = e
  · subst he
    simpa [Disk.relist] using hl rfl ho
  · simp [Disk.relist,Function.update_of_ne he]

/-- Two open calls of one directory have different temporary names. -/
theorem Inv.temp_ne (h : Inv base s st) (hi : s.calls[i]? = some c) (ho : c.isOpen) {j : ℕ}
    {d : Call} (hj : j ≠ i) (hd : s.calls[j]? = some d) (hod : d.isOpen) (hdir : d.dir = c.dir) :
    d.temp ≠ c.temp := by
  intro he
  have hc := (h.sound c (List.mem_of_getElem? hi)).entry ho
  have hd' := (h.sound d (List.mem_of_getElem? hd)).entry hod
  rw [hdir,he] at hd'
  exact hj (h.apart j i d c hd hi hod ho (Option.some.inj (hd'.symm.trans hc)))

end Invariant

section Steps

variable {base : Dir → String → Option File} {s : System} {st : Store Dir String File}
  {c : Call} {i : ℕ}

theorem Inv.mkdirAll (h : Inv base s st) (hi : s.calls[i]? = some c) :
    Inv base ⟨s.fs.mkdir c.dir,s.calls.set i { c with phase := .createTemp }⟩ st := by
  have hthere : (s.fs.mkdir c.dir).present c.dir = true := by
    unfold Disk.mkdir
    split_ifs with ht <;> simp [ht]
  apply h.replace hi
  · apply (h.agrees.mkdir c.dir).owns
    exact fun k _ hk => owned_mono hi (fun ho => absurd ho (by simp [Call.isOpen])) hk
  · exact Sound.closed rfl fun _ => hthere
  · intro j d _ hd
    have hs := h.sound d (List.mem_of_getElem? hd)
    unfold Disk.mkdir
    split_ifs with ht
    · exact hs
    · apply hs.frame
      · intro hd
        by_cases he : d.dir = c.dir <;> simp [he,hd]
      · exact fun _ => rfl
      · exact Nat.le_refl _
      · exact fun _ => rfl
      · exact fun _ => rfl
  · exact fun ho => absurd ho (by simp [Call.isOpen])
  · rfl

theorem Inv.createTemp (h : Inv base s st) (hi : s.calls[i]? = some c) (suffix : String)
    (hthere : s.fs.present c.dir = true)
    (hfree : s.fs.listing c.dir (tempName c.base suffix) = none) :
    Inv base ⟨s.fs.create c.dir (tempName c.base suffix) ⟨[],0o600⟩,
      s.calls.set i { c with
        phase := .chmod, temp := tempName c.base suffix, inode := s.fs.next }⟩ st := by
  have htemp : Temporary (tempName c.base suffix) := ⟨c.base,suffix,rfl⟩
  have hlt : i < s.calls.length := (List.getElem?_eq_some_iff.mp hi).1
  apply h.replace hi
  · apply h.agrees.create c.dir _ _ hthere (fun hv => hv htemp)
    · intro k hk ho
      rcases owned_set ho with ⟨_,hk'⟩ | ⟨j,d,_,hd,hod,hk'⟩
      · exact absurd hk' (by simp; omega)
      · exact ⟨d,List.mem_of_getElem? hd,hod,hk'⟩
    · exact ⟨_,List.mem_set hlt _,rfl,rfl⟩
  · exact {
      dir := fun _ => hthere
      entry := fun _ => by simp [Disk.create,Disk.relist]
      known := fun _ => Nat.lt_succ_self _
      hidden := fun _ => htemp
      empty := fun _ => by simp [Disk.create]
      mode := fun hp => by simp at hp
      whole := fun hp => by simp at hp
      synced := fun hp => by simp at hp }
  · intro j d _ hd
    have hs := h.sound d (List.mem_of_getElem? hd)
    have hne : d.isOpen → d.inode ≠ s.fs.next := fun ho => Nat.ne_of_lt (hs.known ho)
    have hlist := hs.relist (e := c.dir)
      (l := Function.update (s.fs.listing c.dir) (tempName c.base suffix) (some s.fs.next)) (by
        intro he ho
        apply Function.update_of_ne
        intro ht
        have hentry := hs.entry ho
        rw [he,ht,hfree] at hentry
        simp at hentry)
    apply hlist.frame
    · exact id
    · exact fun _ => rfl
    · exact Nat.le_succ _
    · exact fun ho => Function.update_of_ne (hne ho) _ _
    · exact fun ho => Function.update_of_ne (hne ho) _ _
  · exact fun _ => .inr rfl
  · rfl

theorem Inv.rename (h : Inv base s st) (hi : s.calls[i]? = some c) (hp : c.phase = .rename) :
    Inv base ⟨s.fs.rename c.dir c.temp c.base,s.calls.set i { c with phase := .syncDir }⟩
      (Function.update st c.dir ⟨(st c.dir).puts++[(c.base,c.file)],(st c.dir).kept⟩) := by
  have hmem := List.mem_of_getElem? hi
  have hs := h.sound c hmem
  have ho : c.isOpen := c.isOpen_iff.mpr (by simp [hp])
  have hthere := hs.dir (.inl ho)
  have hplain := h.plain c hmem
  apply h.replace hi
  · rw [← hs.whole (by simp [hp])]
    apply h.agrees.rename c.dir c.temp c.base c.inode hthere (fun hv => hv (hs.hidden ho))
      (hs.entry ho) (hs.synced (by simp [hp]))
    · exact fun k hk => owned_mono hi (fun ho => absurd ho (by simp [Call.isOpen])) hk
    · intro hown
      rcases owned_set hown with ⟨ho',_⟩ | ⟨j,d,hj,hd,hod,hk⟩
      · exact absurd ho' (by simp [Call.isOpen])
      · exact hj (h.apart j i d c hd hi hod ho hk)
  · exact Sound.closed rfl fun _ => hthere
  · intro j d hj hd
    have hsd := h.sound d (List.mem_of_getElem? hd)
    apply hsd.relist
    intro hdir hod
    have hne : d.temp ≠ c.base := fun he => hplain (he ▸ hsd.hidden hod)
    rw [Function.update_of_ne hne,Function.update_of_ne (h.temp_ne hi ho hj hd hod hdir)]
  · exact fun ho => absurd ho (by simp [Call.isOpen])
  · rfl

theorem Inv.remove (h : Inv base s st) (hi : s.calls[i]? = some c) (hp : c.phase = .remove) :
    Inv base ⟨s.fs.remove c.dir c.temp,s.calls.set i { c with phase := .returned true }⟩ st := by
  have hs := h.sound c (List.mem_of_getElem? hi)
  have ho : c.isOpen := c.isOpen_iff.mpr (by simp [hp])
  apply h.replace hi
  · apply (h.agrees.remove c.dir c.temp (hs.dir (.inl ho)) (fun hv => hv (hs.hidden ho))).owns
    exact fun k _ hk => owned_mono hi (fun ho => absurd ho (by simp [Call.isOpen])) hk
  · exact Sound.closed rfl fun hp => absurd hp (by simp)
  · intro j d hj hd
    apply (h.sound d (List.mem_of_getElem? hd)).relist
    intro hdir hod
    exact Function.update_of_ne (h.temp_ne hi ho hj hd hod hdir) _ _
  · exact fun ho => absurd ho (by simp [Call.isOpen])
  · rfl

theorem Inv.syncDir (h : Inv base s st) (hi : s.calls[i]? = some c) (hp : c.phase = .syncDir) :
    ∃ u, Runs st (if s.fs.settled c.dir then [.settle c.dir] else []) u ∧
      Inv base ⟨s.fs.syncDir c.dir,s.calls.set i { c with phase := .returned false }⟩ u := by
  have hs := h.sound c (List.mem_of_getElem? hi)
  have hown : ∀ k, Owned (s.calls.set i { c with phase := .returned false }) k → Owned s.calls k :=
    fun k hk => owned_mono hi (fun ho => absurd ho (by simp [Call.isOpen])) hk
  have hrest : ∀ u, Agrees Plain base (Owned s.calls) (s.fs.syncDir c.dir) u →
      Inv base ⟨s.fs.syncDir c.dir,s.calls.set i { c with phase := .returned false }⟩ u := by
    intro u hu
    apply h.replace hi (hu.owns fun k _ hk => hown k hk)
    · exact Sound.closed rfl fun hp => absurd hp (by simp)
    · intro j d _ hd
      exact (h.sound d (List.mem_of_getElem? hd)).frame id (fun _ => rfl) (Nat.le_refl _)
        (fun _ => rfl) (fun _ => rfl)
    · exact fun ho => absurd ho (by simp [Call.isOpen])
    · rfl
  split_ifs with hset
  · exact ⟨_,.more (.settle st c.dir) (.done _),
      hrest _ (h.agrees.settle c.dir hset (hs.dir (by simp [hp])))⟩
  · exact ⟨st,.done st,hrest st (h.agrees.syncLoose c.dir)⟩

theorem Inv.crash (h : Inv base s st) (x : Crash Dir String File) :
    ∃ u, Runs st [.crash] u ∧ Inv base ⟨s.fs.crash x,s.calls.map Call.kill⟩ u := by
  have hclosed : ∀ c ∈ s.calls.map Call.kill, c.isOpen = false ∧
      ¬(c.phase = .createTemp ∨ c.phase = .syncDir) := by
    intro c hc
    obtain ⟨d,_,rfl⟩ := List.mem_map.mp hc
    unfold Call.kill
    split <;> simp_all [Call.isOpen]
  have hnone : ∀ k, ¬Owned (s.calls.map Call.kill) k := by
    rintro k ⟨c,hc,ho,_⟩
    rw [(hclosed c hc).1] at ho
    simp at ho
  obtain ⟨u,hstep,hu⟩ := h.agrees.crash x hnone
  refine ⟨u,.more hstep (.done u),hu,?_,?_,?_⟩
  · intro c hc
    obtain ⟨d,hd,rfl⟩ := List.mem_map.mp hc
    have hbase : d.kill.base = d.base := by
      unfold Call.kill
      split <;> rfl
    rw [hbase]
    exact h.plain d hd
  · exact fun c hc => Sound.closed (hclosed c hc).1 fun hp => absurd hp (hclosed c hc).2
  · intro j k c d hc _ ho
    rw [(hclosed c (List.mem_of_getElem? hc)).1] at ho
    simp at ho

theorem Inv.call (h : Inv base s st) (dir : Dir) (name : String) (data : List UInt8) (perm : ℕ)
    (hname : Plain name) : Inv base (step s (.call dir name data perm)) st := by
  have hget : ∀ (j : ℕ) (d : Call), (s.calls++[⟨dir,name,data,perm,.mkdirAll,"",0⟩])[j]? = some d → d.isOpen →
      s.calls[j]? = some d := by
    intro j d hd ho
    by_cases hj : j < s.calls.length
    · rwa [List.getElem?_append_left hj] at hd
    · rw [List.getElem?_append_right (Nat.le_of_not_lt hj)] at hd
      have hm := List.mem_singleton.mp (List.mem_of_getElem? hd)
      rw [hm] at ho
      simp [Call.isOpen] at ho
  exact {
    agrees := h.agrees.owns fun k _ ho => by
      obtain ⟨d,hd,hod,hk⟩ := ho
      obtain ⟨j,hj⟩ := List.getElem?_of_mem hd
      exact ⟨d,List.mem_of_getElem? (hget j d hj hod),hod,hk⟩
    plain := by
      intro d hd
      rcases List.mem_append.mp hd with hd | hd
      · exact h.plain d hd
      · rw [List.mem_singleton.mp hd]
        exact hname
    sound := by
      intro d hd
      rcases List.mem_append.mp hd with hd | hd
      · exact h.sound d hd
      · rw [List.mem_singleton.mp hd]
        exact Sound.closed rfl fun hp => absurd hp (by simp)
    apart := by
      intro j k d e hd he hod hoe heq
      exact h.apart j k d e (hget j d hd hod) (hget k e he hoe) hod hoe heq }

/-- The file of an open call after a step that wrote it, synced it or did nothing. -/
theorem Sound.own {s : FileSystem} (h : Sound s c) (ho : c.isOpen) (p : Phase) (f : File) (b : Bool)
    (hempty : p = .chmod ∨ p = .write → f.data = []) (hmode : p = .write → f.perm = c.perm)
    (hwhole : p = .sync ∨ p = .close ∨ p = .rename → f = c.file)
    (hsynced : p = .close ∨ p = .rename → b = true) :
    Sound { s with
      file := Function.update s.file c.inode f
      stable := Function.update s.stable c.inode b } { c with phase := p } where
  dir _ := h.dir (.inl ho)
  entry _ := h.entry ho
  known _ := h.known ho
  hidden _ := h.hidden ho
  empty hp := by simpa using hempty hp
  mode hp := by simpa using hmode hp
  whole hp := (Function.update_self _ _ _).trans (hwhole hp)
  synced hp := by simpa using hsynced hp

theorem Inv.own (h : Inv base s st) (hi : s.calls[i]? = some c) (ho : c.isOpen) (p : Phase)
    (f : File) (b : Bool) (hempty : p = .chmod ∨ p = .write → f.data = [])
    (hmode : p = .write → f.perm = c.perm)
    (hwhole : p = .sync ∨ p = .close ∨ p = .rename → f = c.file)
    (hsynced : p = .close ∨ p = .rename → b = true) :
    Inv base ⟨{ s.fs with
      file := Function.update s.fs.file c.inode f
      stable := Function.update s.fs.stable c.inode b },
      s.calls.set i { c with phase := p }⟩ st :=
  h.contents hi ho f b
    ((h.sound c (List.mem_of_getElem? hi)).own ho p f b hempty hmode hwhole hsynced) rfl rfl

/-- A failing step of an open call leads to the removal of its file. -/
theorem Inv.fail (h : Inv base s st) (hi : s.calls[i]? = some c) (ho : c.isOpen) :
    Inv base ⟨s.fs,s.calls.set i { c with phase := .remove }⟩ st := by
  have hown := h.own hi ho .remove (s.fs.file c.inode) (s.fs.stable c.inode) (by simp) (by simp)
    (by simp) (by simp)
  simpa only [Function.update_eq_self] using hown

/-- The end of a call that has nothing open. -/
theorem Inv.finish (h : Inv base s st) (hi : s.calls[i]? = some c) (err : Bool) :
    Inv base ⟨s.fs,s.calls.set i { c with phase := .returned err }⟩ st := by
  apply h.quiet hi
  · exact fun _ => Sound.closed rfl fun hp => absurd hp (by simp)
  · exact fun ho => absurd ho (by simp [Call.isOpen])
  · rfl

/-- One step of one call, with what it is to the store. -/
theorem Inv.advance (h : Inv base s st) (hi : s.calls[i]? = some c) (a : Answer) :
    ∃ u, Runs st (c.ops a s.fs) u ∧
      Inv base ⟨(advance a c s.fs).2,s.calls.set i (advance a c s.fs).1⟩ u := by
  have hs := h.sound c (List.mem_of_getElem? hi)
  have hsame : s.calls.set i c = s.calls := by
    obtain ⟨hlt,rfl⟩ := List.getElem?_eq_some_iff.mp hi
    exact List.set_getElem_self hlt
  cases hp : c.phase with
  | mkdirAll =>
    refine ⟨st,by simpa [Call.ops,hp] using .done st,?_⟩
    cases ha : a.ok with
    | true => simpa [AtomicWrites.advance,hp,ha] using h.mkdirAll hi
    | false => simpa [AtomicWrites.advance,hp,ha] using h.finish hi true
  | createTemp =>
    refine ⟨st,by simpa [Call.ops,hp] using .done st,?_⟩
    simp only [AtomicWrites.advance,hp]
    split_ifs with hc
    · simp only [Bool.and_eq_true,Option.isNone_iff_eq_none] at hc
      exact h.createTemp hi a.suffix hc.1.2 hc.2
    · exact h.finish hi true
  | chmod =>
    refine ⟨st,by simpa [Call.ops,hp] using .done st,?_⟩
    have ho : c.isOpen := c.isOpen_iff.mpr (by simp [hp])
    simp only [AtomicWrites.advance,hp]
    split_ifs
    · exact h.own hi ho .write ⟨(s.fs.file c.inode).data,c.perm⟩ false
        (fun _ => hs.empty (by simp [hp])) (fun _ => rfl) (by simp) (by simp)
    · exact h.fail hi ho
  | write =>
    refine ⟨st,by simpa [Call.ops,hp] using .done st,?_⟩
    have ho : c.isOpen := c.isOpen_iff.mpr (by simp [hp])
    simp only [AtomicWrites.advance,hp]
    split_ifs
    · apply h.own hi ho .sync (append (s.fs.file c.inode) c.data) false (by simp) (by simp) _ (by simp)
      intro _
      simp [append,Call.file,hs.empty (by simp [hp]),hs.mode hp]
    · exact h.own hi ho .remove (append (s.fs.file c.inode) a.written) false (by simp) (by simp)
        (by simp) (by simp)
  | sync =>
    refine ⟨st,by simpa [Call.ops,hp] using .done st,?_⟩
    have ho : c.isOpen := c.isOpen_iff.mpr (by simp [hp])
    simp only [AtomicWrites.advance,hp]
    split_ifs
    · have hown := h.own hi ho .close (s.fs.file c.inode) true (by simp) (by simp)
        (fun _ => hs.whole (by simp [hp])) (fun _ => rfl)
      rwa [Function.update_eq_self] at hown
    · exact h.fail hi ho
  | close =>
    refine ⟨st,by simpa [Call.ops,hp] using .done st,?_⟩
    have ho : c.isOpen := c.isOpen_iff.mpr (by simp [hp])
    simp only [AtomicWrites.advance,hp]
    split_ifs
    · have hown := h.own hi ho .rename (s.fs.file c.inode) (s.fs.stable c.inode) (by simp) (by simp)
        (fun _ => hs.whole (by simp [hp])) (fun _ => hs.synced (by simp [hp]))
      simpa only [Function.update_eq_self] using hown
    · exact h.fail hi ho
  | rename =>
    have ho : c.isOpen := c.isOpen_iff.mpr (by simp [hp])
    simp only [AtomicWrites.advance,Call.ops,hp]
    split_ifs
    · exact ⟨_,.more (.put st c.dir c.base c.file) (.done _),h.rename hi hp⟩
    · exact ⟨st,.done st,h.fail hi ho⟩
  | syncDir =>
    simp only [AtomicWrites.advance,Call.ops,hp]
    cases ha : a.ok with
    | true => simpa using h.syncDir hi hp
    | false => exact ⟨st,by simpa using .done st,h.finish hi false⟩
  | remove =>
    refine ⟨st,by simpa [Call.ops,hp] using .done st,?_⟩
    simp only [AtomicWrites.advance,hp]
    split_ifs
    · exact h.remove hi hp
    · exact h.finish hi true
  | returned err =>
    refine ⟨st,by simpa [Call.ops,hp] using .done st,?_⟩
    simpa only [AtomicWrites.advance,hp,hsame] using h
  | killed =>
    refine ⟨st,by simpa [Call.ops,hp] using .done st,?_⟩
    simpa only [AtomicWrites.advance,hp,hsame] using h

theorem Inv.step (h : Inv base s st) {e : Event} (he : Targets [e]) :
    ∃ u, Runs st (opsOf s e) u ∧ Inv base (step s e) u := by
  cases e with
  | call dir name data perm => exact ⟨st,.done st,h.call dir name data perm he.1⟩
  | step i a =>
    cases hi : s.calls[i]? with
    | none =>
      refine ⟨st,by simpa [opsOf,hi] using .done st,?_⟩
      simpa [AtomicWrites.step,hi] using h
    | some c => simpa [opsOf,AtomicWrites.step,hi] using h.advance hi a
  | crash x => exact h.crash x

theorem Targets.cons {e : Event} {es : List Event} (h : Targets (e::es)) :
    Targets [e] ∧ Targets es := by
  cases e with
  | call => exact ⟨⟨h.1,trivial⟩,h.2⟩
  | step => exact ⟨trivial,h⟩
  | crash => exact ⟨trivial,h⟩

theorem Targets.left {es fs : List Event} (h : Targets (es++fs)) : Targets es := by
  induction es with
  | nil => trivial
  | cons e es ih =>
    cases e with
    | call => exact ⟨h.1,ih h.2⟩
    | step => exact ih h
    | crash => exact ih h

theorem Inv.run (h : Inv base s st) {es : List Event} (he : Targets es) :
    ∃ u, Runs st (ops es s) u ∧ Inv base (run es s) u := by
  induction es generalizing s st with
  | nil => exact ⟨st,.done st,h⟩
  | cons e es ih =>
    obtain ⟨t,ht,hinv⟩ := h.step he.cons.1
    obtain ⟨u,hu,hinv'⟩ := ih hinv he.cons.2
    exact ⟨u,ht.append hu,hinv'⟩

theorem inv_start {fs : FileSystem} (h : Quiet fs) :
    Inv (fun d n => fs.read d n) ⟨fs,[]⟩ emptyStore where
  agrees := h.agrees fun _ ho => by
    obtain ⟨c,hc,_⟩ := ho
    simp at hc
  plain := by simp
  sound := by simp
  apart := by simp

end Steps

section Results

/-- The call got past its rename, so that it does not return an error. -/
def Call.Published (c : Call) : Prop :=
  c.phase = .syncDir ∨ c.phase = .returned false ∨ c.phase = .killed

/-- Some call for the file with these contents, past its rename. -/
def PublishedIn (calls : List Call) (d : Dir) (n : String) (f : File) : Prop :=
  ∃ c ∈ calls, c.dir = d ∧ c.base = n ∧ c.file = f ∧ c.Published

variable {d : Dir} {n : String} {f : File}

theorem advance_target (a : Answer) (c : Call) (s : FileSystem) :
    (advance a c s).1.dir = c.dir ∧ (advance a c s).1.base = c.base ∧
      (advance a c s).1.file = c.file := by
  unfold advance
  cases c.phase <;> simp [Call.file] <;> split_ifs <;> simp

theorem advance_published {c : Call} (h : c.Published) (a : Answer) (s : FileSystem) :
    (advance a c s).1.Published := by
  rcases h with h | h | h
  · simp [advance,h,Call.Published]
  · simp [advance,h,Call.Published]
  · simp [advance,h,Call.Published]

theorem kill_target (c : Call) : c.kill.dir = c.dir ∧ c.kill.base = c.base ∧
    c.kill.file = c.file := by
  unfold Call.kill
  split <;> exact ⟨rfl,rfl,rfl⟩

theorem kill_published {c : Call} (h : c.Published) : c.kill.Published := by
  rcases h with h | h | h
  · simp [Call.kill,h,Call.Published]
  · simp [Call.kill,h,Call.Published]
  · simp [Call.kill,h,Call.Published]

theorem step_published {s : System} (h : PublishedIn s.calls d n f) (e : Event) :
    PublishedIn (step s e).calls d n f := by
  obtain ⟨c,hc,hd,hn,hf,hp⟩ := h
  cases e with
  | call => exact ⟨c,List.mem_append_left _ hc,hd,hn,hf,hp⟩
  | step i a =>
    obtain ⟨j,hj⟩ := List.getElem?_of_mem hc
    cases hi : s.calls[i]? with
    | none => simpa [step,hi] using ⟨c,hc,hd,hn,hf,hp⟩
    | some b =>
      simp only [step,hi]
      by_cases hji : j = i
      · subst hji
        obtain rfl : b = c := Option.some.inj (hi.symm.trans hj)
        have ht := advance_target a b s.fs
        refine ⟨_,List.mem_set (List.getElem?_eq_some_iff.mp hj).1 _,?_,?_,?_,
          advance_published hp a s.fs⟩
        · exact ht.1.trans hd
        · exact ht.2.1.trans hn
        · exact ht.2.2.trans hf
      · refine ⟨c,?_,hd,hn,hf,hp⟩
        apply List.mem_of_getElem? (i := j)
        rw [List.getElem?_set_ne (Ne.symm hji)]
        exact hj
  | crash x =>
    have ht := kill_target c
    exact ⟨c.kill,List.mem_map_of_mem hc,ht.1.trans hd,ht.2.1.trans hn,ht.2.2.trans hf,
      kill_published hp⟩

theorem run_published {s : System} (h : PublishedIn s.calls d n f) (es : List Event) :
    PublishedIn (run es s).calls d n f := by
  induction es generalizing s with
  | nil => exact h
  | cons e es ih => exact ih (step_published h e)

/-- A write of the store is a rename of a call with the whole of its data. -/
theorem put_published {s : System} {e : Event} (h : .put d n f ∈ opsOf s e) :
    PublishedIn (step s e).calls d n f := by
  cases e with
  | call => simp [opsOf] at h
  | crash => simp [opsOf] at h
  | step i a =>
    cases hi : s.calls[i]? with
    | none => simp [opsOf,hi] at h
    | some c =>
      simp only [opsOf,hi,Option.elim_some,Call.ops] at h
      cases hp : c.phase <;> simp only [hp,List.not_mem_nil] at h
      · split_ifs at h with ha
        · simp only [List.mem_singleton,Op.put.injEq] at h
          simp only [step,hi,advance,hp,ha,if_true]
          exact ⟨_,List.mem_set (List.getElem?_eq_some_iff.mp hi).1 _,h.1.symm,h.2.1.symm,
            h.2.2.symm,.inl rfl⟩
        · simp at h
      · split_ifs at h <;> simp at h

theorem puts_published {s : System} {es : List Event} (h : .put d n f ∈ ops es s) :
    PublishedIn (run es s).calls d n f := by
  induction es generalizing s with
  | nil => simp [ops] at h
  | cons e es ih =>
    rcases List.mem_append.mp h with h | h
    · exact run_published (put_published h) es
    · exact ih h

def Call.Over (c : Call) : Prop := c.phase = .killed ∨ ∃ err, c.phase = .returned err

theorem advance_over {c : Call} (h : c.Over) (a : Answer) (s : FileSystem) :
    (advance a c s).1 = c := by
  rcases h with h | ⟨err,h⟩
  · simp [advance,h]
  · simp [advance,h]

theorem kill_over (c : Call) : c.kill.Over := by
  unfold Call.kill Call.Over
  split
  · next err h => exact .inr ⟨err,h⟩
  · exact .inl rfl

/-- What a step makes of the call of one number. -/
theorem step_at {s : System} {i : ℕ} {c : Call} (hi : s.calls[i]? = some c) (e : Event) :
    ∃ b, (step s e).calls[i]? = some b ∧ b.dir = c.dir ∧ (c.Over → b.Over) ∧
      (.crash ∈ opsOf s e → b.Over) := by
  have hlt : i < s.calls.length := (List.getElem?_eq_some_iff.mp hi).1
  cases e with
  | call =>
    refine ⟨c,?_,rfl,id,fun h => by simp [opsOf] at h⟩
    exact (List.getElem?_append_left hlt).trans hi
  | crash x =>
    exact ⟨c.kill,by simp [step,hi],(kill_target c).1,fun _ => kill_over c,fun _ => kill_over c⟩
  | step j a =>
    have hcalm : Op.crash ∉ opsOf s (.step j a) := by
      cases hj : s.calls[j]? with
      | none => simp [opsOf,hj]
      | some b =>
        simp only [opsOf,hj,Option.elim_some,Call.ops]
        cases b.phase <;> simp
    by_cases hij : j = i
    · subst hij
      refine ⟨(advance a c s.fs).1,?_,(advance_target a c s.fs).1,?_,?_⟩
      · simp only [step,hi]
        exact List.getElem?_set_self hlt
      · intro ho
        rwa [advance_over ho]
      · exact fun h => absurd h hcalm
    · refine ⟨c,?_,rfl,id,fun h => absurd h hcalm⟩
      cases hj : s.calls[j]? with
      | none => simpa [step,hj] using hi
      | some b => simpa [step,hj,List.getElem?_set_ne hij] using hi

theorem run_at {s : System} {i : ℕ} {c : Call} (hi : s.calls[i]? = some c) (es : List Event) :
    ∃ b, (run es s).calls[i]? = some b ∧ b.dir = c.dir ∧ (c.Over → b.Over) ∧
      (.crash ∈ ops es s → b.Over) := by
  induction es generalizing s c with
  | nil => exact ⟨c,hi,rfl,id,fun h => by simp [ops] at h⟩
  | cons e es ih =>
    obtain ⟨b,hb,hdir,hover,hcrash⟩ := step_at hi e
    obtain ⟨b',hb',hdir',hover',hcrash'⟩ := ih hb
    refine ⟨b',hb',hdir'.trans hdir,fun h => hover' (hover h),fun h => ?_⟩
    rcases List.mem_append.mp h with h | h
    · exact hover' (hcrash h)
    · exact hcrash' h

variable {fs : FileSystem} {es before between after : List Event}

/-- A plain name reads what it read at the start or the whole data of a call that did
not fail, crashes or not: the calls are one run of the store of whole files. -/
theorem plain_names_read_whole_writes (hq : Quiet fs) (ht : Targets es) :
    ∃ st, Runs emptyStore (ops es ⟨fs,[]⟩) st ∧
      (∀ d n, Plain n →
        (run es ⟨fs,[]⟩).fs.read d n = replay (fun n => fs.read d n) (st d).puts n) ∧
      (∀ d n f, .put d n f ∈ ops es ⟨fs,[]⟩ → PublishedIn (run es ⟨fs,[]⟩).calls d n f) ∧
      ∀ d n, Plain n → (run es ⟨fs,[]⟩).fs.read d n = fs.read d n ∨
        ∃ f, (run es ⟨fs,[]⟩).fs.read d n = some f ∧
          PublishedIn (run es ⟨fs,[]⟩).calls d n f := by
  obtain ⟨st,hrun,hinv⟩ := (inv_start hq).run ht
  have hread : ∀ d n, Plain n →
      (run es ⟨fs,[]⟩).fs.read d n = replay (fun n => fs.read d n) (st d).puts n :=
    fun d n hn => (hinv.agrees.now d).reads n hn
  refine ⟨st,hrun,hread,fun d n f => puts_published,fun d n hn => ?_⟩
  rw [hread d n hn]
  rcases replay_apply (fun n => fs.read d n) (st d).puts n with h | ⟨f,hf,h⟩
  · exact .inl h
  · have hput := (runs_puts hrun hf).resolve_left (by simp [emptyStore])
    exact .inr ⟨f,h,puts_published hput⟩

/-- What a call renamed into a directory that is there for good is read for good once
its sync of the directory went through, or what another call renamed there later. -/
theorem synced_writes_stay {i : ℕ} {a b : Answer} {c e : Call} (hq : Quiet fs)
    (ht : Targets (before++.step i a::(between++.step i b::after)))
    (hc : (run before ⟨fs,[]⟩).calls[i]? = some c) (hp : c.phase = .rename) (ha : a.ok = true)
    (he : (run (before++.step i a::between) ⟨fs,[]⟩).calls[i]? = some e)
    (hs : e.phase = .syncDir) (hb : b.ok = true)
    (hset : (run (before++.step i a::between) ⟨fs,[]⟩).fs.settled c.dir = true) :
    ∃ f, (run (before++.step i a::(between++.step i b::after)) ⟨fs,[]⟩).fs.read c.dir c.base =
        some f ∧
      (f = c.file ∨ f ∈ written c.dir c.base
        (ops (between++.step i b::after) (run (before++[.step i a]) ⟨fs,[]⟩))) := by
  obtain ⟨st,hrun,hinv⟩ := (inv_start hq).run ht
  have hplain : Plain c.base := by
    obtain ⟨u,_,hu⟩ := (inv_start hq).run ht.left
    exact hu.plain c (List.mem_of_getElem? hc)
  have hput : opsOf (run before ⟨fs,[]⟩) (.step i a) = [.put c.dir c.base c.file] := by
    simp [opsOf,hc,Call.ops,hp,ha]
  have hat : (run (before++[.step i a]) ⟨fs,[]⟩).calls[i]? = some (advance a c
      (run before ⟨fs,[]⟩).fs).1 := by
    rw [run_append]
    simp only [run,step,hc]
    exact List.getElem?_set_self (List.getElem?_eq_some_iff.mp hc).1
  have hjoin : before++.step i a::between = (before++[.step i a])++between := by simp
  rw [hjoin,run_append] at he hset
  obtain ⟨e',he',hdir,_,hover⟩ := run_at hat between
  obtain rfl : e' = e := Option.some.inj (he'.symm.trans he)
  have hsettle : opsOf (run between (run (before++[.step i a]) ⟨fs,[]⟩)) (.step i b) =
      [.settle c.dir] := by
    have hd : e'.dir = c.dir := hdir.trans (advance_target a c _).1
    simp [opsOf,he,Call.ops,hs,hb,hd,hset]
  have hcalm : Op.crash ∉ ops between (run (before++[.step i a]) ⟨fs,[]⟩) := by
    intro hm
    rcases hover hm with h | ⟨err,h⟩
    · exact absurd (hs.symm.trans h) (by simp)
    · exact absurd (hs.symm.trans h) (by simp)
  have hops : ops (before++.step i a::(between++.step i b::after)) ⟨fs,[]⟩ =
      ops before ⟨fs,[]⟩++.put c.dir c.base c.file::
        (ops between (run (before++[.step i a]) ⟨fs,[]⟩)++.settle c.dir::
          ops after (run (between++[.step i b]) (run (before++[.step i a]) ⟨fs,[]⟩))) := by
    simp only [ops_append,ops,run_append,run] at hput hsettle ⊢
    rw [hput,hsettle]
    simp
  rw [hops] at hrun
  obtain ⟨f,hf,hlate⟩ := settled_write hrun (Nat.le_refl _) hcalm (fun n => fs.read c.dir n)
  refine ⟨f,((hinv.agrees.now c.dir).reads c.base hplain).trans hf,?_⟩
  refine hlate.imp_right fun hm => ?_
  simp only [ops_append,ops,run_append,run,written_append] at hsettle hm ⊢
  rw [hsettle]
  simpa [written] using hm

end Results

section Sample

def home : Dir := ["home","core"]

/-- A directory that is there, with nothing in it. -/
def emptyDisk : FileSystem where
  present d := d == home
  settled _ := true
  listing _ _ := none
  past _ := []
  file _ := ⟨[],0⟩
  stable _ := true
  next := 0

theorem emptyDisk_quiet : Quiet emptyDisk where
  settled _ := rfl
  past _ := rfl
  stable _ := rfl
  known d n i h := by simp [emptyDisk] at h
  absent _ _ := rfl

def fine : Answer := ⟨true,"1",[]⟩

def upToRename : List Event :=
  .call home "config.json" [123,125] 0o600::List.replicate 6 (.step 0 fine)

def lostAll : Event := .crash ⟨fun _ => false,fun _ => 1,fun _ => ⟨[],0⟩⟩

theorem config_plain : Plain "config.json" := by
  rintro ⟨base,suffix,h⟩
  have hhead := congrArg (fun t : String => t.toList.head?) h
  simp [tempName] at hhead

theorem plain_names_read_whole_writes_lost :
    ∃ st, Runs emptyStore (ops (upToRename++[.step 0 fine,lostAll]) ⟨emptyDisk,[]⟩) st ∧
      (∀ d n, Plain n → (run (upToRename++[.step 0 fine,lostAll]) ⟨emptyDisk,[]⟩).fs.read d n =
        replay (fun n => emptyDisk.read d n) (st d).puts n) ∧
      (∀ d n f, .put d n f ∈ ops (upToRename++[.step 0 fine,lostAll]) ⟨emptyDisk,[]⟩ →
        PublishedIn (run (upToRename++[.step 0 fine,lostAll]) ⟨emptyDisk,[]⟩).calls d n f) ∧
      ∀ d n, Plain n →
        (run (upToRename++[.step 0 fine,lostAll]) ⟨emptyDisk,[]⟩).fs.read d n =
          emptyDisk.read d n ∨
        ∃ f, (run (upToRename++[.step 0 fine,lostAll]) ⟨emptyDisk,[]⟩).fs.read d n = some f ∧
          PublishedIn (run (upToRename++[.step 0 fine,lostAll]) ⟨emptyDisk,[]⟩).calls d n f :=
  plain_names_read_whole_writes emptyDisk_quiet ⟨config_plain,trivial⟩

theorem synced_writes_stay_crash :
    ∃ f, (run (upToRename++.step 0 fine::([]++.step 0 fine::[lostAll])) ⟨emptyDisk,[]⟩).fs.read
        home "config.json" = some f ∧
      (f = ⟨[123,125],0o600⟩ ∨ f ∈ written home "config.json"
        (ops ([]++.step 0 fine::[lostAll]) (run (upToRename++[.step 0 fine]) ⟨emptyDisk,[]⟩))) :=
  synced_writes_stay (c := ⟨home,"config.json",[123,125],0o600,.rename,
      tempName "config.json" "1",0⟩)
    (e := ⟨home,"config.json",[123,125],0o600,.syncDir,tempName "config.json" "1",0⟩)
    emptyDisk_quiet ⟨config_plain,trivial⟩ (by rfl) rfl rfl (by rfl) rfl rfl (by rfl)

end Sample

end Whoisthat.AtomicWrites
