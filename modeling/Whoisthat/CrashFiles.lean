import Mathlib.Data.List.Basic
import Mathlib.Data.List.Induction
import Mathlib.Data.Nat.Basic
import Mathlib.Logic.Function.Basic

/-!
# A file system that may lose what was not synced

Directories map names to files. What a directory listed at any moment since its
last sync may come back after a crash, a file that was not synced since its last
change may come back as anything, and a directory that was created may be gone.
The level above is a list of whole-file writes for each directory, of which a
crash keeps some beginning that reaches at least to the last sync. The rules at
the end say which operation below is which one above. Directories, names and
file contents are parameters, and so is the choice of the names that matter.
-/

set_option autoImplicit false

namespace Whoisthat.CrashFiles

variable {D N F : Type} [DecidableEq D] [DecidableEq N]

abbrev Listing (N : Type) := N → Option ℕ

structure Disk (D N F : Type) where
  present : D → Bool
  /-- The directory itself survives a crash. -/
  settled : D → Bool
  listing : D → Listing N
  /-- What the directory listed since its last sync. -/
  past : D → List (Listing N)
  file : ℕ → F
  stable : ℕ → Bool
  next : ℕ

/-- What a crash does where it has a choice. -/
structure Crash (D N F : Type) where
  keeps : D → Bool
  pick : D → ℕ
  torn : ℕ → F

namespace Disk

def candidates (s : Disk D N F) (d : D) : List (Listing N) := s.listing d::s.past d

def read (s : Disk D N F) (d : D) (n : N) : Option F := (s.listing d n).map s.file

def relist (s : Disk D N F) (d : D) (l : Listing N) : Disk D N F :=
  { s with
    listing := Function.update s.listing d l
    past := Function.update s.past d (s.candidates d) }

def mkdir (s : Disk D N F) (d : D) : Disk D N F :=
  if s.present d then s
  else { s with
    present := Function.update s.present d true
    settled := Function.update s.settled d false }

/-- A new file under a name that is free. -/
def create (s : Disk D N F) (d : D) (n : N) (f : F) : Disk D N F :=
  { s.relist d (Function.update (s.listing d) n (some s.next)) with
    file := Function.update s.file s.next f
    stable := Function.update s.stable s.next false
    next := s.next+1 }

def overwrite (s : Disk D N F) (i : ℕ) (f : F) : Disk D N F :=
  { s with
    file := Function.update s.file i f
    stable := Function.update s.stable i false }

def sync (s : Disk D N F) (i : ℕ) : Disk D N F :=
  { s with stable := Function.update s.stable i true }

def rename (s : Disk D N F) (d : D) (n m : N) : Disk D N F :=
  s.relist d (Function.update (Function.update (s.listing d) n none) m (s.listing d n))

def remove (s : Disk D N F) (d : D) (n : N) : Disk D N F :=
  s.relist d (Function.update (s.listing d) n none)

def syncDir (s : Disk D N F) (d : D) : Disk D N F :=
  { s with past := Function.update s.past d [] }

/-- The directory is there after the crash. -/
def survives (s : Disk D N F) (c : Crash D N F) (d : D) : Bool :=
  s.present d && (s.settled d || c.keeps d)

def crash (s : Disk D N F) (c : Crash D N F) : Disk D N F where
  present := s.survives c
  settled := fun _ => true
  listing d :=
    if s.survives c d then ((s.candidates d)[c.pick d]?).getD (s.listing d) else fun _ => none
  past _ := []
  file i := if s.stable i then s.file i else c.torn i
  stable _ := true
  next := s.next

end Disk

/-- The writes of whole files to one directory, oldest first. -/
structure Journal (N F : Type) where
  puts : List (N × F)
  kept : ℕ

def replay (base : N → Option F) (puts : List (N × F)) : N → Option F :=
  puts.foldl (fun v p => Function.update v p.1 (some p.2)) base

@[simp] theorem replay_nil (base : N → Option F) : replay base [] = base := rfl

theorem replay_append (base : N → Option F) (ps qs : List (N × F)) :
    replay base (ps++qs) = replay (replay base ps) qs := List.foldl_append

@[simp] theorem replay_concat (base : N → Option F) (ps : List (N × F)) (p : N × F) :
    replay base (ps++[p]) = Function.update (replay base ps) p.1 (some p.2) := by
  rw [replay_append]
  rfl

/-- A name reads what the last write to it put there. -/
theorem replay_apply (base : N → Option F) (ps : List (N × F)) (n : N) :
    replay base ps n = base n ∨ ∃ f, (n,f) ∈ ps ∧ replay base ps n = some f := by
  induction ps using List.reverseRecOn with
  | nil => exact .inl rfl
  | append_singleton ps p ih =>
    rw [replay_concat]
    by_cases hn : n = p.1
    · subst hn
      exact .inr ⟨p.2,by simp,by simp⟩
    · rw [Function.update_of_ne hn]
      rcases ih with ih | ⟨f,hf,ih⟩
      · exact .inl ih
      · exact .inr ⟨f,by simp [hf],ih⟩

inductive Op (D N F : Type) where
  | put (d : D) (n : N) (f : F)
  | settle (d : D)
  | crash

abbrev Store (D N F : Type) := D → Journal N F

def emptyStore : Store D N F := fun _ => ⟨[],0⟩

/-- A crash keeps what was settled and some of what came after, in order. -/
inductive Step : Store D N F → Op D N F → Store D N F → Prop where
  | put (st : Store D N F) (d : D) (n : N) (f : F) :
      Step st (.put d n f) (Function.update st d ⟨(st d).puts++[(n,f)],(st d).kept⟩)
  | settle (st : Store D N F) (d : D) :
      Step st (.settle d) (Function.update st d ⟨(st d).puts,(st d).puts.length⟩)
  | crash (st : Store D N F) (left : D → ℕ) (hkept : ∀ d, (st d).kept ≤ left d)
      (hleft : ∀ d, left d ≤ (st d).puts.length) :
      Step st .crash (fun d => ⟨(st d).puts.take (left d),left d⟩)

inductive Runs : Store D N F → List (Op D N F) → Store D N F → Prop where
  | done (st : Store D N F) : Runs st [] st
  | more {st u v : Store D N F} {op : Op D N F} {ops : List (Op D N F)}
      (step : Step st op u) (later : Runs u ops v) : Runs st (op::ops) v

omit [DecidableEq N] in
theorem Runs.append {st u v : Store D N F} {ops rest : List (Op D N F)}
    (h : Runs st ops u) (h' : Runs u rest v) : Runs st (ops++rest) v := by
  induction h with
  | done => exact h'
  | more step _ ih => exact .more step (ih h')

omit [DecidableEq N] in
theorem Runs.split {st v : Store D N F} {ops rest : List (Op D N F)}
    (h : Runs st (ops++rest) v) : ∃ u, Runs st ops u ∧ Runs u rest v := by
  induction ops generalizing st with
  | nil => exact ⟨st,.done st,h⟩
  | cons op ops ih =>
    cases h with
    | more step later =>
      obtain ⟨u,hu,hv⟩ := ih later
      exact ⟨u,.more step hu,hv⟩

omit [DecidableEq N] in
theorem Runs.head {st v : Store D N F} {op : Op D N F} {ops : List (Op D N F)}
    (h : Runs st (op::ops) v) : ∃ u, Step st op u ∧ Runs u ops v := by
  cases h with
  | more step later => exact ⟨_,step,later⟩

/-- The files that the operations put under a name. -/
def written (d : D) (n : N) : List (Op D N F) → List F
  | [] => []
  | .put e m f::ops => if e = d ∧ m = n then f::written d n ops else written d n ops
  | _::ops => written d n ops

theorem written_append (d : D) (n : N) (ops rest : List (Op D N F)) :
    written d n (ops++rest) = written d n ops++written d n rest := by
  induction ops with
  | nil => rfl
  | cons op ops ih =>
    cases op with
    | put e m f =>
      simp only [List.cons_append,written,ih]
      split_ifs <;> rfl
    | settle => exact ih
    | crash => exact ih

omit [DecidableEq N] in
theorem step_puts {st u : Store D N F} {op : Op D N F} (h : Step st op u) {d : D} {p : N × F}
    (hp : p ∈ (u d).puts) : p ∈ (st d).puts ∨ op = .put d p.1 p.2 := by
  cases h with
  | put e n f =>
    by_cases he : d = e
    · subst he
      simp only [Function.update_self] at hp
      rcases List.mem_append.mp hp with hp | hp
      · exact .inl hp
      · rw [List.mem_singleton.mp hp]
        exact .inr rfl
    · rw [Function.update_of_ne he] at hp
      exact .inl hp
  | settle e =>
    by_cases he : d = e
    · subst he
      exact .inl (by simpa using hp)
    · rw [Function.update_of_ne he] at hp
      exact .inl hp
  | crash left => exact .inl (List.mem_of_mem_take hp)

omit [DecidableEq N] in
/-- Nothing is in a journal but what was put there. -/
theorem runs_puts {st u : Store D N F} {ops : List (Op D N F)} (h : Runs st ops u) {d : D}
    {p : N × F} (hp : p ∈ (u d).puts) : p ∈ (st d).puts ∨ .put d p.1 p.2 ∈ ops := by
  induction h with
  | done => exact .inl hp
  | more step _ ih =>
    rcases ih hp with h | h
    · rcases step_puts step h with h | h
      · exact .inl h
      · exact .inr (List.mem_cons.mpr (.inl h.symm))
    · exact .inr (List.mem_cons_of_mem _ h)

section Durability

/-- The journal of a directory still holds a certain beginning, and behind it only
files of a certain kind were put under the name. -/
structure Since (first : List (N × F)) (n : N) (late : List F) (j : Journal N F) : Prop where
  begins : ∃ rest, j.puts = first++rest ∧ ∀ f, (n,f) ∈ rest → f ∈ late

omit [DecidableEq N] in
theorem Since.mono {first : List (N × F)} {n : N} {late more : List F} {j : Journal N F}
    (h : Since first n late j) (hm : late ⊆ more) : Since first n more j := by
  obtain ⟨rest,hp,hf⟩ := h.begins
  exact ⟨rest,hp,fun f hn => hm (hf f hn)⟩

theorem since_step {first : List (N × F)} {d : D} {n : N} {late : List F}
    {st u : Store D N F} {op : Op D N F} (h : Step st op u)
    (hs : Since first n late (st d)) (hk : op = .crash → first.length ≤ (st d).kept) :
    Since first n (late++written d n [op]) (u d) := by
  obtain ⟨rest,hp,hf⟩ := hs.begins
  cases h with
  | put e m f =>
    by_cases he : d = e
    · subst he
      simp only [Function.update_self]
      refine ⟨rest++[(m,f)],by simp [hp],fun g hg => ?_⟩
      rcases List.mem_append.mp hg with hg | hg
      · exact List.mem_append_left _ (hf g hg)
      · simp only [List.mem_singleton,Prod.mk.injEq] at hg
        simp [written,hg.1,hg.2]
    · rw [Function.update_of_ne he]
      exact hs.mono (List.subset_append_left _ _)
  | settle e =>
    by_cases he : d = e
    · subst he
      simp only [Function.update_self]
      exact ⟨rest,hp,fun f hn => List.mem_append_left _ (hf f hn)⟩
    · rw [Function.update_of_ne he]
      exact hs.mono (List.subset_append_left _ _)
  | crash left hkept hleft =>
    have hfirst : first.length ≤ left d := Nat.le_trans (hk rfl) (hkept d)
    refine ⟨rest.take (left d-first.length),?_,fun f hn => ?_⟩
    · show (st d).puts.take (left d) = first++rest.take (left d-first.length)
      rw [hp,List.take_append,List.take_of_length_le hfirst]
    · exact List.mem_append_left _ (hf f (List.mem_of_mem_take hn))

omit [DecidableEq N] in
theorem kept_step {d : D} {k : ℕ} {st u : Store D N F} {op : Op D N F} (h : Step st op u)
    (hk : k ≤ (st d).kept) (hb : (st d).kept ≤ (st d).puts.length) :
    k ≤ (u d).kept ∧ (u d).kept ≤ (u d).puts.length := by
  cases h with
  | put e m f =>
    by_cases he : d = e
    · subst he
      simp only [Function.update_self,List.length_append,List.length_singleton]
      omega
    · rw [Function.update_of_ne he]
      exact ⟨hk,hb⟩
  | settle e =>
    by_cases he : d = e
    · subst he
      simp only [Function.update_self]
      omega
    · rw [Function.update_of_ne he]
      exact ⟨hk,hb⟩
  | crash left hkept hleft =>
    have hl := hleft d
    have hk' := hkept d
    simp only [List.length_take]
    omega

omit [DecidableEq N] in
theorem kept_le {st u : Store D N F} {ops : List (Op D N F)} (h : Runs st ops u) (d : D)
    (hb : (st d).kept ≤ (st d).puts.length) : (u d).kept ≤ (u d).puts.length := by
  induction h with
  | done => exact hb
  | more step _ ih => exact ih (kept_step step (Nat.zero_le _) hb).2

/-- Without a crash what is in the journal stays there. -/
theorem since_calm {first : List (N × F)} {d : D} {n : N} {late : List F}
    {st u : Store D N F} {ops : List (Op D N F)} (h : Runs st ops u)
    (hs : Since first n late (st d)) (hc : Op.crash ∉ ops) :
    Since first n (late++written d n ops) (u d) := by
  induction h generalizing late with
  | done => simpa [written] using hs
  | more step later ih =>
    rename_i op ops
    have h1 := since_step step hs fun ho => absurd (by simp [ho]) hc
    have h2 := ih h1 fun hm => hc (List.mem_cons_of_mem _ hm)
    have hw : written d n (op::ops) = written d n [op]++written d n ops :=
      written_append d n [op] ops
    rwa [hw,← List.append_assoc]

/-- What was settled stays, whatever happens. -/
theorem since_kept {first : List (N × F)} {d : D} {n : N} {late : List F}
    {st u : Store D N F} {ops : List (Op D N F)} (h : Runs st ops u)
    (hs : Since first n late (st d)) (hk : first.length ≤ (st d).kept)
    (hb : (st d).kept ≤ (st d).puts.length) :
    Since first n (late++written d n ops) (u d) := by
  induction h generalizing late with
  | done => simpa [written] using hs
  | more step later ih =>
    rename_i op ops
    obtain ⟨hk',hb'⟩ := kept_step step hk hb
    have h2 := ih (since_step step hs fun _ => hk) hk' hb'
    have hw : written d n (op::ops) = written d n [op]++written d n ops :=
      written_append d n [op] ops
    rwa [hw,← List.append_assoc]

theorem Since.read {first : List (N × F)} {n : N} {f : F} {late : List F} {j : Journal N F}
    (h : Since (first++[(n,f)]) n late j) (base : N → Option F) :
    ∃ g, replay base j.puts n = some g ∧ (g = f ∨ g ∈ late) := by
  obtain ⟨rest,hp,hf⟩ := h.begins
  rw [hp,replay_append]
  rcases replay_apply (replay base (first++[(n,f)])) rest n with hr | ⟨g,hg,hr⟩
  · exact ⟨f,by rw [hr]; simp,.inl rfl⟩
  · exact ⟨g,hr,.inr (hf g hg)⟩

/-- A write that was settled before any crash is read for good, or a write to the
same name that came after it. -/
theorem settled_write {st v : Store D N F} {before between after : List (Op D N F)} {d : D}
    {n : N} {f : F} (h : Runs st (before++.put d n f::(between++.settle d::after)) v)
    (hb : (st d).kept ≤ (st d).puts.length) (hc : Op.crash ∉ between) (base : N → Option F) :
    ∃ g, replay base (v d).puts n = some g ∧
      (g = f ∨ g ∈ written d n (between++after)) := by
  obtain ⟨s1,h1,h⟩ := h.split
  obtain ⟨s2,step,h⟩ := h.head
  obtain ⟨s3,h3,h⟩ := h.split
  obtain ⟨s4,settle,h⟩ := h.head
  have hb1 := kept_le h1 d hb
  have hput : Since ((s1 d).puts++[(n,f)]) n [] (s2 d) := by
    cases step
    simp only [Function.update_self]
    exact ⟨[],by simp,by simp⟩
  have hb2 := (kept_step step (Nat.zero_le _) hb1).2
  have h3' := since_calm h3 hput hc
  have hb3 := kept_le h3 d hb2
  have hb4 := (kept_step settle (Nat.zero_le _) hb3).2
  have hk4 : ((s1 d).puts++[(n,f)]).length ≤ (s4 d).kept := by
    obtain ⟨rest,hp,_⟩ := h3'.begins
    cases settle
    simp [Function.update_self,hp]
  have h4 := since_step settle h3' fun ho => by simp at ho
  have h5 := since_kept h h4 hk4 hb4
  have hr := h5.read base
  simpa [written,written_append] using hr

end Durability

section Simulation

variable {visible : N → Prop}

/-- Under the names that matter a listing shows exactly these files, each of them
synced and none of them still being written. -/
structure Shows (visible : N → Prop) (owned : ℕ → Prop) (file : ℕ → F) (stable : ℕ → Bool)
    (l : Listing N) (v : N → Option F) : Prop where
  reads : ∀ n, visible n → (l n).map file = v n
  firm : ∀ n i, visible n → l n = some i → stable i = true ∧ ¬owned i

/-- The disk is what the store says, also after a crash. -/
structure Agrees (visible : N → Prop) (base : D → N → Option F) (owned : ℕ → Prop)
    (s : Disk D N F) (st : Store D N F) : Prop where
  known : ∀ d, ∀ l ∈ s.candidates d, ∀ n i, l n = some i → i < s.next
  now : ∀ d, Shows visible owned s.file s.stable (s.listing d) (replay (base d) (st d).puts)
  earlier : ∀ d, ∀ l ∈ s.past d, ∃ k, (st d).kept ≤ k ∧ k ≤ (st d).puts.length ∧
    Shows visible owned s.file s.stable l (replay (base d) ((st d).puts.take k))
  bounded : ∀ d, (st d).kept ≤ (st d).puts.length
  loose : ∀ d, s.settled d = false ∨ s.present d = false →
    (st d).kept = 0 ∧ ∀ n, visible n → base d n = none
  absent : ∀ d, s.present d = false → (st d).puts = [] ∧ s.listing d = fun _ => none

variable {base : D → N → Option F} {owned owned' : ℕ → Prop} {s : Disk D N F} {st : Store D N F}

omit [DecidableEq D] [DecidableEq N] in
theorem Shows.frame {file file' : ℕ → F} {stable stable' : ℕ → Bool} {l : Listing N}
    {v : N → Option F} (h : Shows visible owned file stable l v)
    (hf : ∀ n i, visible n → l n = some i → file' i = file i)
    (hs : ∀ n i, visible n → l n = some i → stable' i = stable i)
    (ho : ∀ n i, visible n → l n = some i → owned' i → owned i) :
    Shows visible owned' file' stable' l v := by
  refine ⟨fun n hn => ?_,fun n i hn hi => ?_⟩
  · rw [← h.reads n hn]
    cases hl : l n with
    | none => rfl
    | some i => simp [hf n i hn hl]
  · have hfirm := h.firm n i hn hi
    exact ⟨(hs n i hn hi).trans hfirm.1,fun hi' => hfirm.2 (ho n i hn hi hi')⟩

omit [DecidableEq D] [DecidableEq N] in
theorem Shows.congr {file : ℕ → F} {stable : ℕ → Bool} {l l' : Listing N} {v : N → Option F}
    (h : Shows visible owned file stable l v) (hl : ∀ n, visible n → l' n = l n) :
    Shows visible owned file stable l' v := by
  refine ⟨fun n hn => ?_,fun n i hn hi => ?_⟩
  · rw [hl n hn]
    exact h.reads n hn
  · exact h.firm n i hn ((hl n hn).symm.trans hi)

omit [DecidableEq D] in
/-- The listings of `Agrees`, the present one among them, at one go. -/
theorem Agrees.candidate (h : Agrees visible base owned s st) (d : D) {l : Listing N}
    (hl : l ∈ s.candidates d) : ∃ k, (st d).kept ≤ k ∧ k ≤ (st d).puts.length ∧
      Shows visible owned s.file s.stable l (replay (base d) ((st d).puts.take k)) := by
  rcases List.mem_cons.mp hl with rfl | hl
  · exact ⟨_,h.bounded d,Nat.le_refl _,by rw [List.take_length]; exact h.now d⟩
  · exact h.earlier d l hl

omit [DecidableEq D] in
theorem Agrees.owns (h : Agrees visible base owned s st)
    (ho : ∀ i, i < s.next → owned' i → owned i) : Agrees visible base owned' s st where
  known := h.known
  now d := (h.now d).frame (fun _ _ _ _ => rfl) (fun _ _ _ _ => rfl)
    fun n i _ hi => ho i (h.known d _ List.mem_cons_self n i hi)
  earlier d l hl := by
    obtain ⟨k,hk,hk',hshow⟩ := h.earlier d l hl
    refine ⟨k,hk,hk',hshow.frame (fun _ _ _ _ => rfl) (fun _ _ _ _ => rfl) fun n i _ hi => ?_⟩
    exact ho i (h.known d l (List.mem_cons_of_mem _ hl) n i hi)
  bounded := h.bounded
  loose := h.loose
  absent := h.absent

theorem Agrees.mkdir (h : Agrees visible base owned s st) (d : D) :
    Agrees visible base owned (s.mkdir d) st := by
  unfold Disk.mkdir
  split_ifs with hp
  · exact h
  · have habsent : s.present d = false := by simpa using hp
    have hloose := h.loose d (.inr habsent)
    exact {
      known := h.known
      now := h.now
      earlier := h.earlier
      bounded := h.bounded
      loose := by
        intro e he
        by_cases hed : e = d
        · rw [hed]
          exact hloose
        · simp only [Function.update_of_ne hed] at he
          exact h.loose e he
      absent := by
        intro e he
        by_cases hed : e = d
        · subst hed
          simp at he
        · simp only [Function.update_of_ne hed] at he
          exact h.absent e he }

omit [DecidableEq D] in
/-- A change of the contents of a file that is not shown yet. -/
theorem Agrees.contents (h : Agrees visible base owned s st) (i : ℕ) (ho : owned i) (f : F)
    (b : Bool) :
    Agrees visible base owned
      { s with file := Function.update s.file i f, stable := Function.update s.stable i b } st := by
  have hframe : ∀ l v, Shows visible owned s.file s.stable l v → Shows visible owned
      (Function.update s.file i f) (Function.update s.stable i b) l v := by
    intro l v hshow
    have hne : ∀ n j, visible n → l n = some j → j ≠ i := fun n j hn hj hji =>
      (hshow.firm n j hn hj).2 (hji ▸ ho)
    apply hshow.frame
    · exact fun n j hn hj => Function.update_of_ne (hne n j hn hj) _ _
    · exact fun n j hn hj => Function.update_of_ne (hne n j hn hj) _ _
    · exact fun _ _ _ _ => id
  exact {
    known := h.known
    now := fun d => hframe _ _ (h.now d)
    earlier := fun d l hl => by
      obtain ⟨k,hk,hk',hshow⟩ := h.earlier d l hl
      exact ⟨k,hk,hk',hframe _ _ hshow⟩
    bounded := h.bounded
    loose := h.loose
    absent := h.absent }

omit [DecidableEq D] in
theorem Agrees.overwrite (h : Agrees visible base owned s st) (i : ℕ) (ho : owned i) (f : F) :
    Agrees visible base owned (s.overwrite i f) st := h.contents i ho f false

omit [DecidableEq D] in
theorem Agrees.sync (h : Agrees visible base owned s st) (i : ℕ) (ho : owned i) :
    Agrees visible base owned (s.sync i) st := by
  have hc := h.contents i ho (s.file i) true
  rwa [Function.update_eq_self] at hc

/-- A new listing of one directory, with the old one now of the past. -/
theorem Agrees.relist (h : Agrees visible base owned s st) (d : D) (l : Listing N)
    (j : Journal N F) (hp : s.present d = true)
    (hknown : ∀ n i, l n = some i → i < s.next)
    (hnow : Shows visible owned s.file s.stable l (replay (base d) j.puts))
    (hkept : j.kept = (st d).kept) (hputs : (st d).puts <+: j.puts) :
    Agrees visible base owned (s.relist d l) (Function.update st d j) := by
  have hlen : (st d).puts.length ≤ j.puts.length := hputs.length_le
  exact {
    known := by
      intro e m hm n i hi
      by_cases hed : e = d
      · subst hed
        simp only [Disk.candidates,Disk.relist,Function.update_self,List.mem_cons] at hm
        rcases hm with rfl | hm
        · exact hknown n i hi
        · exact h.known e m (List.mem_cons.mpr hm) n i hi
      · simp only [Disk.candidates,Disk.relist,Function.update_of_ne hed] at hm
        exact h.known e m hm n i hi
    now := by
      intro e
      by_cases hed : e = d
      · subst hed
        simp only [Disk.relist,Function.update_self]
        exact hnow
      · simp only [Disk.relist,Function.update_of_ne hed]
        exact h.now e
    earlier := by
      intro e m hm
      by_cases hed : e = d
      · subst hed
        simp only [Disk.relist,Function.update_self] at hm ⊢
        obtain ⟨k,hk,hk',hshow⟩ := h.candidate e hm
        refine ⟨k,hkept ▸ hk,by omega,?_⟩
        obtain ⟨rest,hrest⟩ := hputs
        rw [← hrest,List.take_append_of_le_length hk']
        exact hshow
      · simp only [Disk.relist,Function.update_of_ne hed] at hm ⊢
        exact h.earlier e m hm
    bounded := by
      intro e
      by_cases hed : e = d
      · subst hed
        simp only [Function.update_self]
        have := h.bounded e
        omega
      · simp only [Function.update_of_ne hed]
        exact h.bounded e
    loose := by
      intro e he
      have hl := h.loose e he
      by_cases hed : e = d
      · subst hed
        simp only [Function.update_self]
        exact ⟨hkept.trans hl.1,hl.2⟩
      · simp only [Function.update_of_ne hed]
        exact hl
    absent := by
      intro e he
      by_cases hed : e = d
      · subst hed
        exact absurd (he.symm.trans hp) (by simp)
      · simp only [Disk.relist,Function.update_of_ne hed]
        exact h.absent e he }

theorem Agrees.relist_hidden (h : Agrees visible base owned s st) (d : D) (n : N) (o : Option ℕ)
    (hp : s.present d = true) (hn : ¬visible n) (ho : ∀ i, o = some i → i < s.next) :
    Agrees visible base owned (s.relist d (Function.update (s.listing d) n o)) st := by
  have hr := h.relist d (Function.update (s.listing d) n o) (st d) hp (by
      intro m i hi
      by_cases hm : m = n
      · subst hm
        exact ho i (by simpa using hi)
      · rw [Function.update_of_ne hm] at hi
        exact h.known d _ List.mem_cons_self m i hi)
    ((h.now d).congr fun m hm => Function.update_of_ne (by rintro rfl; exact hn hm) _ _)
    rfl (List.prefix_refl _)
  rwa [Function.update_eq_self] at hr

theorem Agrees.remove (h : Agrees visible base owned s st) (d : D) (n : N)
    (hp : s.present d = true) (hn : ¬visible n) : Agrees visible base owned (s.remove d n) st :=
  h.relist_hidden d n none hp hn fun i hi => by simp at hi

/-- A new file under a name that does not matter belongs to whoever made it. -/
theorem Agrees.create (h : Agrees visible base owned s st) (d : D) (n : N) (f : F)
    (hp : s.present d = true) (hn : ¬visible n)
    (ho : ∀ i, i < s.next → owned' i → owned i) (ho' : owned' s.next) :
    Agrees visible base owned' (s.create d n f) st := by
  -- the next file is nobody's yet, so that the counter may move first
  have hnext : Agrees visible base owned' { s with next := s.next+1 } st := by
    have hown := h.owns ho
    exact {
      known := fun d l hl n i hi => Nat.lt_succ_of_lt (h.known d l hl n i hi)
      now := hown.now
      earlier := hown.earlier
      bounded := h.bounded
      loose := h.loose
      absent := h.absent }
  have hlist := hnext.relist_hidden d n (some s.next) hp hn (by
    intro i hi
    cases hi
    exact Nat.lt_succ_self _)
  exact hlist.contents s.next ho' f false

/-- The rename that publishes a finished file is a write of the store. -/
theorem Agrees.rename (h : Agrees visible base owned s st) (d : D) (n m : N) (i : ℕ)
    (hp : s.present d = true) (hn : ¬visible n) (hl : s.listing d n = some i)
    (hs : s.stable i = true) (ho : ∀ j, owned' j → owned j) (ho' : ¬owned' i) :
    Agrees visible base owned' (s.rename d n m)
      (Function.update st d ⟨(st d).puts++[(m,s.file i)],(st d).kept⟩) := by
  have hown : Agrees visible base owned' s st := h.owns fun j _ hj => ho j hj
  refine hown.relist d _ _ hp ?_ ⟨fun k hk => ?_,fun k j hk hj => ?_⟩ rfl (List.prefix_append _ _)
  · intro k j hj
    by_cases hkm : k = m
    · subst hkm
      rw [Function.update_self,hl] at hj
      exact h.known d _ List.mem_cons_self n j (hl.trans hj)
    · rw [Function.update_of_ne hkm] at hj
      by_cases hkn : k = n
      · subst hkn
        simp at hj
      · rw [Function.update_of_ne hkn] at hj
        exact h.known d _ List.mem_cons_self k j hj
  · rw [replay_concat]
    by_cases hkm : k = m
    · subst hkm
      simp [hl]
    · have hkn : k ≠ n := by rintro rfl; exact hn hk
      rw [Function.update_of_ne hkm,Function.update_of_ne hkn,Function.update_of_ne hkm]
      exact (hown.now d).reads k hk
  · by_cases hkm : k = m
    · subst hkm
      rw [Function.update_self,hl] at hj
      cases hj
      exact ⟨hs,ho'⟩
    · have hkn : k ≠ n := by rintro rfl; exact hn hk
      rw [Function.update_of_ne hkm,Function.update_of_ne hkn] at hj
      exact (hown.now d).firm k j hk hj

/-- The sync of a directory that is there for good settles its writes. -/
theorem Agrees.settle (h : Agrees visible base owned s st) (d : D) (hs : s.settled d = true)
    (hp : s.present d = true) :
    Agrees visible base owned (s.syncDir d)
      (Function.update st d ⟨(st d).puts,(st d).puts.length⟩) where
  known e l hl := by
    apply h.known e l
    by_cases hed : e = d
    · subst hed
      simp only [Disk.candidates,Disk.syncDir,Function.update_self,List.mem_singleton] at hl
      exact List.mem_cons.mpr (.inl hl)
    · simpa only [Disk.candidates,Disk.syncDir,Function.update_of_ne hed] using hl
  now e := by
    by_cases hed : e = d
    · subst hed
      simp only [Function.update_self]
      exact h.now e
    · simp only [Function.update_of_ne hed]
      exact h.now e
  earlier e l hl := by
    by_cases hed : e = d
    · subst hed
      simp [Disk.syncDir] at hl
    · simp only [Disk.syncDir,Function.update_of_ne hed] at hl ⊢
      exact h.earlier e l hl
  bounded e := by
    by_cases hed : e = d
    · subst hed
      simp
    · simp only [Function.update_of_ne hed]
      exact h.bounded e
  loose e he := by
    by_cases hed : e = d
    · subst hed
      rcases he with he | he
      · exact absurd (he.symm.trans hs) (by simp)
      · exact absurd (he.symm.trans hp) (by simp)
    · simp only [Function.update_of_ne hed]
      exact h.loose e he
  absent e he := by
    by_cases hed : e = d
    · subst hed
      exact absurd (he.symm.trans hp) (by simp)
    · simp only [Function.update_of_ne hed]
      exact h.absent e he

/-- The sync of a directory that may still be lost promises nothing. -/
theorem Agrees.syncLoose (h : Agrees visible base owned s st) (d : D) :
    Agrees visible base owned (s.syncDir d) st where
  known e l hl := by
    apply h.known e l
    by_cases hed : e = d
    · subst hed
      simp only [Disk.candidates,Disk.syncDir,Function.update_self,List.mem_singleton] at hl
      exact List.mem_cons.mpr (.inl hl)
    · simpa only [Disk.candidates,Disk.syncDir,Function.update_of_ne hed] using hl
  now := h.now
  earlier e l hl := by
    by_cases hed : e = d
    · subst hed
      simp [Disk.syncDir] at hl
    · simp only [Disk.syncDir,Function.update_of_ne hed] at hl
      exact h.earlier e l hl
  bounded := h.bounded
  loose := h.loose
  absent := h.absent

omit [DecidableEq D] [DecidableEq N] in
theorem listing_crash (s : Disk D N F) (c : Crash D N F) (d : D) (hs : s.survives c d = true) :
    (s.crash c).listing d ∈ s.candidates d := by
  simp only [Disk.crash,hs,if_true]
  cases hp : (s.candidates d)[c.pick d]? with
  | none => exact List.mem_cons_self
  | some l => exact List.mem_of_getElem? hp

/-- What a crash leaves is what the store had been at some moment since it was
settled. -/
theorem Agrees.crash (h : Agrees visible base owned s st) (c : Crash D N F)
    (ho : ∀ i, ¬owned' i) :
    ∃ u, Step st .crash u ∧ Agrees visible base owned' (s.crash c) u := by
  have hleft : ∀ d, ∃ k, (st d).kept ≤ k ∧ k ≤ (st d).puts.length ∧
      Shows visible owned' (s.crash c).file (s.crash c).stable ((s.crash c).listing d)
        (replay (base d) ((st d).puts.take k)) ∧
      (s.survives c d = false → k = 0 ∧ ∀ n, visible n → base d n = none) := by
    intro d
    by_cases hs : s.survives c d = true
    · obtain ⟨k,hk,hk',hshow⟩ := h.candidate d (listing_crash s c d hs)
      refine ⟨k,hk,hk',hshow.frame (fun n i hn hi => ?_) (fun n i hn hi => ?_) ?_,?_⟩
      · simp [Disk.crash,(hshow.firm n i hn hi).1]
      · exact (hshow.firm n i hn hi).1.symm
      · exact fun _ i _ _ hi => absurd hi (ho i)
      · exact fun hf => absurd (hf.symm.trans hs) (by simp)
    · have hf : s.survives c d = false := by simpa using hs
      have hgone : s.settled d = false ∨ s.present d = false := by
        simp only [Disk.survives,Bool.and_eq_false_imp,Bool.or_eq_false_iff] at hf
        by_cases hp : s.present d = true
        · exact .inl (hf hp).1
        · exact .inr (by simpa using hp)
      have hloose := h.loose d hgone
      refine ⟨0,Nat.le_of_eq hloose.1,Nat.zero_le _,⟨fun n hn => ?_,fun n i _ hi => ?_⟩,
        fun _ => ⟨rfl,hloose.2⟩⟩
      · simp [Disk.crash,hf,hloose.2 n hn]
      · simp [Disk.crash,hf] at hi
  choose left hkept hle hshow hlost using hleft
  refine ⟨_,.crash st left hkept hle,?_⟩
  exact {
    known := by
      intro d l hl n i hi
      rcases List.mem_cons.mp hl with rfl | hl
      · by_cases hs : s.survives c d = true
        · exact h.known d _ (listing_crash s c d hs) n i hi
        · simp [Disk.crash,hs] at hi
      · simp [Disk.crash] at hl
    now := hshow
    earlier := fun d l hl => by simp [Disk.crash] at hl
    bounded := fun d => by simp [List.length_take,hle d]
    loose := by
      intro d hd
      have hs : s.survives c d = false := by simpa [Disk.crash] using hd
      exact hlost d hs
    absent := by
      intro d hd
      have hs : s.survives c d = false := hd
      exact ⟨by simp [(hlost d hs).1],by simp [Disk.crash,hs]⟩ }

/-- A disk at rest, of which a crash takes nothing. -/
structure Quiet (s : Disk D N F) : Prop where
  settled : ∀ d, s.settled d = true
  past : ∀ d, s.past d = []
  stable : ∀ i, s.stable i = true
  known : ∀ d n i, s.listing d n = some i → i < s.next
  absent : ∀ d, s.present d = false → s.listing d = fun _ => none

omit [DecidableEq D] in
theorem Quiet.agrees (h : Quiet s) (ho : ∀ i, ¬owned i) :
    Agrees visible (fun d n => s.read d n) owned s emptyStore where
  known d l hl := by
    simp only [Disk.candidates,h.past d,List.mem_singleton] at hl
    subst hl
    exact h.known d
  now d := ⟨fun n _ => rfl,fun n i _ _ => ⟨h.stable i,ho i⟩⟩
  earlier d l hl := by simp [h.past d] at hl
  bounded _ := Nat.le_refl _
  loose d hd := by
    rcases hd with hd | hd
    · exact absurd ((h.settled d).symm.trans hd) (by simp)
    · exact ⟨rfl,fun n _ => by simp [Disk.read,h.absent d hd]⟩
  absent d hd := ⟨rfl,h.absent d hd⟩

end Simulation

end Whoisthat.CrashFiles
