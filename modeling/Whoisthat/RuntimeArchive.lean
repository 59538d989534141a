import Whoisthat.Patterns
import Whoisthat.Records
import Whoisthat.StructDecoding

/-!
# The archive of a runtime

What is read of a published checksum and of the answer of a binary to `version`,
and the extraction of an archive. Names in an archive are anything; the file of an
entry lies under the target directory, whatever its name.
-/

set_option autoImplicit false

namespace Whoisthat.RuntimeArchive
open Whoisthat.Patterns
open Whoisthat.StructDecoding (foldRune foldName)

abbrev Bytes := List UInt8

section Patterns

variable {β γ : Type}

def oneOf (p : Char → Bool) : Pattern Char Char
  | [] => []
  | c::s => if p c then [(c,s)] else []

/-- One pattern behind another, which may look at what the first one read. -/
def andThen (m : Pattern Char β) (k : β → Pattern Char γ) : Pattern Char γ := fun s =>
  (m s).flatMap fun r => k r.1 r.2

def result (b : β) : Pattern Char β := fun s => [(b,s)]

def optional (m : Pattern Char (List Char)) : Pattern Char (List Char) := fun s => m s++[([],s)]

/-- A word under `(?i)`. -/
def word : List Char → Pattern Char Unit
  | [] => result ()
  | c::w => followedBy (oneOf fun x => foldRune x = foldRune c) (word w)

def exactlyMany (p : Char → Bool) : ℕ → Pattern Char (List Char)
  | 0 => result []
  | n+1 => andThen (oneOf p) fun c => andThen (exactlyMany p n) fun cs => result (c::cs)

/-- `\s` -/
def space (c : Char) : Bool := c ∈ [' ','\t','\n','\r',Char.ofNat 12]

def lowerHexDigits : List Char :=
  ['0','1','2','3','4','5','6','7','8','9','a','b','c','d','e','f']

/-- `[a-f0-9]` under `(?i)` -/
def hexDigit (c : Char) : Bool := c ∈ lowerHexDigits++['A','B','C','D','E','F']

def number : Pattern Char (List Char) := plus Char.isDigit

def pointNumber : Pattern Char (List Char) :=
  followedBy (exactly '.') (andThen number fun ds => result ('.'::ds))

/-- `(?i)Xray\s+v?([0-9]+\.[0-9]+(?:\.[0-9]+)?)` -/
def versionRegex : Pattern Char (List Char) :=
  followedBy (word "Xray".toList) (followedBy (plus space)
    (followedBy (optional (andThen (oneOf fun c => foldRune c = 'V') fun c => result [c]))
      (andThen number fun major => andThen pointNumber fun minor =>
        andThen (optional pointNumber) fun patch => result (major++minor++patch))))

/-- `(?i)SHA2-256=\s*([a-f0-9]{64})` -/
def dgstSha256Regex : Pattern Char (List Char) :=
  followedBy (word "SHA2-256=".toList) (followedBy (optional (plus space))
    (exactlyMany hexDigit 64))

end Patterns

section Texts

def lines : List Char → List (List Char)
  | [] => [[]]
  | c::s =>
    if c = '\n' then []::lines s
    else match lines s with
      | [] => [[c]]
      | l::ls => (c::l)::ls

def parseXrayVersion (output : String) : Option String :=
  ((lines output.toList).findSome? (find versionRegex)).map String.ofList

/-- `strings.TrimPrefix` of one letter. -/
def trimLetter (c : Char) : List Char → List Char
  | [] => []
  | x::s => if x = c then s else x::s

def normalizeVersion (v : String) : List Char :=
  trimLetter 'V' (trimLetter 'v' (Records.trimSpace v).toList)

def parseDgstSHA256 (content : String) : Option String :=
  (find dgstSha256Regex content.toList).map fun ds => String.ofList (ds.map Char.toLower)

/-- The comparison at the end of `verifySHA256`. -/
def sameSHA256 (actual expected : String) : Bool := foldName actual = foldName expected

/-- A checksum as `hex.EncodeToString` writes it. -/
def LowerHex (s : String) : Prop := ∀ c ∈ s.toList, c ∈ lowerHexDigits

theorem toLower_hex : ∀ c ∈ lowerHexDigits++['A','B','C','D','E','F'],
    c.toLower ∈ lowerHexDigits := by
  have h : ((lowerHexDigits++['A','B','C','D','E','F']).all fun c =>
      lowerHexDigits.contains c.toLower) = true := by decide
  intro c hc
  simpa using List.all_eq_true.mp h c hc

theorem foldRune_hex : ∀ c ∈ lowerHexDigits, ∀ d ∈ lowerHexDigits,
    foldRune c = foldRune d → c = d := by
  have h : (lowerHexDigits.all fun c => lowerHexDigits.all fun d =>
      !(foldRune c == foldRune d) || c == d) = true := by decide
  intro c hc d hd he
  have hcd := List.all_eq_true.mp (List.all_eq_true.mp h c hc) d hd
  simpa [he] using hcd

/-- Two checksums in small letters that compare equal are equal. -/
theorem sameSHA256_eq {a b : String} (ha : LowerHex a) (hb : LowerHex b)
    (h : sameSHA256 a b = true) : a = b := by
  have hlist : ∀ l m : List Char, (∀ c ∈ l, c ∈ lowerHexDigits) → (∀ c ∈ m, c ∈ lowerHexDigits) →
      l.map foldRune = m.map foldRune → l = m := by
    intro l
    induction l with
    | nil => intro m _ _ hm; simpa using hm.symm
    | cons c l ih =>
      intro m hl hm hmap
      cases m with
      | nil => simp at hmap
      | cons d m =>
        rw [List.map_cons,List.map_cons,List.cons.injEq] at hmap
        rw [foldRune_hex c (hl c List.mem_cons_self) d (hm d List.mem_cons_self) hmap.1,
          ih m (fun x hx => hl x (List.mem_cons_of_mem _ hx))
            (fun x hx => hm x (List.mem_cons_of_mem _ hx)) hmap.2]
  exact String.toList_injective (hlist _ _ ha hb (of_decide_eq_true h))

theorem find_mem {β : Type} (m : Pattern Char β) {s : List Char} {b : β} (h : find m s = some b) :
    ∃ t r, (b,r) ∈ m t := by
  induction s with
  | nil =>
    obtain ⟨r,hr,rfl⟩ := Option.map_eq_some_iff.mp h
    exact ⟨[],r.2,List.mem_of_mem_head? hr⟩
  | cons c s ih =>
    rw [find] at h
    cases hm : (m (c::s)).head? with
    | none =>
      rw [hm] at h
      exact ih h
    | some r =>
      rw [hm] at h
      cases h
      exact ⟨c::s,r.2,List.mem_of_mem_head? hm⟩

theorem exactlyMany_mem {p : Char → Bool} {n : ℕ} {s : List Char} {r : List Char × List Char}
    (h : r ∈ exactlyMany p n s) : r.1.length = n ∧ ∀ c ∈ r.1, p c = true := by
  induction n generalizing s r with
  | zero =>
    rw [List.mem_singleton.mp h]
    simp
  | succ n ih =>
    obtain ⟨first,hfirst,h⟩ := List.mem_flatMap.mp h
    obtain ⟨rest,hrest,h⟩ := List.mem_flatMap.mp h
    rw [List.mem_singleton.mp h]
    obtain ⟨hlen,hall⟩ := ih hrest
    refine ⟨by simp [hlen],fun c hc => ?_⟩
    rcases List.mem_cons.mp hc with rfl | hc
    · cases s with
      | nil => simp [oneOf] at hfirst
      | cons x s =>
        simp only [oneOf] at hfirst
        split_ifs at hfirst with hx
        · rw [List.mem_singleton.mp hfirst]
          exact hx
        · simp at hfirst
    · exact hall c hc

/-- A published checksum is read as one in small letters, of its full length. -/
theorem parseDgstSHA256_hex {content digest : String} (h : parseDgstSHA256 content = some digest) :
    digest.length = 64 ∧ LowerHex digest := by
  obtain ⟨ds,hds,rfl⟩ := Option.map_eq_some_iff.mp h
  obtain ⟨t,r,hmem⟩ := find_mem _ hds
  obtain ⟨_,_,hmem⟩ := List.mem_flatMap.mp hmem
  obtain ⟨_,_,hmem⟩ := List.mem_flatMap.mp hmem
  obtain ⟨hlen,hall⟩ := exactlyMany_mem hmem
  refine ⟨by simpa using hlen,fun c hc => ?_⟩
  rw [String.toList_ofList] at hc
  obtain ⟨d,hd,rfl⟩ := List.mem_map.mp hc
  exact toLower_hex d (by simpa [hexDigit] using hall d hd)

end Texts

section Extraction

abbrev Name := List Char

/-- What `filepath.Clean` leaves of a name. -/
structure Cleaned where
  rooted : Bool
  parts : List Name
  deriving DecidableEq

def elements : List Char → List Name
  | [] => [[]]
  | c::s =>
    if c = '/' then []::elements s
    else match elements s with
      | [] => [[c]]
      | e::es => (c::e)::es

def up : Name := ['.','.']

def cleanStep (rooted : Bool) (done : List Name) (e : Name) : List Name :=
  if e = [] ∨ e = ['.'] then done
  else if e = up then
    if (done.getLast?.any fun d => d ≠ up) then done.dropLast
    else if rooted then done else done++[e]
  else done++[e]

def clean (name : String) : Cleaned :=
  let rooted := name.toList.head? = some '/'
  ⟨rooted,(elements name.toList).foldl (cleanStep rooted) []⟩

/-- `filepath.IsLocal` of a name that is clean. -/
def isLocal (c : Cleaned) : Bool := !c.rooted && c.parts.head? ≠ some up

/-- An entry of an archive: `data` is nothing where its contents cannot be read. -/
structure Entry where
  name : String
  isDir : Bool
  data : Option Bytes

/-- The files under a directory, the newest of a name first. -/
abbrev Files := List (List Name × Bytes)

/-- One round of `unzipArchive`; `takes` tells whether the system makes the file. -/
def extractEntry (files : Files) (takes : Bool) (e : Entry) : Option Files :=
  let name := clean e.name
  if !isLocal name then some files
  else if !takes then none
  else if e.isDir then some files
  else if name.parts = [] then none
  else e.data.map fun d => (name.parts,d)::files

def unzipArchive : List (Entry × Bool) → Files → Option Files
  | [],files => some files
  | (e,takes)::es,files => (extractEntry files takes e).bind (unzipArchive es)

/-- Where the system looks for a path, from a directory on. -/
def resolve (dir : List Name) (path : List Name) : List Name :=
  path.foldl (fun d e =>
    if e = [] ∨ e = ['.'] then d else if e = up then d.dropLast else d++[e]) dir

def Ordinary (e : Name) : Prop := e ≠ [] ∧ e ≠ ['.'] ∧ e ≠ up ∧ '/' ∉ e

theorem elements_free (s : List Char) : ∀ e ∈ elements s, '/' ∉ e := by
  induction s with
  | nil => simp [elements]
  | cons c s ih =>
    simp only [elements]
    split_ifs with hc
    · intro e he
      rcases List.mem_cons.mp he with rfl | he
      · simp
      · exact ih e he
    · cases hs : elements s with
      | nil => simp [Ne.symm hc]
      | cons f fs =>
        rw [hs] at ih
        intro e he
        rcases List.mem_cons.mp he with rfl | he
        · simp [Ne.symm hc,ih f List.mem_cons_self]
        · exact ih e (List.mem_cons_of_mem _ he)

/-- A clean name goes up first, if at all, and then only down. -/
def Tidy (parts : List Name) : Prop :=
  ∃ k rest, parts = List.replicate k up++rest ∧ ∀ e ∈ rest, Ordinary e

theorem cleanStep_tidy (rooted : Bool) {done : List Name} (h : Tidy done) {e : Name}
    (he : '/' ∉ e) : Tidy (cleanStep rooted done e) := by
  obtain ⟨k,rest,rfl,hrest⟩ := h
  unfold cleanStep
  split_ifs with hdot hup hlast hroot
  · exact ⟨k,rest,rfl,hrest⟩
  · -- the element before is no way up, so that it is one of `rest`
    refine ⟨k,rest.dropLast,?_,fun e he => hrest e (List.dropLast_subset _ he)⟩
    apply List.dropLast_append_of_ne_nil
    rintro rfl
    cases k with
    | zero => simp at hlast
    | succ k => simp [List.replicate_succ'] at hlast
  · exact ⟨k,rest,rfl,hrest⟩
  · have hnil : rest = [] := by
      by_contra hne
      apply hlast
      rw [List.getLast?_append_of_ne_nil _ hne,List.getLast?_eq_some_getLast hne]
      exact decide_eq_true (hrest _ (List.getLast_mem hne)).2.2.1
    subst hnil
    refine ⟨k+1,[],?_,by simp⟩
    rw [List.append_nil,List.append_nil,List.replicate_succ',hup]
  · refine ⟨k,rest++[e],by rw [List.append_assoc],fun d hd => ?_⟩
    rcases List.mem_append.mp hd with hd | hd
    · exact hrest d hd
    · rw [List.mem_singleton.mp hd]
      exact ⟨fun h => hdot (.inl h),fun h => hdot (.inr h),hup,he⟩

theorem clean_tidy (name : String) : Tidy (clean name).parts := by
  have hfold : ∀ (es : List Name) (done : List Name), (∀ e ∈ es, '/' ∉ e) → Tidy done →
      Tidy (es.foldl (cleanStep (name.toList.head? = some '/')) done) := by
    intro es
    induction es with
    | nil => exact fun done _ h => h
    | cons e es ih =>
      intro done hes h
      apply ih _ fun d hd => hes d (List.mem_cons_of_mem _ hd)
      exact cleanStep_tidy _ h (hes e List.mem_cons_self)
  exact hfold _ [] (elements_free _) ⟨0,[],rfl,by simp⟩

theorem local_ordinary {name : String} (h : isLocal (clean name) = true) :
    ∀ e ∈ (clean name).parts, Ordinary e := by
  obtain ⟨k,rest,hp,hrest⟩ := clean_tidy name
  simp only [isLocal,Bool.and_eq_true,decide_eq_true_eq,hp] at h
  cases k with
  | zero =>
    rw [hp]
    exact hrest
  | succ k => exact absurd rfl h.2

/-- The files of an extraction lie under its directory. -/
structure Inside (path : List Name) : Prop where
  named : path ≠ []
  ordinary : ∀ e ∈ path, Ordinary e

theorem extractEntry_inside {files out : Files} {takes : Bool} {e : Entry}
    (h : ∀ f ∈ files, Inside f.1) (he : extractEntry files takes e = some out) :
    ∀ f ∈ out, Inside f.1 := by
  unfold extractEntry at he
  simp only [] at he
  split_ifs at he with hlocal htakes hdir hnil
  · cases he
    exact h
  · cases he
    exact h
  · obtain ⟨d,_,rfl⟩ := Option.map_eq_some_iff.mp he
    intro f hf
    rcases List.mem_cons.mp hf with rfl | hf
    · exact ⟨hnil,local_ordinary (by simpa using hlocal)⟩
    · exact h f hf

theorem unzipArchive_inside {es : List (Entry × Bool)} {files out : Files}
    (h : ∀ f ∈ files, Inside f.1) (he : unzipArchive es files = some out) :
    ∀ f ∈ out, Inside f.1 := by
  induction es generalizing files with
  | nil =>
    cases he
    exact h
  | cons e es ih =>
    obtain ⟨mid,hmid,hout⟩ := Option.bind_eq_some_iff.mp he
    exact ih (extractEntry_inside h hmid) hout

theorem resolve_ordinary {path : List Name} (h : ∀ e ∈ path, Ordinary e) (dir : List Name) :
    resolve dir path = dir++path := by
  induction path generalizing dir with
  | nil => simp [resolve]
  | cons e path ih =>
    have he := h e List.mem_cons_self
    have hstep : resolve dir (e::path) = resolve (dir++[e]) path := by
      show List.foldl _ (if e = [] ∨ e = ['.'] then dir else if e = up then dir.dropLast
        else dir++[e]) path = _
      rw [if_neg (by simp [he.1,he.2.1]),if_neg he.2.2.1]
      rfl
    rw [hstep,ih (fun d hd => h d (List.mem_cons_of_mem _ hd))]
    simp

/-- Entries that aim at a place outside, one of them by way of a directory. -/
def hostile : List (Entry × Bool) :=
  [(⟨"../../bin/sh",false,some [1]⟩,true),(⟨"/etc/passwd",false,some [2]⟩,true),
    (⟨"geo/../../run",false,some [3]⟩,true),(⟨"geo/./../xray",false,some [4]⟩,true)]

end Extraction

end Whoisthat.RuntimeArchive
