import Mathlib.Data.FinEnum
import Mathlib.Data.List.DropRight
import Whoisthat.Occurrences
import Whoisthat.Utf8

/-!
# Routing links in a text

`ExtractLinksFromString` looks for the prefix in the lower-cased text and cuts
the links out of the original one. Lower-casing replaces invalid bytes and may
change how many bytes a character takes, so the positions of the two texts need
not agree. When exactly the links found are those of the text is proved.
`unicode.ToLower` is a parameter.
-/

set_option autoImplicit false

namespace Whoisthat.HappLinks
open Whoisthat.Occurrences Whoisthat.Utf8

section Source

/-- The bytes of an ASCII text. -/
def ascii (s : String) : Bytes := s.toList.map fun c => UInt8.ofNat c.toNat

def target : Bytes := ascii "happ://routing/"

def delimiter (c : UInt8) : Bool := c ∈ ascii " \t\r\n\"';,<>)"

/-- `strings.TrimRight(rawLink, ".,;\"'>)")` -/
def trimRight (s : Bytes) : Bytes := s.rdropWhile fun c => c ∈ ascii ".,;\"'>)"

/-- `strings.ToLower` for a given `unicode.ToLower` -/
def toLower (lowerRune : Rune → Rune) (s : Bytes) : Bytes := mapRunes lowerRune s

def rawLink (text : Bytes) (actualStart : ℕ) : Bytes :=
  trimRight ((text.drop actualStart).takeWhile fun c => !delimiter c)

/-- The loop from `startIdx`; `none` is a slice that starts behind the end of
the text. -/
def scan (lowerRune : Rune → Rune) (text lower : Bytes) (startIdx : ℕ) : Option (List Bytes) :=
  match _h : index target (lower.drop startIdx) with
  | none => some []
  | some idx =>
    let actualStart := startIdx+idx
    if text.length < actualStart then none
    else
      let link := rawLink text actualStart
      let rest := scan lowerRune text lower (actualStart+target.length)
      if target.isPrefixOf (toLower lowerRune link) then rest.map (link :: ·) else rest
termination_by lower.length-startIdx
decreasing_by
  have hle := index_le ‹_›
  have hlen : target.length = 15 := rfl
  rw [List.length_drop] at hle
  omega

def extractLinksFromString (lowerRune : Rune → Rune) (text : Bytes) : Option (List Bytes) :=
  scan lowerRune text (toLower lowerRune text) 0

end Source

section Specification

def lowerByte (b : UInt8) : UInt8 := if 0x41 ≤ b ∧ b ≤ 0x5A then b+0x20 else b

/-- What `unicode.ToLower` does on ASCII characters. -/
def LowersASCII (lowerRune : Rune → Rune) : Prop :=
  ∀ a : UInt8, a < 0x80 → lowerRune a.toNat = (lowerByte a).toNat

/-- Where the prefix is spelt in the text, in any case. -/
def starts (text : Bytes) : List ℕ := occurrences target (text.map lowerByte) 0

/-- Where the prefix is found in the lower-cased text. -/
def found (lowerRune : Rune → Rune) (text : Bytes) : List ℕ :=
  occurrences target (toLower lowerRune text) 0

/-- The links of a text, each one part of it. -/
def Extracts (lowerRune : Rune → Rune) (text : Bytes) : Prop :=
  ∃ links, extractLinksFromString lowerRune text = some links ∧
    links = (starts text).map (rawLink text) ∧ ∀ link ∈ links, link <:+: text

/-- The text read from a position passes for a link. -/
def accepted (lowerRune : Rune → Rune) (text : Bytes) (j : ℕ) : Bool :=
  target.isPrefixOf (toLower lowerRune (rawLink text j))

/-- The positions found are inside the text, none is missing, and where none
belongs the text does not pass for a link. -/
structure Aligned (lowerRune : Rune → Rune) (text : Bytes) : Prop where
  inside : ∀ j ∈ found lowerRune text, j ≤ text.length
  complete : ∀ i ∈ starts text, i ∈ found lowerRune text
  exact : ∀ j ∈ found lowerRune text, accepted lowerRune text j = true → j ∈ starts text

end Specification

section Links

variable {lowerRune : Rune → Rune} {text : Bytes}

theorem target_ne : target ≠ [] := by decide

theorem target_eq : target =
    [0x68,0x61,0x70,0x70,0x3A,0x2F,0x2F,0x72,0x6F,0x75,0x74,0x69,0x6E,0x67,0x2F] := by
  decide

theorem target_bytes : ∀ c : UInt8, lowerByte c ∈ target → delimiter c = false ∧ c < 0x80 := by
  rw [target_eq]
  decide +kernel

theorem target_last : ∀ c : UInt8, lowerByte c = 0x2F → c ∉ ascii ".,;\"'>)" := by
  decide +kernel

theorem lowerByte_ascii : ∀ c : UInt8, c < 0x80 → lowerByte c < 0x80 := by decide +kernel

theorem target_search : target = 0x68::target.tail ∧ (0x68 : UInt8) ∉ target.tail := by decide

theorem occurrences_none {lower : Bytes} {startIdx : ℕ}
    (h : index target (lower.drop startIdx) = none) :
    occurrences target (lower.drop startIdx) startIdx = [] := by
  rw [target_search.1] at h ⊢
  exact index_none _ h startIdx

theorem occurrences_next {lower : Bytes} {startIdx idx : ℕ}
    (h : index target (lower.drop startIdx) = some idx) :
    occurrences target (lower.drop startIdx) startIdx = (startIdx+idx) ::
      occurrences target (lower.drop (startIdx+idx+target.length))
        (startIdx+idx+target.length) := by
  rw [target_search.1] at h
  have hnext := (index_some target_search.2 _ h startIdx).2
  rwa [← target_search.1,List.drop_drop,← Nat.add_assoc] at hnext

/-- The loop goes through the positions found. -/
theorem scan_eq (lowerRune : Rune → Rune) (text lower : Bytes) (startIdx : ℕ) :
    scan lowerRune text lower startIdx =
      if ∀ j ∈ occurrences target (lower.drop startIdx) startIdx, j ≤ text.length then
        some (((occurrences target (lower.drop startIdx) startIdx).filter
          (accepted lowerRune text)).map (rawLink text))
      else none := by
  fun_induction scan lowerRune text lower startIdx with
  | case1 startIdx h =>
    rw [occurrences_none h]
    simp
  | case2 startIdx idx h actualStart hout =>
    rw [occurrences_next h,if_neg]
    intro hall
    exact absurd (hall (startIdx+idx) List.mem_cons_self) (Nat.not_le.mpr hout)
  | case3 startIdx idx h actualStart hin link rest hacc ih =>
    have hle : startIdx+idx ≤ text.length := Nat.not_lt.mp hin
    have hacc' : accepted lowerRune text (startIdx+idx) = true := hacc
    rw [occurrences_next h,List.filter_cons_of_pos hacc']
    simp only [List.forall_mem_cons,hle,true_and,List.map_cons]
    rw [show rest = _ from ih]
    split <;> rfl
  | case4 startIdx idx h actualStart hin link rest hacc ih =>
    have hle : startIdx+idx ≤ text.length := Nat.not_lt.mp hin
    have hacc' : ¬accepted lowerRune text (startIdx+idx) = true := hacc
    rw [occurrences_next h,List.filter_cons_of_neg hacc']
    simp only [List.forall_mem_cons,hle,true_and]
    exact ih

theorem extract_eq (lowerRune : Rune → Rune) (text : Bytes) :
    extractLinksFromString lowerRune text =
      if ∀ j ∈ found lowerRune text, j ≤ text.length then
        some (((found lowerRune text).filter (accepted lowerRune text)).map (rawLink text))
      else none :=
  scan_eq lowerRune text (toLower lowerRune text) 0

theorem mem_starts (text : Bytes) (i : ℕ) :
    i ∈ starts text ↔ target <+: (text.drop i).map lowerByte := by
  rw [starts,mem_occurrences target_ne]
  constructor
  · rintro ⟨k,rfl,hk⟩
    rwa [Nat.zero_add,List.map_drop]
  · intro h
    exact ⟨i,(Nat.zero_add i).symm,by rwa [← List.map_drop]⟩

theorem rawLink_starts (text : Bytes) (j : ℕ) : rawLink text j <+: text.drop j :=
  (List.rdropWhile_prefix _ _).trans (List.takeWhile_prefix _)

/-- A link that begins with the prefix was cut where the prefix is spelt. -/
theorem starts_of_link {j : ℕ} (h : target <+: (rawLink text j).map lowerByte) :
    j ∈ starts text :=
  (mem_starts text j).mpr (h.trans ((rawLink_starts text j).map lowerByte))

/-- Cutting keeps a prefix without delimiters that ends in no punctuation. -/
theorem link_keeps {p : Bytes} {last : UInt8} (hd : ∀ c ∈ p ++ [last], delimiter c = false)
    (hlast : last ∉ ascii ".,;\"'>)") (u : Bytes) :
    p ++ [last] <+: trimRight ((p ++ [last] ++ u).takeWhile fun c => !delimiter c) := by
  rw [List.takeWhile_append_of_pos fun c hc => by simp [hd c hc]]
  generalize u.takeWhile (fun c => !delimiter c) = v
  induction v using List.reverseRecOn with
  | nil =>
    rw [List.append_nil,trimRight,List.rdropWhile_concat_neg _ _ _ (by simpa using hlast)]
  | append_singleton v c ih =>
    rw [trimRight,← List.append_assoc]
    by_cases hc : c ∈ ascii ".,;\"'>)"
    · rw [List.rdropWhile_concat_pos _ _ _ (by simpa using hc)]
      exact ih
    · rw [List.rdropWhile_concat_neg _ _ _ (by simpa using hc),List.append_assoc]
      exact List.prefix_append _ _

/-- Where the prefix is spelt, the text passes for a link. -/
theorem accepted_of_starts (hlower : LowersASCII lowerRune) {i : ℕ} (hi : i ∈ starts text) :
    target <+: (rawLink text i).map lowerByte ∧ accepted lowerRune text i = true := by
  obtain ⟨w,hw⟩ := (mem_starts text i).mp hi
  obtain ⟨a,u,hcut,ha,-⟩ := List.map_eq_append_iff.mp hw.symm
  -- the prefix is spelt by fifteen ASCII bytes without delimiters
  have hbytes : ∀ c ∈ a, delimiter c = false ∧ c < 0x80 := fun c hc =>
    target_bytes c (ha ▸ List.mem_map_of_mem hc)
  obtain ⟨p,last,rfl⟩ : ∃ p last, a = p ++ [last] := by
    rcases List.eq_nil_or_concat' a with rfl | h
    · exact absurd ha.symm target_ne
    · exact h
  have hlast : lowerByte last = 0x2F := by
    have hend := congrArg List.getLast? ha
    rw [List.map_append,List.map_singleton,List.getLast?_concat] at hend
    exact Option.some.inj (hend.trans (by decide))
  have hkeep : p ++ [last] <+: rawLink text i := by
    rw [rawLink,hcut]
    exact link_keeps (fun c hc => (hbytes c hc).1) (target_last last hlast) u
  refine ⟨ha ▸ hkeep.map lowerByte,?_⟩
  obtain ⟨v,hv⟩ := hkeep
  rw [accepted,← hv,toLower,mapRunes_ascii (fun c hc => ⟨hlower c hc,lowerByte_ascii c hc⟩)
    (fun c hc => (hbytes c hc).2),ha]
  exact List.isPrefixOf_iff_prefix.mpr (List.prefix_append _ _)

theorem found_increasing (lowerRune : Rune → Rune) (text : Bytes) :
    ((found lowerRune text).filter (accepted lowerRune text)).Pairwise (fun i j => i < j) :=
  (occurrences_increasing _ _ _).filter _

/-- The links found are those of the text exactly when the positions agree. -/
theorem extracts_iff (hlower : LowersASCII lowerRune) (text : Bytes) :
    Extracts lowerRune text ↔ Aligned lowerRune text := by
  rw [Extracts,extract_eq]
  constructor
  · rintro ⟨links,hrun,hlinks,-⟩
    split at hrun
    · rename_i hinside
      have heq := (Option.some.inj hrun).trans hlinks
      have hexact : ∀ j ∈ found lowerRune text, accepted lowerRune text j = true →
          j ∈ starts text := by
        intro j hj hacc
        have hmem := List.mem_map_of_mem (f := rawLink text) (List.mem_filter.mpr ⟨hj,hacc⟩)
        rw [heq] at hmem
        obtain ⟨i,hi,hij⟩ := List.mem_map.mp hmem
        have hpre := (accepted_of_starts hlower hi).1
        rw [hij] at hpre
        exact starts_of_link hpre
      refine ⟨hinside,fun i hi => ?_,hexact⟩
      -- as many positions on both sides, and those found are among the others
      have hsub : (found lowerRune text).filter (accepted lowerRune text) ⊆ starts text :=
        fun j hj => hexact j (List.mem_filter.mp hj).1 (List.mem_filter.mp hj).2
      have hnd := (found_increasing lowerRune text).imp fun hab => Nat.ne_of_lt hab
      have hlen : (starts text).length ≤
          ((found lowerRune text).filter (accepted lowerRune text)).length := by
        have hlen := congrArg List.length heq
        rw [List.length_map,List.length_map] at hlen
        exact hlen.ge
      have hperm := (List.Nodup.subperm hnd hsub).perm_of_length_le hlen
      exact (List.mem_filter.mp (hperm.mem_iff.mpr hi)).1
    · cases hrun
  · intro h
    have hsame : (found lowerRune text).filter (accepted lowerRune text) = starts text := by
      refine increasing_ext (found_increasing _ _) (occurrences_increasing _ _ _) fun i => ?_
      rw [List.mem_filter]
      constructor
      · exact fun hi => h.exact i hi.1 hi.2
      · exact fun hi => ⟨h.complete i hi,(accepted_of_starts hlower hi).2⟩
    refine ⟨_,if_pos h.inside,by rw [hsame],fun link hlink => ?_⟩
    obtain ⟨j,-,rfl⟩ := List.mem_map.mp hlink
    exact (rawLink_starts text j).isInfix.trans (List.drop_suffix j text).isInfix

/-- A text of ASCII characters keeps all positions. -/
theorem ascii_aligned (hlower : LowersASCII lowerRune) (htext : ∀ c ∈ text, c < 0x80) :
    Aligned lowerRune text := by
  have hmap : toLower lowerRune text = text.map lowerByte := by
    have h := mapRunes_ascii (fun c hc => ⟨hlower c hc,lowerByte_ascii c hc⟩) htext []
    have hnil : mapRunes lowerRune [] = [] := rfl
    rwa [List.append_nil,hnil,List.append_nil] at h
  have hfound : found lowerRune text = starts text := by rw [found,hmap,starts]
  refine ⟨fun j hj => ?_,fun i hi => hfound ▸ hi,fun j hj _ => hfound ▸ hj⟩
  rw [hfound,mem_starts] at hj
  by_contra hlt
  rw [List.drop_eq_nil_of_le (Nat.le_of_not_le hlt)] at hj
  exact target_ne (List.prefix_nil.mp hj)

/-- `unicode.ToLower` on ASCII and on the dotted capital I, which it maps to an
ASCII letter. -/
def lowerDotted (r : Rune) : Rune :=
  if 0x41 ≤ r ∧ r ≤ 0x5A then r+0x20 else if r = 0x130 then 0x69 else r

theorem lowerDotted_ascii : LowersASCII lowerDotted := by
  unfold LowersASCII
  decide +kernel

theorem mixed_case_extracts :
    Extracts lowerDotted (ascii "see HAPP://Routing/add/eA==, ok") := by
  have hall : (ascii "see HAPP://Routing/add/eA==, ok").all (fun c => c < 0x80) = true := by
    decide +kernel
  exact (extracts_iff lowerDotted_ascii _).mpr (ascii_aligned lowerDotted_ascii fun c hc =>
    of_decide_eq_true (List.all_eq_true.mp hall c hc))

/-- Eight invalid bytes before a link shift its position behind the end. -/
theorem invalid_bytes_panic : ¬∀ (lowerRune : Rune → Rune), LowersASCII lowerRune →
    ∀ text, Extracts lowerRune text := by
  intro h
  obtain ⟨links,hrun,-⟩ := h lowerDotted lowerDotted_ascii
    (List.replicate 8 0xFF ++ ascii "happ://routing/")
  rw [extract_eq,if_neg (by decide +kernel)] at hrun
  cases hrun

end Links

end Whoisthat.HappLinks
