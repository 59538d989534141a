import Mathlib.Data.FinEnum
import Mathlib.Data.List.Infix
import Whoisthat.Utf8

/-!
# Percent encoding

A byte is written as a percent sign and two hexadecimal digits; in queries a
plus sign stands for a space. Reading fails at a percent sign without digits.
Which bytes must be written so is a parameter of the writer, and any others may.
-/

set_option autoImplicit false

namespace Whoisthat.Percent
open Whoisthat.Utf8 (Bytes)

section Definitions

def hexDigit (c : UInt8) : Option ℕ :=
  if 0x30 ≤ c ∧ c ≤ 0x39 then some (c.toNat-0x30)
  else if 0x61 ≤ c ∧ c ≤ 0x66 then some (c.toNat-0x57)
  else if 0x41 ≤ c ∧ c ≤ 0x46 then some (c.toNat-0x37)
  else none

def hexByte (hi lo : UInt8) : Option UInt8 :=
  (hexDigit hi).bind fun x => (hexDigit lo).map fun y => UInt8.ofNat (16*x+y)

/-- What a byte outside escapes stands for. -/
def bare (query : Bool) (c : UInt8) : UInt8 := if query && c = 0x2B then 0x20 else c

def unescape (query : Bool) : Bytes → Option Bytes
  | [] => some []
  | c::t =>
    if c = 0x25 then
      match t with
      | hi::lo::rest => (hexByte hi lo).bind fun b => (unescape query rest).map (b :: ·)
      | _ => none
    else (unescape query t).map (bare query c :: ·)

/-- A text with some of its bytes escaped, among them those that must be. -/
inductive Escaped (must : UInt8 → Bool) : Bytes → Bytes → Prop where
  | nil : Escaped must [] []
  | keep {c : UInt8} {m n : Bytes} : c ≠ 0x25 → must c = false → Escaped must m n →
      Escaped must (c::m) (c::n)
  | escape {c hi lo : UInt8} {m n : Bytes} : hexByte hi lo = some c → Escaped must m n →
      Escaped must (c::m) (0x25::hi::lo::n)

/-- What a text reads as, by its bytes and escapes. -/
inductive Reads (query : Bool) : Bytes → Bytes → Prop where
  | nil : Reads query [] []
  | keep {c : UInt8} {t w : Bytes} : c ≠ 0x25 → Reads query t w →
      Reads query (c::t) (bare query c::w)
  | escape {hi lo b : UInt8} {t w : Bytes} : hexByte hi lo = some b → Reads query t w →
      Reads query (0x25::hi::lo::t) (b::w)

end Definitions

section Reading

variable {query : Bool} {s w : Bytes}

theorem hexDigit_byte : ∀ c : UInt8, (hexDigit c).isSome = true →
    c ≠ 0x25 ∧ c ≠ 0x2B ∧ c ≠ 0x20 ∧ c < 0x80 := by
  decide +kernel

theorem hexByte_digits {hi lo b : UInt8} (h : hexByte hi lo = some b) :
    (hexDigit hi).isSome = true ∧ (hexDigit lo).isSome = true := by
  obtain ⟨x,hx,hy⟩ := Option.bind_eq_some_iff.mp h
  obtain ⟨y,hy,-⟩ := Option.map_eq_some_iff.mp hy
  exact ⟨by rw [hx]; rfl,by rw [hy]; rfl⟩

theorem hexDigit_lt : ∀ c : UInt8, (hexDigit c).getD 0 < 16 := by decide +kernel

/-- The digits of a byte. -/
theorem hexByte_value {hi lo b : UInt8} (h : hexByte hi lo = some b) :
    hexDigit hi = some (b.toNat/16) ∧ hexDigit lo = some (b.toNat%16) := by
  obtain ⟨x,hx,hlo⟩ := Option.bind_eq_some_iff.mp h
  obtain ⟨y,hy,rfl⟩ := Option.map_eq_some_iff.mp hlo
  have hxlt := hexDigit_lt hi
  have hylt := hexDigit_lt lo
  rw [hx,Option.getD_some] at hxlt
  rw [hy,Option.getD_some] at hylt
  have hnat : (UInt8.ofNat (16*x+y)).toNat = 16*x+y := by
    rw [UInt8.toNat_ofNat']
    exact Nat.mod_eq_of_lt (by omega)
  rw [hx,hy,hnat]
  exact ⟨congrArg some (by omega),congrArg some (by omega)⟩

theorem unescape_keep {c : UInt8} (hc : c ≠ 0x25) (t : Bytes) :
    unescape query (c::t) = (unescape query t).map (bare query c :: ·) := by
  rw [unescape.eq_def]
  exact if_neg hc

theorem unescape_escape {hi lo b : UInt8} (h : hexByte hi lo = some b) (t : Bytes) :
    unescape query (0x25::hi::lo::t) = (unescape query t).map (b :: ·) := by
  rw [unescape.eq_def]
  simp only [if_true,h,Option.bind_some]

theorem reads_of_unescape (h : unescape query s = some w) : Reads query s w := by
  fun_induction unescape query s generalizing w with
  | case1 =>
    cases h
    exact .nil
  | case2 hi lo rest ih =>
    obtain ⟨b,hb,hrest⟩ := Option.bind_eq_some_iff.mp h
    obtain ⟨w',hw',rfl⟩ := Option.map_eq_some_iff.mp hrest
    exact .escape hb (ih hw')
  | case3 => cases h
  | case4 c t hc ih =>
    obtain ⟨w',hw',rfl⟩ := Option.map_eq_some_iff.mp h
    exact .keep hc (ih hw')

theorem unescape_of_reads (h : Reads query s w) : unescape query s = some w := by
  induction h with
  | nil => rfl
  | keep hc _ ih => rw [unescape_keep hc,ih,Option.map_some]
  | escape hb _ ih => rw [unescape_escape hb,ih,Option.map_some]

theorem unescape_iff : unescape query s = some w ↔ Reads query s w :=
  ⟨reads_of_unescape,unescape_of_reads⟩

theorem unescape_none (h : 0x25 ∉ s) : unescape false s = some s := by
  induction s with
  | nil => rfl
  | cons c t ih =>
    rw [unescape_keep fun hc => h (hc ▸ List.mem_cons_self),
      ih fun ht => h (List.mem_cons_of_mem c ht)]
    rfl

/-- Every escape of a text is a byte of what it reads as. -/
theorem reads_escape {hi lo : UInt8} (h : Reads query s w) (hin : [0x25,hi,lo] <:+: s) :
    ∃ b ∈ w, hexByte hi lo = some b := by
  induction h with
  | nil =>
    have := hin.length_le
    simp at this
  | @keep c t w hc _ ih =>
    rcases List.infix_cons_iff.mp hin with hstarts | hin
    · exact absurd (List.cons_prefix_cons.mp hstarts).1.symm hc
    · obtain ⟨b,hb,hbyte⟩ := ih hin
      exact ⟨b,List.mem_cons_of_mem _ hb,hbyte⟩
  | @escape hi' lo' b t w hb _ ih =>
    obtain ⟨hhi,hlo⟩ := hexByte_digits hb
    rcases List.infix_cons_iff.mp hin with hstarts | hin
    · have hsame := (List.cons_prefix_cons.mp hstarts).2
      have hdigits := List.cons_prefix_cons.mp hsame
      rw [hdigits.1,(List.cons_prefix_cons.mp hdigits.2).1]
      exact ⟨b,List.mem_cons_self,hb⟩
    · rcases List.infix_cons_iff.mp hin with hstarts | hin
      · exact absurd (List.cons_prefix_cons.mp hstarts).1.symm (hexDigit_byte _ hhi).1
      · rcases List.infix_cons_iff.mp hin with hstarts | hin
        · exact absurd (List.cons_prefix_cons.mp hstarts).1.symm (hexDigit_byte _ hlo).1
        · obtain ⟨b',hb',hbyte⟩ := ih hin
          exact ⟨b',List.mem_cons_of_mem _ hb',hbyte⟩

/-- A byte of what a text reads as stands in it or is one of its escapes. -/
theorem reads_origin {b : UInt8} (h : Reads false s w) (hb : b ∈ w) :
    b ∈ s ∨ ∃ hi lo, [0x25,hi,lo] <:+: s ∧ hexByte hi lo = some b := by
  have hmore : ∀ (p t : Bytes), (b ∈ t ∨ ∃ hi lo, [0x25,hi,lo] <:+: t ∧ hexByte hi lo = some b) →
      b ∈ p ++ t ∨ ∃ hi lo, [0x25,hi,lo] <:+: p ++ t ∧ hexByte hi lo = some b := by
    rintro p t (hin | ⟨hi,lo,hin,hbyte⟩)
    · exact .inl (List.mem_append_right p hin)
    · exact .inr ⟨hi,lo,hin.trans (List.suffix_append p t).isInfix,hbyte⟩
  induction h with
  | nil => cases hb
  | @keep c t w _ _ ih =>
    rcases List.mem_cons.mp hb with rfl | hb
    · exact .inl List.mem_cons_self
    · exact hmore [c] t (ih hb)
  | @escape hi lo c t w hc _ ih =>
    rcases List.mem_cons.mp hb with rfl | hb
    · exact .inr ⟨hi,lo,⟨[],t,rfl⟩,hc⟩
    · exact hmore [0x25,hi,lo] t (ih hb)

/-- Bytes that can be no part of an escape neither help nor harm behind a text. -/
theorem unescape_behind {t : Bytes} (ht : ∀ c ∈ t, c ≠ 0x25 ∧ hexDigit c = none) :
    (unescape query (s ++ t)).isSome = (unescape query s).isSome := by
  have hafter : ∀ t : Bytes, (∀ c ∈ t, c ≠ 0x25 ∧ hexDigit c = none) →
      (unescape query t).isSome = true := fun t ht => by
    induction t with
    | nil => rfl
    | cons c t ih =>
      rw [unescape_keep (ht c List.mem_cons_self).1,Option.isSome_map]
      exact ih fun c hc => ht c (List.mem_cons_of_mem _ hc)
  fun_induction unescape query s with
  | case1 => exact hafter t ht
  | case2 hi lo rest ih =>
    cases hb : hexByte hi lo with
    | none =>
      rw [List.cons_append,List.cons_append,List.cons_append,unescape.eq_def]
      simp only [if_true,hb,Option.bind_none]
    | some b =>
      rw [List.cons_append,List.cons_append,List.cons_append,unescape_escape hb,Option.isSome_map,
        ih,Option.bind_some,Option.isSome_map]
  | case3 s hshort =>
    have hnone : unescape query (0x25::(s ++ t)) = none := by
      rw [unescape.eq_def]
      simp only [if_true]
      match s,hshort with
      | [],_ =>
        match t,ht with
        | [],_ => rfl
        | [_],_ => rfl
        | hi::lo::_,ht => simp [hexByte,(ht hi (by simp)).2]
      | [hi],_ =>
        match t,ht with
        | [],_ => rfl
        | lo::_,ht =>
          cases hx : hexDigit hi <;> simp [hexByte,hx,(ht lo (by simp)).2]
      | hi::lo::rest,hshort => exact absurd rfl (hshort hi lo rest)
    rw [List.cons_append,hnone]
  | case4 c s hc ih =>
    rw [List.cons_append,unescape_keep hc,Option.isSome_map,ih,Option.isSome_map]

end Reading

section Writing

variable {must : UInt8 → Bool} {m n : Bytes}

/-- An escaped text reads as what was written, with what follows read after it. -/
theorem unescape_escaped {query : Bool} (h : Escaped must m n) (rest : Bytes)
    (hplus : ∀ c ∈ m, bare query c = c) :
    unescape query (n ++ rest) = (unescape query rest).map (m ++ ·) := by
  induction h with
  | nil => simp
  | @keep c m n hc _ _ ih =>
    rw [List.cons_append,unescape_keep hc,ih fun c hc => hplus c (List.mem_cons_of_mem _ hc),
      hplus c List.mem_cons_self,Option.map_map]
    rfl
  | @escape c hi lo m n hb _ ih =>
    rw [List.cons_append,List.cons_append,List.cons_append,unescape_escape hb,
      ih fun c hc => hplus c (List.mem_cons_of_mem _ hc),Option.map_map]
    rfl

/-- Nothing has to be escaped where no byte asks for it. -/
theorem escaped_self (h : ∀ c ∈ m, c ≠ 0x25 ∧ must c = false) : Escaped must m m := by
  induction m with
  | nil => exact .nil
  | cons c m ih =>
    obtain ⟨hc,hmust⟩ := h c List.mem_cons_self
    exact .keep hc hmust (ih fun b hb => h b (List.mem_cons_of_mem c hb))

theorem escaped_split {a b : Bytes} (h : Escaped must (a ++ b) n) :
    ∃ n₁ n₂, n = n₁ ++ n₂ ∧ Escaped must a n₁ ∧ Escaped must b n₂ := by
  induction a generalizing n with
  | nil => exact ⟨[],n,rfl,.nil,h⟩
  | cons c a ih =>
    rw [List.cons_append] at h
    cases h with
    | keep hc hmust hrest =>
      obtain ⟨n₁,n₂,rfl,h₁,h₂⟩ := ih hrest
      exact ⟨c::n₁,n₂,rfl,.keep hc hmust h₁,h₂⟩
    | @escape _ hi lo _ n hb hrest =>
      obtain ⟨n₁,n₂,rfl,h₁,h₂⟩ := ih hrest
      exact ⟨0x25::hi::lo::n₁,n₂,rfl,.escape hb h₁,h₂⟩

theorem escaped_bytes {b : UInt8} (h : Escaped must m n) (hb : b ∈ n) :
    b ∈ m ∨ b = 0x25 ∨ (hexDigit b).isSome = true := by
  induction h with
  | nil => cases hb
  | keep _ _ _ ih =>
    rcases List.mem_cons.mp hb with rfl | hb
    · exact .inl List.mem_cons_self
    · exact (ih hb).imp_left fun hin => List.mem_cons_of_mem _ hin
  | escape hbyte _ ih =>
    obtain ⟨hhi,hlo⟩ := hexByte_digits hbyte
    simp only [List.mem_cons] at hb
    rcases hb with rfl | rfl | rfl | hb
    · exact .inr (.inl rfl)
    · exact .inr (.inr hhi)
    · exact .inr (.inr hlo)
    · exact (ih hb).imp_left fun hin => List.mem_cons_of_mem _ hin

end Writing

end Whoisthat.Percent
