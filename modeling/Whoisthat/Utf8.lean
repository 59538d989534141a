import Mathlib.Data.UInt

/-!
# Reading bytes as UTF-8

A byte string as a sequence of code points, where a byte that starts no
well-formed sequence counts as one replacement character. Code points are
natural numbers.
-/

set_option autoImplicit false

namespace Whoisthat.Utf8

abbrev Bytes := List UInt8

abbrev Rune := ℕ

def runeError : Rune := 0xFFFD

def tail (b : UInt8) : Bool := 0x80 ≤ b && b ≤ 0xBF

/-- What the second byte may be after a leading byte of three. -/
def second3 (a b : UInt8) : Bool :=
  if a = 0xE0 then 0xA0 ≤ b && b ≤ 0xBF
  else if a = 0xED then 0x80 ≤ b && b ≤ 0x9F
  else tail b

def second4 (a b : UInt8) : Bool :=
  if a = 0xF0 then 0x90 ≤ b && b ≤ 0xBF
  else if a = 0xF4 then 0x80 ≤ b && b ≤ 0x8F
  else tail b

def two (a b : UInt8) : Option Rune :=
  if 0xC2 ≤ a && a ≤ 0xDF && tail b then some ((a.toNat % 32)*64 + b.toNat % 64) else none

def three (a b c : UInt8) : Option Rune :=
  if 0xE0 ≤ a && a ≤ 0xEF && second3 a b && tail c then
    some ((a.toNat % 16)*4096 + (b.toNat % 64)*64 + c.toNat % 64)
  else none

def four (a b c d : UInt8) : Option Rune :=
  if 0xF0 ≤ a && a ≤ 0xF4 && second4 a b && tail c && tail d then
    some ((a.toNat % 8)*262144 + (b.toNat % 64)*4096 + (c.toNat % 64)*64 + d.toNat % 64)
  else none

/-- The first code point of `a::t`, and how many bytes of `t` belong to it. -/
def decodeRune (a : UInt8) (t : Bytes) : Rune × ℕ :=
  if a < 0x80 then (a.toNat,0)
  else
    let first := (t[0]?).bind fun b => two a b
    let second := (t[0]?).bind fun b => (t[1]?).bind fun c => three a b c
    let third := (t[0]?).bind fun b => (t[1]?).bind fun c => (t[2]?).bind fun d => four a b c d
    match first,second,third with
    | some r,_,_ => (r,1)
    | none,some r,_ => (r,2)
    | none,none,some r => (r,3)
    | none,none,none => (runeError,0)

/-- The code points after `skip` more bytes. -/
def runesAfter : ℕ → Bytes → List Rune
  | _,[] => []
  | skip+1,_::t => runesAfter skip t
  | 0,a::t => (decodeRune a t).1 :: runesAfter (decodeRune a t).2 t

/-- The code points of a byte string. -/
def runes (s : Bytes) : List Rune := runesAfter 0 s

/-- Whether the first byte starts a code point. -/
def starts (a : UInt8) (t : Bytes) : Bool := a < 0x80 || (decodeRune a t).2 ≠ 0

def wellFormedAfter : ℕ → Bytes → Bool
  | _,[] => true
  | skip+1,_::t => wellFormedAfter skip t
  | 0,a::t => starts a t && wellFormedAfter (decodeRune a t).2 t

/-- No byte is out of place. -/
def wellFormed (s : Bytes) : Bool := wellFormedAfter 0 s

def encodeRune (r : Rune) : Bytes :=
  if r < 0x80 then [UInt8.ofNat r]
  else if r < 0x800 then [UInt8.ofNat (0xC0+r/64),UInt8.ofNat (0x80+r%64)]
  else if r < 0x10000 then
    [UInt8.ofNat (0xE0+r/4096),UInt8.ofNat (0x80+r/64%64),UInt8.ofNat (0x80+r%64)]
  else
    [UInt8.ofNat (0xF0+r/262144),UInt8.ofNat (0x80+r/4096%64),UInt8.ofNat (0x80+r/64%64),
      UInt8.ofNat (0x80+r%64)]

/-- A byte string with every code point mapped. -/
def mapRunes (f : Rune → Rune) (s : Bytes) : Bytes := (runes s).flatMap fun r => encodeRune (f r)

theorem runes_ascii {a : UInt8} (ha : a < 0x80) (s : Bytes) :
    runes (a::s) = a.toNat :: runes s := by
  have hdecode : decodeRune a s = (a.toNat,0) := if_pos ha
  rw [runes,runesAfter,hdecode]
  rfl

theorem encodeRune_ascii {r : Rune} (hr : r < 0x80) : encodeRune r = [UInt8.ofNat r] := by
  rw [encodeRune,if_pos hr]

/-- Mapping works byte by byte on a prefix of ASCII characters that stay ASCII. -/
theorem mapRunes_ascii {f : Rune → Rune} {g : UInt8 → UInt8}
    (hf : ∀ a : UInt8, a < 0x80 → f a.toNat = (g a).toNat ∧ g a < 0x80) {p : Bytes}
    (hp : ∀ a ∈ p, a < 0x80) (s : Bytes) : mapRunes f (p ++ s) = p.map g ++ mapRunes f s := by
  induction p with
  | nil => rfl
  | cons a p ih =>
    obtain ⟨hfa,hga⟩ := hf a (hp a (by simp))
    have hrest := ih fun b hb => hp b (by simp [hb])
    have hlt : (g a).toNat < 0x80 := hga
    rw [mapRunes] at hrest ⊢
    rw [List.cons_append,runes_ascii (hp a (by simp)),List.flatMap_cons,hrest,hfa,
      encodeRune_ascii hlt,UInt8.ofNat_toNat]
    rfl

end Whoisthat.Utf8
