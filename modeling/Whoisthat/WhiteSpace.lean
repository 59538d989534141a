import Mathlib.Data.FinEnum
import Whoisthat.Separators
import Whoisthat.Utf8

/-!
# White space in byte strings

The white-space characters by their encodings. Every one of them starts with a
byte that continues no other character, so looking for the encodings at every
place finds the same characters as reading code point by code point.
-/

set_option autoImplicit false

namespace Whoisthat.WhiteSpace
open Whoisthat.Separators Whoisthat.Utf8

def whiteSpaceRunes : List Rune :=
  [0x09,0x0A,0x0B,0x0C,0x0D,0x20,0x85,0xA0,0x1680,0x2000,0x2001,0x2002,0x2003,0x2004,0x2005,
    0x2006,0x2007,0x2008,0x2009,0x200A,0x2028,0x2029,0x202F,0x205F,0x3000]

def whiteSpace : List Bytes := whiteSpaceRunes.map encodeRune

def trimSpace (s : Bytes) : Bytes := trim whiteSpace s

/-- The words between white space. -/
def words (s : Bytes) : List Bytes := fields whiteSpace s

def SpaceFree (s : Bytes) : Prop := Free whiteSpace s

instance (s : Bytes) : Decidable (SpaceFree s) :=
  inferInstanceAs (Decidable (∀ w ∈ whiteSpace, ¬w <:+: s))

/-- A byte of a white-space character. -/
def spaceByte (b : UInt8) : Bool := whiteSpace.any fun w => w.contains b

theorem spaceByte_of_separating {b : UInt8} (h : Separating whiteSpace b) :
    spaceByte b = true := by
  obtain ⟨w,hw,hb⟩ := h
  exact List.any_eq_true.mpr ⟨w,hw,List.contains_iff_mem.mpr hb⟩

theorem spaceByte_printable : ∀ b : UInt8, 0x20 < b → b < 0x80 → spaceByte b = false := by
  decide +kernel

theorem lone_lineFeed : Lone whiteSpace 0x0A := ⟨by decide,by decide,by decide⟩

theorem lone_return : Lone whiteSpace 0x0D := ⟨by decide,by decide,by decide⟩

/-- Trimming takes away nothing but bytes of white space. -/
theorem mem_trimSpace {s : Bytes} {b : UInt8} (hb : spaceByte b = false) (h : b ∈ s) :
    b ∈ trimSpace s := by
  obtain ⟨before,after,hsplit,hbefore,hafter⟩ := trim_spec whiteSpace s
  rw [hsplit,List.mem_append,List.mem_append] at h
  rcases h with (h | h) | h
  · exact absurd (spaceByte_of_separating (hbefore b h)) (by simp [hb])
  · exact h
  · exact absurd (spaceByte_of_separating (hafter b h)) (by simp [hb])

theorem trimSpace_free {s : Bytes} (h : SpaceFree s) : trimSpace s = s := trim_free h

theorem words_free {s : Bytes} (h : SpaceFree s) (hne : s ≠ []) : words s = [s] :=
  fields_free h hne

/-- The words of both sides of a line break. -/
theorem words_line (a b : Bytes) : words (a ++ 0x0A::b) = words a ++ words b :=
  fields_append lone_lineFeed a b

theorem words_return (a b : Bytes) : words (a ++ 0x0D::b) = words a ++ words b :=
  fields_append lone_return a b

theorem not_mem_of_free {s : Bytes} (h : SpaceFree s) {b : UInt8} (hb : [b] ∈ whiteSpace) :
    b ∉ s := by
  intro hin
  obtain ⟨before,after,rfl⟩ := List.append_of_mem hin
  exact h [b] hb ⟨before,after,by simp⟩

end Whoisthat.WhiteSpace
