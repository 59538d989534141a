import Mathlib.Data.FinEnum
import Whoisthat.Utf8

/-!
# Base64

Four variants of the encoding: two alphabets, with and without padding. A
decoder skips line breaks and ignores the bits that fill up the last digit. A
text that several variants accept means the same in each, so trying them in any
order undoes whichever was used.
-/

set_option autoImplicit false

namespace Whoisthat.Base64
open Whoisthat.Utf8 (Bytes)

section Definitions

structure Variant where
  urlSafe : Bool
  padded : Bool
  deriving DecidableEq

/-- The variants in the order they are tried. -/
def variants : List Variant := [⟨false,true⟩,⟨false,false⟩,⟨true,true⟩,⟨true,false⟩]

def digit (urlSafe : Bool) (n : ℕ) : UInt8 :=
  if n < 26 then UInt8.ofNat (n+0x41)
  else if n < 52 then UInt8.ofNat (n+0x47)
  else if n < 62 then UInt8.ofNat (n-4)
  else if n = 62 then if urlSafe then 0x2D else 0x2B
  else if urlSafe then 0x5F else 0x2F

/-- The digits both alphabets have. -/
def common (c : UInt8) : Option ℕ :=
  if 0x41 ≤ c ∧ c ≤ 0x5A then some (c.toNat-0x41)
  else if 0x61 ≤ c ∧ c ≤ 0x7A then some (c.toNat-0x47)
  else if 0x30 ≤ c ∧ c ≤ 0x39 then some (c.toNat+4)
  else none

def value (urlSafe : Bool) (c : UInt8) : Option ℕ :=
  if c = (if urlSafe then 0x2D else 0x2B) then some 62
  else if c = (if urlSafe then 0x5F else 0x2F) then some 63
  else common c

/-- The digits of either alphabet. -/
def anyValue (c : UInt8) : Option ℕ :=
  if c = 0x2D ∨ c = 0x2B then some 62 else if c = 0x5F ∨ c = 0x2F then some 63 else common c

def pad : UInt8 := 0x3D

def lineBreak (c : UInt8) : Bool := c = 0x0A || c = 0x0D

def unwrapped (text : Bytes) : Bytes := text.filter fun c => !lineBreak c

def padding (v : Variant) (n : ℕ) : Bytes := if v.padded then List.replicate n pad else []

def encode (v : Variant) : Bytes → Bytes
  | a::b::c::rest =>
    digit v.urlSafe (a.toNat/4) :: digit v.urlSafe (a.toNat%4*16+b.toNat/16) ::
      digit v.urlSafe (b.toNat%16*4+c.toNat/64) :: digit v.urlSafe (c.toNat%64) :: encode v rest
  | [a,b] =>
    digit v.urlSafe (a.toNat/4) :: digit v.urlSafe (a.toNat%4*16+b.toNat/16) ::
      digit v.urlSafe (b.toNat%16*4) :: padding v 1
  | [a] => digit v.urlSafe (a.toNat/4) :: digit v.urlSafe (a.toNat%4*16) :: padding v 2
  | [] => []

/-- The bytes of two, three and four digits. -/
def bytes2 (x y : ℕ) : Bytes := [UInt8.ofNat (x*4+y/16)]

def bytes3 (x y z : ℕ) : Bytes := bytes2 x y ++ [UInt8.ofNat (y%16*16+z/4)]

def bytes4 (x y z w : ℕ) : Bytes := bytes3 x y z ++ [UInt8.ofNat (z%4*64+w)]

section Quanta

variable (val : UInt8 → Option ℕ)

def two (a b : UInt8) : Option Bytes :=
  (val a).bind fun x => (val b).map fun y => bytes2 x y

def three (a b c : UInt8) : Option Bytes :=
  (val a).bind fun x => (val b).bind fun y => (val c).map fun z => bytes3 x y z

def four (a b c d : UInt8) : Option Bytes :=
  (val a).bind fun x => (val b).bind fun y => (val c).bind fun z => (val d).map fun w =>
    bytes4 x y z w

/-- A group that ends in padding. -/
def closing (a b c d : UInt8) : Option Bytes :=
  if d = pad then if c = pad then two val a b else three val a b c else none

def quanta (padded raw : Bool) : Bytes → Option Bytes
  | [] => some []
  | [_] => none
  | [a,b] => if raw then two val a b else none
  | [a,b,c] => if raw then three val a b c else none
  | a::b::c::d::rest =>
    match four val a b c d with
    | some bytes => (quanta padded raw rest).map (bytes ++ ·)
    | none => if padded && rest.isEmpty then closing val a b c d else none

end Quanta

def decode (v : Variant) (text : Bytes) : Option Bytes :=
  quanta (value v.urlSafe) v.padded (!v.padded) (unwrapped text)

/-- What the first variant makes of a text whose result is acceptable. -/
def firstDecoded (acceptable : Bytes → Bool) (text : Bytes) : Option Bytes :=
  variants.findSome? fun v => (decode v text).filter acceptable

end Definitions

section Digits

theorem value_digit : ∀ urlSafe : Bool, ∀ n < 64, value urlSafe (digit urlSafe n) = some n := by
  decide +kernel

theorem value_any : ∀ (urlSafe : Bool) (c : UInt8) , value urlSafe c = none ∨
    value urlSafe c = anyValue c := by
  decide +kernel

theorem value_pad : ∀ urlSafe : Bool, value urlSafe pad = none := by decide

theorem digit_char : ∀ urlSafe : Bool, ∀ n < 64, digit urlSafe n ≠ pad ∧
    lineBreak (digit urlSafe n) = false := by
  decide +kernel

theorem digit_plus : ∀ urlSafe : Bool, ∀ n < 64, digit urlSafe n = 0x2B → n = 62 := by
  decide +kernel

theorem byte_high (a b : UInt8) : UInt8.ofNat (a.toNat/4*4+(a.toNat%4*16+b.toNat/16)/16) = a := by
  have ha := a.toNat_lt
  have hb := b.toNat_lt
  rw [show a.toNat/4*4+(a.toNat%4*16+b.toNat/16)/16 = a.toNat by omega,UInt8.ofNat_toNat]

theorem byte_middle (a b c : UInt8) :
    UInt8.ofNat ((a.toNat%4*16+b.toNat/16)%16*16+(b.toNat%16*4+c.toNat/64)/4) = b := by
  have hb := b.toNat_lt
  have hc := c.toNat_lt
  rw [show (a.toNat%4*16+b.toNat/16)%16*16+(b.toNat%16*4+c.toNat/64)/4 = b.toNat by omega,
    UInt8.ofNat_toNat]

theorem byte_low (b c : UInt8) :
    UInt8.ofNat ((b.toNat%16*4+c.toNat/64)%4*64+c.toNat%64) = c := by
  have hc := c.toNat_lt
  rw [show (b.toNat%16*4+c.toNat/64)%4*64+c.toNat%64 = c.toNat by omega,UInt8.ofNat_toNat]

end Digits

section RoundTrip

variable {v : Variant}

theorem four_digits (urlSafe : Bool) (a b c : UInt8) :
    four (value urlSafe) (digit urlSafe (a.toNat/4)) (digit urlSafe (a.toNat%4*16+b.toNat/16))
      (digit urlSafe (b.toNat%16*4+c.toNat/64)) (digit urlSafe (c.toNat%64)) = some [a,b,c] := by
  have ha := a.toNat_lt
  have hb := b.toNat_lt
  have hc := c.toNat_lt
  simp only [four,value_digit urlSafe _ (show a.toNat/4 < 64 by omega),
    value_digit urlSafe _ (show a.toNat%4*16+b.toNat/16 < 64 by omega),
    value_digit urlSafe _ (show b.toNat%16*4+c.toNat/64 < 64 by omega),
    value_digit urlSafe _ (show c.toNat%64 < 64 by omega),Option.bind_some,Option.map_some,
    bytes4,bytes3,bytes2,byte_high,byte_middle,byte_low]
  rfl

theorem three_digits (urlSafe : Bool) (a b : UInt8) :
    three (value urlSafe) (digit urlSafe (a.toNat/4)) (digit urlSafe (a.toNat%4*16+b.toNat/16))
      (digit urlSafe (b.toNat%16*4)) = some [a,b] := by
  have ha := a.toNat_lt
  have hb := b.toNat_lt
  have hmiddle := byte_middle a b 0
  rw [show (0 : UInt8).toNat/64 = 0 by decide,Nat.add_zero] at hmiddle
  simp only [three,value_digit urlSafe _ (show a.toNat/4 < 64 by omega),
    value_digit urlSafe _ (show a.toNat%4*16+b.toNat/16 < 64 by omega),
    value_digit urlSafe _ (show b.toNat%16*4 < 64 by omega),Option.bind_some,Option.map_some,
    bytes3,bytes2,byte_high,hmiddle]
  rfl

theorem two_digits (urlSafe : Bool) (a : UInt8) :
    two (value urlSafe) (digit urlSafe (a.toNat/4)) (digit urlSafe (a.toNat%4*16)) =
      some [a] := by
  have ha := a.toNat_lt
  have hhigh := byte_high a 0
  rw [show (0 : UInt8).toNat/16 = 0 by decide,Nat.add_zero] at hhigh
  simp only [two,value_digit urlSafe _ (show a.toNat/4 < 64 by omega),
    value_digit urlSafe _ (show a.toNat%4*16 < 64 by omega),Option.bind_some,Option.map_some,
    bytes2,hhigh]

theorem four_pad (val : UInt8 → Option ℕ) (hpad : val pad = none) (a b c : UInt8) :
    four val a b c pad = none := by
  simp [four,hpad]

theorem quanta_encode (v : Variant) (data : Bytes) :
    quanta (value v.urlSafe) v.padded (!v.padded) (encode v data) = some data := by
  fun_induction encode v data with
  | case1 a b c rest ih =>
    rw [quanta,four_digits]
    simp only [ih,Option.map_some]
    rfl
  | case2 a b =>
    cases hp : v.padded with
    | true =>
      simp only [padding,hp,if_true,List.replicate_one,Bool.not_true]
      rw [quanta,four_pad _ (value_pad v.urlSafe)]
      have hdigit := (digit_char v.urlSafe (b.toNat%16*4) (by omega)).1
      simp only [closing,hdigit,List.isEmpty_nil,Bool.and_self,if_true,if_false,three_digits]
    | false =>
      simp only [padding,hp,Bool.not_false,Bool.false_eq_true,if_false]
      rw [quanta,if_pos rfl,three_digits]
  | case3 a =>
    cases hp : v.padded with
    | true =>
      simp only [padding,hp,if_true,Bool.not_true]
      rw [show List.replicate 2 pad = [pad,pad] from rfl,quanta,four_pad _ (value_pad v.urlSafe)]
      simp only [closing,List.isEmpty_nil,Bool.and_self,if_true,two_digits]
    | false =>
      simp only [padding,hp,Bool.not_false,Bool.false_eq_true,if_false]
      rw [quanta,if_pos rfl,two_digits]
  | case4 => rfl

theorem encode_char {data : Bytes} {c : UInt8} (h : c ∈ encode v data) :
    c = pad ∨ ∃ n < 64, c = digit v.urlSafe n := by
  have hpadding : ∀ n, c ∈ padding v n → c = pad := fun n hc => by
    rw [padding] at hc
    split at hc
    · exact List.eq_of_mem_replicate hc
    · cases hc
  fun_induction encode v data with
  | case1 a b d rest ih =>
    have ha := a.toNat_lt
    have hb := b.toNat_lt
    have hd := d.toNat_lt
    simp only [List.mem_cons] at h
    rcases h with h | h | h | h | h
    · exact .inr ⟨_,by omega,h⟩
    · exact .inr ⟨_,by omega,h⟩
    · exact .inr ⟨_,by omega,h⟩
    · exact .inr ⟨_,by omega,h⟩
    · exact ih h
  | case2 a b =>
    have ha := a.toNat_lt
    have hb := b.toNat_lt
    simp only [List.mem_cons] at h
    rcases h with h | h | h | h
    · exact .inr ⟨_,by omega,h⟩
    · exact .inr ⟨_,by omega,h⟩
    · exact .inr ⟨_,by omega,h⟩
    · exact .inl (hpadding 1 h)
  | case3 a =>
    have ha := a.toNat_lt
    simp only [List.mem_cons] at h
    rcases h with h | h | h
    · exact .inr ⟨_,by omega,h⟩
    · exact .inr ⟨_,by omega,h⟩
    · exact .inl (hpadding 2 h)
  | case4 => cases h

theorem encode_head (v : Variant) (b : UInt8) (rest : Bytes) :
    (encode v (b::rest)).head? = some (digit v.urlSafe (b.toNat/4)) := by
  match rest with
  | [] => rfl
  | [_] => rfl
  | _::_::_ => rfl

/-- The last digit of an encoding is a plus sign only after some last bytes. -/
theorem encode_last {data : Bytes} {b : UInt8} (hb : data.getLast? = some b)
    (h : (encode v data).getLast? = some 0x2B) : b.toNat%64 = 62 := by
  have hpadding : ∀ n, n < 64 → n%4 = 0 → ∀ k,
      (digit v.urlSafe n :: padding v (k+1)).getLast? ≠ some 0x2B := fun n hn hfour k hlast => by
    rw [padding] at hlast
    split at hlast
    · rw [List.replicate_succ',List.getLast?_cons,List.getLast?_concat,
        Option.getD_some] at hlast
      exact absurd (Option.some.inj hlast) (by decide)
    · have := digit_plus v.urlSafe n hn (Option.some.inj hlast)
      omega
  fun_induction encode v data with
  | case1 a b' c rest ih =>
    have hc := c.toNat_lt
    cases hrest : encode v rest with
    | nil =>
      cases rest with
      | nil =>
        rw [hrest] at h
        cases hb
        exact digit_plus v.urlSafe _ (by omega) (Option.some.inj h)
      | cons x rest =>
        have hhead := encode_head v x rest
        rw [hrest] at hhead
        cases hhead
    | cons d more =>
      have hne : rest ≠ [] := by
        rintro rfl
        cases hrest
      refine ih ?_ ?_
      · obtain ⟨x,rest',rfl⟩ := List.exists_cons_of_ne_nil hne
        simpa [List.getLast?_cons] using hb
      · rw [hrest] at h ⊢
        simpa [List.getLast?_cons] using h
  | case2 a b' =>
    have hlast : (digit v.urlSafe (b'.toNat%16*4) :: padding v 1).getLast? = some 0x2B := by
      simpa [List.getLast?_cons] using h
    exact absurd hlast (hpadding _ (by omega) (by omega) 0)
  | case3 a =>
    have hlast : (digit v.urlSafe (a.toNat%4*16) :: padding v 2).getLast? = some 0x2B := by
      simpa [List.getLast?_cons] using h
    exact absurd hlast (hpadding _ (by omega) (by omega) 1)
  | case4 => cases hb

theorem unwrapped_encode (v : Variant) (data : Bytes) :
    unwrapped (encode v data) = encode v data := by
  refine List.filter_eq_self.mpr fun c hc => ?_
  rcases encode_char hc with rfl | ⟨n,hn,rfl⟩
  · rfl
  · rw [(digit_char v.urlSafe n hn).2]
    rfl

/-- Line breaks may stand anywhere in an encoded text. -/
theorem decode_wrapped {text data : Bytes} (h : unwrapped text = encode v data) :
    decode v text = some data := by
  rw [decode,h,quanta_encode]

end RoundTrip

section Agreement

variable {val : UInt8 → Option ℕ}

theorem two_any (hval : ∀ c, val c = none ∨ val c = anyValue c) {a b : UInt8} {bytes : Bytes}
    (h : two val a b = some bytes) : two anyValue a b = some bytes := by
  rcases hval a with ha | ha
  · simp [two,ha] at h
  · rcases hval b with hb | hb
    · simp [two,hb] at h
    · rw [← h,two,two,ha,hb]

theorem three_any (hval : ∀ c, val c = none ∨ val c = anyValue c) {a b c : UInt8} {bytes : Bytes}
    (h : three val a b c = some bytes) : three anyValue a b c = some bytes := by
  rcases hval a with ha | ha
  · simp [three,ha] at h
  · rcases hval b with hb | hb
    · simp [three,hb] at h
    · rcases hval c with hc | hc
      · simp [three,hc] at h
      · rw [← h,three,three,ha,hb,hc]

theorem four_any (hval : ∀ c, val c = none ∨ val c = anyValue c) {a b c d : UInt8} {bytes : Bytes}
    (h : four val a b c d = some bytes) : four anyValue a b c d = some bytes := by
  rcases hval a with ha | ha
  · simp [four,ha] at h
  · rcases hval b with hb | hb
    · simp [four,hb] at h
    · rcases hval c with hc | hc
      · simp [four,hc] at h
      · rcases hval d with hd | hd
        · simp [four,hd] at h
        · rw [← h,four,four,ha,hb,hc,hd]

/-- What any variant accepts, one decoder for all of them reads the same way. -/
theorem quanta_any (hval : ∀ c, val c = none ∨ val c = anyValue c) {padded raw : Bool}
    {text bytes : Bytes} (h : quanta val padded raw text = some bytes) :
    quanta anyValue true true text = some bytes := by
  fun_induction quanta val padded raw text generalizing bytes with
  | case1 => exact h
  | case2 => cases h
  | case3 a b hraw => exact two_any hval h
  | case4 => cases h
  | case5 a b c hraw => exact three_any hval h
  | case6 => cases h
  | case7 a b c d rest group hgroup ih =>
    obtain ⟨tail,htail,rfl⟩ := Option.map_eq_some_iff.mp h
    rw [quanta,four_any hval hgroup]
    simp only [ih htail,Option.map_some]
  | case8 a b c d rest hgroup hend =>
    obtain ⟨-,hrest⟩ := Bool.and_eq_true_iff.mp hend
    rw [closing] at h
    split at h
    · rename_i hd
      rw [quanta,hd,four_pad anyValue (by decide),hrest]
      show closing anyValue a b c pad = some bytes
      rw [closing,if_pos rfl]
      split at h
      · rename_i hc
        rw [if_pos hc]
        exact two_any hval h
      · rename_i hc
        rw [if_neg hc]
        exact three_any hval h
    · cases h
  | case9 => cases h

theorem decode_any {v : Variant} {text data : Bytes} (h : decode v text = some data) :
    quanta anyValue true true (unwrapped text) = some data :=
  quanta_any (value_any v.urlSafe) h

theorem decode_unique {v w : Variant} {text x y : Bytes} (hx : decode v text = some x)
    (hy : decode w text = some y) : x = y :=
  Option.some.inj ((decode_any hx).symm.trans (decode_any hy))

theorem mem_variants : ∀ v : Variant, v ∈ variants := by
  intro ⟨urlSafe,padded⟩
  cases urlSafe <;> cases padded <;> decide

theorem firstDecoded_some {acceptable : Bytes → Bool} {text data : Bytes}
    (h : firstDecoded acceptable text = some data) :
    acceptable data = true ∧ ∃ v, decode v text = some data := by
  obtain ⟨v,-,hv⟩ := List.exists_of_findSome?_eq_some h
  obtain ⟨hdecode,haccept⟩ := Option.filter_eq_some_iff.mp hv
  exact ⟨haccept,v,hdecode⟩

/-- Trying the variants in order undoes any of them. -/
theorem firstDecoded_wrapped {v : Variant} {acceptable : Bytes → Bool} {text data : Bytes}
    (h : unwrapped text = encode v data) :
    firstDecoded acceptable text = if acceptable data then some data else none := by
  have hown := decode_wrapped h
  cases haccept : acceptable data with
  | true =>
    cases hfirst : firstDecoded acceptable text with
    | none =>
      have hnone := List.findSome?_eq_none_iff.mp hfirst v (mem_variants v)
      simp [hown,haccept] at hnone
    | some found =>
      obtain ⟨-,w,hw⟩ := firstDecoded_some hfirst
      rw [decode_unique hw hown]
      rfl
  | false =>
    refine List.findSome?_eq_none_iff.mpr fun w _ => Option.filter_eq_none_iff.mpr fun x hx => ?_
    rw [decode_unique hx hown,haccept]
    exact Bool.false_ne_true

end Agreement

section Characters

/-- Every character a decoder lets through. -/
def textChar (c : UInt8) : Bool := (anyValue c).isSome || c = pad || lineBreak c

theorem four_chars {a b c d : UInt8} {bytes : Bytes} (h : four anyValue a b c d = some bytes) :
    (anyValue a).isSome ∧ (anyValue b).isSome ∧ (anyValue c).isSome ∧ (anyValue d).isSome := by
  cases ha : anyValue a <;> cases hb : anyValue b <;> cases hc : anyValue c <;>
    cases hd : anyValue d <;> simp_all [four]

theorem three_chars {a b c : UInt8} {bytes : Bytes} (h : three anyValue a b c = some bytes) :
    (anyValue a).isSome ∧ (anyValue b).isSome ∧ (anyValue c).isSome := by
  cases ha : anyValue a <;> cases hb : anyValue b <;> cases hc : anyValue c <;> simp_all [three]

theorem two_chars {a b : UInt8} {bytes : Bytes} (h : two anyValue a b = some bytes) :
    (anyValue a).isSome ∧ (anyValue b).isSome := by
  cases ha : anyValue a <;> cases hb : anyValue b <;> simp_all [two]

theorem quanta_chars {text bytes : Bytes} (h : quanta anyValue true true text = some bytes) :
    ∀ c ∈ text, (anyValue c).isSome = true ∨ c = pad := by
  fun_induction quanta anyValue true true text generalizing bytes with
  | case1 => simp
  | case2 => cases h
  | case3 a b => simpa using ⟨.inl (two_chars h).1,.inl (two_chars h).2⟩
  | case4 => cases h
  | case5 a b c =>
    obtain ⟨ha,hb,hc⟩ := three_chars h
    simpa using ⟨.inl ha,.inl hb,.inl hc⟩
  | case6 => cases h
  | case7 a b c d rest group hgroup ih =>
    obtain ⟨ha,hb,hc,hd⟩ := four_chars hgroup
    obtain ⟨tail,htail,-⟩ := Option.map_eq_some_iff.mp h
    simpa using ⟨.inl ha,.inl hb,.inl hc,.inl hd,ih htail⟩
  | case8 a b c d rest hgroup hend =>
    have hrest : rest = [] := by simpa using hend
    subst hrest
    rw [closing] at h
    split at h
    · rename_i hd
      split at h
      · rename_i hc
        simpa using ⟨.inl (two_chars h).1,.inl (two_chars h).2,.inr hc,.inr hd⟩
      · obtain ⟨ha,hb,hc⟩ := three_chars h
        simpa using ⟨.inl ha,.inl hb,.inl hc,.inr hd⟩
    · cases h
  | case9 => cases h

theorem decode_chars {v : Variant} {text data : Bytes} (h : decode v text = some data) :
    ∀ c ∈ text, textChar c = true := by
  intro c hc
  by_cases hbreak : lineBreak c = true
  · simp [textChar,hbreak]
  · have hmem : c ∈ unwrapped text := List.mem_filter.mpr ⟨hc,by simp [hbreak]⟩
    rcases quanta_chars (decode_any h) c hmem with hval | hpad
    · simp [textChar,hval]
    · simp [textChar,hpad]

end Characters

end Whoisthat.Base64
