import Whoisthat.UrlDecoding

/-!
# Decoding the values of a deep link

A value is decoded byte by byte with an index that looks two bytes ahead, and what
comes out is made UTF-8 again: a broken sequence becomes one replacement character.
Percent sequences of a well-formed text give the text back, and the front of a
value that is plain ASCII stays in front.
-/

set_option autoImplicit false

namespace Whoisthat.DeepLinkText
open Whoisthat.Utf8
open Whoisthat.LinkText (Result Failure slice percent)
open Whoisthat.UrlDecoding (byteAt byteAt_ok)
open Whoisthat.Percent (hexDigit hexByte Escaped)

section Source

/-- How many more bytes a broken sequence takes with it. -/
def broken (a : UInt8) (t : Bytes) : ℕ :=
  match t with
  | b::c::_ =>
    if 0xE0 ≤ a ∧ a ≤ 0xEF ∧ second3 a b then 1
    else if 0xF0 ≤ a ∧ a ≤ 0xF4 ∧ second4 a b then if tail c then 2 else 1
    else 0
  | [b] =>
    if (0xE0 ≤ a ∧ a ≤ 0xEF ∧ second3 a b) ∨ (0xF0 ≤ a ∧ a ≤ 0xF4 ∧ second4 a b) then 1 else 0
  | [] => 0

/-- The bytes of U+FFFD. -/
def replacement : Bytes := [0xEF,0xBF,0xBD]

/-- `String::from_utf8_lossy`, with the bytes still to keep and those still to leave out. -/
def lossyAfter : ℕ → ℕ → Bytes → Bytes
  | _,_,[] => []
  | keep+1,skip,a::t => a::lossyAfter keep skip t
  | 0,skip+1,_::t => lossyAfter 0 skip t
  | 0,0,a::t =>
    if starts a t then a::lossyAfter (decodeRune a t).2 0 t
    else replacement ++ lossyAfter 0 (broken a t) t

def fromUtf8Lossy (s : Bytes) : Bytes := lossyAfter 0 0 s

def plus : UInt8 := 0x2B

/-- `u8::from_str_radix(s, 16)` of two bytes; a plus sign may stand before a digit. -/
def fromStrRadix16 : Bytes → Option UInt8
  | [hi,lo] => if hi = plus then (hexDigit lo).map UInt8.ofNat else hexByte hi lo
  | _ => none

/-- What a byte outside escapes stands for. -/
def bare (c : UInt8) : UInt8 := if c = plus then 0x20 else c

/-- The loop of `url_decode` from index `i` on. -/
def urlDecodeFrom (bytes : Bytes) (i : ℕ) (out : Bytes) : Result Bytes :=
  if _ : i < bytes.length then do
    let c ← byteAt bytes i
    if c = percent ∧ i+2 < bytes.length then
      let digits ← slice bytes (i+1) (i+3)
      let hex := if wellFormed digits then digits else []
      match fromStrRadix16 hex with
      | some decoded => urlDecodeFrom bytes (i+3) (out ++ [decoded])
      | none => urlDecodeFrom bytes (i+1) (out ++ [bare c])
    else urlDecodeFrom bytes (i+1) (out ++ [bare c])
  else .ok out
termination_by bytes.length-i

def urlDecode (s : Bytes) : Result Bytes := (urlDecodeFrom s 0 []).map fromUtf8Lossy

end Source

section Lossy

variable {s : Bytes}

theorem lossyAfter_wellFormed (n : ℕ) (h : wellFormedAfter n s = true) :
    lossyAfter n 0 s = s := by
  induction s generalizing n with
  | nil => cases n <;> rfl
  | cons a t ih =>
    cases n with
    | succ n => exact congrArg (a::·) (ih n h)
    | zero =>
      obtain ⟨hstarts,hrest⟩ := (Bool.and_eq_true _ _).mp h
      rw [lossyAfter,if_pos hstarts,ih _ hrest]

/-- A well-formed text stays as it is. -/
theorem fromUtf8Lossy_wellFormed (h : wellFormed s = true) : fromUtf8Lossy s = s :=
  lossyAfter_wellFormed 0 h

/-- ASCII at the front stays there. -/
theorem fromUtf8Lossy_ascii {p : Bytes} (hp : ∀ c ∈ p, c < 0x80) (s : Bytes) :
    fromUtf8Lossy (p ++ s) = p ++ fromUtf8Lossy s := by
  induction p with
  | nil => rfl
  | cons c p ih =>
    have hc := hp c List.mem_cons_self
    have hone : (decodeRune c (p ++ s)).2 = 0 := by
      rw [decodeRune,if_pos hc]
    have hstarts : starts c (p ++ s) = true := by
      rw [starts,decide_eq_true hc,Bool.true_or]
    have hrest := ih fun b hb => hp b (List.mem_cons_of_mem c hb)
    rw [List.cons_append,List.cons_append,← hrest,fromUtf8Lossy,lossyAfter,if_pos hstarts,hone]
    rfl

end Lossy

section Decoding

/-- The byte of an escape whose two digits are `digits`. -/
def escape (c : UInt8) (digits : Bytes) : Option UInt8 :=
  if c = percent ∧ wellFormed digits then fromStrRadix16 digits else none

/-- What the loop writes for the rest of a text. -/
def decodeAfter : ℕ → Bytes → Bytes
  | _,[] => []
  | n+1,_::t => decodeAfter n t
  | 0,c::t =>
    match escape c (t.take 2) with
    | some decoded => decoded::decodeAfter 2 t
    | none => bare c::decodeAfter 0 t

theorem decodeAfter_escape {c b : UInt8} {t : Bytes} (h : escape c (t.take 2) = some b) :
    decodeAfter 0 (c::t) = b::decodeAfter 0 (t.drop 2) := by
  match t with
  | [] =>
    rw [escape] at h
    split at h <;> cases h
  | [_] =>
    rw [escape] at h
    split at h <;> cases h
  | hi::lo::rest =>
    rw [decodeAfter,h]
    cases rest <;> rfl

theorem decodeAfter_bare {c : UInt8} {t : Bytes} (h : escape c (t.take 2) = none) :
    decodeAfter 0 (c::t) = bare c::decodeAfter 0 t := by
  rw [decodeAfter,h]

theorem escape_short {c : UInt8} {digits : Bytes} (h : digits.length < 2) :
    escape c digits = none := by
  rw [escape]
  split
  · match digits with
    | [] => rfl
    | [_] => rfl
    | _::_::_ =>
      simp only [List.length_cons] at h
      omega
  · rfl

theorem slice_two {s : Bytes} {i : ℕ} (h : i+2 < s.length) :
    slice s (i+1) (i+3) = .ok ((s.drop (i+1)).take 2) := by
  have htwo : i+3-(i+1) = 2 := by omega
  rw [slice,if_pos ⟨by omega,by omega⟩,htwo]

theorem urlDecodeFrom_eq (s : Bytes) (i : ℕ) (out : Bytes) :
    urlDecodeFrom s i out = .ok (out ++ decodeAfter 0 (s.drop i)) := by
  induction hn : s.length-i using Nat.strong_induction_on generalizing i out with
  | _ n ih =>
    subst hn
    rw [urlDecodeFrom]
    by_cases hi : i < s.length
    · have hdrop := List.drop_eq_getElem_cons hi
      have hone : urlDecodeFrom s (i+1) (out ++ [bare s[i]]) =
          .ok (out ++ bare s[i]::decodeAfter 0 (s.drop (i+1))) := by
        rw [ih _ (by omega) (i+1) _ rfl,List.append_assoc]
        rfl
      rw [dif_pos hi,byteAt_ok hi,hdrop]
      show (if _ then _ else _) = _
      by_cases hc : s[i] = percent ∧ i+2 < s.length
      · rw [if_pos hc,slice_two hc.2]
        show (match fromStrRadix16 (if wellFormed _ then _ else _) with
          | some decoded => _ | none => _) = _
        have hescape : fromStrRadix16 (if wellFormed ((s.drop (i+1)).take 2) then
            (s.drop (i+1)).take 2 else []) = escape s[i] ((s.drop (i+1)).take 2) := by
          rw [escape]
          by_cases hw : wellFormed ((s.drop (i+1)).take 2) = true
          · rw [if_pos hw,if_pos ⟨hc.1,hw⟩]
          · rw [if_neg hw,if_neg fun h => hw h.2]
            rfl
        rw [hescape]
        rcases he : escape s[i] ((s.drop (i+1)).take 2) with _ | b
        · rw [decodeAfter_bare he]
          exact hone
        · rw [decodeAfter_escape he,List.drop_drop]
          show urlDecodeFrom s (i+3) (out ++ [b]) = _
          rw [ih _ (by omega) (i+3) _ rfl,List.append_assoc]
          rfl
      · have hnone : escape s[i] ((s.drop (i+1)).take 2) = none := by
          by_cases hp : s[i] = percent
          · refine escape_short ?_
            have hshort : ¬i+2 < s.length := fun h => hc ⟨hp,h⟩
            rw [List.length_take,List.length_drop]
            omega
          · exact if_neg fun h => hp h.1
        rw [if_neg hc,hone,decodeAfter_bare hnone]
    · rw [dif_neg hi,List.drop_eq_nil_of_le (by omega)]
      exact congrArg Except.ok (List.append_nil out).symm

/-- The decoder looks at no byte past the end. -/
theorem urlDecode_eq (s : Bytes) : urlDecode s = .ok (fromUtf8Lossy (decodeAfter 0 s)) := by
  rw [urlDecode,urlDecodeFrom_eq]
  rfl

variable {must : UInt8 → Bool} {m n : Bytes}

theorem escape_digits : ∀ hi lo : UInt8, (hexDigit hi).isSome = true →
    (hexDigit lo).isSome = true → hi ≠ plus ∧ wellFormed [hi,lo] = true := by
  intro hi lo hhi hlo
  have hlt := (Percent.hexDigit_byte hi hhi).2.2.2
  have hlt' := (Percent.hexDigit_byte lo hlo).2.2.2
  refine ⟨(Percent.hexDigit_byte hi hhi).2.1,?_⟩
  have hone : (decodeRune hi [lo]).2 = 0 := by rw [decodeRune,if_pos hlt]
  have htwo : (decodeRune lo []).2 = 0 := by rw [decodeRune,if_pos hlt']
  simp [wellFormed,wellFormedAfter,starts,hlt,hlt',hone,htwo]

/-- Decoding an encoded text, and what follows it after that. -/
theorem decodeAfter_escaped (hplus : must plus = true) (h : Escaped must m n) (rest : Bytes) :
    decodeAfter 0 (n ++ rest) = m ++ decodeAfter 0 rest := by
  induction h with
  | nil => rfl
  | @keep c m n hc hkeep _ ih =>
    have hnone : escape c ((n ++ rest).take 2) = none := if_neg fun h => hc h.1
    have hbare : bare c = c := if_neg fun heq => by
      rw [heq,hplus] at hkeep
      cases hkeep
    rw [List.cons_append,decodeAfter_bare hnone,hbare,ih,List.cons_append]
  | @escape c hi lo m n hb _ ih =>
    obtain ⟨hhi,hlo⟩ := Percent.hexByte_digits hb
    obtain ⟨hplus,hw⟩ := escape_digits hi lo hhi hlo
    have hsome : escape percent ([hi,lo] ++ (n ++ rest) |>.take 2) = some c := by
      show escape percent [hi,lo] = some c
      rw [escape,if_pos ⟨rfl,hw⟩,fromStrRadix16,if_neg hplus,hb]
    exact (decodeAfter_escape hsome).trans (congrArg (c::·) ih)

/-- A well-formed value comes out of every encoding in which plus signs are escaped. -/
theorem urlDecode_spelled (hplus : must plus = true) (h : Escaped must m n)
    (hm : wellFormed m = true) : urlDecode n = .ok m := by
  have hn := decodeAfter_escaped hplus h []
  rw [List.append_nil] at hn
  rw [urlDecode_eq,hn]
  show Except.ok (fromUtf8Lossy (m ++ [])) = _
  rw [List.append_nil,fromUtf8Lossy_wellFormed hm]

end Decoding

end Whoisthat.DeepLinkText
