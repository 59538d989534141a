import Whoisthat.LinkSpelling

/-!
# Decoding percent sequences

The decoder walks through a text with an index and looks up to two bytes ahead.
It never looks past the end. What it writes are the pieces of the text from left
to right, each an escape with both of its digits or a byte at which no escape
begins, and there is only one way to cut a text into such pieces.
-/

set_option autoImplicit false

namespace Whoisthat.UrlDecoding
open Whoisthat.Utf8 (Bytes)
open Whoisthat.LinkText (Failure Result percent escape)
open Whoisthat.Percent (hexDigit hexByte Escaped)

section Source

/-- `s[i]` -/
def byteAt (s : Bytes) (i : ℕ) : Result UInt8 :=
  match s[i]? with
  | some c => .ok c
  | none => .error .panic

def fromHex (c : UInt8) : ℤ :=
  if 0x30 ≤ c ∧ c ≤ 0x39 then (c-0x30).toNat
  else if 0x61 ≤ c ∧ c ≤ 0x66 then (c-0x61+10).toNat
  else if 0x41 ≤ c ∧ c ≤ 0x46 then (c-0x41+10).toNat
  else -1

/-- `byte((h1 << 4) | h2)` -/
def joined (h1 h2 : ℤ) : UInt8 := UInt8.ofNat (h1.toNat <<< 4 ||| h2.toNat)

/-- The loop of `URLDecode` from index `i` on, with what was written before. -/
def urlDecodeFrom (s : Bytes) (i : ℕ) (b : Bytes) : Result Bytes :=
  if _ : i < s.length then do
    let c ← byteAt s i
    if c = percent ∧ i+2 < s.length then
      let h1 := fromHex (← byteAt s (i+1))
      let h2 := fromHex (← byteAt s (i+2))
      if 0 ≤ h1 ∧ 0 ≤ h2 then urlDecodeFrom s (i+3) (b ++ [joined h1 h2])
      else urlDecodeFrom s (i+1) (b ++ [c])
    else urlDecodeFrom s (i+1) (b ++ [c])
  else .ok b
termination_by s.length-i

def urlDecode (s : Bytes) : Result Bytes :=
  if percent ∈ s then urlDecodeFrom s 0 [] else .ok s

end Source

section Pieces

inductive Piece where
  | literal (c : UInt8)
  | escaped (hi lo c : UInt8) (digits : hexByte hi lo = some c)

def Piece.spelling : Piece → Bytes
  | .literal c => [c]
  | .escaped hi lo _ _ => [percent,hi,lo]

def Piece.value : Piece → UInt8
  | .literal c => c
  | .escaped _ _ c _ => c

def text (ps : List Piece) : Bytes := ps.flatMap Piece.spelling

/-- No piece is a byte at which an escape begins. -/
def LeftToRight : List Piece → Prop
  | [] => True
  | .literal c::ps => (c = percent → ∀ hi lo, [hi,lo] <+: text ps → hexByte hi lo = none) ∧
      LeftToRight ps
  | .escaped _ _ _ _::ps => LeftToRight ps

theorem text_literal (c : UInt8) (ps : List Piece) : text (.literal c::ps) = c::text ps := rfl

theorem text_escaped (hi lo c : UInt8) (digits : hexByte hi lo = some c) (ps : List Piece) :
    text (.escaped hi lo c digits::ps) = percent::hi::lo::text ps := rfl

/-- A text has no other pieces. -/
theorem pieces_unique {ps qs : List Piece} (hp : LeftToRight ps) (hq : LeftToRight qs)
    (h : text ps = text qs) : ps = qs := by
  induction ps generalizing qs with
  | nil =>
    cases qs with
    | nil => rfl
    | cons q qs => cases q <;> cases h
  | cons p ps ih =>
    cases qs with
    | nil => cases p <;> cases h
    | cons q qs =>
      cases p with
      | literal c =>
        cases q with
        | literal d =>
          rw [text_literal,text_literal,List.cons.injEq] at h
          rw [h.1,ih hp.2 hq.2 h.2]
        | escaped hi lo d digits =>
          rw [text_literal,text_escaped,List.cons.injEq] at h
          have hno := hp.1 h.1 hi lo ⟨text qs,h.2.symm⟩
          rw [hno] at digits
          cases digits
      | escaped hi lo c digits =>
        cases q with
        | literal d =>
          rw [text_literal,text_escaped,List.cons.injEq] at h
          have hno := hq.1 h.1.symm hi lo ⟨text ps,h.2⟩
          rw [hno] at digits
          cases digits
        | escaped hi' lo' d digits' =>
          rw [text_escaped,text_escaped] at h
          simp only [List.cons.injEq,true_and] at h
          obtain ⟨rfl,rfl,h⟩ := h
          cases digits.symm.trans digits'
          have hrest : LeftToRight qs := hq
          rw [ih hp hrest h]

end Pieces

section Reading

variable {s : Bytes} {i : ℕ}

theorem fromHex_digit : ∀ c : UInt8, fromHex c = ((hexDigit c).map Int.ofNat).getD (-1) := by
  decide +kernel

theorem escape_some {c b : UInt8} {t : Bytes} (h : escape (c::t) = some b) :
    c = percent ∧ ∃ hi lo rest, t = hi::lo::rest ∧ hexByte hi lo = some b := by
  match t with
  | [] => cases h
  | [_] => cases h
  | hi::lo::rest =>
    rw [escape] at h
    by_cases hc : c = percent
    · rw [if_pos hc] at h
      exact ⟨hc,hi,lo,rest,rfl,h⟩
    · rw [if_neg hc] at h
      cases h

theorem urlDecode_literal {c : UInt8} {t : Bytes} (h : escape (c::t) = none) :
    LinkText.urlDecode (c::t) = c::LinkText.urlDecode t := by
  rw [LinkText.urlDecode,LinkText.urlDecodeAfter,h]
  rfl

theorem byteAt_ok (h : i < s.length) : byteAt s i = .ok s[i] := by
  rw [byteAt,List.getElem?_eq_getElem h]

/-- Two digits are the byte that they are read as elsewhere. -/
theorem joined_digits {hi lo b : UInt8} (h : hexByte hi lo = some b) :
    0 ≤ fromHex hi ∧ 0 ≤ fromHex lo ∧ joined (fromHex hi) (fromHex lo) = b := by
  obtain ⟨x,hx,hlo⟩ := Option.bind_eq_some_iff.mp h
  obtain ⟨y,hy,rfl⟩ := Option.map_eq_some_iff.mp hlo
  have hlt := Percent.hexDigit_lt lo
  rw [hy,Option.getD_some] at hlt
  have hor : x <<< 4 ||| y = 16*x+y := by
    rw [Nat.shiftLeft_eq,Nat.mul_comm]
    exact (Nat.two_pow_add_eq_or_of_lt hlt x).symm
  rw [fromHex_digit,fromHex_digit,hx,hy]
  refine ⟨Int.natCast_nonneg x,Int.natCast_nonneg y,?_⟩
  show UInt8.ofNat (x <<< 4 ||| y) = _
  rw [hor]

theorem joined_none {hi lo : UInt8} (h : hexByte hi lo = none) :
    ¬(0 ≤ fromHex hi ∧ 0 ≤ fromHex lo) := by
  rw [fromHex_digit,fromHex_digit]
  rintro ⟨hhi,hlo⟩
  cases hx : hexDigit hi with
  | none =>
    rw [hx] at hhi
    exact absurd hhi (by decide)
  | some x =>
    cases hy : hexDigit lo with
    | none =>
      rw [hy] at hlo
      exact absurd hlo (by decide)
    | some y =>
      rw [hexByte,hx,hy] at h
      cases h

/-- From every index on the loop writes what the rest of the text stands for. -/
theorem urlDecodeFrom_eq (s : Bytes) (i : ℕ) (b : Bytes) :
    urlDecodeFrom s i b = .ok (b ++ LinkText.urlDecode (s.drop i)) := by
  induction hn : s.length-i using Nat.strong_induction_on generalizing i b with
  | _ n ih =>
    subst hn
    rw [urlDecodeFrom]
    by_cases hi : i < s.length
    · have hdrop := List.drop_eq_getElem_cons hi
      have hone : urlDecodeFrom s (i+1) (b ++ [s[i]]) =
          .ok (b ++ s[i]::LinkText.urlDecode (s.drop (i+1))) := by
        rw [ih _ (by omega) (i+1) _ rfl,List.append_assoc]
        rfl
      rw [dif_pos hi,byteAt_ok hi,hdrop]
      show (if _ then _ else _) = _
      by_cases hc : s[i] = percent ∧ i+2 < s.length
      · have hahead : s.drop (i+1) = s[i+1]::s[i+2]::s.drop (i+3) := by
          rw [List.drop_eq_getElem_cons (by omega : i+1 < s.length),
            List.drop_eq_getElem_cons hc.2]
        rw [if_pos hc,byteAt_ok (by omega : i+1 < s.length),byteAt_ok hc.2]
        show (if _ then _ else _) = _
        cases hb : hexByte s[i+1] s[i+2] with
        | some c =>
          obtain ⟨h1,h2,hjoined⟩ := joined_digits hb
          have hvalue : ∀ p, p = percent → LinkText.urlDecode (p::s.drop (i+1)) =
              c::LinkText.urlDecode (s.drop (i+3)) := by
            rintro _ rfl
            rw [hahead,LinkSpelling.urlDecode_escape hb]
          rw [if_pos ⟨h1,h2⟩,ih _ (by omega) (i+3) _ rfl,hvalue _ hc.1,hjoined,List.append_assoc]
          rfl
        | none =>
          have hnone : escape (s[i]::s.drop (i+1)) = none := by
            rw [hahead,hc.1,LinkSpelling.escape_percent,hb]
          rw [if_neg (joined_none hb),hone,urlDecode_literal hnone]
      · have hnone : escape (s[i]::s.drop (i+1)) = none := by
          cases he : escape (s[i]::s.drop (i+1)) with
          | none => rfl
          | some x =>
            obtain ⟨hp,_,_,rest,ht,-⟩ := escape_some he
            have hlength := congrArg List.length ht
            rw [List.length_drop,List.length_cons,List.length_cons] at hlength
            exact absurd ⟨hp,by omega⟩ hc
        rw [if_neg hc,hone,urlDecode_literal hnone]
    · rw [dif_neg hi,List.drop_eq_nil_of_le (by omega)]
      exact congrArg Except.ok (List.append_nil b).symm

/-- The decoder behind every link parser, with an index that stays in range. -/
theorem urlDecode_eq (s : Bytes) : urlDecode s = .ok (LinkText.urlDecode s) := by
  rw [urlDecode]
  by_cases hs : percent ∈ s
  · rw [if_pos hs,urlDecodeFrom_eq]
    rfl
  · have hself : LinkText.urlDecode s = s := LinkSpelling.urlDecode_self.mpr fun hi lo hin =>
      absurd (hin.subset List.mem_cons_self) hs
    rw [if_neg hs,hself]

/-- Every text can be cut into pieces, and these are what the decoder writes. -/
theorem pieces_exist (s : Bytes) :
    ∃ ps : List Piece, text ps = s ∧ LeftToRight ps ∧
      LinkText.urlDecode s = ps.map Piece.value := by
  induction hn : s.length using Nat.strong_induction_on generalizing s with
  | _ n ih =>
    subst hn
    cases s with
    | nil => exact ⟨[],rfl,trivial,rfl⟩
    | cons c t =>
      cases he : escape (c::t) with
      | some b =>
        obtain ⟨rfl,hi,lo,rest,rfl,hb⟩ := escape_some he
        obtain ⟨ps,htext,hpieces,hvalue⟩ := ih rest.length
          (by simp only [List.length_cons]; omega) rest rfl
        refine ⟨.escaped hi lo b hb::ps,?_,hpieces,?_⟩
        · rw [text_escaped,htext]
        · rw [LinkSpelling.urlDecode_escape hb,hvalue]
          rfl
      | none =>
        obtain ⟨ps,htext,hpieces,hvalue⟩ := ih t.length (by simp) t rfl
        refine ⟨.literal c::ps,?_,⟨fun hc hi lo hfront => ?_,hpieces⟩,?_⟩
        · rw [text_literal,htext]
        · obtain ⟨rest,hrest⟩ := hfront
          rw [hc,← htext,← hrest] at he
          exact he
        · rw [urlDecode_literal he,hvalue]
          rfl

/-- Decoding is total and inverse to every encoding, and it replaces the escapes
that are met from left to right, and nothing else. -/
theorem urlDecode_exact (s : Bytes) :
    (∃ ps : List Piece, text ps = s ∧ LeftToRight ps ∧
      (∀ qs, text qs = s → LeftToRight qs → qs = ps) ∧
      urlDecode s = .ok (ps.map Piece.value)) ∧
    ∀ m, Escaped (fun _ => false) m s → urlDecode s = .ok m := by
  constructor
  · obtain ⟨ps,htext,hpieces,hvalue⟩ := pieces_exist s
    refine ⟨ps,htext,hpieces,fun qs hqs hq => ?_,?_⟩
    · exact pieces_unique hq hpieces (hqs.trans htext.symm)
    · rw [urlDecode_eq,hvalue]
  · intro m hm
    rw [urlDecode_eq,LinkSpelling.urlDecode_spelled hm]

end Reading

end Whoisthat.UrlDecoding
