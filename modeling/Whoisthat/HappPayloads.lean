import Mathlib.Logic.Relation
import Whoisthat.Base64
import Whoisthat.HappLinks
import Whoisthat.JsonScanner
import Whoisthat.Percent
import Whoisthat.WhiteSpace

/-!
# Payloads of routing links in transport

`ParseLink` undoes what transport does to a link: the payload is base64 in any
variant, line breaks are put in, bytes are percent-encoded, plus signs become
spaces, and the whole link may be percent-encoded again. When exactly the bytes
that were encoded come back is proved. `unicode.ToLower` and the decoding of the
profile are parameters.
-/

set_option autoImplicit false

namespace Whoisthat.HappPayloads
open Whoisthat.Base64 Whoisthat.JsonScanner Whoisthat.Percent Whoisthat.Utf8 Whoisthat.WhiteSpace
open Whoisthat.HappLinks (ascii target toLower lowerByte LowersASCII lowerByte_ascii)
open Whoisthat.Separators (trim_spec Separating)

section Source

def isBreak (c : UInt8) : Bool := c = 0x0D || c = 0x0A || c = 0x09

/-- A text without carriage returns, line feeds and tabs. -/
def unbroken (s : Bytes) : Bytes := s.filter fun c => !isBreak c

def plus (c : UInt8) : UInt8 := if c = 0x20 then 0x2B else c

def tryEncodings (input : Bytes) : Option Bytes := firstDecoded (fun _ => true) input

def decodeBase64Tolerant (s : Bytes) : Option Bytes :=
  let s := trimSpace (unbroken s)
  if s = [] then none
  else
    let s := if 0x25 ∈ s then (unescape false s).getD s else s
    match tryEncodings s with
    | some res => some res
    | none => if 0x20 ∈ s then tryEncodings (s.map plus) else none

def maxPayloadBytes : ℕ := 1048576

inductive Action where
  | add
  | onAdd
  deriving DecidableEq

structure HappProfile (ρ : Type) where
  name : Bytes
  rest : ρ

inductive ParsedLink (ρ : Type) where
  | off
  | profile (action : Action) (profile : HappProfile ρ) (rawJSON : Bytes)

/-- `json.Unmarshal` into a profile, of a valid document. -/
abbrev Unmarshal (ρ : Type) := Bytes → Option (HappProfile ρ)

def keyword : Action → Bytes
  | .add => ascii "add/"
  | .onAdd => ascii "onadd/"

variable {ρ : Type} (lowerRune : Rune → Rune) (unmarshal : Unmarshal ρ)

def isOff (restLower : Bytes) : Bool :=
  restLower = ascii "off" || (ascii "off/").isPrefixOf restLower ||
    (ascii "off?").isPrefixOf restLower

/-- The action a link asks for, and its payload. -/
def actionOf (rest : Bytes) : Option (Action × Bytes) :=
  if (keyword .add).isPrefixOf (toLower lowerRune rest) then some (.add,rest.drop 4)
  else if (keyword .onAdd).isPrefixOf (toLower lowerRune rest) then some (.onAdd,rest.drop 6)
  else none

def parsePayload (action : Action) (payload : Bytes) : Option (ParsedLink ρ) :=
  (decodeBase64Tolerant payload).bind fun decoded =>
    if maxPayloadBytes < decoded.length then none
    else if valid decoded = false then none
    else (unmarshal decoded).bind fun profile =>
      if trimSpace profile.name = [] then none
      else some (.profile action { profile with name := trimSpace profile.name } decoded)

/-- A link whose scheme was percent-encoded is decoded first. -/
def decodedLink (trimmed : Bytes) : Bytes :=
  if ascii "%3a%2f%2f" <:+: toLower lowerRune trimmed then (unescape true trimmed).getD trimmed
  else trimmed

def parseLink (raw : Bytes) : Option (ParsedLink ρ) :=
  if trimSpace raw = [] then none
  else
    let trimmed := decodedLink lowerRune (trimSpace raw)
    if target.isPrefixOf (toLower lowerRune trimmed) then
      let rest := trimmed.drop target.length
      if isOff (toLower lowerRune rest) then some .off
      else (actionOf lowerRune rest).bind fun (action,payload) =>
        parsePayload unmarshal action payload
    else none

end Source

section Specification

/-- What transport does: line breaks anywhere, and spaces for plus signs. -/
inductive Step : Bytes → Bytes → Prop where
  | lineBreak {a b : Bytes} {c : UInt8} : isBreak c = true → Step (a ++ b) (a ++ c::b)
  | spaces (s : Bytes) : Step s (s.map fun c => if c = 0x2B then 0x20 else c)

def Transport : Bytes → Bytes → Prop := Relation.ReflTransGen Step

/-- Any bytes of a payload percent-encoded, between any transport. -/
def Altered (encoded payload : Bytes) : Prop :=
  ∃ m n, Transport encoded m ∧ Escaped (fun _ => false) m n ∧ Transport n payload

def head (action : Action) : Bytes := target ++ keyword action

/-- The bytes with a meaning in a link. -/
def reserved (c : UInt8) : Bool := c = 0x3A || c = 0x2F

/-- The whole link percent-encoded, with any transport of its payload after that. -/
def Whole (action : Action) (payload raw : Bytes) : Prop :=
  ∃ front r sent, Escaped reserved (head action) front ∧ Escaped reserved payload r ∧
    Transport r sent ∧ raw = front ++ sent

/-- How a payload is sent. -/
def Sent (action : Action) (payload raw : Bytes) : Prop :=
  raw = head action ++ payload ∨ Whole action payload raw

variable {ρ : Type}

/-- A profile document of at most 1 MiB. -/
def IsProfile (unmarshal : Unmarshal ρ) (json : Bytes) : Prop :=
  json.length ≤ maxPayloadBytes ∧ valid json = true ∧
    ∃ profile, unmarshal json = some profile ∧ trimSpace profile.name ≠ []

/-- The link asks for the action with exactly these bytes. -/
def Arrives (lowerRune : Rune → Rune) (unmarshal : Unmarshal ρ) (action : Action)
    (json raw : Bytes) : Prop :=
  ∃ profile, parseLink lowerRune unmarshal raw = some (.profile action profile json)

/-- A tab is among the percent-encoded bytes of the payload. -/
def Tabbed (payload : Bytes) : Prop := [0x25,0x30,0x39] <:+: unbroken payload

instance (payload : Bytes) : Decidable (Tabbed payload) :=
  inferInstanceAs (Decidable ([0x25,0x30,0x39] <:+: unbroken payload))

/-- Every escape of a text is in one piece. -/
def Unsplit (raw : Bytes) : Prop := (unescape true raw).isSome = true

end Specification

section Normal

/-- A text without line breaks and with the spaces restored. -/
def normal (s : Bytes) : Bytes := (unbroken s).map plus

theorem normal_append (a b : Bytes) : normal (a ++ b) = normal a ++ normal b := by
  rw [normal,normal,normal,unbroken,unbroken,unbroken,List.filter_append,List.map_append]

theorem normal_cons (c : UInt8) (s : Bytes) :
    normal (c::s) = (if isBreak c then [] else [plus c]) ++ normal s := by
  cases hc : isBreak c <;> simp [normal,unbroken,hc]

theorem plus_restores (c : UInt8) : isBreak (if c = 0x2B then 0x20 else c) = isBreak c ∧
    plus (if c = 0x2B then 0x20 else c) = plus c := by
  split
  · rename_i hc
    subst hc
    decide
  · exact ⟨rfl,rfl⟩

theorem plus_of_ne {c : UInt8} (hc : c ≠ 0x20) : plus c = c := if_neg hc

theorem normal_step {s t : Bytes} (h : Step s t) : normal t = normal s := by
  cases h with
  | lineBreak hc => rw [normal_append,normal_append,normal_cons,if_pos hc,List.nil_append]
  | spaces =>
    induction s with
    | nil => rfl
    | cons c s ih =>
      obtain ⟨hbreak,hplus⟩ := plus_restores c
      rw [List.map_cons,normal_cons,normal_cons,hbreak,hplus,ih]

/-- Transport keeps the normal form. -/
theorem normal_transport {s t : Bytes} (h : Transport s t) : normal t = normal s := by
  induction h with
  | refl => rfl
  | tail _ hstep ih => rw [normal_step hstep,ih]

theorem plus_hexDigit (c : UInt8) : hexDigit (plus c) = hexDigit c ∧ (plus c = 0x25 ↔ c = 0x25) ∧
    plus (bare true c) = plus c ∧ isBreak (bare true c) = isBreak c ∧ plus (plus c) = plus c ∧
    isBreak (plus c) = isBreak c := by
  have hbare : bare true c = if c = 0x2B then 0x20 else c := by simp [bare]
  rw [hbare]
  obtain ⟨hbreak,hplus⟩ := plus_restores c
  by_cases hc : c = 0x20
  · subst hc
    decide
  · have hsame := plus_of_ne hc
    rw [hbreak,hplus,hsame,hsame]
    exact ⟨rfl,Iff.rfl,rfl,rfl,rfl,rfl⟩

theorem digit_kept (c : UInt8) (h : (hexDigit c).isSome = true) : isBreak c = false ∧ plus c = c ∧
    spaceByte c = false := by
  have hvisible : ∀ c : UInt8, (hexDigit c).isSome = true → 0x20 < c ∧ isBreak c = false := by
    decide +kernel
  obtain ⟨-,-,hspace,hascii⟩ := hexDigit_byte c h
  obtain ⟨hlow,hbreak⟩ := hvisible c h
  exact ⟨hbreak,plus_of_ne hspace,spaceByte_printable c hlow hascii⟩

theorem normal_escape {hi lo b : UInt8} (h : hexByte hi lo = some b) (s : Bytes) :
    normal (0x25::hi::lo::s) = 0x25::hi::lo::normal s := by
  obtain ⟨hhi,hlo⟩ := hexByte_digits h
  obtain ⟨hbhi,hphi,-⟩ := digit_kept hi hhi
  obtain ⟨hblo,hplo,-⟩ := digit_kept lo hlo
  rw [normal_cons,normal_cons,normal_cons,hbhi,hblo,hphi,hplo]
  rfl

theorem bare_false (c : UInt8) : bare false c = c := rfl

/-- What a text reads as in a query has the normal form of what its own normal
form reads as. -/
theorem reads_normal {s w : Bytes} (h : Reads true s w) :
    ∃ x, unescape false (normal s) = some x ∧ normal x = normal w := by
  induction h with
  | nil => exact ⟨[],rfl,rfl⟩
  | @keep c t w hc _ ih =>
    obtain ⟨x,hx,hnormal⟩ := ih
    obtain ⟨-,hpercent,hbare,hbreak,hplus,hpbreak⟩ := plus_hexDigit c
    cases hb : isBreak c with
    | true =>
      refine ⟨x,?_,?_⟩
      · rw [normal_cons,hb]
        exact hx
      · rw [normal_cons,hbreak,hb]
        exact hnormal
    | false =>
      refine ⟨plus c::x,?_,?_⟩
      · rw [normal_cons,hb]
        show unescape false (plus c::normal t) = _
        rw [unescape_keep fun hp => hc (hpercent.mp hp),hx,bare_false,Option.map_some]
      · rw [normal_cons,normal_cons,hbreak,hpbreak,hb,hbare,hplus,hnormal]
  | @escape hi lo b t w hb _ ih =>
    obtain ⟨x,hx,hnormal⟩ := ih
    refine ⟨b::x,?_,?_⟩
    · rw [normal_escape hb,unescape_escape hb,hx,Option.map_some]
    · rw [normal_cons,normal_cons,hnormal]

theorem escaped_query {must : UInt8 → Bool} {m n : Bytes} (h : Escaped must m n) :
    ∃ w, Reads true n w ∧ normal w = normal m := by
  induction h with
  | nil => exact ⟨[],.nil,rfl⟩
  | @keep c m n hc _ _ ih =>
    obtain ⟨w,hw,hnormal⟩ := ih
    obtain ⟨-,-,hbare,hbreak,-,-⟩ := plus_hexDigit c
    exact ⟨bare true c::w,.keep hc hw,by rw [normal_cons,normal_cons,hbare,hbreak,hnormal]⟩
  | @escape c hi lo m n hb _ ih =>
    obtain ⟨w,hw,hnormal⟩ := ih
    exact ⟨c::w,.escape hb hw,by rw [normal_cons,normal_cons,hnormal]⟩

/-- The normal form of an escaped text reads as the text. -/
theorem escaped_normal {must : UInt8 → Bool} {m n : Bytes} (h : Escaped must m n) :
    ∃ x, unescape false (normal n) = some x ∧ normal x = normal m := by
  obtain ⟨w,hw,hm⟩ := escaped_query h
  obtain ⟨x,hx,hnormal⟩ := reads_normal hw
  exact ⟨x,hx,hnormal.trans hm⟩

end Normal

section Edges

variable {must : UInt8 → Bool} {m n : Bytes}

theorem normal_single (c : UInt8) : normal [c] = if isBreak c then [] else [plus c] := by
  rw [normal_cons]
  exact List.append_nil _

/-- Escaping changes the first byte of a normal form to a percent sign or not at all. -/
theorem head_escaped (h : Escaped must m n) :
    (normal n).head? = (normal m).head? ∨ (normal n).head? = some 0x25 := by
  induction h with
  | nil => exact .inl rfl
  | keep _ _ _ ih =>
    rw [normal_cons,normal_cons,List.head?_append,List.head?_append]
    rcases ih with hsame | hpercent
    · exact .inl (by rw [hsame])
    · split
      · exact .inr hpercent
      · exact .inl rfl
  | escape hb _ _ =>
    rw [normal_escape hb]
    exact .inr rfl

/-- Escaping changes the last byte of a normal form to a digit or not at all. -/
theorem last_escaped (h : Escaped must m n) :
    (normal n).getLast? = (normal m).getLast? ∨
      ∃ b, (normal n).getLast? = some b ∧ (hexDigit b).isSome = true := by
  induction h with
  | nil => exact .inl rfl
  | keep _ _ _ ih =>
    rw [normal_cons,normal_cons,List.getLast?_append,List.getLast?_append]
    rcases ih with hsame | ⟨b,hb,hdigit⟩
    · exact .inl (by rw [hsame])
    · exact .inr ⟨b,by rw [hb]; rfl,hdigit⟩
  | @escape c hi lo m n hb _ ih =>
    obtain ⟨-,hlo⟩ := hexByte_digits hb
    have hnormal : normal (0x25::hi::lo::n) = [0x25,hi,lo] ++ normal n := normal_escape hb n
    rw [hnormal,normal_cons,List.getLast?_append,List.getLast?_append]
    rcases ih with hsame | ⟨b,hlast,hdigit⟩
    · cases hm : (normal m).getLast? with
      | none => exact .inr ⟨lo,by rw [hsame,hm]; rfl,hlo⟩
      | some b => exact .inl (by rw [hsame,hm]; rfl)
    · exact .inr ⟨b,by rw [hlast]; rfl,hdigit⟩

theorem normal_bytes {s : Bytes} {b : UInt8} (h : b ∈ normal s) : isBreak b = false := by
  obtain ⟨c,hc,rfl⟩ := List.mem_map.mp h
  have hkept := (List.mem_filter.mp hc).2
  rw [(plus_hexDigit c).2.2.2.2.2]
  simpa using hkept

/-- A text whose normal form may be decoded: no byte of it is white space, and
no plus sign, which might come as a space, is at its ends. -/
structure Solid (s : Bytes) : Prop where
  ne : s ≠ []
  bytes : ∀ b ∈ s, spaceByte b = false ∧ b < 0x80
  first : s.head? ≠ some 0x2B
  last : s.getLast? ≠ some 0x2B

theorem solid_escaped (h : Escaped must m n) (hm : Solid (normal m)) : Solid (normal n) := by
  refine ⟨fun hnil => ?_,fun b hb => ?_,fun hfirst => ?_,fun hlast => ?_⟩
  · rcases head_escaped h with hsame | hpercent
    · rw [hnil] at hsame
      exact hm.ne (List.head?_eq_none_iff.mp hsame.symm)
    · rw [hnil] at hpercent
      cases hpercent
  · obtain ⟨c,hc,rfl⟩ := List.mem_map.mp hb
    obtain ⟨hcn,hkept⟩ := List.mem_filter.mp hc
    rcases escaped_bytes h hcn with hin | rfl | hdigit
    · exact hm.bytes _ (List.mem_map_of_mem (List.mem_filter.mpr ⟨hin,hkept⟩))
    · decide
    · obtain ⟨-,hplus,hspace⟩ := digit_kept c hdigit
      rw [hplus]
      exact ⟨hspace,(hexDigit_byte c hdigit).2.2.2⟩
  · rcases head_escaped h with hsame | hpercent
    · exact hm.first (hsame ▸ hfirst)
    · rw [hpercent] at hfirst
      cases hfirst
  · rcases last_escaped h with hsame | ⟨b,hb,hdigit⟩
    · exact hm.last (hsame ▸ hlast)
    · rw [hb] at hlast
      cases hlast
      exact absurd rfl (hexDigit_byte 0x2B hdigit).2.1

theorem plus_edge (b : UInt8) (hne : plus b ≠ 0x2B) (hspace : spaceByte (plus b) = false) :
    spaceByte b = false := by
  by_cases hb : b = 0x20
  · exact absurd (if_pos hb) hne
  · rwa [plus,if_neg hb] at hspace

theorem whiteSpace_ne : [] ∉ whiteSpace := by decide

end Edges

section Decoding

theorem unescape_plus (u : Bytes) :
    (unescape false (u.map plus)).map (List.map plus) =
      (unescape false u).map (List.map plus) := by
  fun_induction unescape false u with
  | case1 => rfl
  | case2 hi lo rest ih =>
    have hdigits : hexByte (plus hi) (plus lo) = hexByte hi lo := by
      rw [hexByte,hexByte,(plus_hexDigit hi).1,(plus_hexDigit lo).1]
    rw [List.map_cons,List.map_cons,List.map_cons,show plus 0x25 = 0x25 from rfl]
    cases hb : hexByte hi lo with
    | none =>
      rw [unescape.eq_def]
      simp only [if_true,hdigits,hb,Option.bind_none]
    | some b =>
      rw [unescape_escape (hdigits.trans hb),Option.bind_some,Option.map_map,Option.map_map]
      have hcons : List.map plus ∘ (b :: ·) = (plus b :: ·) ∘ List.map plus := rfl
      rw [hcons,← Option.map_map,ih,Option.map_map]
  | case3 t hshort =>
    have hnone : unescape false (0x25::t.map plus) = none := by
      rw [unescape.eq_def]
      rcases t with _ | ⟨hi,_ | ⟨lo,rest⟩⟩
      · rfl
      · rfl
      · exact absurd rfl (hshort hi lo rest)
    rw [List.map_cons,show plus 0x25 = 0x25 from rfl,hnone]
  | case4 c t hc ih =>
    obtain ⟨-,hpercent,-,-,hplus,-⟩ := plus_hexDigit c
    rw [List.map_cons,unescape_keep fun hp => hc (hpercent.mp hp),Option.map_map,Option.map_map]
    have hcons : List.map plus ∘ (bare false (plus c) :: ·) = (plus c :: ·) ∘ List.map plus := by
      funext l
      simp only [Function.comp_apply,List.map_cons,bare_false,hplus]
    have hcons' : List.map plus ∘ (bare false c :: ·) = (plus c :: ·) ∘ List.map plus := rfl
    rw [hcons,hcons',← Option.map_map,ih,Option.map_map]

theorem trimSpace_unbroken {q : Bytes} (h : Solid (normal q)) :
    trimSpace (unbroken q) = unbroken q := by
  have hedge : ∀ b, plus b ∈ normal q → plus b ≠ 0x2B → spaceByte b = false := fun b hb hne =>
    plus_edge b hne (h.bytes _ hb).1
  have hspace : ∀ w ∈ whiteSpace, ∀ b ∈ w, spaceByte b = true := fun w hw b hb =>
    spaceByte_of_separating ⟨w,hw,hb⟩
  refine Separators.trim_of_ends (fun w hw hstarts => ?_) fun w hw hsuffix => ?_
  · cases w with
    | nil => exact whiteSpace_ne hw
    | cons b w =>
      obtain ⟨rest,hrest⟩ := hstarts
      have hnormal : normal q = plus b::((w ++ rest).map plus) := by
        rw [normal,← hrest]
        rfl
      have hfirst := h.first
      rw [hnormal,List.head?_cons] at hfirst
      have hb := hedge b (by rw [hnormal]; exact List.mem_cons_self) fun he => hfirst (by rw [he])
      rw [hspace _ hw b List.mem_cons_self] at hb
      cases hb
  · cases w using List.reverseRec with
    | nil => exact whiteSpace_ne hw
    | append_singleton w b =>
      obtain ⟨rest,hrest⟩ := hsuffix
      have hnormal : normal q = (rest ++ w).map plus ++ [plus b] := by
        rw [normal,← hrest]
        simp
      have hlast := h.last
      rw [hnormal,List.getLast?_concat] at hlast
      have hb := hedge b (by rw [hnormal]; simp) fun he => hlast (by rw [he])
      rw [hspace _ hw b (by simp)] at hb
      cases hb

theorem tryEncodings_none {s : Bytes} {c : UInt8} (hc : textChar c = false) (h : c ∈ s) :
    tryEncodings s = none := by
  cases htry : tryEncodings s with
  | none => rfl
  | some data =>
    obtain ⟨-,v,hv⟩ := firstDecoded_some htry
    rw [decode_chars hv c h] at hc
    cases hc

/-- The decoder depends on the normal form alone. -/
theorem tolerant_normal {q x : Bytes} (h : Solid (normal q))
    (hx : unescape false (normal q) = some x) :
    decodeBase64Tolerant q = tryEncodings (x.map plus) := by
  have hne : unbroken q ≠ [] := fun hnil => h.ne (by rw [normal,hnil]; rfl)
  have hplus := unescape_plus (unbroken q)
  rw [← normal,hx] at hplus
  obtain ⟨w,hw,hwx⟩ := Option.map_eq_some_iff.mp hplus.symm
  have hread : (if 0x25 ∈ unbroken q then (unescape false (unbroken q)).getD (unbroken q)
      else unbroken q) = w := by
    split
    · rw [hw]
      rfl
    · rename_i hnone
      exact Option.some.inj ((unescape_none hnone).symm.trans hw)
  have hsame : 0x20 ∉ w → x.map plus = w := fun hspace => by
    have hkept : ∀ c ∈ w, plus c = id c := fun c hc =>
      if_neg fun he : c = 0x20 => hspace (he ▸ hc)
    rw [← hwx,List.map_congr_left hkept,List.map_id]
  simp only [decodeBase64Tolerant,trimSpace_unbroken h,hne,if_false,hread]
  by_cases hspace : 0x20 ∈ w
  · rw [tryEncodings_none (c := 0x20) (by decide) hspace]
    simp only [hspace,if_true,hwx]
  · rw [hsame hspace]
    split
    · rename_i res hres
      exact hres.symm
    · rename_i hres
      rw [if_neg hspace,hres]

theorem unbroken_plus (x : Bytes) : unbroken (x.map plus) = normal x := by
  rw [normal,unbroken,unbroken,List.filter_map]
  have hsame : ((fun c => !isBreak c) ∘ plus) = fun c => !isBreak c := by
    funext c
    rw [Function.comp_apply,(plus_hexDigit c).2.2.2.2.2]
  rw [hsame]

/-- The digits of the escapes that matter, whatever their case. -/
theorem hexDigit_value : ∀ c : UInt8, (hexDigit c = some 0 → c = 0x30) ∧
    (hexDigit c = some 9 → c = 0x39) ∧ (hexDigit c = some 3 → lowerByte c = 0x33) ∧
    (hexDigit c = some 10 → lowerByte c = 0x61) ∧ (hexDigit c = some 2 → lowerByte c = 0x32) ∧
    (hexDigit c = some 15 → lowerByte c = 0x66) := by
  decide +kernel

theorem tab_digits {hi lo : UInt8} (h : hexByte hi lo = some 0x09) : hi = 0x30 ∧ lo = 0x39 := by
  obtain ⟨hhi,hlo⟩ := hexByte_value h
  exact ⟨(hexDigit_value hi).1 hhi,(hexDigit_value lo).2.1 hlo⟩

theorem plus_percent (c : UInt8) (h : plus c = 0x25 ∨ plus c = 0x30 ∨ plus c = 0x39) :
    plus c = c := by
  by_cases hc : c = 0x20
  · subst hc
    exact absurd h (by decide)
  · exact plus_of_ne hc

theorem tabbed_iff (q : Bytes) : Tabbed q ↔ [0x25,0x30,0x39] <:+: normal q := by
  constructor
  · intro h
    exact h.map plus
  · rintro ⟨before,after,h⟩
    obtain ⟨front,rest,hq,hfront,hrest⟩ := List.append_eq_map_iff.mp h
    obtain ⟨first,middle,hsplit,-,hmiddle⟩ := List.map_eq_append_iff.mp hfront
    have hid : middle = middle.map plus := by
      have hkept : ∀ c ∈ middle, plus c = id c := fun c hc => by
        refine plus_percent c ?_
        have hin : plus c ∈ ([0x25,0x30,0x39] : Bytes) := hmiddle ▸ List.mem_map_of_mem hc
        simpa using hin
      rw [List.map_congr_left hkept,List.map_id]
    refine ⟨first,rest,?_⟩
    rw [hq,hsplit,hid,hmiddle]

/-- Whether a tab comes back shows in the payload. -/
theorem tab_iff {q x : Bytes} (hx : unescape false (normal q) = some x) :
    0x09 ∈ x.map plus ↔ Tabbed q := by
  have htab : ∀ c : UInt8, plus c = 0x09 → c = 0x09 := fun c hplus => by
    by_cases hc : c = 0x20
    · subst hc
      cases hplus
    · exact (plus_of_ne hc).symm.trans hplus
  rw [tabbed_iff]
  constructor
  · intro hin
    obtain ⟨c,hc,hplus⟩ := List.mem_map.mp hin
    rcases reads_origin (reads_of_unescape hx) (htab c hplus ▸ hc) with hraw | ⟨hi,lo,hat,hbyte⟩
    · cases normal_bytes hraw
    · obtain ⟨rfl,rfl⟩ := tab_digits hbyte
      exact hat
  · intro hat
    obtain ⟨b,hb,hbyte⟩ := reads_escape (reads_of_unescape hx) hat
    have htabbed : hexByte 0x30 0x39 = some 0x09 := by decide
    rw [htabbed] at hbyte
    cases hbyte
    exact List.mem_map.mpr ⟨0x09,hb,rfl⟩

theorem unwrapped_of_unbroken {y : Bytes} (htab : 0x09 ∉ y) : unwrapped y = unbroken y := by
  refine List.filter_congr fun c hc => ?_
  have hne : c ≠ 0x09 := fun he => htab (he ▸ hc)
  simp [lineBreak,isBreak,hne,Bool.or_comm]

/-- The encoded bytes come back unless a tab comes with them. -/
theorem tolerant_altered {v : Variant} {json q x : Bytes} (h : Solid (normal q))
    (hx : unescape false (normal q) = some x) (hnormal : normal x = encode v json) :
    decodeBase64Tolerant q = if Tabbed q then none else some json := by
  rw [tolerant_normal h hx]
  split
  · rename_i htab
    exact tryEncodings_none (by decide) ((tab_iff hx).mpr htab)
  · rename_i htab
    have hwrapped : unwrapped (x.map plus) = encode v json := by
      rw [unwrapped_of_unbroken fun hin => htab ((tab_iff hx).mp hin),unbroken_plus,hnormal]
    rw [tryEncodings,firstDecoded_wrapped hwrapped]
    rfl

end Decoding

section Encoding

variable {v : Variant} {json : Bytes}

theorem encoded_byte : (∀ urlSafe : Bool, ∀ n < 64, isBreak (digit urlSafe n) = false ∧
      0x20 < digit urlSafe n ∧ digit urlSafe n < 0x80 ∧ digit urlSafe n ≠ 0x3A ∧
        digit urlSafe n ≠ 0x25) ∧
    isBreak pad = false ∧ 0x20 < pad ∧ pad < 0x80 ∧ pad ≠ 0x3A ∧ pad ≠ 0x25 := by
  decide +kernel

theorem encode_byte {c : UInt8} (h : c ∈ encode v json) :
    isBreak c = false ∧ plus c = c ∧ spaceByte c = false ∧ c < 0x80 ∧ c ≠ 0x3A ∧ c ≠ 0x25 := by
  have hc : isBreak c = false ∧ 0x20 < c ∧ c < 0x80 ∧ c ≠ 0x3A ∧ c ≠ 0x25 := by
    rcases encode_char h with rfl | ⟨n,hn,rfl⟩
    · exact encoded_byte.2
    · exact encoded_byte.1 v.urlSafe n hn
  obtain ⟨hbreak,hlow,hascii,hne⟩ := hc
  exact ⟨hbreak,plus_of_ne fun he => absurd (he ▸ hlow) (by decide),
    spaceByte_printable c hlow hascii,hascii,hne⟩

theorem normal_encode (v : Variant) (json : Bytes) : normal (encode v json) = encode v json := by
  have hkept : ∀ c ∈ encode v json, plus c = id c := fun c hc => (encode_byte hc).2.1
  have hunbroken : unbroken (encode v json) = encode v json :=
    List.filter_eq_self.mpr fun c hc => by rw [(encode_byte hc).1]; rfl
  rw [normal,hunbroken,List.map_congr_left hkept,List.map_id]

/-- An encoded document neither begins nor ends with a plus sign. -/
theorem solid_encode (v : Variant) (h : valid json = true) : Solid (encode v json) := by
  obtain ⟨⟨b,rest,hfirst,hb⟩,init,e,hlast,he⟩ := valid_ends h
  have hplain : ∀ c : UInt8, plain c = true → c.toNat/4 < 62 ∧ c.toNat%64 ≠ 62 := by
    decide +kernel
  have hhead : (encode v json).head? = some (digit v.urlSafe (b.toNat/4)) := by
    rw [hfirst,encode_head]
  refine ⟨fun hnil => ?_,fun c hc => ⟨(encode_byte hc).2.2.1,(encode_byte hc).2.2.2.1⟩,
    fun hplus => ?_,fun hplus => ?_⟩
  · rw [hnil] at hhead
    cases hhead
  · have hlt := (hplain b hb).1
    rw [hhead] at hplus
    have := digit_plus v.urlSafe _ (by omega) (Option.some.inj hplus)
    omega
  · have hend : json.getLast? = some e := by rw [hlast,List.getLast?_concat]
    exact (hplain e he).2 (encode_last hend hplus)

end Encoding

section Links

variable {ρ : Type} {lowerRune : Rune → Rune} {unmarshal : Unmarshal ρ} {action : Action}

theorem toLower_ascii (hlower : LowersASCII lowerRune) {s : Bytes} (hs : ∀ b ∈ s, b < 0x80) :
    toLower lowerRune s = s.map lowerByte := by
  have h := mapRunes_ascii (fun a ha => ⟨hlower a ha,lowerByte_ascii a ha⟩) hs []
  rw [List.append_nil] at h
  exact h.trans (List.append_nil _)

theorem ascii_of_normal {t : Bytes} (h : ∀ b ∈ normal t, b < 0x80) : ∀ b ∈ t, b < 0x80 := by
  intro b hb
  by_cases hspace : b = 0x20
  · subst hspace
    decide
  cases hbreak : isBreak b with
  | true =>
    simp only [isBreak,Bool.or_eq_true,decide_eq_true_eq] at hbreak
    rcases hbreak with (rfl | rfl) | rfl <;> decide
  | false =>
    have hmem : plus b ∈ normal t :=
      List.mem_map_of_mem (List.mem_filter.mpr ⟨hb,by simp [hbreak]⟩)
    exact plus_of_ne hspace ▸ h _ hmem

theorem keywords : keyword .add = [0x61,0x64,0x64,0x2F] ∧
    keyword .onAdd = [0x6F,0x6E,0x61,0x64,0x64,0x2F] ∧ ascii "off" = [0x6F,0x66,0x66] ∧
    ascii "off/" = [0x6F,0x66,0x66,0x2F] ∧ ascii "off?" = [0x6F,0x66,0x66,0x3F] := by
  decide

theorem head_bytes (action : Action) (b : UInt8) (h : b ∈ head action) :
    b < 0x80 ∧ lowerByte b = b ∧ spaceByte b = false ∧ b ≠ 0x25 ∧ bare true b = b := by
  have hbytes : ∀ b ∈ head action,
      0x20 < b ∧ b < 0x80 ∧ lowerByte b = b ∧ b ≠ 0x25 ∧ bare true b = b := by
    rw [head,HappLinks.target_eq]
    cases action with
    | add => rw [keywords.1]; simp [lowerByte,bare]
    | onAdd => rw [keywords.2.1]; simp [lowerByte,bare]
  obtain ⟨hlow,hascii,hlower,hpercent,hbare⟩ := hbytes b h
  exact ⟨hascii,hlower,spaceByte_printable b hlow hascii,hpercent,hbare⟩

theorem lower_head (action : Action) : (head action).map lowerByte = head action := by
  have hkept : ∀ b ∈ head action, lowerByte b = id b := fun b hb => (head_bytes action b hb).2.1
  rw [List.map_congr_left hkept,List.map_id]

theorem isOff_keyword (action : Action) (t : Bytes) : isOff (keyword action ++ t) = false := by
  obtain ⟨hadd,honAdd,hoff,hslash,hquery⟩ := keywords
  cases action with
  | add =>
    rw [isOff,hadd,hoff,hslash,hquery]
    simp [List.isPrefixOf]
  | onAdd =>
    rw [isOff,honAdd,hoff,hslash,hquery]
    simp [List.isPrefixOf]

theorem lower_keyword (hlower : LowersASCII lowerRune) {q : Bytes} (hq : ∀ b ∈ q, b < 0x80) :
    toLower lowerRune (keyword action ++ q) = keyword action ++ q.map lowerByte := by
  have hkeyword : ∀ b ∈ keyword action, b ∈ head action := fun b hb =>
    List.mem_append_right target hb
  rw [toLower_ascii hlower,List.map_append]
  · have hkept : ∀ b ∈ keyword action, lowerByte b = id b := fun b hb =>
      (head_bytes action b (hkeyword b hb)).2.1
    rw [List.map_congr_left hkept,List.map_id]
  · intro b hb
    rcases List.mem_append.mp hb with hb | hb
    · exact (head_bytes action b (hkeyword b hb)).1
    · exact hq b hb

theorem actionOf_keyword (hlower : LowersASCII lowerRune) {q : Bytes} (hq : ∀ b ∈ q, b < 0x80) :
    actionOf lowerRune (keyword action ++ q) = some (action,q) := by
  obtain ⟨hadd,honAdd,-⟩ := keywords
  rw [actionOf,lower_keyword hlower hq]
  cases action with
  | add =>
    rw [if_pos (List.isPrefixOf_iff_prefix.mpr (List.prefix_append _ _)),hadd]
    rfl
  | onAdd =>
    rw [if_neg,if_pos (List.isPrefixOf_iff_prefix.mpr (List.prefix_append _ _)),honAdd]
    · rfl
    · rw [hadd,honAdd]
      simp

/-- A link that is in the clear is read by its payload. -/
theorem parse_clear (hlower : LowersASCII lowerRune) {raw q : Bytes} (hne : trimSpace raw ≠ [])
    (hq : ∀ b ∈ q, b < 0x80)
    (hdecoded : decodedLink lowerRune (trimSpace raw) = head action ++ q) :
    parseLink lowerRune unmarshal raw = parsePayload unmarshal action q := by
  have hascii : ∀ b ∈ head action ++ q, b < 0x80 := fun b hb =>
    (List.mem_append.mp hb).elim (fun hb => (head_bytes action b hb).1) (hq b)
  have hstarts : target.isPrefixOf (toLower lowerRune (head action ++ q)) = true := by
    rw [toLower_ascii hlower hascii,List.map_append,lower_head,head,List.append_assoc]
    exact List.isPrefixOf_iff_prefix.mpr (List.prefix_append _ _)
  have hrest : (head action ++ q).drop target.length = keyword action ++ q := by
    rw [head,List.append_assoc,List.drop_left]
  rw [parseLink,if_neg hne]
  simp only [hdecoded,hstarts,if_true,hrest]
  rw [lower_keyword hlower hq,isOff_keyword,actionOf_keyword hlower hq]
  rfl

theorem parsePayload_altered {v : Variant} {json q x : Bytes} (hjson : IsProfile unmarshal json)
    (h : Solid (normal q)) (hx : unescape false (normal q) = some x)
    (hnormal : normal x = encode v json) :
    (∃ profile, parsePayload unmarshal action q = some (.profile action profile json)) ↔
      ¬Tabbed q := by
  obtain ⟨hlen,hvalid,profile,hprofile,hname⟩ := hjson
  rw [parsePayload,tolerant_altered h hx hnormal]
  by_cases htab : Tabbed q
  · rw [if_pos htab]
    simp [htab]
  · rw [if_neg htab,Option.bind_some,if_neg (Nat.not_lt.mpr hlen),if_neg (by simp [hvalid]),
      hprofile,Option.bind_some,if_neg hname]
    simp [htab]

/-- What trimming takes from the end of a link are line breaks of its payload. -/
theorem trimSpace_link {front t : Bytes} (hne : front ≠ [])
    (hfront : ∀ b ∈ front, spaceByte b = false) (ht : Solid (normal t)) :
    ∃ t' after, t = t' ++ after ∧ (∀ b ∈ after, isBreak b = true) ∧
      trimSpace (front ++ t) = front ++ t' := by
  obtain ⟨before,after,hsplit,hbefore,hafter⟩ := trim_spec whiteSpace (front ++ t)
  have hspace : ∀ b ∈ front, ¬Separating whiteSpace b := fun b hb hsep => by
    have := spaceByte_of_separating hsep
    rw [hfront b hb] at this
    cases this
  have hnil : before = [] := by
    obtain ⟨b,front,rfl⟩ := List.exists_cons_of_ne_nil hne
    cases before with
    | nil => rfl
    | cons c before =>
      obtain ⟨rfl,-⟩ := List.cons.inj hsplit
      exact absurd (hbefore b List.mem_cons_self) (hspace b List.mem_cons_self)
  rw [hnil,List.nil_append] at hsplit
  have hbreaks : ∀ rest, t = rest ++ after → ∀ b ∈ after, isBreak b = true := fun rest hrest => by
    by_contra hsome
    push Not at hsome
    have hne' : unbroken after ≠ [] := by
      obtain ⟨b,hb,hbreak⟩ := hsome
      exact List.ne_nil_of_mem (List.mem_filter.mpr ⟨hb,by simpa using hbreak⟩)
    have hmem := List.getLast_mem hne'
    have hlast : (normal t).getLast? = some (plus ((unbroken after).getLast hne')) := by
      rw [hrest,normal_append,List.getLast?_append,normal,List.getLast?_map,
        List.getLast?_eq_some_getLast hne']
      rfl
    have hplus : plus ((unbroken after).getLast hne') ≠ 0x2B := fun he =>
      ht.last (by rw [hlast,he])
    have hsep := spaceByte_of_separating (hafter _ (List.mem_filter.mp hmem).1)
    rw [plus_edge _ hplus (ht.bytes _ (List.mem_of_getLast? hlast)).1] at hsep
    cases hsep
  rcases List.append_eq_append_iff.mp hsplit with ⟨mid,hmid,hrest⟩ | ⟨mid,hmid,hrest⟩
  · exact ⟨mid,after,hrest,hbreaks mid hrest,hmid⟩
  · cases mid using List.reverseRec with
    | nil =>
      rw [List.append_nil] at hmid
      exact ⟨[],after,hrest.symm,hbreaks [] hrest.symm,hmid.symm.trans (List.append_nil _).symm⟩
    | append_singleton mid b =>
      have hsep := hafter b (by rw [hrest]; simp)
      exact absurd hsep (hspace b (by rw [hmid]; simp))

theorem infix_of_append {a k t : Bytes} {c : UInt8} (ha : c ∉ a) (h : c::k <:+: a ++ t) :
    c::k <:+: t := by
  induction a with
  | nil => exact h
  | cons b a ih =>
    rcases List.infix_cons_iff.mp h with hstarts | h
    · exact absurd ((List.cons_prefix_cons.mp hstarts).1 ▸ List.mem_cons_self) ha
    · exact ih (fun hc => ha (List.mem_cons_of_mem b hc)) h

end Links

section Transported

variable {ρ : Type} {lowerRune : Rune → Rune} {unmarshal : Unmarshal ρ} {action : Action}
  {v : Variant} {json q : Bytes}

/-- What is known of an altered payload. -/
structure Carries (v : Variant) (json q : Bytes) : Prop where
  solid : Solid (normal q)
  read : ∃ x, unescape false (normal q) = some x ∧ normal x = encode v json

theorem carries_altered (hvalid : valid json = true) (h : Altered (encode v json) q) :
    Carries v json q := by
  obtain ⟨m,n,hm,hescaped,hq⟩ := h
  have hnormal : normal m = encode v json := (normal_transport hm).trans (normal_encode v json)
  obtain ⟨x,hx,hxm⟩ := escaped_normal hescaped
  have hsolid := solid_escaped hescaped (hnormal ▸ solid_encode v hvalid)
  refine ⟨?_,x,?_,hxm.trans hnormal⟩
  · rw [normal_transport hq]
    exact hsolid
  · rw [normal_transport hq]
    exact hx

theorem carries_normal {q' : Bytes} (hnormal : normal q' = normal q) (h : Carries v json q) :
    Carries v json q' := ⟨hnormal ▸ h.solid,hnormal ▸ h.read⟩

theorem tabbed_normal {q' : Bytes} (hnormal : normal q' = normal q) : Tabbed q' ↔ Tabbed q := by
  rw [tabbed_iff,tabbed_iff,hnormal]

theorem normal_breaks {after : Bytes} (h : ∀ b ∈ after, isBreak b = true) (t : Bytes) :
    normal (t ++ after) = normal t := by
  have hnone : unbroken after = [] :=
    List.filter_eq_nil_iff.mpr fun b hb => by rw [h b hb]; decide
  rw [normal_append,normal,normal,hnone]
  exact List.append_nil _

theorem head_ne (action : Action) : head action ≠ [] := by
  cases action <;> decide

/-- No payload looks like an encoded scheme. -/
theorem clear_of_carries (hlower : LowersASCII lowerRune) (h : Carries v json q) :
    decodedLink lowerRune (head action ++ q) = head action ++ q := by
  have hascii : ∀ b ∈ head action ++ q, b < 0x80 := fun b hb =>
    (List.mem_append.mp hb).elim (fun hb => (head_bytes action b hb).1)
      (ascii_of_normal (fun c hc => (h.solid.bytes c hc).2) b)
  rw [decodedLink,if_neg]
  rw [toLower_ascii hlower hascii]
  rintro ⟨before,after,hat⟩
  have hlowered : ∀ c : UInt8, (lowerByte c = 0x25 → c = 0x25) ∧ (lowerByte c = 0x33 → c = 0x33) ∧
      (lowerByte c = 0x61 → isBreak c = false ∧ plus c = c ∧ hexByte 0x33 c = some 0x3A) := by
    decide +kernel
  have hcolon : ascii "%3a%2f%2f" = 0x25::0x33::0x61::ascii "%2f%2f" := by decide
  rw [hcolon,List.append_assoc] at hat
  obtain ⟨front,rest,hfront,-,hrest⟩ := List.map_eq_append_iff.mp hat.symm
  obtain ⟨a,rest,rfl,ha,hrest⟩ := List.map_eq_cons_iff.mp hrest
  obtain ⟨b,rest,rfl,hb,hrest⟩ := List.map_eq_cons_iff.mp hrest
  obtain ⟨c,rest,rfl,hc,-⟩ := List.map_eq_cons_iff.mp hrest
  obtain rfl := (hlowered a).1 ha
  obtain rfl := (hlowered b).2.1 hb
  obtain ⟨hbreak,hplus,hbyte⟩ := (hlowered c).2.2 hc
  have hin : [0x25,0x33,c] <:+: head action ++ q := ⟨front,rest,by rw [hfront]; simp⟩
  obtain ⟨pre,post,hq⟩ := infix_of_append (fun hp => (head_bytes action _ hp).2.2.2.1 rfl) hin
  have hnormal : [0x25,0x33,c] <:+: normal q := by
    refine ⟨normal pre,normal post,?_⟩
    rw [← hq,normal_append,normal_append,normal_cons,normal_cons,normal_single,hbreak,hplus]
    rfl
  obtain ⟨x,hx,hxe⟩ := h.read
  obtain ⟨byte,hbyte',hvalue⟩ := reads_escape (reads_of_unescape hx) hnormal
  rw [hbyte] at hvalue
  cases hvalue
  have hmem : plus 0x3A ∈ normal x :=
    List.mem_map_of_mem (List.mem_filter.mpr ⟨hbyte',by decide⟩)
  rw [hxe] at hmem
  exact (encode_byte hmem).2.2.2.2.1 (by decide)

/-- A link sent in the clear. -/
theorem bare_arrives (hlower : LowersASCII lowerRune) (hjson : IsProfile unmarshal json)
    (h : Carries v json q) :
    Arrives lowerRune unmarshal action json (head action ++ q) ↔ ¬Tabbed q := by
  obtain ⟨q',after,hq,hbreaks,htrim⟩ := trimSpace_link (head_ne action)
    (fun b hb => (head_bytes action b hb).2.2.1) h.solid
  have hnormal : normal q' = normal q := by rw [hq,normal_breaks hbreaks]
  have hcarries := carries_normal hnormal h
  obtain ⟨x,hx,hxe⟩ := hcarries.read
  have hne : trimSpace (head action ++ q) ≠ [] := by
    rw [htrim]
    exact List.append_ne_nil_of_left_ne_nil (head_ne action) q'
  have hdecoded : decodedLink lowerRune (trimSpace (head action ++ q)) = head action ++ q' := by
    rw [htrim]
    exact clear_of_carries hlower hcarries
  have hparse : parseLink lowerRune unmarshal (head action ++ q) =
      parsePayload unmarshal action q' :=
    parse_clear hlower hne (ascii_of_normal fun c hc => (hcarries.solid.bytes c hc).2) hdecoded
  rw [Arrives,hparse,parsePayload_altered hjson hcarries.solid hx hxe,tabbed_normal hnormal]

theorem escaped_reserved {c : UInt8} {m n : Bytes} (hc : reserved c = true)
    (h : Escaped reserved (c::m) n) :
    ∃ hi lo n', n = 0x25::hi::lo::n' ∧ hexByte hi lo = some c ∧ Escaped reserved m n' := by
  cases h with
  | keep _ hkept _ =>
    rw [hc] at hkept
    cases hkept
  | escape hb hrest => exact ⟨_,_,_,rfl,hb,hrest⟩

theorem lower_colon {hi lo : UInt8} (h : hexByte hi lo = some 0x3A) :
    lowerByte hi = 0x33 ∧ lowerByte lo = 0x61 := by
  obtain ⟨hhi,hlo⟩ := hexByte_value h
  exact ⟨(hexDigit_value hi).2.2.1 hhi,(hexDigit_value lo).2.2.2.1 hlo⟩

theorem lower_slash {hi lo : UInt8} (h : hexByte hi lo = some 0x2F) :
    lowerByte hi = 0x32 ∧ lowerByte lo = 0x66 := by
  obtain ⟨hhi,hlo⟩ := hexByte_value h
  exact ⟨(hexDigit_value hi).2.2.2.2.1 hhi,(hexDigit_value lo).2.2.2.2.2 hlo⟩

/-- The scheme of a percent-encoded link is recognised. -/
theorem escaped_scheme {front : Bytes} (h : Escaped reserved (head action) front) :
    ascii "%3a%2f%2f" <:+: front.map lowerByte := by
  have hhead : head action =
      ascii "happ" ++ 0x3A::0x2F::0x2F::(ascii "routing/" ++ keyword action) := by
    cases action <;> decide
  rw [hhead] at h
  obtain ⟨before,after,rfl,-,hscheme⟩ := escaped_split h
  obtain ⟨h₁,l₁,after,rfl,hcolon,hscheme⟩ := escaped_reserved rfl hscheme
  obtain ⟨h₂,l₂,after,rfl,hslash,hscheme⟩ := escaped_reserved rfl hscheme
  obtain ⟨h₃,l₃,after,rfl,hslash',-⟩ := escaped_reserved rfl hscheme
  refine ⟨before.map lowerByte,after.map lowerByte,?_⟩
  simp only [List.map_append,List.map_cons,lower_colon hcolon,lower_slash hslash,
    lower_slash hslash',List.append_assoc]
  rfl

/-- A text with a reserved byte escaped does not begin as the text itself. -/
theorem not_prefix_escaped {k more n t : Bytes} (h : Escaped reserved (k ++ more) n)
    (hreserved : ∃ b ∈ k, reserved b = true) (hk : ∀ b ∈ k, b ≠ 0x25) :
    ¬k <+: (n ++ t).map lowerByte := by
  induction k generalizing n with
  | nil =>
    obtain ⟨b,hb,-⟩ := hreserved
    cases hb
  | cons c k ih =>
    rw [List.cons_append] at h
    cases h with
    | keep _ hkept hrest =>
      intro hstarts
      refine ih hrest ?_ (fun b hb => hk b (List.mem_cons_of_mem c hb))
        (List.cons_prefix_cons.mp hstarts).2
      obtain ⟨b,hb,hbr⟩ := hreserved
      rcases List.mem_cons.mp hb with rfl | hb
      · rw [hkept] at hbr
        cases hbr
      · exact ⟨b,hb,hbr⟩
    | escape _ _ =>
      intro hstarts
      exact hk c List.mem_cons_self (List.cons_prefix_cons.mp hstarts).1

theorem target_reserved : (∃ b ∈ target, reserved b = true) ∧ ∀ b ∈ target, b ≠ 0x25 := by
  rw [HappLinks.target_eq]
  exact ⟨⟨0x3A,by simp,rfl⟩,by simp⟩

theorem behind_break {after : Bytes} (h : ∀ b ∈ after, isBreak b = true) :
    ∀ b ∈ after, b ≠ 0x25 ∧ hexDigit b = none := by
  intro b hb
  have hbreak := h b hb
  simp only [isBreak,Bool.or_eq_true,decide_eq_true_eq] at hbreak
  rcases hbreak with (rfl | rfl) | rfl <;> decide

/-- A link that is percent-encoded as a whole. -/
theorem whole_arrives (hlower : LowersASCII lowerRune) (hjson : IsProfile unmarshal json)
    (h : Carries v json q) {front r sent : Bytes} (hfront : Escaped reserved (head action) front)
    (hr : Escaped reserved q r) (hsent : Transport r sent) :
    Arrives lowerRune unmarshal action json (front ++ sent) ↔
      ¬Tabbed q ∧ Unsplit (front ++ sent) := by
  have hnormal : normal sent = normal r := normal_transport hsent
  have hsolid : Solid (normal sent) := hnormal ▸ solid_escaped hr h.solid
  have hne : front ≠ [] := fun hnil => by
    rw [hnil] at hfront
    cases action <;> cases hfront
  have hbytes : ∀ b ∈ front, spaceByte b = false ∧ b < 0x80 := fun b hb => by
    rcases escaped_bytes hfront hb with hin | rfl | hdigit
    · exact ⟨(head_bytes action b hin).2.2.1,(head_bytes action b hin).1⟩
    · decide
    · exact ⟨(digit_kept b hdigit).2.2,(hexDigit_byte b hdigit).2.2.2⟩
  obtain ⟨sent',after,hsplit,hbreaks,htrim⟩ :=
    trimSpace_link hne (fun b hb => (hbytes b hb).1) hsolid
  have hnormal' : normal sent' = normal r := by
    rw [← hnormal,hsplit,normal_breaks hbreaks]
  have hascii : ∀ b ∈ front ++ sent', b < 0x80 := fun b hb =>
    (List.mem_append.mp hb).elim (fun hb => (hbytes b hb).2)
      (ascii_of_normal (fun c hc => (hsolid.bytes c (hnormal ▸ hnormal' ▸ hc)).2) b)
  have hfound : ascii "%3a%2f%2f" <:+: toLower lowerRune (front ++ sent') := by
    rw [toLower_ascii hlower hascii,List.map_append]
    exact (escaped_scheme hfront).trans (List.prefix_append _ _).isInfix
  have hread : unescape true (front ++ sent') = (unescape true sent').map (head action ++ ·) :=
    unescape_escaped hfront sent' fun b hb => (head_bytes action b hb).2.2.2.2
  have hunsplit : Unsplit (front ++ sent) ↔ (unescape true sent').isSome = true := by
    rw [Unsplit,hsplit,← List.append_assoc,unescape_behind (behind_break hbreaks),hread,
      Option.isSome_map]
  have hdecoded : decodedLink lowerRune (front ++ sent') =
      ((unescape true sent').map (head action ++ ·)).getD (front ++ sent') := by
    rw [decodedLink,if_pos hfound,hread]
  have hnonempty : trimSpace (front ++ sent) ≠ [] := by
    rw [htrim]
    exact List.append_ne_nil_of_left_ne_nil hne sent'
  rw [hunsplit]
  cases hsome : unescape true sent' with
  | none =>
    have hnone : parseLink lowerRune unmarshal (front ++ sent) = none := by
      rw [parseLink,if_neg hnonempty]
      simp only [htrim,hdecoded,hsome,Option.map_none,Option.getD_none]
      rw [toLower_ascii hlower hascii,if_neg]
      intro hstarts
      exact not_prefix_escaped hfront target_reserved.1 target_reserved.2
        (List.isPrefixOf_iff_prefix.mp hstarts)
    rw [Arrives,hnone]
    simp
  | some q' =>
    obtain ⟨x,hx,hxq⟩ := reads_normal (reads_of_unescape hsome)
    obtain ⟨y,hy,hyq⟩ := escaped_normal hr
    have hnormalq : normal q' = normal q := by
      rw [hnormal',hy] at hx
      rw [← hxq,← Option.some.inj hx,hyq]
    have hcarries := carries_normal hnormalq h
    obtain ⟨z,hz,hze⟩ := hcarries.read
    have hparse : parseLink lowerRune unmarshal (front ++ sent) =
        parsePayload unmarshal action q' := by
      refine parse_clear hlower hnonempty
        (ascii_of_normal fun c hc => (hcarries.solid.bytes c hc).2) ?_
      rw [htrim,hdecoded,hsome]
      rfl
    rw [Arrives,hparse,parsePayload_altered hjson hcarries.solid hz hze,tabbed_normal hnormalq]
    simp

variable (lowerRune) (unmarshal) (action) (v) (json) (q)

/-- A profile comes back from a link byte for byte, with the action of the link,
exactly when no tab was percent-encoded with the payload and no line break split
an escape of the whole link. -/
theorem sent_arrives (raw : Bytes) (hlower : LowersASCII lowerRune)
    (hjson : IsProfile unmarshal json) (haltered : Altered (encode v json) q)
    (hsent : Sent action q raw) :
    Arrives lowerRune unmarshal action json raw ↔
      ¬Tabbed q ∧ (Whole action q raw → Unsplit raw) := by
  have hcarries := carries_altered hjson.2.1 haltered
  rcases hsent with rfl | hwhole
  · have hbare : ¬Whole action q (head action ++ q) := by
      rintro ⟨front,r,sent,hfront,-,-,hraw⟩
      refine not_prefix_escaped hfront target_reserved.1 target_reserved.2 (t := sent) ?_
      rw [← hraw,List.map_append,lower_head,head,List.append_assoc]
      exact List.prefix_append _ _
    rw [bare_arrives hlower hjson hcarries]
    simp [hbare]
  · obtain ⟨front,r,sent,hfront,hr,htransport,rfl⟩ := id hwhole
    rw [whole_arrives hlower hjson hcarries hfront hr htransport]
    simp [hwhole]

end Transported

section Samples

def lowerASCII (r : Rune) : Rune := if 0x41 ≤ r ∧ r ≤ 0x5A then r+0x20 else r

def namedProfile : Bytes := ascii "\x7b\"Name\":\"de\"\x7d"

/-- The decoder on one document. -/
def decodeName : Unmarshal Unit := fun json =>
  if json = namedProfile then some ⟨ascii "de",()⟩ else none

theorem lowers_lowerASCII : LowersASCII lowerASCII := by
  unfold LowersASCII
  decide +kernel

theorem isProfile_named : IsProfile decodeName namedProfile := by
  refine ⟨by decide +kernel,by decide +kernel,⟨ascii "de",()⟩,if_pos rfl,by decide +kernel⟩

theorem encoded_plain (c : UInt8) (h : c ∈ encode ⟨false,true⟩ namedProfile) :
    c ≠ 0x25 ∧ false = false :=
  ⟨(encode_byte h).2.2.2.2.2,rfl⟩

/-- The first digit percent-encoded and the escape broken over two lines. -/
def brokenEscape : Bytes :=
  0x25::0x0A::0x36::0x35::(encode ⟨false,true⟩ namedProfile).tail

theorem broken_escape_arrives :
    Arrives lowerASCII decodeName .add namedProfile (head .add ++ brokenEscape) := by
  have hcons : encode ⟨false,true⟩ namedProfile =
      0x65::(encode ⟨false,true⟩ namedProfile).tail := by
    decide +kernel
  have hescaped : Escaped (fun _ => false) (encode ⟨false,true⟩ namedProfile)
      (0x25::0x36::0x35::(encode ⟨false,true⟩ namedProfile).tail) := by
    conv => arg 2; rw [hcons]
    exact .escape (by decide) (escaped_self fun c hc => encoded_plain c (List.mem_of_mem_tail hc))
  have haltered : Altered (encode ⟨false,true⟩ namedProfile) brokenEscape :=
    ⟨_,_,.refl,hescaped,.single (.lineBreak (a := [0x25]) (c := 0x0A) rfl)⟩
  refine (sent_arrives lowerASCII decodeName .add ⟨false,true⟩ namedProfile brokenEscape
    (head .add ++ brokenEscape) lowers_lowerASCII isProfile_named haltered (.inl rfl)).mpr
    ⟨by decide +kernel,?_⟩
  rintro ⟨front,r,sent,hfront,-,-,hraw⟩
  refine absurd ?_ (not_prefix_escaped hfront target_reserved.1 target_reserved.2 (t := sent))
  rw [← hraw,List.map_append,lower_head,head,List.append_assoc]
  exact List.prefix_append _ _

/-- A tab before the payload, percent-encoded with it. -/
def encodedTab : Bytes := 0x25::0x30::0x39::encode ⟨false,true⟩ namedProfile

theorem encoded_tab_lost :
    IsProfile decodeName namedProfile ∧
      Altered (encode ⟨false,true⟩ namedProfile) encodedTab ∧
      ¬Arrives lowerASCII decodeName .add namedProfile (head .add ++ encodedTab) := by
  have hescaped : Escaped (fun _ => false) (0x09::encode ⟨false,true⟩ namedProfile) encodedTab :=
    .escape (by decide) (escaped_self fun c hc => encoded_plain c hc)
  refine ⟨isProfile_named,⟨_,_,.single (.lineBreak (a := []) (c := 0x09) rfl),hescaped,.refl⟩,?_⟩
  rintro ⟨profile,hparse⟩
  have hnone : (parseLink lowerASCII decodeName (head .add ++ encodedTab)).isNone = true := by
    decide +kernel
  rw [hparse] at hnone
  cases hnone

end Samples

end Whoisthat.HappPayloads
