import Whoisthat.LinkPorts

/-!
# Writing a share link

The parts of a link are spelled with escapes at least where the link is cut, so
that cutting it gives the same parts back and decoding each of them once gives
what was meant. An address is a host, in brackets or not, and a port in decimal
digits.
-/

set_option autoImplicit false

namespace Whoisthat.LinkSpelling
open Whoisthat.Utf8 (Bytes)
open Whoisthat.Delimiters
open Whoisthat.HappLinks (ascii)
open Whoisthat.LinkText Whoisthat.LinkParsers Whoisthat.LinkPorts
open Whoisthat.Percent (Escaped hexByte hexDigit)

section Definitions

/-- The bytes at which a link is cut; a percent sign is always escaped. -/
def separator (c : UInt8) : Bool := c = hash || c = question || c = atSign || c = ampersand

/-- A text that is not empty, and how a link spells it. -/
structure Component where
  value : Bytes
  nonempty : value ≠ []
  text : Bytes
  escaped : Escaped separator value text

/-- A text in one of the variants of base64, and how a link spells that. -/
structure Base64Text (plain : Bytes) where
  variant : Base64.Variant
  text : Bytes
  escaped : Escaped separator (Base64.encode variant plain) text

structure Server where
  host : Bytes
  bracketed : Bool
  port : UInt16
  digits : Bytes
  nonempty : host ≠ []
  plain : ∀ c ∈ host, c ∉ [hash,question,atSign,slash,opening,closing]
  colons : colon ∈ host → bracketed = true
  isDecimal : IsDecimal digits
  reads : decimal digits = port.toNat

def Server.hostText (s : Server) : Bytes :=
  if s.bracketed then opening::s.host ++ [closing] else s.host

def Server.text (s : Server) : Bytes := s.hostText ++ colon::s.digits

def pairText (pair : Bytes × Bytes) : Bytes := pair.1 ++ equals::pair.2

def queryLine (q : Query) : Bytes := [ampersand].intercalate (q.map pairText)

/-- A query that can be written: each key once, and no value empty. -/
structure Writable (q : Query) : Prop where
  keys : (q.map Prod.fst).Nodup
  plain : ∀ p ∈ q, equals ∉ p.1 ∧ ∀ c ∈ [hash,ampersand], c ∉ p.1 ∧ c ∉ p.2
  values : ∀ p ∈ q, p.2 ≠ []

/-- What stands behind the address. -/
def queryPart (q : Query) : Bytes := if q = [] then [] else question::queryLine q

/-- A link behind its scheme. -/
def linkData (user : Bytes) (server : Server) (q : Query) (name : Bytes) : Bytes :=
  user ++ atSign::server.text ++ queryPart q ++ hash::name

/-- No percent sign is followed by two digits. -/
def Unescaped (s : Bytes) : Prop := ∀ hi lo, [percent,hi,lo] <:+: s → hexByte hi lo = none

end Definitions

section Decoding

variable {s : Bytes} {must : UInt8 → Bool} {m n : Bytes}

theorem escape_percent (hi lo : UInt8) (t : Bytes) :
    escape (percent::hi::lo::t) = hexByte hi lo := by
  simp [escape]

theorem urlDecode_keep {c : UInt8} (hc : c ≠ percent) (t : Bytes) :
    urlDecode (c::t) = c::urlDecode t := by
  have hnone : escape (c::t) = none := by
    match t with
    | [] => rfl
    | [_] => rfl
    | _::_::_ => exact if_neg hc
  rw [urlDecode,urlDecodeAfter,hnone]
  rfl

theorem urlDecode_escape {hi lo b : UInt8} (h : hexByte hi lo = some b) (t : Bytes) :
    urlDecode (percent::hi::lo::t) = b::urlDecode t := by
  have hsome := (escape_percent hi lo t).trans h
  rw [urlDecode,urlDecodeAfter,hsome]
  rfl

/-- One more byte, which may begin an escape. -/
theorem urlDecode_cons (c : UInt8) (t : Bytes) :
    urlDecode (c::t) = c::urlDecode t ∨
      ∃ hi lo b rest, c = percent ∧ t = hi::lo::rest ∧ hexByte hi lo = some b ∧
        urlDecode (c::t) = b::urlDecode rest := by
  cases he : escape (c::t) with
  | none =>
    refine .inl ?_
    rw [urlDecode,urlDecodeAfter,he]
    rfl
  | some b =>
    match t with
    | [] => cases he
    | [_] => cases he
    | hi::lo::rest =>
      have hc : c = percent := by
        by_contra hc
        rw [escape,if_neg hc] at he
        cases he
      subst hc
      have hb := (escape_percent hi lo rest).symm.trans he
      exact .inr ⟨hi,lo,b,rest,rfl,rfl,hb,urlDecode_escape hb rest⟩

theorem urlDecode_length (s : Bytes) : (urlDecode s).length ≤ s.length := by
  induction hn : s.length using Nat.strong_induction_on generalizing s with
  | _ n ih =>
    subst hn
    cases s with
    | nil => exact Nat.le_refl _
    | cons c t =>
      rcases urlDecode_cons c t with h | ⟨hi,lo,b,rest,-,rfl,-,h⟩
      · have ht := ih t.length (by simp) t rfl
        rw [h]
        simp only [List.length_cons]
        omega
      · have hrest := ih rest.length (by simp; omega) rest rfl
        rw [h]
        simp only [List.length_cons]
        omega

/-- Decoding leaves a text alone just when it has no escapes. -/
theorem urlDecode_self : urlDecode s = s ↔ Unescaped s := by
  induction s with
  | nil => exact iff_of_true rfl fun hi lo h => by simpa using h.length_le
  | cons c t ih =>
    rcases urlDecode_cons c t with h | ⟨hi,lo,b,rest,rfl,rfl,hb,h⟩
    · rw [h,List.cons_inj_right,ih]
      constructor
      · intro ht hi lo hin
        rcases List.infix_cons_iff.mp hin with hstarts | hin
        · obtain ⟨hc,hstarts⟩ := List.cons_prefix_cons.mp hstarts
          obtain ⟨rest,rfl⟩ := hstarts
          rw [← hc] at h
          by_contra hsome
          obtain ⟨b,hb⟩ := Option.ne_none_iff_exists'.mp hsome
          have hshort := urlDecode_length rest
          have hsame : urlDecode (percent::hi::lo::rest) = b::urlDecode rest :=
            urlDecode_escape hb rest
          have heq : urlDecode ([hi,lo] ++ rest) = hi::lo::rest := ih.mpr ht
          have hlen := congrArg List.length (h.symm.trans hsame)
          rw [heq] at hlen
          simp only [List.length_cons] at hlen
          omega
        · exact ht hi lo hin
      · exact fun hs hi lo hin => hs hi lo (hin.trans (List.suffix_cons c t).isInfix)
    · refine iff_of_false (fun heq => ?_) fun hs => ?_
      · have hlen := congrArg List.length (h.symm.trans heq)
        have hshort := urlDecode_length rest
        simp only [List.length_cons] at hlen
        omega
      · have hnone := hs hi lo ⟨[],rest,rfl⟩
        rw [hb] at hnone
        cases hnone

/-- A byte that can be no part of an escape is still there. -/
theorem urlDecode_mem {b : UInt8} (hb : b ≠ percent) (hdigit : hexDigit b = none) (h : b ∈ s) :
    b ∈ urlDecode s := by
  have hno {c : UInt8} (hc : (hexDigit c).isSome = true) : b ≠ c := fun heq => by
    rw [← heq,hdigit] at hc
    cases hc
  induction hn : s.length using Nat.strong_induction_on generalizing s with
  | _ n ih =>
    subst hn
    cases s with
    | nil => cases h
    | cons c t =>
      rcases urlDecode_cons c t with hd | ⟨hi,lo,x,rest,rfl,rfl,hbyte,hd⟩
      · rw [hd]
        rcases List.mem_cons.mp h with rfl | h
        · exact List.mem_cons_self
        · exact List.mem_cons_of_mem _ (ih t.length (by simp) h rfl)
      · obtain ⟨hhi,hlo⟩ := Percent.hexByte_digits hbyte
        have hrest : b ∈ rest := by simpa [hb,hno hhi,hno hlo] using h
        rw [hd]
        exact List.mem_cons_of_mem _ (ih rest.length (by simp; omega) hrest rfl)

/-- What was spelled is read back, whatever follows. -/
theorem urlDecode_escaped (h : Escaped must m n) (rest : Bytes) :
    urlDecode (n ++ rest) = m ++ urlDecode rest := by
  induction h with
  | nil => rfl
  | @keep c m n hc _ _ ih => rw [List.cons_append,urlDecode_keep hc,ih,List.cons_append]
  | @escape c hi lo m n hb _ ih =>
    rw [List.cons_append,List.cons_append,List.cons_append]
    exact (urlDecode_escape hb _).trans (by rw [ih,List.cons_append])

theorem urlDecode_spelled (h : Escaped must m n) : urlDecode n = m := by
  have hrest := urlDecode_escaped h []
  rw [List.append_nil] at hrest
  exact hrest.trans (List.append_nil m)

/-- A byte that must be escaped stands nowhere in a spelling. -/
theorem escaped_free (h : Escaped must m n) {b : UInt8} (hmust : must b = true)
    (hb : b ≠ percent) (hdigit : hexDigit b = none) : b ∉ n := by
  have hno {c : UInt8} (hc : (hexDigit c).isSome = true) : b ≠ c := fun heq => by
    rw [← heq,hdigit] at hc
    cases hc
  induction h with
  | nil => exact List.not_mem_nil
  | keep _ hkeep _ ih =>
    refine List.not_mem_cons_of_ne_of_not_mem (fun heq => ?_) ih
    rw [← heq,hmust] at hkeep
    cases hkeep
  | escape hbyte _ ih =>
    obtain ⟨hhi,hlo⟩ := Percent.hexByte_digits hbyte
    exact List.not_mem_cons_of_ne_of_not_mem hb (List.not_mem_cons_of_ne_of_not_mem (hno hhi)
      (List.not_mem_cons_of_ne_of_not_mem (hno hlo) ih))

theorem separators_free (h : Escaped separator m n) :
    ∀ c ∈ [hash,question,atSign,ampersand], c ∉ n := by
  have hseparator : [hash,question,atSign,ampersand].all (fun c => separator c && c ≠ percent &&
      (hexDigit c).isNone) = true := by decide
  intro c hc
  have hall := List.all_eq_true.mp hseparator c hc
  simp only [Bool.and_eq_true,decide_eq_true_eq,Option.isNone_iff_eq_none] at hall
  exact escaped_free h hall.1.1 hall.1.2 hall.2

theorem Component.text_ne (c : Component) : c.text ≠ [] := fun h => by
  have hvalue := urlDecode_spelled c.escaped
  rw [h] at hvalue
  exact c.nonempty hvalue.symm

end Decoding

section Encodings

/-- A byte outside both alphabets makes every variant fail. -/
theorem decode_foreign {text : Bytes} {c : UInt8} (hc : c ∈ text)
    (hforeign : Base64.textChar c = false) (v : Base64.Variant) : Base64.decode v text = none := by
  refine Option.eq_none_iff_forall_not_mem.mpr fun data hdata => ?_
  have hchar := Base64.decode_chars hdata c hc
  rw [hforeign] at hchar
  cases hchar

theorem mem_encodings (v : Base64.Variant) : v ∈ encodings := by
  obtain ⟨urlSafe,padded⟩ := v
  cases urlSafe <;> cases padded <;> decide

theorem decode_encode (v : Base64.Variant) (data : Bytes) :
    Base64.decode v (Base64.encode v data) = some data :=
  Base64.decode_wrapped (Base64.unwrapped_encode v data)

/-- Where the attempts that succeed agree, it does not matter which is the first. -/
theorem findSome_encodings {f : Base64.Variant → Option Bytes} {v : Base64.Variant} {data : Bytes}
    (hown : f v = some data) (hagree : ∀ enc x, f enc = some x → x = data) :
    encodings.findSome? f = some data := by
  cases hf : encodings.findSome? f with
  | none =>
    have hnone := List.findSome?_eq_none_iff.mp hf v (mem_encodings v)
    rw [hown] at hnone
    cases hnone
  | some found =>
    obtain ⟨enc,-,henc⟩ := List.exists_of_findSome?_eq_some hf
    exact congrArg some (hagree enc found henc)

theorem colon_encode (v : Base64.Variant) (data : Bytes) : colon ∉ Base64.encode v data :=
    fun hc => by
  have hnone := decode_foreign hc (by decide) v
  rw [decode_encode] at hnone
  cases hnone

/-- A link with an at sign is not taken for an encoded object. -/
theorem decodeVmessPayload_at {data : Bytes} (h : atSign ∈ data) :
    decodeVmessPayload data = none := by
  have hdecoded : atSign ∈ urlDecode data := urlDecode_mem (by decide) (by decide) h
  have hnone : ∀ text, atSign ∈ text →
      (encodings.findSome? fun enc => Base64.decode enc text) = none := fun text hin =>
    List.findSome?_eq_none_iff.mpr fun enc _ => decode_foreign hin (by decide) enc
  simp [decodeVmessPayload,hnone _ h,hnone _ hdecoded]

end Encodings

section Addresses

variable (server : Server)

theorem digits_free {digits : Bytes} (h : IsDecimal digits) {c : UInt8}
    (hc : decimalDigit c = false) : c ∉ digits := fun hin => by
  rw [h.2 c hin] at hc
  cases hc

theorem hostText_free {c : UInt8} (hc : c ∈ [hash,question,atSign,slash]) :
    c ∉ server.hostText := by
  have hne : [hash,question,atSign,slash].all (fun c => c ≠ opening && c ≠ closing) = true := by
    decide
  have hbrackets := List.all_eq_true.mp hne c hc
  simp only [Bool.and_eq_true,decide_eq_true_eq] at hbrackets
  have hhost : c ∉ server.host := fun hin => server.plain c hin
    (List.mem_append_left [opening,closing] hc)
  unfold Server.hostText
  split
  · simp [hhost,hbrackets]
  · exact hhost

/-- An address has none of the bytes at which a link is cut. -/
theorem text_free {c : UInt8} (hc : c ∈ [hash,question,atSign,slash]) : c ∉ server.text := by
  have hne : [hash,question,atSign,slash].all (fun c => c ≠ colon && !decimalDigit c) = true := by
    decide
  have hother := List.all_eq_true.mp hne c hc
  simp only [Bool.and_eq_true,decide_eq_true_eq,Bool.not_eq_true'] at hother
  have hdigits := digits_free server.isDecimal hother.2
  have hhost := hostText_free server hc
  simp [Server.text,hhost,hdigits,hother.1]

theorem parseUint_digits : parseUint server.digits = some server.port := by
  have hlt : decimal server.digits < 2^16 := by
    rw [server.reads]
    exact server.port.toNat_lt
  rw [parseUint,if_pos ⟨server.isDecimal.1,List.all_eq_true.mpr server.isDecimal.2,hlt⟩,
    server.reads,UInt16.ofNat_toNat]

theorem trimSuffix_text : trimSuffix [slash] server.text = server.text :=
  trimSuffix_free (text_free server (by simp))

theorem host_brackets : opening ∉ server.host ∧ closing ∉ server.host :=
  ⟨fun h => server.plain _ h (by simp),fun h => server.plain _ h (by simp)⟩

theorem trimBrackets_hostText : trimBrackets server.hostText = server.host := by
  obtain ⟨hopening,hclosing⟩ := host_brackets server
  unfold Server.hostText
  split
  · exact trimBrackets_pair
  · exact trimBrackets_free hopening hclosing

theorem parseHostPort_text : parseHostPort server.text = .ok (server.host,server.port) := by
  have hcolon : colon ∉ server.digits := colon_not_decimal server.isDecimal
  rw [parseHostPort_cut (trimSuffix_text server) hcolon,trimBrackets_hostText,
    if_neg server.nonempty,parseUint_digits]

theorem hysteriaAddress_text : hysteriaAddress server.text = .ok (server.host,server.port) := by
  obtain ⟨hopening,hclosing⟩ := host_brackets server
  have hcolon : colon ∉ server.digits := colon_not_decimal server.isDecimal
  unfold Server.text Server.hostText
  split
  · have htext : opening::server.host ++ [closing] ++ colon::server.digits =
        opening::server.host ++ closing::colon::server.digits := by simp
    have hhead : (colon::server.digits).head? = some colon := rfl
    rw [htext,hysteriaAddress_bracketed hclosing,if_pos hhead,List.drop_one,List.tail_cons,
      parseUint_digits]
  · have hhead : (server.host ++ colon::server.digits).head? ≠ some opening := by
      cases hh : server.host with
      | nil => exact absurd hh server.nonempty
      | cons c host =>
        rw [hh] at hopening
        exact fun h => hopening (List.mem_cons.mpr (.inl (Option.some.inj h).symm))
    rw [hysteriaAddress_cut hhead hcolon,parseUint_digits]

end Addresses

section Queries

variable {q : Query}

theorem queryOf_pairs (q res : Query) (hkeys : ((res ++ q).map Prod.fst).Nodup)
    (hfree : ∀ p ∈ q, equals ∉ p.1) (hvalues : ∀ p ∈ q, p.2 ≠ []) :
    (q.map pairText).foldl (fun res pair =>
      if (res.lookup (before equals pair)).isNone ∧ after equals pair ≠ [] then
        res ++ [(before equals pair,after equals pair)]
      else res) res = res ++ q := by
  induction q generalizing res with
  | nil => exact (List.append_nil res).symm
  | cons p q ih =>
    obtain ⟨k,v⟩ := p
    have hequals : equals ∉ k := hfree _ List.mem_cons_self
    have hnew : res.lookup k = none := by
      refine List.lookup_eq_none_iff.mpr fun p hp => ?_
      rw [List.map_append,List.nodup_append] at hkeys
      have hne := hkeys.2.2 p.1 (List.mem_map_of_mem hp) k (by simp)
      simpa using fun heq => hne heq.symm
    have hmore : res ++ (k,v)::q = (res ++ [(k,v)]) ++ q := by simp
    rw [List.map_cons,List.foldl_cons,pairText,before_cut hequals,after_cut hequals,hnew,
      if_pos ⟨rfl,hvalues _ List.mem_cons_self⟩,hmore]
    refine ih _ (hmore ▸ hkeys) ?_ ?_
    · exact fun p hp => hfree p (List.mem_cons_of_mem _ hp)
    · exact fun p hp => hvalues p (List.mem_cons_of_mem _ hp)

theorem writable_nil : Writable [] := ⟨List.nodup_nil,by simp,by simp⟩

theorem word_plain {w : Bytes} (h : w.all (fun c => c ≠ hash && c ≠ ampersand) = true) :
    ∀ b ∈ [hash,ampersand], b ∉ w := by
  intro b hb hin
  have hother := List.all_eq_true.mp h b hin
  simp only [Bool.and_eq_true,decide_eq_true_eq] at hother
  rcases List.mem_pair.mp hb with rfl | rfl
  · exact hother.1 rfl
  · exact hother.2 rfl

theorem text_plain (c : Component) : ∀ b ∈ [hash,ampersand], b ∉ c.text := by
  intro b hb
  refine separators_free c.escaped b ?_
  rcases List.mem_pair.mp hb with rfl | rfl
  · simp
  · simp

/-- One more pair with a key of its own. -/
theorem writable_cons {k v : Bytes} {q : Query} (hnew : k ∉ q.map Prod.fst)
    (hk : k.all (fun c => c ≠ equals && (c ≠ hash && c ≠ ampersand)) = true) (hv : v ≠ [])
    (hplain : ∀ b ∈ [hash,ampersand], b ∉ v) (hq : Writable q) : Writable ((k,v)::q) := by
  have hkey : k.all (fun c => c ≠ hash && c ≠ ampersand) = true := by
    refine List.all_eq_true.mpr fun c hc => ?_
    exact ((Bool.and_eq_true _ _).mp (List.all_eq_true.mp hk c hc)).2
  have hequals : equals ∉ k := fun hin => by
    have hother := List.all_eq_true.mp hk equals hin
    simp at hother
  refine ⟨List.nodup_cons.mpr ⟨hnew,hq.keys⟩,?_,?_⟩
  · refine List.forall_mem_cons.mpr ⟨⟨hequals,fun b hb => ?_⟩,hq.plain⟩
    exact ⟨word_plain hkey b hb,hplain b hb⟩
  · exact List.forall_mem_cons.mpr ⟨hv,hq.values⟩

/-- A query is read as it was written. -/
theorem queryOf_line (h : Writable q) (hne : q ≠ []) : queryOf (queryLine q) = q := by
  have hpairs : ∀ text ∈ q.map pairText, ampersand ∉ text := by
    intro text htext
    obtain ⟨p,hp,rfl⟩ := List.mem_map.mp htext
    obtain ⟨hk,hv⟩ := (h.plain p hp).2 ampersand (by simp)
    have hequals : ampersand ≠ equals := by decide
    simp [pairText,hk,hv,hequals]
  rw [queryOf,queryLine,List.splitOn_intercalate _ hpairs (by simpa using hne)]
  exact queryOf_pairs q [] h.keys (fun p hp => (h.plain p hp).1) h.values

theorem queryPart_free (h : Writable q) : hash ∉ queryPart q := by
  have hne : hash ≠ question ∧ hash ≠ equals ∧ hash ≠ ampersand := by decide
  unfold queryPart
  split
  · exact List.not_mem_nil
  · refine List.not_mem_cons_of_ne_of_not_mem hne.1 fun hin => ?_
    rcases mem_intercalate hin with heq | ⟨text,htext,hin⟩
    · exact hne.2.2 heq
    · obtain ⟨p,hp,rfl⟩ := List.mem_map.mp htext
      obtain ⟨hk,hv⟩ := (h.plain p hp).2 hash (by simp)
      simp [pairText,hk,hv,hne.2.1] at hin

end Queries

section Cutting

variable {server : Server} {user name : Bytes} {q : Query}

theorem before_hash (huser : hash ∉ user) (hq : Writable q) :
    before hash (linkData user server q name) = user ++ atSign::server.text ++ queryPart q ∧
      after hash (linkData user server q name) = name := by
  have hserver : hash ∉ server.text := text_free server (by simp)
  have hline : hash ∉ queryPart q := queryPart_free hq
  have hat : hash ≠ atSign := by decide
  have hfront : hash ∉ user ++ atSign::server.text ++ queryPart q := by
    simp [huser,hserver,hline,hat]
  exact ⟨before_cut hfront,after_cut hfront⟩

theorem front_data (huser : ∀ c ∈ [hash,question,atSign], c ∉ user) (hq : Writable q) :
    front (linkData user server q name) = user ++ atSign::server.text := by
  have hserver : question ∉ server.text := text_free server (by simp)
  have hat : question ≠ atSign := by decide
  have hfront : question ∉ user ++ atSign::server.text := by
    simp [huser question (by simp),hserver,hat]
  rw [front,(before_hash (huser hash (by simp)) hq).1]
  unfold queryPart
  split
  · rw [List.append_nil]
    exact before_free hfront
  · exact before_cut hfront

theorem queryOf_data (huser : ∀ c ∈ [hash,question,atSign], c ∉ user) (hq : Writable q) :
    queryOf (queryText (linkData user server q name)) = q := by
  have hserver : question ∉ server.text := text_free server (by simp)
  have hat : question ≠ atSign := by decide
  have hfront : question ∉ user ++ atSign::server.text := by
    simp [huser question (by simp),hserver,hat]
  rw [queryText,(before_hash (huser hash (by simp)) hq).1]
  unfold queryPart
  split
  · rename_i hnil
    rw [List.append_nil,after_free hfront,hnil]
    rfl
  · rename_i hne
    rw [after_cut hfront,queryOf_line hq hne]

/-- Cutting a link gives back the parts it was made of. -/
theorem splitLink_data (huser : ∀ c ∈ [hash,question,atSign], c ∉ user) (hq : Writable q) :
    splitLink (linkData user server q name) =
      .ok ⟨user,server.text,queryText (linkData user server q name),name⟩ := by
  have hat : atSign ∉ user := huser atSign (by simp)
  rw [splitLink_eq,front_data huser hq,if_pos (by simp),before_cut hat,after_cut hat,
    (before_hash (huser hash (by simp)) hq).2]

theorem parseAddressed_data (huser : ∀ c ∈ [hash,question,atSign], c ∉ user) (hq : Writable q) :
    parseAddressed (linkData user server q name) = .ok (q,{ queryData q with
      remarks := urlDecode name
      uuid := some (urlDecode user)
      address := some server.host
      port := some server.port }) := by
  unfold parseAddressed
  simp only [splitLink_data huser hq,parseHostPort_text,parseQuery_eq,queryOf_data huser hq,bind,
    Except.bind]
  rfl

end Cutting

end Whoisthat.LinkSpelling
