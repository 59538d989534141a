import Whoisthat.LinkSpelling
import Whoisthat.Patterns
import Whoisthat.RuleEnforcement
import Whoisthat.SubscriptionParse

/-!
# The port of a probe

A probe dials the stored port of a profile, or the one a regular expression
finds in its link, or a default. The configuration has the port the parser
reads. Profiles from links are stored without a port, and the expression knows
neither encoded links nor hosts with other bytes, nor where a link's address
ends when it has no port.
-/

set_option autoImplicit false

namespace Whoisthat.ProbePorts
open Whoisthat.Utf8 (Bytes)
open Whoisthat.Delimiters
open Whoisthat.HappLinks (ascii)
open Whoisthat.LinkText Whoisthat.LinkParsers Whoisthat.LinkPorts Whoisthat.LinkSpelling
open Whoisthat.Patterns
open Whoisthat.Json Whoisthat.ProviderConfig Whoisthat.SubscriptionParse

section Source

/-- `[\w.\-\[\]:]` -/
def portChar (c : UInt8) : Bool :=
  decimalDigit c || (0x41 ≤ c && c ≤ 0x5A) || (0x61 ≤ c && c ≤ 0x7A) || c = 0x5F || c = 0x2E ||
    c = 0x2D || c = opening || c = closing || c = colon

/-- The expression `@[\w.\-\[\]:]+:(\d+)`, with its group as the result. -/
def rePort : Pattern UInt8 Bytes :=
  followedBy (exactly atSign) (followedBy (plus portChar) (followedBy (exactly colon)
    (plus decimalDigit)))

def defaultPort (protocol : String) : ℕ :=
  if protocol = "vless" ∨ protocol = "vmess" ∨ protocol = "trojan" then 443
  else if protocol = "shadowsocks" then 8388
  else if protocol = "socks" then 1080
  else 443

/-- The number of the text; what does not fit an `int` counts as not found. -/
def extractPort (uri : Bytes) (protocol : String) : ℕ :=
  match find rePort uri with
  | some m => if decimal m < 2^63 then decimal m else defaultPort protocol
  | none => defaultPort protocol

structure Profile where
  uri : Bytes
  protocol : String
  port : ℤ
  config : Option Value

def profilePort (profile : Profile) : ℤ :=
  if 0 < profile.port then profile.port else extractPort profile.uri profile.protocol

def protocolName : Protocol → String
  | .vless => "vless"
  | .vmess => "vmess"
  | .trojan => "trojan"
  | .shadowsocks => "shadowsocks"
  | .socks => "socks"
  | .hysteria2 => "hysteria2"

/-- The profile of a link; the port of its metadata is not stored. -/
def getDBAddProfileDataFromURI (uri : Bytes) (proto : Protocol) : Profile :=
  ⟨uri,protocolName proto,0,none⟩

def configProfilesToDBData (p : ParsedProfile) : Profile := ⟨[],p.protocol,p.port,some p.raw⟩

end Source

section Specification

def literal (n : Number) : ℚ := (if n.negative then -1 else 1)*n.digits*10^n.exponent

/-- The port of the server an outbound of a configuration connects to. -/
def outboundPort (outbound : Fields) : Option ℚ :=
  let settings := (Fields.index outbound "settings").asMap
  let vnext := (Fields.index settings "vnext").asSlice
  let servers := (Fields.index settings "servers").asSlice
  let server := match vnext,servers with
    | ep::_,_ => ep.asMap
    | [],ep::_ => ep.asMap
    | [],[] => settings
  match Fields.index server "port" with
  | .num n => some (literal n)
  | _ => none

/-- An outbound that carries a proxy connection, and its port if there is one. -/
def proxyPort : Value → Option (Option ℚ)
  | .obj outbound =>
    if isServiceProtocol (Fields.index outbound "protocol").asString then none
    else some (outboundPort outbound)
  | _ => none

/-- The port of the first proxy of a configuration. -/
def configPort (config : Fields) : Option ℚ :=
  ((Fields.index config "outbounds").asSlice.findSome? proxyPort).join

/-- An imported profile, and the port in the configuration made for it. -/
inductive Imported (lib : Library) : Profile → Option ℚ → Prop where
  | link {uri : Bytes} {proto : Protocol} {outbound : LinkParsers.Outbound} {rd : RawData} :
      getUriProtocol uri = some proto → createOutboundObject lib uri = .ok (outbound,rd) →
      Imported lib (getDBAddProfileDataFromURI uri proto)
        (outbound.settings.port.map fun port => (port.toNat : ℚ))
  | managed {body : Option Value} {profiles : List ParsedProfile} {p : ParsedProfile}
      {opts : Options} {prepared : Prepared} :
      parse body = .ok profiles → p ∈ profiles → prepare p.raw opts = .ok prepared →
      Imported lib (configProfilesToDBData p) (configPort prepared.config)

/-- An address the expression can read as a whole. -/
def PlainAddress (addr : Bytes) : Prop := ∀ c ∈ addr, portChar c = true

/-- What the expression finds from the first at sign on. -/
def foundBehind (data : Bytes) (protocol : String) : ℕ :=
  extractPort (atSign::after atSign data) protocol

/-- The digits behind the last colon of an address. -/
def Digits (addr digits : Bytes) : Prop := ∃ raw, addr = raw ++ colon::digits ∧ colon ∉ digits

/-- The digits that Hysteria reads as a port. -/
inductive HysteriaDigits : Bytes → Bytes → Prop
  | bracketed {host digits : Bytes} : closing ∉ host →
      HysteriaDigits (opening::host ++ closing::colon::digits) digits
  | plain {raw digits : Bytes} : (raw ++ colon::digits).head? ≠ some opening → colon ∉ digits →
      (parseUint digits).isSome = true → HysteriaDigits (raw ++ colon::digits) digits

/-- Either the address is plain, or something else is found that has the same
number. -/
def ProbedText (data digits : Bytes) (protocol : String) : Prop :=
  PlainAddress (address data) ∨ foundBehind data protocol = decimal digits

/-- When the probe of a link dials the port of its address. -/
def ProbedLink (lib : Library) (data : Bytes) : Protocol → Prop
  | .vmess => match jsonOf lib data with
    | some m => vmessPort lib m = some 443
    | none => ∃ digits, Digits (address data) digits ∧ ProbedText data digits "vmess"
  | .socks => ∃ digits, Digits (address data) digits ∧
    if atSign ∈ front data then ProbedText data digits "socks"
    else extractPort data "socks" = decimal digits
  | .hysteria2 => (∃ digits, HysteriaDigits (address data) digits ∧
      ProbedText data digits "hysteria2") ∨
    ((∀ digits, ¬HysteriaDigits (address data) digits) ∧ foundBehind data "hysteria2" = 443)
  | proto => ∃ digits, Digits (address data) digits ∧ ProbedText data digits (protocolName proto)

/-- When the probe of a profile dials the port of its configuration. Of a managed
one the document must state the port that was stored, or the default. -/
def Probed (lib : Library) (profile : Profile) : Prop :=
  match profile.config with
  | none => ∀ proto, getUriProtocol profile.uri = some proto →
      ProbedLink lib (dataOf profile.uri) proto
  | some raw => ∃ fields, raw = .obj fields ∧ configPort (decodeFields [] fields) =
      if 0 < profile.port then some (profile.port : ℚ) else some (defaultPort profile.protocol : ℚ)

end Specification

section Reading

variable {raw digits rest addr data uri : Bytes}

/-- A plain address is read to its last colon, and the port behind it. -/
theorem rePort_plain (hraw : raw ≠ []) (hdigits : IsDecimal digits)
    (hplain : PlainAddress (raw ++ colon::digits)) (hrest : ∀ c ∈ rest.head?, portChar c = false) :
    find rePort (atSign::(raw ++ colon::digits ++ rest)) = some digits := by
  have hdigit : ∀ c, portChar c = false → decimalDigit c = false ∧ c ≠ colon := by decide +kernel
  have hend : ∀ c ∈ rest.head?, decimalDigit c = false := fun c hc => (hdigit c (hrest c hc)).1
  have hgroup : (followedBy (exactly colon) (plus decimalDigit) (colon::digits ++ rest)).head? =
      some (digits,rest) := by
    rw [List.cons_append,followedBy_hit]
    exact plus_head hdigits.1 hdigits.2 hend
  have hno : followedBy (plus portChar) (followedBy (exactly colon) (plus decimalDigit))
      (colon::digits ++ rest) = [] := by
    refine followedBy_none _ (fun c hc => hplain c (List.mem_append_right raw hc)) hrest ?_
    intro back hback
    refine followedBy_other fun hhead => ?_
    cases back with
    | nil => exact (hdigit colon (hrest colon hhead)).2 rfl
    | cons d back =>
      obtain rfl := Option.some.inj hhead
      exact colon_not_decimal hdigits (hback.subset List.mem_cons_self)
  have hsome : followedBy (exactly colon) (plus decimalDigit) (colon::digits ++ rest) ≠ [] :=
    fun h => by
      rw [h] at hgroup
      cases hgroup
  have hraws : ∀ c ∈ raw, portChar c = true := fun c hc => hplain c (List.mem_append_left _ hc)
  refine find_hit (r := (digits,rest)) ?_
  rw [rePort,followedBy_hit,List.append_assoc,followedBy_last _ hraw hraws hsome hno,hgroup]

theorem extractPort_skip {front : Bytes} (h : atSign ∉ front) (back : Bytes) (protocol : String) :
    extractPort (front ++ back) protocol = extractPort back protocol := by
  rw [extractPort,rePort,find_skip h]
  rfl

theorem extractPort_free (h : atSign ∉ uri) (protocol : String) :
    extractPort uri protocol = defaultPort protocol := by
  rw [extractPort,rePort,find_free h]

/-- What follows the front part of a link. -/
theorem front_append (data : Bytes) :
    ∃ rest, data = front data ++ rest ∧ ∀ c ∈ rest.head?, c = question ∨ c = hash := by
  obtain ⟨name,hdata,hname⟩ := before_append hash data
  obtain ⟨query,hfront,hquery⟩ := before_append question (before hash data)
  refine ⟨query ++ name,?_,fun c hc => ?_⟩
  · rw [front,← List.append_assoc,← hfront]
    exact hdata
  · cases query with
    | nil => exact .inr (hname c hc)
    | cons x query => exact .inl (hquery c hc)

/-- Behind the first at sign stands the address, and then none of its bytes. -/
theorem after_address (h : atSign ∈ front data) :
    ∃ user rest, data = user ++ atSign::(address data ++ rest) ∧ atSign ∉ user ∧
      after atSign data = address data ++ rest ∧ ∀ c ∈ rest.head?, portChar c = false := by
  have hall : [slash,question,hash].all (fun c => !portChar c) = true := by decide
  have hstop : ∀ c ∈ [slash,question,hash], portChar c = false := fun c hc => by
    simpa using List.all_eq_true.mp hall c hc
  obtain ⟨rest,hdata,hrest⟩ := front_append data
  obtain ⟨user,hostPort,hfront,huser⟩ := first_cut h
  have hhost : hostPortOf data = hostPort := by rw [hostPortOf,if_pos h,hfront,after_cut huser]
  have htrim : ∃ slashes, hostPort = address data ++ slashes ∧ ∀ c ∈ slashes.head?, c = slash := by
    rw [address,hhost]
    by_cases hsuffix : [slash] <:+ hostPort
    · obtain ⟨a,ha⟩ := hsuffix
      refine ⟨[slash],?_,?_⟩
      · rw [← ha,trimSuffix_hit]
      · rintro c ⟨⟩
        rfl
    · refine ⟨[],?_,?_⟩
      · rw [trimSuffix_miss hsuffix,List.append_nil]
      · rintro c ⟨⟩
  obtain ⟨slashes,htrim,hslash⟩ := htrim
  have hwhole : data = user ++ atSign::(address data ++ (slashes ++ rest)) := by
    rw [hfront] at hdata
    rw [← List.append_assoc,← htrim]
    simpa using hdata
  refine ⟨user,slashes ++ rest,hwhole,huser,?_,fun c hc => ?_⟩
  · rw [hwhole,after_cut huser,← hwhole]
  · refine hstop c ?_
    cases slashes with
    | nil => rcases hrest c hc with rfl | rfl <;> simp
    | cons x slashes =>
      rw [hslash c hc]
      simp

end Reading

section Links

variable {lib : Library} {data uri digits raw addr : Bytes}

/-- The part before the address does not matter to the search. -/
theorem extractPort_at {scheme : Bytes} (hscheme : atSign ∉ scheme) (h : atSign ∈ front data)
    (protocol : String) :
    extractPort (scheme ++ ascii "://" ++ data) protocol = foundBehind data protocol := by
  obtain ⟨user,rest,hdata,huser,hafter,-⟩ := after_address h
  have hsep : atSign ∉ ascii "://" := by decide
  have hfront : atSign ∉ scheme ++ ascii "://" ++ user := by simp [hscheme,hsep,huser]
  rw [foundBehind,hafter]
  conv_lhs => rw [hdata]
  rw [← List.append_assoc,extractPort_skip hfront]

theorem foundBehind_plain (h : atSign ∈ front data) (hcut : address data = raw ++ colon::digits)
    (hraw : raw ≠ []) (hdigits : IsDecimal digits) (hlt : decimal digits < 2^16)
    (hplain : PlainAddress (address data)) (protocol : String) :
    foundBehind data protocol = decimal digits := by
  obtain ⟨user,rest,-,-,hafter,hrest⟩ := after_address h
  have hfits : decimal digits < 2^63 := by omega
  rw [hcut] at hplain hafter
  rw [foundBehind,hafter,extractPort,rePort_plain hraw hdigits hplain hrest]
  exact if_pos hfits

/-- An accepted address states its port behind its last colon. -/
theorem digits_ok {hostPort host : Bytes} {port : UInt16}
    (h : parseHostPort hostPort = .ok (host,port)) :
    ∃ raw digits, trimSuffix [slash] hostPort = raw ++ colon::digits ∧ colon ∉ digits ∧
      raw ≠ [] ∧ IsDecimal digits ∧ decimal digits = port.toNat := by
  obtain ⟨raw,digits,hcut,hcolon,hhost,hne,hparse⟩ := parseHostPort_ok h
  obtain ⟨hdecimal,hport⟩ := parseUint_some hparse
  refine ⟨raw,digits,hcut,hcolon,fun hnil => ?_,hdecimal,hport.symm⟩
  rw [hhost,hnil] at hne
  exact hne rfl

/-- A link with an at sign and a stated port. -/
theorem probed_text {host : Bytes} {port : UInt16} (h : atSign ∈ front data)
    (hparse : parseHostPort (after atSign (front data)) = .ok (host,port)) (protocol : String) :
    port.toNat = foundBehind data protocol ↔
      ∃ digits, Digits (address data) digits ∧ ProbedText data digits protocol := by
  obtain ⟨raw,digits,hcut,hcolon,hraw,hdecimal,hport⟩ := digits_ok hparse
  rw [← address_at h] at hcut
  have hlt : decimal digits < 2^16 := hport ▸ port.toNat_lt
  rw [← hport]
  constructor
  · intro heq
    exact ⟨digits,⟨raw,hcut,hcolon⟩,.inr heq.symm⟩
  · rintro ⟨digits',⟨raw',hcut',hcolon'⟩,hprobed⟩
    obtain ⟨-,rfl⟩ := last_cut_unique hcolon hcolon' (hcut.symm.trans hcut')
    rcases hprobed with hplain | hfound
    · exact (foundBehind_plain h hcut hraw hdecimal hlt hplain protocol).symm
    · exact hfound.symm

/-- A link behind whose at sign an address was accepted, with the port served. -/
def ServedAt (data : Bytes) (s : Settings) : Prop :=
  atSign ∈ front data ∧ ∃ host port,
    parseHostPort (after atSign (front data)) = .ok (host,port) ∧ s.port = some port

theorem served_addressed {k : Query × RawData → Result (RawData × Settings)} {rd : RawData}
    {s : Settings} (hk : ∀ q rd, ∃ rd' s, k (q,rd) = .ok (rd',s) ∧ s.port = rd.port)
    (h : (parseAddressed data >>= k) = .ok (rd,s)) : ServedAt data s := by
  rw [parseAddressed_eq] at h
  split at h
  · rename_i hat
    cases hparse : parseHostPort (after atSign (front data)) with
    | error e =>
      rw [hparse] at h
      cases h
    | ok hp =>
      obtain ⟨host,port⟩ := hp
      obtain ⟨rd',s',hk,hport⟩ := hk (queryOf (queryText data)) (addressedData data host port)
      rw [hparse] at h
      obtain ⟨-,rfl⟩ := Prod.mk.inj (Except.ok.inj (hk.symm.trans h))
      exact ⟨hat,host,port,hparse,hport⟩
  · cases h

theorem served_vless {rd : RawData} {s : Settings}
    (hstarts : (ascii "vless://").isPrefixOf uri = true) (h : parseVless uri = .ok (rd,s)) :
    ServedAt (dataOf uri) s := by
  have htrim := trimPrefix_scheme (ascii "vless") (by decide) hstarts
  rw [parseVless,if_pos hstarts] at h
  change (parseAddressed (trimPrefix (ascii "vless" ++ ascii "://") uri) >>= _) = _ at h
  rw [htrim] at h
  exact served_addressed (fun q rd => ⟨_,_,rfl,rfl⟩) h

theorem served_trojan {rd : RawData} {s : Settings}
    (hstarts : (ascii "trojan://").isPrefixOf uri = true) (h : parseTrojan uri = .ok (rd,s)) :
    ServedAt (dataOf uri) s := by
  have htrim := trimPrefix_scheme (ascii "trojan") (by decide) hstarts
  rw [parseTrojan,if_pos hstarts] at h
  change (parseAddressed (trimPrefix (ascii "trojan" ++ ascii "://") uri) >>= _) = _ at h
  rw [htrim] at h
  exact served_addressed (fun q rd => ⟨_,_,rfl,rfl⟩) h

theorem served_shadowsocks {rd : RawData} {s : Settings}
    (hstarts : (ascii "ss://").isPrefixOf uri = true) (h : parseShadowsocks uri = .ok (rd,s)) :
    ServedAt (dataOf uri) s := by
  have htrim := trimPrefix_scheme (ascii "ss") (by decide) hstarts
  rw [parseShadowsocks,if_pos hstarts] at h
  change (splitLink (trimPrefix (ascii "ss" ++ ascii "://") uri) >>= _) = _ at h
  rw [htrim,splitLink_eq] at h
  split at h
  · rename_i hat
    simp only [splitOnce_eq,bind,Except.bind] at h
    split at h
    · cases h
    · rename_i hp hparse
      split at h
      · obtain ⟨-,rfl⟩ := Prod.mk.inj (Except.ok.inj h)
        exact ⟨hat,hp.1,hp.2,hparse,rfl⟩
      · cases h
  · cases h

/-- A vmess link is an object in base64, or is read like the others. -/
theorem served_vmess {rd : RawData} {s : Settings}
    (hstarts : (ascii "vmess://").isPrefixOf uri = true) (h : parseVmess lib uri = .ok (rd,s)) :
    (∃ m, jsonOf lib (dataOf uri) = some m ∧ s.port = vmessPort lib m) ∨
      (jsonOf lib (dataOf uri) = none ∧ ServedAt (dataOf uri) s) := by
  have htrim := trimPrefix_scheme (ascii "vmess") (by decide) hstarts
  have hbase : parseVmessBase64 lib (dataOf uri) =
      (jsonOf lib (dataOf uri)).map (vmessData lib) := by
    rw [parseVmessBase64,jsonOf,Option.map_bind]
    rfl
  rw [show ascii "vmess" ++ ascii "://" = ascii "vmess://" by decide] at htrim
  rw [parseVmess,if_pos hstarts,htrim] at h
  simp only [hbase] at h
  cases hjson : jsonOf lib (dataOf uri) with
  | some m =>
    rw [hjson] at h
    obtain ⟨-,rfl⟩ := Prod.mk.inj (Except.ok.inj h)
    exact .inl ⟨m,rfl,rfl⟩
  | none =>
    rw [hjson] at h
    simp only [Option.map_none,parseVmessRaw,bind_assoc] at h
    exact .inr ⟨rfl,served_addressed (fun q rd => ⟨_,_,rfl,rfl⟩) h⟩

/-- A SOCKS link may have an address alone. -/
theorem served_socks {idx : ℕ} {rd : RawData} {s : Settings}
    (hindex : Occurrences.index (ascii "://") uri = some idx) (h : parseSocks uri = .ok (rd,s)) :
    ∃ host port, parseHostPort (hostPortOf (dataOf uri)) = .ok (host,port) ∧
      s.port = some port := by
  rw [parseSocks,hindex] at h
  have hhost : (if decide (atSign ∈ before question (before hash (dataOf uri))) = true then
      after atSign (before question (before hash (dataOf uri)))
      else before question (before hash (dataOf uri))) = hostPortOf (dataOf uri) := by
    simp only [decide_eq_true_eq]
    rfl
  simp only [slice_dataOf hindex,splitOnce_eq,hhost,bind,Except.bind] at h
  split at h
  · cases h
  · rename_i hp hparse
    refine ⟨hp.1,hp.2,hparse,?_⟩
    split at h
    · obtain ⟨credentials,hc⟩ :=
        socksCredentials_ok (before atSign (before question (before hash (dataOf uri))))
      rw [hc] at h
      obtain ⟨-,rfl⟩ := Prod.mk.inj (Except.ok.inj h)
      rfl
    · obtain ⟨-,rfl⟩ := Prod.mk.inj (Except.ok.inj h)
      rfl

theorem served_hysteria {rd : RawData} {s : Settings}
    (h : parseHysteria2Data lib data = .ok (rd,s)) :
    atSign ∈ front data ∧ ∃ host port, hysteriaAddress (address data) = .ok (host,port) ∧
      host ≠ [] ∧ s.port = some port := by
  rw [parseHysteria2Data,splitLink_eq] at h
  split at h
  · rename_i hat
    rw [address_at hat]
    simp only [parseQuery_eq,bind,Except.bind] at h
    split at h
    · cases h
    · split at h
      · cases h
      · rename_i hp haddress
        split at h
        · cases h
        · rename_i hhost
          obtain ⟨-,rfl⟩ := Prod.mk.inj (Except.ok.inj h)
          exact ⟨hat,hp.1,hp.2,haddress,hhost,rfl⟩
  · cases h

/-- The digits Hysteria reads are the port. -/
theorem hysteria_stated {host : Bytes} {port : UInt16} (hd : HysteriaDigits addr digits)
    (h : hysteriaAddress addr = .ok (host,port)) (hhost : host ≠ []) :
    parseUint digits = some port ∧ ∃ raw, addr = raw ++ colon::digits ∧ raw ≠ [] := by
  cases hd with
  | @bracketed host' _ hclosing =>
    have hhead : (colon::digits).head? = some colon := rfl
    rw [hysteriaAddress_bracketed hclosing,if_pos hhead,List.drop_one,List.tail_cons] at h
    refine ⟨?_,opening::host' ++ [closing],by simp,by simp⟩
    cases hp : parseUint digits with
    | none =>
      rw [hp] at h
      cases h
    | some p =>
      rw [hp] at h
      obtain ⟨-,rfl⟩ := Prod.mk.inj (Except.ok.inj h)
      rfl
  | @plain raw _ hhead hcolon hsome =>
    rw [hysteriaAddress_cut hhead hcolon] at h
    obtain ⟨p,hp⟩ := Option.isSome_iff_exists.mp hsome
    rw [hp] at h
    obtain ⟨rfl,rfl⟩ := Prod.mk.inj (Except.ok.inj h)
    exact ⟨hp,raw,rfl,hhost⟩

theorem hysteria_default {host : Bytes} {port : UInt16}
    (hno : ∀ digits, ¬HysteriaDigits addr digits) (h : hysteriaAddress addr = .ok (host,port)) :
    port = 443 := by
  by_cases hhead : addr.head? = some opening
  · by_cases hclosing : closing ∈ addr
    · obtain ⟨mid,behind,rfl,hmid⟩ := first_cut hclosing
      cases mid with
      | nil => cases hhead
      | cons c host' =>
        obtain rfl := Option.some.inj hhead
        have hhost : closing ∉ host' := fun hc => hmid (List.mem_cons_of_mem _ hc)
        rw [hysteriaAddress_bracketed hhost] at h
        split at h
        · rename_i hcolon
          cases behind with
          | nil => cases hcolon
          | cons c digits =>
            obtain rfl := Option.some.inj hcolon
            exact absurd (.bracketed hhost) (hno digits)
        · exact (Prod.mk.inj (Except.ok.inj h)).2.symm
    · rw [hysteriaAddress_unclosed hhead hclosing] at h
      cases h
  · by_cases hcolon : colon ∈ addr
    · obtain ⟨raw,digits,rfl,hdigits⟩ := last_cut hcolon
      rw [hysteriaAddress_cut hhead hdigits] at h
      cases hp : parseUint digits with
      | none =>
        rw [hp] at h
        exact (Prod.mk.inj (Except.ok.inj h)).2.symm
      | some p => exact absurd (.plain hhead hdigits (hp ▸ rfl)) (hno digits)
    · rw [hysteriaAddress_plain hhead hcolon] at h
      exact (Prod.mk.inj (Except.ok.inj h)).2.symm

theorem probed_hysteria {host : Bytes} {port : UInt16} (hat : atSign ∈ front data)
    (h : hysteriaAddress (address data) = .ok (host,port)) (hhost : host ≠ []) :
    port.toNat = foundBehind data "hysteria2" ↔ ProbedLink lib data .hysteria2 := by
  by_cases hstated : ∃ digits, HysteriaDigits (address data) digits
  · obtain ⟨digits,hd⟩ := hstated
    obtain ⟨hparse,raw,hcut,hraw⟩ := hysteria_stated hd h hhost
    obtain ⟨hdecimal,hport⟩ := parseUint_some hparse
    have hlt : decimal digits < 2^16 := hport ▸ port.toNat_lt
    constructor
    · exact fun heq => .inl ⟨digits,hd,.inr (heq.symm.trans hport)⟩
    · rintro (⟨digits',hd',hprobed⟩ | ⟨hno,-⟩)
      · have hsame := (parseUint_some (hysteria_stated hd' h hhost).1).2
        rcases hprobed with hplain | hfound
        · rw [foundBehind_plain hat hcut hraw hdecimal hlt hplain,hport]
        · rw [hfound,hsame]
      · exact absurd hd (hno digits)
  · have hno : ∀ digits, ¬HysteriaDigits (address data) digits := fun digits hd =>
      hstated ⟨digits,hd⟩
    obtain rfl := hysteria_default hno h
    constructor
    · exact fun heq => .inr ⟨hno,heq.symm⟩
    · rintro (⟨digits,hd,-⟩ | ⟨-,hfound⟩)
      · exact absurd hd (hno digits)
      · exact hfound.symm

/-- An encoded object has no at sign. -/
theorem atSign_json {m : Members} (h : jsonOf lib data = some m) : atSign ∉ data := fun hin => by
  rw [jsonOf,decodeVmessPayload_at hin] at h
  cases h

theorem scheme_data {proto : Protocol} (h : getUriProtocol uri = some proto) :
    ∃ scheme ∈ schemes proto, (scheme ++ ascii "://").isPrefixOf uri = true ∧
      atSign ∉ scheme ∧ uri = scheme ++ ascii "://" ++ dataOf uri := by
  have hplain : ∀ scheme ∈ schemes proto, atSign ∉ scheme := by
    cases proto <;> simp only [schemes] <;> decide
  obtain ⟨scheme,hmem,hstarts⟩ := scheme_of_protocol h
  refine ⟨scheme,hmem,hstarts,hplain scheme hmem,?_⟩
  obtain ⟨data,rfl⟩ := List.isPrefixOf_iff_prefix.mp hstarts
  rw [dataOf_scheme (schemes_plain proto scheme hmem)]

theorem served_parsed {proto : Protocol} {outbound : LinkParsers.Outbound} {rd : RawData}
    (hproto : getUriProtocol uri = some proto)
    (h : createOutboundObject lib uri = .ok (outbound,rd)) :
    parseAs lib uri proto = .ok (rd,outbound.settings) := by
  rw [createOutboundObject,hproto] at h
  simp only [bind,Except.bind] at h
  split at h
  · cases h
  · rename_i r hparse
    obtain ⟨rfl,rfl⟩ := Prod.mk.inj (Except.ok.inj h)
    exact hparse

theorem probed_served {s : Settings} {scheme : Bytes} (hscheme : atSign ∉ scheme)
    (h : ServedAt data s) (protocol : String) :
    (s.port.map fun port => port.toNat) =
        some (extractPort (scheme ++ ascii "://" ++ data) protocol) ↔
      ∃ digits, Digits (address data) digits ∧ ProbedText data digits protocol := by
  obtain ⟨hat,host,port,hparse,hport⟩ := h
  rw [hport,extractPort_at hscheme hat,Option.map_some,Option.some.injEq]
  exact probed_text hat hparse protocol

theorem json_port (port : Option UInt16) :
    (port.map fun port => port.toNat) = some 443 ↔ port = some 443 := by
  cases port with
  | none => exact iff_of_false (fun h => by cases h) fun h => by cases h
  | some port =>
    rw [Option.map_some,Option.some.injEq,Option.some.injEq,← UInt16.toNat_inj]
    rfl

theorem probed_socks {host scheme : Bytes} {port : UInt16} (hscheme : atSign ∉ scheme)
    (hparse : parseHostPort (hostPortOf data) = .ok (host,port)) :
    port.toNat = extractPort (scheme ++ ascii "://" ++ data) "socks" ↔
      ProbedLink lib data .socks := by
  unfold ProbedLink
  by_cases hat : atSign ∈ front data
  · simp only [hat,if_true]
    rw [hostPortOf,if_pos hat] at hparse
    rw [extractPort_at hscheme hat]
    exact probed_text hat hparse "socks"
  · simp only [hat,if_false]
    have hsep : atSign ∉ ascii "://" := by decide
    have hfront : atSign ∉ scheme ++ ascii "://" := by simp [hscheme,hsep]
    obtain ⟨raw,digits,hcut,hcolon,-,-,hport⟩ := digits_ok hparse
    rw [extractPort_skip hfront,← hport]
    constructor
    · exact fun heq => ⟨digits,⟨raw,hcut,hcolon⟩,heq.symm⟩
    · rintro ⟨digits',⟨raw',hcut',hcolon'⟩,hfound⟩
      obtain ⟨-,rfl⟩ := last_cut_unique hcolon hcolon' (hcut.symm.trans hcut')
      exact hfound.symm

/-- The probe of a link compared with what is served for it. -/
theorem probed_link {proto : Protocol} {outbound : LinkParsers.Outbound} {rd : RawData}
    (hproto : getUriProtocol uri = some proto)
    (h : createOutboundObject lib uri = .ok (outbound,rd)) :
    (outbound.settings.port.map fun port => port.toNat) =
        some (extractPort uri (protocolName proto)) ↔ ProbedLink lib (dataOf uri) proto := by
  have hparse := served_parsed hproto h
  obtain ⟨scheme,hmem,hstarts,hat,huri⟩ := scheme_data hproto
  generalize outbound.settings = s at hparse ⊢
  cases proto with
  | vless =>
    obtain rfl := List.mem_singleton.mp hmem
    conv_lhs => rw [huri]
    exact probed_served hat (served_vless hstarts hparse) "vless"
  | trojan =>
    obtain rfl := List.mem_singleton.mp hmem
    conv_lhs => rw [huri]
    exact probed_served hat (served_trojan hstarts hparse) "trojan"
  | shadowsocks =>
    obtain rfl := List.mem_singleton.mp hmem
    conv_lhs => rw [huri]
    exact probed_served hat (served_shadowsocks hstarts hparse) "shadowsocks"
  | vmess =>
    obtain rfl := List.mem_singleton.mp hmem
    rcases served_vmess hstarts hparse with ⟨m,hjson,hport⟩ | ⟨hjson,hserved⟩
    · have hsep : atSign ∉ ascii "://" := by decide
      have hfree : atSign ∉ ascii "vmess" ++ ascii "://" ++ dataOf uri := by
        simp [hat,hsep,atSign_json hjson]
      conv_lhs => rw [huri]
      rw [ProbedLink,hjson,hport,extractPort_free hfree]
      exact json_port (vmessPort lib m)
    · conv_lhs => rw [huri]
      rw [ProbedLink,hjson]
      exact probed_served hat hserved "vmess"
  | socks =>
    obtain ⟨host,port,hparse,hport⟩ :=
      served_socks (index_scheme (schemes_plain .socks scheme hmem) hstarts) hparse
    conv_lhs => rw [huri]
    rw [hport,Option.map_some,Option.some.injEq]
    exact probed_socks hat hparse
  | hysteria2 =>
    rw [parseAs,parseHysteria2_eq hproto] at hparse
    obtain ⟨hin,host,port,haddress,hhost,hport⟩ := served_hysteria hparse
    conv_lhs => rw [huri]
    rw [hport,extractPort_at hat hin,Option.map_some,Option.some.injEq]
    exact probed_hysteria hin haddress hhost

end Links

section Managed

theorem proxyPort_congr {a b : Fields}
    (hprotocol : Fields.index a "protocol" = Fields.index b "protocol")
    (hsettings : Fields.index a "settings" = Fields.index b "settings") :
    proxyPort (.obj a) = proxyPort (.obj b) := by
  simp only [proxyPort,outboundPort,hprotocol,hsettings]

theorem proxyPort_mark (v : Value) : proxyPort (markFreedomOutbound v) = proxyPort v := by
  cases v with
  | obj ob =>
    rw [markFreedomOutbound]
    split
    · exact proxyPort_congr (index_put_of_ne (by decide) _ _) (index_put_of_ne (by decide) _ _)
    · rfl
  | _ => rfl

theorem proxyPort_fix (tags : List String) (first : String) (v : Value) :
    proxyPort (fixDialerProxy tags first v) = proxyPort v := by
  cases v with
  | obj ob =>
    unfold fixDialerProxy
    dsimp only
    split
    · rfl
    · exact proxyPort_congr (RuleEnforcement.index_putOrDelete_of_ne (by decide) _ _)
        (RuleEnforcement.index_putOrDelete_of_ne (by decide) _ _)
  | _ => rfl

theorem findSome_ensure (outbounds : List Value) (tag : String) {protocol : String}
    (settings : Fields) (h : isServiceProtocol protocol = true) :
    (ensureOutbound outbounds tag protocol settings).findSome? proxyPort =
      outbounds.findSome? proxyPort := by
  have hservice : proxyPort (.obj [("tag",.str tag),("protocol",.str protocol),
      ("settings",.obj settings)]) = none := by
    have hprotocol : (Fields.index [("tag",.str tag),("protocol",.str protocol),
        ("settings",.obj settings)] "protocol").asString = protocol := rfl
    rw [proxyPort,hprotocol,if_pos h]
  unfold ensureOutbound
  split
  · rfl
  · rw [List.findSome?_append,List.findSome?_singleton,hservice,Option.or_none]

/-- The generated configuration has the port of the document. -/
theorem configPort_prepared (config : Fields) (opts : Options) :
    configPort (prepareFields config opts) = configPort config := by
  have houtbounds : Fields.index (prepareFields config opts) "outbounds" =
      .arr (preparedOutbounds (Fields.index config "outbounds").asSlice) := by
    unfold prepareFields
    rw [index_put_of_ne (by decide),index_put_of_ne (by decide),index_put_of_ne (by decide),
      index_put_self]
  have hservices : ∀ outbounds, (ensureServiceOutbounds outbounds).findSome? proxyPort =
      outbounds.findSome? proxyPort := fun outbounds => by
    unfold ensureServiceOutbounds
    rw [findSome_ensure _ _ _ (by decide),findSome_ensure _ _ _ (by decide),
      findSome_ensure _ _ _ (by decide)]
  have hrepair : ∀ tags first, proxyPort ∘ fixDialerProxy tags first = proxyPort :=
    fun tags first => funext (proxyPort_fix tags first)
  have hmark : proxyPort ∘ markFreedomOutbound = proxyPort := funext proxyPort_mark
  rw [configPort,houtbounds,Value.asSlice,preparedOutbounds,fixDanglingDialerProxy,
    markFreedomOutbounds,List.findSome?_map,hrepair,List.findSome?_map,hmark,hservices]
  rfl

end Managed

section Results

variable {lib : Library}

end Results

end Whoisthat.ProbePorts
