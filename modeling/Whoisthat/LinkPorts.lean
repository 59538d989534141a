import Whoisthat.LinkParsers

/-!
# Servers and ports of links

Each parser ends in an outbound with a server and a port, or refuses the link;
none panics. The port that comes out is compared with what the link writes. A
port of zero passes all of them, Hysteria takes a port it cannot read for a
part of the host, and the base64 form of vmess asks for neither an address nor
a port.
-/

set_option autoImplicit false

namespace Whoisthat.LinkPorts
open Whoisthat.Utf8 (Bytes)
open Whoisthat.Delimiters
open Whoisthat.HappLinks (ascii)
open Whoisthat.LinkText Whoisthat.LinkParsers

section Specification

/-- The text behind the scheme. -/
def dataOf (uri : Bytes) : Bytes :=
  uri.drop ((Occurrences.index (ascii "://") uri).elim uri.length (· + 3))

def hostPortOf (data : Bytes) : Bytes :=
  if atSign ∈ front data then after atSign (front data) else front data

/-- The address, without a slash at its end. -/
def address (data : Bytes) : Bytes := trimSuffix [slash] (hostPortOf data)

def IsDecimal (digits : Bytes) : Prop := digits ≠ [] ∧ ∀ d ∈ digits, decimalDigit d = true

/-- The number behind the last colon of an address. -/
def DecimalPort (addr : Bytes) (n : ℕ) : Prop :=
  ∃ host digits, addr = host ++ colon::digits ∧ IsDecimal digits ∧ n = decimal digits

/-- The port of a Hysteria address, in brackets or not. -/
inductive HysteriaPort : Bytes → ℕ → Prop
  | bracketed {host : Bytes} : closing ∉ host → HysteriaPort (opening::host ++ [closing]) 443
  | bracketedPort {host digits : Bytes} : closing ∉ host → IsDecimal digits →
      HysteriaPort (opening::host ++ closing::colon::digits) (decimal digits)
  | plain {host : Bytes} : host.head? ≠ some opening → colon ∉ host → HysteriaPort host 443
  | plainPort {host digits : Bytes} : (host ++ colon::digits).head? ≠ some opening →
      IsDecimal digits → HysteriaPort (host ++ colon::digits) (decimal digits)

/-- The port of a JSON object, a number or decimal digits. -/
inductive JsonPort (m : Members) : ℕ → Prop
  | number {n : ℕ} : m.lookup (ascii "port") = some (.num n) → JsonPort m n
  | text {digits : Bytes} : m.lookup (ascii "port") = some (.str digits) → IsDecimal digits →
      JsonPort m (decimal digits)

/-- The object of a vmess link in base64. -/
def jsonOf (lib : Library) (data : Bytes) : Option Members :=
  (decodeVmessPayload data).bind (vmessMembers lib)

def WrittenPort (lib : Library) (data : Bytes) : Protocol → ℕ → Prop
  | .vmess => match jsonOf lib data with
    | some m => JsonPort m
    | none => DecimalPort (address data)
  | .hysteria2 => HysteriaPort (address data)
  | _ => DecimalPort (address data)

/-- A result is a refusal, or a server with a port that is not zero and that is
one written in the link. -/
def Sound (written : ℕ → Prop) : Result (RawData × Settings) → Prop
  | .error e => e = .refused
  | .ok (_,s) => ∃ host port, s.address = some host ∧ host ≠ [] ∧ s.port = some port ∧
      1 ≤ port.toNat ∧ written port.toNat

/-- What becomes of a link: no panic, and no outbound without a server and a
port of the link. -/
def SoundLink (lib : Library) (uri : Bytes) : Prop :=
  match createOutboundObject lib uri with
  | .error e => e = .refused
  | .ok (outbound,rd) => ∃ proto, getUriProtocol uri = some proto ∧
      Sound (WrittenPort lib (dataOf uri) proto) (.ok (rd,outbound.settings))

/-- A port of nothing but zeros, behind a host. -/
def ZeroPort (addr : Bytes) : Prop :=
  ∃ raw digits, addr = raw ++ colon::digits ∧ digits ≠ [] ∧ (∀ d ∈ digits, d = 0x30) ∧
    trimBrackets raw ≠ []

/-- Behind the brackets stands nothing, or a colon and no zero; and behind the
last colon of an address without brackets a port, which is not zero unless there
is no host. -/
structure ProperHysteria (addr : Bytes) : Prop where
  bracketed : ∀ host behind, addr = opening::host ++ closing::behind → closing ∉ host →
    host ≠ [] → behind = [] ∨ ∃ digits, behind = colon::digits ∧
      (digits ≠ [] → ∃ d ∈ digits, d ≠ 0x30)
  plain : ∀ raw digits, addr = raw ++ colon::digits → addr.head? ≠ some opening →
    colon ∉ digits → (parseUint digits).isSome = true ∧ (raw ≠ [] → ∃ d ∈ digits, d ≠ 0x30)

/-- An object with an address, and with a port as a number or as digits. -/
structure ProperJson (m : Members) : Prop where
  address : ∃ host, m.lookup (ascii "add") = some (.str host) ∧ host ≠ []
  port : (∃ n : ℕ, m.lookup (ascii "port") = some (.num n) ∧ 1 ≤ n ∧ n < 2^16) ∨
    ∃ digits port, m.lookup (ascii "port") = some (.str digits) ∧
      parseUint digits = some port ∧ port ≠ 0

/-- The userinfo of a Shadowsocks link as it is cut into method and password. -/
def userinfoOf (data : Bytes) : Bytes :=
  let userinfo := urlDecode (before atSign (front data))
  (decodeShadowsocksUserinfo userinfo).getD userinfo

def ProperData (lib : Library) (data : Bytes) : Protocol → Prop
  | .vmess => match jsonOf lib data with
    | some m => ProperJson m
    | none => atSign ∈ front data → ¬ZeroPort (address data)
  | .hysteria2 => atSign ∈ front data → ProperHysteria (address data)
  | .shadowsocks => atSign ∈ front data → colon ∈ userinfoOf data → ¬ZeroPort (address data)
  | .socks => ¬ZeroPort (address data)
  | _ => atSign ∈ front data → ¬ZeroPort (address data)

end Specification

section Ports

variable {addr digits raw : Bytes}

theorem decimal_concat (digits : Bytes) (d : UInt8) :
    decimal (digits ++ [d]) = 10*decimal digits+(d.toNat-0x30) := by
  simp [decimal]

theorem decimal_zero (h : ∀ d ∈ digits, decimalDigit d = true) :
    decimal digits = 0 ↔ ∀ d ∈ digits, d = 0x30 := by
  induction digits using List.reverseRecOn with
  | nil => simp [decimal]
  | append_singleton digits d ih =>
    have hd := h d (by simp)
    simp only [decimalDigit,Bool.and_eq_true,decide_eq_true_eq,UInt8.le_iff_toNat_le] at hd
    have hlo : 48 ≤ d.toNat := hd.1
    have hzero : d = 0x30 ↔ d.toNat = 48 := by
      rw [← UInt8.toNat_inj]
      rfl
    have hrest := ih fun c hc => h c (List.mem_append_left _ hc)
    rw [decimal_concat,List.forall_mem_append,← hrest]
    simp only [List.forall_mem_singleton,hzero]
    omega

theorem parseUint_some {port : UInt16} (h : parseUint digits = some port) :
    IsDecimal digits ∧ port.toNat = decimal digits := by
  unfold parseUint at h
  split at h
  · rename_i hcond
    obtain ⟨hne,hall,hlt⟩ := hcond
    obtain rfl := Option.some.inj h
    refine ⟨⟨hne,List.all_eq_true.mp hall⟩,?_⟩
    rw [UInt16.toNat_ofNat']
    exact Nat.mod_eq_of_lt hlt
  · cases h

theorem parseUint_zeros (hne : digits ≠ []) (h : ∀ d ∈ digits, d = 0x30) :
    parseUint digits = some 0 := by
  have hall : ∀ d ∈ digits, decimalDigit d = true := fun d hd => by
    rw [h d hd]
    rfl
  have hzero := (decimal_zero hall).mpr h
  rw [parseUint,if_pos ⟨hne,List.all_eq_true.mpr hall,by rw [hzero]; decide⟩,hzero]
  rfl

theorem port_zero {port : UInt16} (h : parseUint digits = some port) :
    port = 0 ↔ ∀ d ∈ digits, d = 0x30 := by
  obtain ⟨hdec,hport⟩ := parseUint_some h
  rw [← decimal_zero hdec.2,← hport,← UInt16.toNat_inj]
  rfl

theorem colon_not_decimal (h : IsDecimal digits) : colon ∉ digits := fun hc => by
  have hcolon := h.2 colon hc
  revert hcolon
  decide

theorem one_le_port {port : UInt16} : 1 ≤ port.toNat ↔ port ≠ 0 := by
  rw [Ne,← UInt16.toNat_inj]
  exact Nat.one_le_iff_ne_zero

theorem colon_not_zeros (h : ∀ d ∈ digits, d = 0x30) : colon ∉ digits := fun hc => by
  have hcolon := h colon hc
  revert hcolon
  decide

/-- An address that is accepted writes its port, and it is zero just when the
digits are. -/
theorem hostPort_ok {hostPort host : Bytes} {port : UInt16}
    (h : parseHostPort hostPort = .ok (host,port)) :
    host ≠ [] ∧ DecimalPort (trimSuffix [slash] hostPort) port.toNat ∧
      (port = 0 ↔ ZeroPort (trimSuffix [slash] hostPort)) := by
  obtain ⟨raw,digits,hcut,hdigits,rfl,hne,hp⟩ := parseHostPort_ok h
  obtain ⟨hdec,hport⟩ := parseUint_some hp
  refine ⟨hne,⟨raw,digits,hcut,hdec,hport⟩,?_⟩
  rw [port_zero hp]
  constructor
  · exact fun hz => ⟨raw,digits,hcut,hdec.1,hz,hne⟩
  · rintro ⟨raw',digits',hcut',-,hz,-⟩
    rw [hcut] at hcut'
    obtain ⟨-,rfl⟩ := last_cut_unique hdigits (colon_not_zeros hz) hcut'
    exact hz

theorem hostPort_zero {hostPort : Bytes} (h : ZeroPort (trimSuffix [slash] hostPort)) :
    ∃ host, parseHostPort hostPort = .ok (host,0) := by
  obtain ⟨raw,digits,hcut,hne,hz,hraw⟩ := h
  refine ⟨trimBrackets raw,?_⟩
  rw [parseHostPort_cut hcut (colon_not_zeros hz),if_neg hraw,parseUint_zeros hne hz]

end Ports

section Texts

variable {data : Bytes}

/-- The address of what stands behind an at sign. -/
theorem address_at (h : atSign ∈ front data) :
    address data = trimSuffix [slash] (after atSign (front data)) := by
  rw [address,hostPortOf,if_pos h]

/-- A parser that accepts an address serves it, and may refuse what is left. -/
theorem sound_served {hostPort : Bytes} (refuses : Prop)
    {r : Bytes × UInt16 → Result (RawData × Settings)}
    (hr : ∀ host port, (refuses ∧ r (host,port) = .error .refused) ∨
      (¬refuses ∧ ∃ rd s, r (host,port) = .ok (rd,s) ∧ s.address = some host ∧
        s.port = some port)) :
    Sound (DecimalPort (trimSuffix [slash] hostPort)) (parseHostPort hostPort >>= r) ↔
      (¬refuses → ¬ZeroPort (trimSuffix [slash] hostPort)) := by
  cases hparse : parseHostPort hostPort with
  | error e =>
    have he : e = .refused := by
      cases e with
      | panic => exact absurd hparse (parseHostPort_safe hostPort)
      | refused => rfl
    refine iff_of_true he fun _ hz => ?_
    obtain ⟨host,hok⟩ := hostPort_zero hz
    rw [hok] at hparse
    cases hparse
  | ok hp =>
    obtain ⟨host,port⟩ := hp
    obtain ⟨hne,hdecimal,hzero⟩ := hostPort_ok hparse
    change Sound _ (r (host,port)) ↔ _
    rcases hr host port with ⟨hrefuses,hr⟩ | ⟨hserves,rd,s,hr,haddress,hport⟩
    · rw [hr]
      exact iff_of_true rfl fun h => absurd hrefuses h
    · rw [hr,← hzero]
      constructor
      · rintro ⟨host',port',-,-,hport',hone,-⟩ - rfl
        obtain rfl := Option.some.inj (hport.symm.trans hport')
        exact absurd hone (by decide)
      · intro h
        exact ⟨host,port,haddress,hne,hport,one_le_port.mpr (h hserves),hdecimal⟩

theorem sound_addressed {k : Query × RawData → Result (RawData × Settings)}
    (hk : ∀ q rd, ∃ rd' s, k (q,rd) = .ok (rd',s) ∧ s.address = rd.address ∧ s.port = rd.port) :
    Sound (DecimalPort (address data)) (parseAddressed data >>= k) ↔
      (atSign ∈ front data → ¬ZeroPort (address data)) := by
  rw [parseAddressed_eq]
  split
  · rename_i hat
    rw [address_at hat]
    simp only [hat,true_implies]
    have hserved : Sound (DecimalPort (trimSuffix [slash] (after atSign (front data))))
        (parseHostPort (after atSign (front data)) >>= fun x =>
          k (queryOf (queryText data),addressedData data x.1 x.2)) ↔ _ :=
      sound_served False fun host port => .inr ⟨fun h => h,hk _ _⟩
    simp only [not_false_eq_true,true_implies] at hserved
    rw [← hserved]
    cases parseHostPort (after atSign (front data)) <;> rfl
  · rename_i hat
    exact iff_of_true rfl fun h => absurd h hat

end Texts

section Protocols

variable {lib : Library} {data uri : Bytes}

/-- What stands behind a scheme. -/
theorem dataOf_scheme {scheme : Bytes} (h : colon ∉ scheme) (data : Bytes) :
    dataOf (scheme ++ ascii "://" ++ data) = data := by
  have hindex : Occurrences.index (ascii "://") (scheme ++ ascii "://" ++ data) =
      some scheme.length := index_word h [slash,slash] data
  rw [dataOf,hindex,Option.elim_some]
  have hlen : (scheme ++ ascii "://").length = scheme.length+3 := List.length_append
  rw [← hlen,List.drop_left]

theorem trimPrefix_scheme (scheme : Bytes) (h : colon ∉ scheme)
    (hp : (scheme ++ ascii "://").isPrefixOf uri = true) :
    trimPrefix (scheme ++ ascii "://") uri = dataOf uri := by
  obtain ⟨data,rfl⟩ := List.isPrefixOf_iff_prefix.mp hp
  rw [trimPrefix_hit,dataOf_scheme h]

theorem sound_vless (h : (ascii "vless://").isPrefixOf uri = true) :
    Sound (DecimalPort (address (dataOf uri))) (parseVless uri) ↔
      (atSign ∈ front (dataOf uri) → ¬ZeroPort (address (dataOf uri))) := by
  have htrim := trimPrefix_scheme (ascii "vless") (by decide) h
  rw [parseVless,if_pos h]
  change Sound _ (parseAddressed (trimPrefix (ascii "vless" ++ ascii "://") uri) >>= _) ↔ _
  rw [htrim]
  exact sound_addressed fun q rd => ⟨_,_,rfl,rfl,rfl⟩

theorem sound_trojan (h : (ascii "trojan://").isPrefixOf uri = true) :
    Sound (DecimalPort (address (dataOf uri))) (parseTrojan uri) ↔
      (atSign ∈ front (dataOf uri) → ¬ZeroPort (address (dataOf uri))) := by
  have htrim := trimPrefix_scheme (ascii "trojan") (by decide) h
  rw [parseTrojan,if_pos h]
  change Sound _ (parseAddressed (trimPrefix (ascii "trojan" ++ ascii "://") uri) >>= _) ↔ _
  rw [htrim]
  exact sound_addressed fun q rd => ⟨_,_,rfl,rfl,rfl⟩

theorem getString_some {m : Members} {key : String} {s : Bytes} :
    getString m key = some s ↔ m.lookup (ascii key) = some (.str s) ∧ s ≠ [] := by
  unfold getString
  split
  · rename_i t ht
    rw [ht]
    split
    · rename_i hne
      constructor
      · rintro heq
        obtain rfl := Option.some.inj heq
        exact ⟨rfl,hne⟩
      · rintro ⟨heq,-⟩
        rw [Item.str.inj (Option.some.inj heq)]
    · rename_i hnil
      refine iff_of_false (fun h => by cases h) ?_
      rintro ⟨heq,hne⟩
      obtain rfl := Item.str.inj (Option.some.inj heq)
      exact hnil hne
  · rename_i hother
    exact iff_of_false (fun h => by cases h) fun h => hother s h.1

theorem uint16_nat {n : ℕ} (h : n < 2^16) : uint16 lib n = UInt16.ofNat n := by
  have hn : (0 : ℚ) ≤ n := Nat.cast_nonneg n
  have hfloor : ⌊(n : ℚ)⌋ = (n : ℤ) := Int.floor_natCast n
  unfold uint16
  rw [if_pos hn,hfloor]
  dsimp only
  rw [if_pos ⟨Int.natCast_nonneg n,by omega⟩,Int.toNat_natCast]

theorem sound_json (m : Members) :
    Sound (JsonPort m) (.ok (vmessData lib m,createVmessOutboundSettings (vmessData lib m))) ↔
      ProperJson m := by
  constructor
  · rintro ⟨host,port,haddress,hne,hport,hone,hwritten⟩
    have hp : vmessPort lib m = some port := hport
    refine ⟨⟨host,getString_some.mp haddress⟩,?_⟩
    generalize hn : port.toNat = n at hwritten hone
    cases hwritten with
    | number hlookup => exact .inl ⟨n,hlookup,hone,hn ▸ port.toNat_lt⟩
    | text hlookup hdecimal =>
      rw [vmessPort,hlookup] at hp
      exact .inr ⟨_,port,hlookup,hp,one_le_port.mp (hn ▸ hone)⟩
  · rintro ⟨⟨host,hlookup,hne⟩,hport⟩
    have haddress : getString m "add" = some host := getString_some.mpr ⟨hlookup,hne⟩
    rcases hport with ⟨n,hnum,hone,hlt⟩ | ⟨digits,port,hstr,hparse,hport⟩
    · have hp : vmessPort lib m = some (UInt16.ofNat n) := by
        rw [vmessPort,hnum]
        exact congrArg some (uint16_nat hlt)
      have hnat : (UInt16.ofNat n).toNat = n := by
        rw [UInt16.toNat_ofNat']
        exact Nat.mod_eq_of_lt hlt
      refine ⟨host,UInt16.ofNat n,haddress,hne,hp,?_,?_⟩
      · rw [hnat]
        exact hone
      · rw [hnat]
        exact .number hnum
    · have hp : vmessPort lib m = some port := by
        rw [vmessPort,hstr]
        exact hparse
      obtain ⟨hdecimal,hnat⟩ := parseUint_some hparse
      refine ⟨host,port,haddress,hne,hp,one_le_port.mpr hport,?_⟩
      rw [hnat]
      exact .text hstr hdecimal

theorem sound_vmess (h : (ascii "vmess://").isPrefixOf uri = true) :
    Sound (WrittenPort lib (dataOf uri) .vmess) (parseVmess lib uri) ↔
      ProperData lib (dataOf uri) .vmess := by
  have htrim := trimPrefix_scheme (ascii "vmess") (by decide) h
  have hbase : parseVmessBase64 lib (dataOf uri) =
      (jsonOf lib (dataOf uri)).map (vmessData lib) := by
    rw [parseVmessBase64,jsonOf,Option.map_bind]
    rfl
  rw [show ascii "vmess" ++ ascii "://" = ascii "vmess://" by decide] at htrim
  rw [parseVmess,if_pos h,htrim]
  simp only [hbase,WrittenPort,ProperData]
  cases jsonOf lib (dataOf uri) with
  | some m => exact sound_json m
  | none =>
    simp only [Option.map_none,parseVmessRaw,bind_assoc]
    exact sound_addressed fun q rd => ⟨_,_,rfl,rfl,rfl⟩

theorem sound_shadowsocks (h : (ascii "ss://").isPrefixOf uri = true) :
    Sound (DecimalPort (address (dataOf uri))) (parseShadowsocks uri) ↔
      ProperData lib (dataOf uri) .shadowsocks := by
  have htrim := trimPrefix_scheme (ascii "ss") (by decide) h
  rw [parseShadowsocks,if_pos h]
  change Sound _ (splitLink (trimPrefix (ascii "ss" ++ ascii "://") uri) >>= _) ↔ _
  rw [htrim,splitLink_eq,ProperData]
  split
  · rename_i hat
    rw [address_at hat]
    simp only [hat,true_implies]
    refine (sound_served (colon ∉ userinfoOf (dataOf uri)) fun host port => ?_).trans
      (by rw [not_not])
    simp only [splitOnce_eq,bind,Except.bind]
    by_cases hcolon : colon ∈ userinfoOf (dataOf uri)
    · refine .inr ⟨fun hn => hn hcolon,_,_,if_pos (decide_eq_true hcolon),rfl,rfl⟩
    · exact .inl ⟨hcolon,if_neg (by
        rw [decide_eq_true_eq]
        exact hcolon)⟩
  · rename_i hat
    exact iff_of_true rfl fun h => absurd h hat

theorem socksCredentials_ok (userinfo : Bytes) :
    ∃ credentials, socksCredentials userinfo = .ok credentials := by
  unfold socksCredentials
  simp only [splitOnce_eq,bind,Except.bind]
  split
  · exact ⟨_,rfl⟩
  · exact ⟨_,rfl⟩

theorem slice_dataOf {idx : ℕ} (h : Occurrences.index (ascii "://") uri = some idx) :
    slice uri (idx+3) uri.length = .ok (dataOf uri) := by
  have hle : idx+3 ≤ uri.length := Occurrences.index_le h
  rw [slice,if_pos ⟨hle,Nat.le_refl _⟩,dataOf,h,Option.elim_some,
    List.take_of_length_le (by rw [List.length_drop])]

theorem sound_socks {idx : ℕ} (h : Occurrences.index (ascii "://") uri = some idx) :
    Sound (DecimalPort (address (dataOf uri))) (parseSocks uri) ↔
      ¬ZeroPort (address (dataOf uri)) := by
  rw [parseSocks,h]
  simp only [slice_dataOf h,splitOnce_eq,bind,Except.bind]
  have hhost : (if decide (atSign ∈ before question (before hash (dataOf uri))) = true then
      after atSign (before question (before hash (dataOf uri)))
      else before question (before hash (dataOf uri))) = hostPortOf (dataOf uri) := by
    simp only [decide_eq_true_eq]
    rfl
  rw [hhost]
  refine (sound_served False fun host port => .inr ⟨fun h => h,?_⟩).trans (by simp [address])
  split
  · obtain ⟨credentials,hc⟩ :=
      socksCredentials_ok (before atSign (before question (before hash (dataOf uri))))
    rw [hc]
    exact ⟨_,_,rfl,rfl,rfl⟩
  · exact ⟨_,_,rfl,rfl,rfl⟩

end Protocols

section Hysteria

variable {lib : Library} {data addr host behind raw digits : Bytes}

theorem isPrefixOf_head {c : UInt8} {s : Bytes} :
    [c].isPrefixOf s = true ↔ s.head? = some c := by
  cases s with
  | nil => simp
  | cons a s =>
    rw [List.isPrefixOf_iff_prefix,List.cons_prefix_cons,List.head?_cons,Option.some.injEq]
    exact ⟨fun h => h.1.symm,fun h => ⟨h.symm,List.nil_prefix⟩⟩

theorem hysteriaAddress_unclosed (hhead : addr.head? = some opening) (hc : closing ∉ addr) :
    hysteriaAddress addr = .error .refused := by
  rw [hysteriaAddress,if_pos (isPrefixOf_head.mpr hhead),index_free hc]

theorem hysteriaAddress_bracketed (hc : closing ∉ host) :
    hysteriaAddress (opening::host ++ closing::behind) =
      if behind.head? = some colon then
        match parseUint (behind.drop 1) with
        | some p => .ok (host,p)
        | none => .error .refused
      else .ok (host,443) := by
  have hmid : closing ∉ opening::host := fun h =>
    (List.mem_cons.mp h).elim (fun heq => absurd heq (by decide)) hc
  have hfront : slice (opening::host ++ closing::behind) 1 (opening::host).length = .ok host := by
    rw [slice,if_pos ⟨by simp,by simp⟩]
    simp
  have hrest : slice behind 1 behind.length =
      if behind = [] then .error .panic else .ok (behind.drop 1) := by
    cases behind with
    | nil => rfl
    | cons c t =>
      rw [slice,if_pos ⟨by simp,Nat.le_refl _⟩]
      simp
  rw [hysteriaAddress,if_pos (isPrefixOf_head.mpr rfl),index_cut hmid]
  simp only [bind,Except.bind,hfront,slice_behind,isPrefixOf_head,hrest]
  by_cases hcolon : behind.head? = some colon
  · have hne : behind ≠ [] := fun hnil => by rw [hnil] at hcolon; cases hcolon
    rw [if_pos hcolon,if_pos hcolon,if_neg hne]
    dsimp only
    cases parseUint (behind.drop 1) <;> rfl
  · rw [if_neg hcolon,if_neg hcolon]
    rfl

theorem hysteriaAddress_plain (hhead : addr.head? ≠ some opening) (hc : colon ∉ addr) :
    hysteriaAddress addr = .ok (addr,443) := by
  rw [hysteriaAddress,if_neg fun h => hhead (isPrefixOf_head.mp h),lastIndex_free hc]

theorem hysteriaAddress_cut (hhead : (raw ++ colon::digits).head? ≠ some opening)
    (hc : colon ∉ digits) :
    hysteriaAddress (raw ++ colon::digits) =
      match parseUint digits with
      | some p => .ok (raw,p)
      | none => .ok (raw ++ colon::digits,443) := by
  rw [hysteriaAddress,if_neg fun h => hhead (isPrefixOf_head.mp h),lastIndex_cut raw hc]
  simp only [bind,Except.bind,slice_behind,slice_front]
  cases parseUint digits <;> rfl

/-- The parts of an address in brackets are determined. -/
theorem bracket_cut {host' behind' : Bytes} (h : closing ∉ host) (h' : closing ∉ host')
    (heq : opening::host ++ closing::behind = opening::host' ++ closing::behind') :
    host = host' ∧ behind = behind' := by
  rw [List.cons_append,List.cons_append] at heq
  exact first_cut_unique h h' (List.cons.inj heq).2

theorem hysteriaPort_bracketed (hc : closing ∉ host) {n : ℕ}
    (h : HysteriaPort (opening::host ++ closing::behind) n) :
    (behind = [] ∧ n = 443) ∨ ∃ digits, behind = colon::digits ∧ IsDecimal digits ∧
      n = decimal digits := by
  generalize haddr : opening::host ++ closing::behind = addr at h
  have hhead : addr.head? = some opening := by rw [← haddr]; rfl
  cases h with
  | bracketed hc' => exact .inl ⟨(bracket_cut hc hc' haddr).2,rfl⟩
  | bracketedPort hc' hd => exact .inr ⟨_,(bracket_cut hc hc' haddr).2,hd,rfl⟩
  | plain hne => exact absurd hhead hne
  | plainPort hne => exact absurd hhead hne

theorem hysteriaPort_cut (hhead : (raw ++ colon::digits).head? ≠ some opening)
    (hc : colon ∉ digits) {n : ℕ} (h : HysteriaPort (raw ++ colon::digits) n) :
    IsDecimal digits ∧ n = decimal digits := by
  generalize haddr : raw ++ colon::digits = addr at h hhead
  cases h with
  | bracketed => exact absurd rfl hhead
  | bracketedPort => exact absurd rfl hhead
  | plain _ hfree =>
    refine absurd ?_ hfree
    rw [← haddr]
    simp
  | plainPort _ hd =>
    obtain ⟨-,rfl⟩ := last_cut_unique hc (colon_not_decimal hd) haddr
    exact ⟨hd,rfl⟩

/-- What the parser makes of a host and a port. -/
def Served (addr : Bytes) (r : Result (Bytes × UInt16)) : Prop :=
  match r with
  | .error e => e = .refused
  | .ok (host,port) => host ≠ [] → 1 ≤ port.toNat ∧ HysteriaPort addr port.toNat

theorem not_all_zero {port : UInt16} (h : parseUint digits = some port) :
    1 ≤ port.toNat ↔ ∃ d ∈ digits, d ≠ 0x30 := by
  rw [one_le_port,Ne,port_zero h]
  push Not
  rfl

theorem served_bracketed (hc : closing ∉ host) :
    Served (opening::host ++ closing::behind)
        (hysteriaAddress (opening::host ++ closing::behind)) ↔
      (host ≠ [] → behind = [] ∨ ∃ digits, behind = colon::digits ∧
        (digits ≠ [] → ∃ d ∈ digits, d ≠ 0x30)) := by
  rw [hysteriaAddress_bracketed hc]
  cases behind with
  | nil =>
    refine iff_of_true (fun _ => ⟨by decide,?_⟩) fun _ => .inl rfl
    exact .bracketed hc
  | cons c digits =>
    by_cases hcolon : c = colon
    · subst hcolon
      have hhead : (colon::digits).head? = some colon := rfl
      rw [if_pos hhead,List.drop_one,List.tail_cons]
      cases hp : parseUint digits with
      | none =>
        refine iff_of_true rfl fun _ => .inr ⟨digits,rfl,fun hne => ?_⟩
        by_contra hall
        push Not at hall
        rw [parseUint_zeros hne hall] at hp
        cases hp
      | some port =>
        obtain ⟨hdecimal,hport⟩ := parseUint_some hp
        refine forall_congr' fun hne => ?_
        rw [not_all_zero hp]
        constructor
        · exact fun h => .inr ⟨digits,rfl,fun _ => h.1⟩
        · rintro (h | ⟨_,heq,h⟩)
          · cases h
          · obtain rfl := (List.cons.inj heq).2
            refine ⟨h hdecimal.1,?_⟩
            rw [hport]
            exact .bracketedPort hc hdecimal
    · have hhead : (c::digits).head? ≠ some colon := fun h => hcolon (Option.some.inj h)
      rw [if_neg hhead]
      refine forall_congr' fun hne => iff_of_false ?_ ?_
      · rintro ⟨-,h⟩
        rcases hysteriaPort_bracketed hc h with ⟨h,-⟩ | ⟨_,heq,-⟩
        · cases h
        · exact hcolon (List.cons.inj heq).1
      · rintro (h | ⟨_,heq,-⟩)
        · cases h
        · exact hcolon (List.cons.inj heq).1

theorem served_cut (hhead : (raw ++ colon::digits).head? ≠ some opening) (hc : colon ∉ digits) :
    Served (raw ++ colon::digits) (hysteriaAddress (raw ++ colon::digits)) ↔
      (parseUint digits).isSome = true ∧ (raw ≠ [] → ∃ d ∈ digits, d ≠ 0x30) := by
  rw [hysteriaAddress_cut hhead hc]
  cases hp : parseUint digits with
  | none =>
    refine iff_of_false (fun h => ?_) fun h => by cases h.1
    obtain ⟨hdecimal,heq⟩ := hysteriaPort_cut hhead hc (h (by simp)).2
    have hsome : parseUint digits = some (UInt16.ofNat (decimal digits)) :=
      if_pos ⟨hdecimal.1,List.all_eq_true.mpr hdecimal.2,by
        rw [← heq]
        decide⟩
    rw [hp] at hsome
    cases hsome
  | some port =>
    obtain ⟨hdecimal,hport⟩ := parseUint_some hp
    simp only [Option.isSome_some,true_and]
    refine forall_congr' fun hne => ?_
    rw [not_all_zero hp]
    refine and_iff_left ?_
    rw [hport]
    exact .plainPort hhead hdecimal

theorem addressed_iff (addr : Bytes) :
    (addr = [] ∨ Served addr (hysteriaAddress addr)) ↔ ProperHysteria addr := by
  by_cases hhead : addr.head? = some opening
  · have hne : addr ≠ [] := fun h => by rw [h] at hhead; cases hhead
    rw [or_iff_right hne]
    have hplain : ∀ raw digits, addr = raw ++ colon::digits → addr.head? ≠ some opening →
        colon ∉ digits → (parseUint digits).isSome = true ∧ (raw ≠ [] → ∃ d ∈ digits, d ≠ 0x30) :=
      fun _ _ _ hno => absurd hhead hno
    by_cases hc : closing ∈ addr
    · obtain ⟨mid,behind,rfl,hmid⟩ := first_cut hc
      cases mid with
      | nil => cases hhead
      | cons c host =>
        obtain rfl := Option.some.inj hhead
        have hhost : closing ∉ host := fun h => hmid (List.mem_cons_of_mem _ h)
        rw [served_bracketed hhost]
        refine ⟨fun h => ⟨fun host' behind' heq hhost' => ?_,hplain⟩,fun h =>
          h.bracketed host behind rfl hhost⟩
        obtain ⟨rfl,rfl⟩ := bracket_cut hhost hhost' heq
        exact h
    · rw [hysteriaAddress_unclosed hhead hc]
      refine iff_of_true rfl ⟨fun host behind heq => ?_,hplain⟩
      refine absurd ?_ hc
      rw [heq]
      simp
  · have hbracketed : ∀ host behind, addr = opening::host ++ closing::behind → closing ∉ host →
        host ≠ [] → behind = [] ∨ ∃ digits, behind = colon::digits ∧
          (digits ≠ [] → ∃ d ∈ digits, d ≠ 0x30) :=
      fun _ _ heq => absurd (by rw [heq]; rfl) hhead
    by_cases hc : colon ∈ addr
    · obtain ⟨raw,digits,rfl,hdigits⟩ := last_cut hc
      rw [or_iff_right (by simp),served_cut hhead hdigits]
      refine ⟨fun h => ⟨hbracketed,fun raw' digits' heq _ hdigits' => ?_⟩,fun h =>
        h.plain raw digits rfl hhead hdigits⟩
      obtain ⟨rfl,rfl⟩ := last_cut_unique hdigits hdigits' heq
      exact h
    · refine iff_of_true (.inr ?_) ⟨hbracketed,fun raw digits heq => ?_⟩
      · rw [hysteriaAddress_plain hhead hc]
        exact fun _ => ⟨by decide,.plain hhead hc⟩
      · refine absurd ?_ hc
        rw [heq]
        simp

theorem sound_hysteria (data : Bytes) :
    Sound (HysteriaPort (address data)) (parseHysteria2Data lib data) ↔
      (atSign ∈ front data → ProperHysteria (address data)) := by
  rw [parseHysteria2Data,splitLink_eq]
  split
  · rename_i hat
    rw [← addressed_iff,address_at hat]
    simp only [hat,true_implies,parseQuery_eq,bind,Except.bind]
    by_cases hnil : trimSuffix [slash] (after atSign (front data)) = []
    · rw [if_pos hnil]
      exact iff_of_true rfl (.inl hnil)
    · rw [if_neg hnil,or_iff_right hnil]
      cases hysteriaAddress (trimSuffix [slash] (after atSign (front data))) with
      | error e => exact Iff.rfl
      | ok hp =>
        obtain ⟨host,port⟩ := hp
        by_cases hhost : host = []
        · simp only [hhost,if_true]
          exact iff_of_true rfl fun h => absurd rfl h
        · simp only [hhost,if_false]
          constructor
          · rintro ⟨host',port',-,-,hport,hone,hwritten⟩ -
            obtain rfl := Option.some.inj hport
            exact ⟨hone,hwritten⟩
          · intro h
            exact ⟨host,port,rfl,hhost,rfl,h hhost⟩
  · rename_i hat
    exact iff_of_true rfl fun h => absurd h hat

end Hysteria

section Links

variable {lib : Library} {uri : Bytes} {proto : Protocol}

/-- The schemes of a protocol. -/
def schemes : Protocol → List Bytes
  | .vless => [ascii "vless"]
  | .vmess => [ascii "vmess"]
  | .trojan => [ascii "trojan"]
  | .shadowsocks => [ascii "ss"]
  | .socks => [ascii "socks5",ascii "socks4",ascii "socks"]
  | .hysteria2 => [ascii "hysteria2",ascii "hy2"]

theorem scheme_of_protocol (h : getUriProtocol uri = some proto) :
    ∃ scheme ∈ schemes proto, (scheme ++ ascii "://").isPrefixOf uri = true := by
  unfold getUriProtocol at h
  split_ifs at h with hvmess hvless hss hsocks hhttp htrojan hhysteria
  · cases h
    exact ⟨_,List.mem_singleton_self _,hvmess⟩
  · cases h
    exact ⟨_,List.mem_singleton_self _,hvless⟩
  · cases h
    exact ⟨_,List.mem_singleton_self _,hss⟩
  · cases h
    simp only [Bool.or_eq_true] at hsocks
    rcases hsocks with (hsocks | hsocks) | hsocks
    · exact ⟨ascii "socks5",by simp [schemes],hsocks⟩
    · exact ⟨ascii "socks4",by simp [schemes],hsocks⟩
    · exact ⟨ascii "socks",by simp [schemes],hsocks⟩
  · cases h
    exact ⟨_,List.mem_singleton_self _,htrojan⟩
  · cases h
    simp only [Bool.or_eq_true] at hhysteria
    rcases hhysteria with hhysteria | hhysteria
    · exact ⟨ascii "hysteria2",by simp [schemes],hhysteria⟩
    · exact ⟨ascii "hy2",by simp [schemes],hhysteria⟩

theorem schemes_plain : ∀ proto, ∀ scheme ∈ schemes proto, colon ∉ scheme := by
  intro proto
  cases proto <;> simp only [schemes] <;> decide

theorem index_scheme {scheme : Bytes} (h : colon ∉ scheme)
    (hp : (scheme ++ ascii "://").isPrefixOf uri = true) :
    Occurrences.index (ascii "://") uri = some scheme.length := by
  obtain ⟨data,rfl⟩ := List.isPrefixOf_iff_prefix.mp hp
  exact index_word h [slash,slash] data

theorem parseHysteria2_eq (h : getUriProtocol uri = some .hysteria2) :
    parseHysteria2 lib uri = parseHysteria2Data lib (dataOf uri) := by
  obtain ⟨scheme,hmem,hstarts⟩ := scheme_of_protocol h
  have hlong (hp : (ascii "hysteria2" ++ ascii "://").isPrefixOf uri = true) :=
    trimPrefix_scheme (ascii "hysteria2") (by decide) hp
  have hshort (hp : (ascii "hy2" ++ ascii "://").isPrefixOf uri = true) :=
    trimPrefix_scheme (ascii "hy2") (by decide) hp
  unfold parseHysteria2
  split_ifs with h2 h3
  · exact congrArg _ (hlong h2)
  · exact congrArg _ (hshort h3)
  · rcases List.mem_cons.mp hmem with rfl | hmem
    · exact absurd hstarts h2
    · rw [List.mem_singleton.mp hmem] at hstarts
      exact absurd hstarts h3

theorem sound_protocol (h : getUriProtocol uri = some proto) :
    Sound (WrittenPort lib (dataOf uri) proto) (parseAs lib uri proto) ↔
      ProperData lib (dataOf uri) proto := by
  obtain ⟨scheme,hmem,hstarts⟩ := scheme_of_protocol h
  cases proto with
  | vless =>
    rw [List.mem_singleton.mp hmem] at hstarts
    exact sound_vless hstarts
  | vmess =>
    rw [List.mem_singleton.mp hmem] at hstarts
    exact sound_vmess hstarts
  | trojan =>
    rw [List.mem_singleton.mp hmem] at hstarts
    exact sound_trojan hstarts
  | shadowsocks =>
    rw [List.mem_singleton.mp hmem] at hstarts
    exact sound_shadowsocks hstarts
  | socks => exact sound_socks (index_scheme (schemes_plain .socks scheme hmem) hstarts)
  | hysteria2 =>
    rw [parseAs,parseHysteria2_eq h]
    exact sound_hysteria (dataOf uri)

/-- Parsing never panics, and gives no outbound but with a server and the port
of the link, just when the link is proper. -/
theorem soundLink_iff (lib : Library) (uri : Bytes) :
    SoundLink lib uri ↔
      ∀ proto, getUriProtocol uri = some proto → ProperData lib (dataOf uri) proto := by
  unfold SoundLink createOutboundObject
  cases hproto : getUriProtocol uri with
  | none => exact iff_of_true rfl fun _ h => by cases h
  | some proto =>
    have hsound : Sound (WrittenPort lib (dataOf uri) proto) (parseAs lib uri proto) ↔
        ProperData lib (dataOf uri) proto := sound_protocol hproto
    have hone : (∀ p, some proto = some p → ProperData lib (dataOf uri) p) ↔
        ProperData lib (dataOf uri) proto :=
      ⟨fun h => h proto rfl,fun h p hp => Option.some.inj hp ▸ h⟩
    rw [hone,← hsound]
    simp only [bind,Except.bind]
    cases parseAs lib uri proto with
    | error e => exact Iff.rfl
    | ok r =>
      exact ⟨fun ⟨p,hp,h⟩ => Option.some.inj hp ▸ h,fun h => ⟨proto,rfl,h⟩⟩

/-- A JSON decoder as far as it is asked here: it knows `null`. -/
def nullOnly : Library where
  unmarshal text := if text = ascii "null" then some .null else none
  unmarshalMap text m := if text = ascii "null" then ([],true) else (m,false)
  wrap _ := 0

theorem soundLink_fails : ¬SoundLink nullOnly (ascii "vless://u@h:0") ∧
    ¬SoundLink nullOnly (ascii "hy2://p@h:1-2") ∧
    ¬SoundLink nullOnly (ascii "vmess://bnVsbA==") := by
  refine ⟨?_,?_,?_⟩
  · rintro ⟨proto,-,host,port,-,-,hport,hone,-⟩
    cases hport
    revert hone
    decide
  · rintro ⟨proto,hproto,host,port,-,-,hport,-,hwritten⟩
    cases hproto
    cases hport
    have hwritten' : HysteriaPort (ascii "h" ++ colon::ascii "1-2") 443 := hwritten
    obtain ⟨hdecimal,-⟩ := hysteriaPort_cut (by decide) (by decide) hwritten'
    have hdigit := hdecimal.2 0x2D (by decide)
    revert hdigit
    decide
  · rintro ⟨proto,-,host,port,haddress,-⟩
    cases haddress

end Links

end Whoisthat.LinkPorts
