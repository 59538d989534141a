import Whoisthat.IPLiterals
import Whoisthat.PacketFilter
import Whoisthat.Records

/-!
# The rule sets of the kill switch

The two builders as the rule lists they write: one inet chain for nftables, one
chain per family for iptables. Address texts enter a rule only through
`splitIPsValid`, and the TUN name only through `sanitizeTunName`. Both rule
sets accept what the documentation lists and nothing else.
-/

set_option autoImplicit false

namespace Whoisthat.KillSwitchRules
open Whoisthat.PacketFilter Whoisthat.IPLiterals Whoisthat.Records

/-- A locally generated packet. -/
structure Packet where
  destination : Address
  outgoing : String
  mark : ℕ
  deriving DecidableEq

/-- An address with a prefix length. -/
structure Range (w : ℕ) where
  base : BitVec w
  length : ℕ
  deriving DecidableEq

def Range.holds {w : ℕ} (r : Range w) (a : BitVec w) : Bool :=
  a >>> (w-r.length) = r.base >>> (w-r.length)

def host {w : ℕ} (a : BitVec w) : Range w := ⟨a,w⟩

theorem holds_host {w : ℕ} (a b : BitVec w) : (host a).holds b = true ↔ b = a := by
  simp [host,Range.holds]

def killSwitchDirectMark : ℕ := 1

def dnsSink4 : IPv4 := ipv4 198 18 0 53

def dnsSink6 : IP := ofGroups [0xfd00,0,0,0,0,0,0,0x53]

def killSwitchV4 : List (Range 32) :=
  [⟨ipv4 127 0 0 0,8⟩,⟨ipv4 10 0 0 0,8⟩,⟨ipv4 172 16 0 0,12⟩,⟨ipv4 192 168 0 0,16⟩,
    ⟨ipv4 169 254 0 0,16⟩,⟨ipv4 224 0 0 0,4⟩]

def killSwitchV6 : List (Range 128) :=
  [⟨ofGroups [0,0,0,0,0,0,0,1],128⟩,⟨ofGroups [0xfc00,0,0,0,0,0,0,0],7⟩,
    ⟨ofGroups [0xfe80,0,0,0,0,0,0,0],10⟩,⟨ofGroups [0xff00,0,0,0,0,0,0,0],8⟩]

def isLetter (c : Char) : Bool := ('A' ≤ c && c ≤ 'Z') || ('a' ≤ c && c ≤ 'z')

/-- `validTunNameRe` -/
def validTunName (name : String) : Bool :=
  match name.toList with
  | [] => false
  | c::cs => isLetter c && cs.all fun d => isLetter d || d.isDigit || d = '_' || d = '-'

def sanitizeTunName (name : String) : String :=
  if name ≠ "" ∧ validTunName name = false then "" else name

/-- The valid addresses, each at its first occurrence, by family. -/
def splitIPsValid (ips : List String) : List IPv4 × List IP :=
  let found := (ips.filterMap fun raw => parseIP (trimSpace raw)).eraseDups
  (found.filterMap to4,found.filter fun ip => (to4 ip).isNone)

section Builders

variable (proxyIPs : List String) (tunName : String) (dnsServers : List String)

inductive NftMatch where
  | oif (name : String)
  | ipDaddr (r : Range 32)
  | ip6Daddr (r : Range 128)
  | metaMark (n : ℕ)
  | oifname (pattern : String)
  deriving DecidableEq

/-- `buildKillSwitchNftScript`: the accepted matches, in order. -/
def nftMatches : List NftMatch :=
  let tunName := sanitizeTunName tunName
  let proxy := splitIPsValid proxyIPs
  let dns := splitIPsValid dnsServers
  [.oif "lo"] ++ killSwitchV4.map .ipDaddr ++ killSwitchV6.map .ip6Daddr ++
  (dns.1 ++ [dnsSink4]).map (fun ip => .ipDaddr (host ip)) ++
  (dns.2 ++ [dnsSink6]).map (fun ip => .ip6Daddr (host ip)) ++
  [.metaMark killSwitchDirectMark] ++ (if tunName ≠ "" then [.oifname tunName] else []) ++
  proxy.1.map (fun ip => .ipDaddr (host ip)) ++ proxy.2.map (fun ip => .ip6Daddr (host ip))

def nftRules : List (Rule NftMatch) := allowlist (nftMatches proxyIPs tunName dnsServers)

inductive IptMatch (w : ℕ) where
  | out (pattern : String)
  | daddr (r : Range w)
  | mark (n : ℕ)
  deriving DecidableEq

/-- `buildKillSwitchIptablesScript`: the part it writes once per family. -/
def iptMatches {w : ℕ} (fixed : List (Range w)) (dns : List (BitVec w)) (sink : BitVec w)
    (proxies : List (BitVec w)) : List (IptMatch w) :=
  [.out "lo"] ++ fixed.map .daddr ++ (dns ++ [sink]).map (fun ip => .daddr (host ip)) ++
  [.mark killSwitchDirectMark] ++
  (if sanitizeTunName tunName ≠ "" then [.out (sanitizeTunName tunName)] else []) ++
  proxies.map fun ip => .daddr (host ip)

def ipt4Matches : List (IptMatch 32) :=
  iptMatches tunName killSwitchV4 (splitIPsValid dnsServers).1 dnsSink4 (splitIPsValid proxyIPs).1

def ipt6Matches : List (IptMatch 128) :=
  iptMatches tunName killSwitchV6 (splitIPsValid dnsServers).2 dnsSink6 (splitIPsValid proxyIPs).2

def ipt4Rules : List (Rule (IptMatch 32)) := allowlist (ipt4Matches proxyIPs tunName dnsServers)

def ipt6Rules : List (Rule (IptMatch 128)) := allowlist (ipt6Matches proxyIPs tunName dnsServers)

end Builders

section Semantics

/-- An interface name against a pattern that a final `wildcard` opens. -/
def matchesName (wildcard : Char) (pattern name : String) : Bool :=
  if pattern.toList.getLast? = some wildcard then pattern.toList.dropLast.isPrefixOf name.toList
  else pattern = name

def NftMatch.holds (p : Packet) : NftMatch → Bool
  | .oif name => p.outgoing = name
  | .ipDaddr r =>
    match p.destination with
    | .v4 a => r.holds a
    | .v6 _ => false
  | .ip6Daddr r =>
    match p.destination with
    | .v4 _ => false
    | .v6 a => r.holds a
  | .metaMark n => p.mark = n
  | .oifname pattern => matchesName '*' pattern p.outgoing

def nftVerdict (rules : List (Rule NftMatch)) (p : Packet) : Verdict :=
  verdict (fun m p => NftMatch.holds p m) .drop rules p

def IptMatch.holds {w : ℕ} (a : BitVec w) (p : Packet) : IptMatch w → Bool
  | .out pattern => matchesName '+' pattern p.outgoing
  | .daddr r => r.holds a
  | .mark n => p.mark = n

/-- The jump from `OUTPUT`: a packet that falls through the chain goes on there. -/
def iptVerdict (rules4 : List (Rule (IptMatch 32))) (rules6 : List (Rule (IptMatch 128)))
    (p : Packet) : Verdict :=
  match p.destination with
  | .v4 a => verdict (fun m p => IptMatch.holds a p m) .accept rules4 p
  | .v6 a => verdict (fun m p => IptMatch.holds a p m) .accept rules6 p

end Semantics

section Whitelist

/-- One of the strings is an IP literal of the address. -/
def Names (ips : List String) (a : Address) : Prop :=
  ∃ raw ∈ ips, (parseIP (trimSpace raw)).map address = some a

/-- The ranges and addresses that are always allowed. -/
def FixedRange : Address → Prop
  | .v4 a => (∃ r ∈ killSwitchV4, r.holds a = true) ∨ a = dnsSink4
  | .v6 a => (∃ r ∈ killSwitchV6, r.holds a = true) ∨ a = dnsSink6

/-- The documented whitelist. -/
def Whitelisted (proxyIPs : List String) (tunName : String) (dnsServers : List String)
    (p : Packet) : Prop :=
  p.outgoing = "lo" ∨ FixedRange p.destination ∨ Names dnsServers p.destination ∨
  p.mark = killSwitchDirectMark ∨ (validTunName tunName = true ∧ p.outgoing = tunName) ∨
  Names proxyIPs p.destination

end Whitelist

section Addresses

variable {ips : List String}

theorem mem_splitIPsValid4 (a : IPv4) : a ∈ (splitIPsValid ips).1 ↔ Names ips (.v4 a) := by
  simp only [splitIPsValid,List.mem_filterMap,List.mem_eraseDups,Names,Option.map_eq_some_iff]
  constructor
  · rintro ⟨ip,⟨raw,hraw,hp⟩,ha⟩
    exact ⟨raw,hraw,ip,hp,by simp [address,ha]⟩
  · rintro ⟨raw,hraw,ip,hp,ha⟩
    refine ⟨ip,⟨raw,hraw,hp⟩,?_⟩
    cases ht : to4 ip with
    | none => simp [address,ht] at ha
    | some b =>
      simp only [address,ht,Address.v4.injEq] at ha
      rw [ha]

theorem mem_splitIPsValid6 (a : IP) : a ∈ (splitIPsValid ips).2 ↔ Names ips (.v6 a) := by
  simp only [splitIPsValid,List.mem_filter,List.mem_filterMap,List.mem_eraseDups,Names,
    Option.map_eq_some_iff,Option.isNone_iff_eq_none]
  constructor
  · rintro ⟨⟨raw,hraw,hp⟩,ha⟩
    exact ⟨raw,hraw,a,hp,by simp [address,ha]⟩
  · rintro ⟨raw,hraw,ip,hp,ha⟩
    cases ht : to4 ip with
    | none =>
      simp only [address,ht,Address.v6.injEq] at ha
      subst ha
      exact ⟨⟨raw,hraw,hp⟩,ht⟩
    | some b => simp [address,ht] at ha

end Addresses

section TunName

variable {tunName : String}

theorem sanitized_iff (name : String) : (sanitizeTunName tunName ≠ "" ∧ name = sanitizeTunName tunName) ↔
    validTunName tunName = true ∧ name = tunName := by
  unfold sanitizeTunName
  by_cases he : tunName = ""
  · subst he
    simp [validTunName]
  · cases hv : validTunName tunName <;> simp [he]

theorem last_of_valid (hv : validTunName tunName = true) {c : Char} (hc : isLetter c = false)
    (hd : c.isDigit = false) (hu : c ≠ '_') (hh : c ≠ '-') :
    tunName.toList.getLast? ≠ some c := by
  intro hl
  have hmem : c ∈ tunName.toList := List.mem_of_getLast? hl
  unfold validTunName at hv
  cases hcs : tunName.toList with
  | nil => simp [hcs] at hmem
  | cons b cs =>
    rw [hcs] at hv hmem
    simp only [Bool.and_eq_true] at hv
    rcases List.mem_cons.mp hmem with rfl | hm
    · rw [hc] at hv
      exact absurd hv.1 (by simp)
    · have hall := List.all_eq_true.mp hv.2 c hm
      simp [hc,hd,hu,hh] at hall

/-- No valid name ends in a wildcard of either tool. -/
theorem matchesName_valid (hv : validTunName tunName = true) (wildcard : Char)
    (hw : wildcard = '*' ∨ wildcard = '+') (name : String) :
    matchesName wildcard tunName name = true ↔ name = tunName := by
  have hlast : tunName.toList.getLast? ≠ some wildcard := by
    rcases hw with rfl | rfl <;> exact last_of_valid hv (by decide) (by decide) (by decide) (by decide)
  simp [matchesName,hlast,eq_comm]

end TunName

section Agreement

variable (proxyIPs : List String) (tunName : String) (dnsServers : List String) (p : Packet)

/-- The condition on the TUN device, in either language. -/
theorem tun_holds_iff {μ : Type} (holds : μ → Bool) (f : String → μ) (wildcard : Char)
    (hw : wildcard = '*' ∨ wildcard = '+')
    (hf : ∀ t, holds (f t) = matchesName wildcard t p.outgoing) :
    (∃ c ∈ (if sanitizeTunName tunName ≠ "" then [f (sanitizeTunName tunName)] else []),
      holds c = true) ↔ validTunName tunName = true ∧ p.outgoing = tunName := by
  constructor
  · rintro ⟨c,hc,hm⟩
    split_ifs at hc with hs
    · rw [List.mem_singleton.mp hc,hf] at hm
      obtain ⟨hv,hn⟩ := (sanitized_iff (sanitizeTunName tunName)).mp ⟨hs,rfl⟩
      rw [hn] at hm
      exact ⟨hv,(matchesName_valid hv wildcard hw p.outgoing).mp hm⟩
    · cases hc
  · rintro ⟨hv,hn⟩
    obtain ⟨hs,hn'⟩ := (sanitized_iff tunName).mpr ⟨hv,rfl⟩
    refine ⟨f (sanitizeTunName tunName),by simp [hs],?_⟩
    rw [hf,← hn']
    exact (matchesName_valid hv wildcard hw p.outgoing).mpr hn

theorem nft_accepts_iff :
    nftVerdict (nftRules proxyIPs tunName dnsServers) p = .accept ↔
      Whitelisted proxyIPs tunName dnsServers p := by
  have htun := tun_holds_iff tunName p (NftMatch.holds p) .oifname '*' (Or.inl rfl) fun _ => rfl
  unfold nftVerdict nftRules
  rw [allowlist_accepts_iff]
  simp only [nftMatches,List.mem_append,or_and_right,exists_or,htun]
  cases hd : p.destination with
  | v4 a =>
    simp [Whitelisted,FixedRange,hd,NftMatch.holds,mem_splitIPsValid4,holds_host,or_assoc]
    exact or_congr_right (or_congr_right or_left_comm)
  | v6 a =>
    simp [Whitelisted,FixedRange,hd,NftMatch.holds,mem_splitIPsValid6,holds_host,or_assoc]
    exact or_congr_right (or_congr_right or_left_comm)

theorem ipt_accepts_iff {w : ℕ} (fixed : List (Range w)) (dns proxies : List (BitVec w))
    (sink a : BitVec w) (policy : Verdict) :
    verdict (fun m p => IptMatch.holds a p m) policy
        (allowlist (iptMatches tunName fixed dns sink proxies)) p = .accept ↔
      p.outgoing = "lo" ∨ ((∃ r ∈ fixed, r.holds a = true) ∨ a = sink) ∨ a ∈ dns ∨
      p.mark = killSwitchDirectMark ∨ (validTunName tunName = true ∧ p.outgoing = tunName) ∨
      a ∈ proxies := by
  have htun := @tun_holds_iff tunName p (IptMatch w) (IptMatch.holds a p) .out '+' (Or.inr rfl)
    fun _ => rfl
  have hlo : matchesName '+' "lo" p.outgoing = true ↔ p.outgoing = "lo" :=
    matchesName_valid (by decide) '+' (Or.inr rfl) p.outgoing
  rw [allowlist_accepts_iff]
  simp only [iptMatches,List.mem_append,or_and_right,exists_or,htun]
  simp [IptMatch.holds,holds_host,or_assoc,hlo]
  exact or_congr_right (or_congr_right or_left_comm)

theorem iptables_accepts_iff :
    iptVerdict (ipt4Rules proxyIPs tunName dnsServers) (ipt6Rules proxyIPs tunName dnsServers) p =
      .accept ↔ Whitelisted proxyIPs tunName dnsServers p := by
  unfold iptVerdict Whitelisted
  cases hd : p.destination with
  | v4 a =>
    have h := ipt_accepts_iff tunName p killSwitchV4 (splitIPsValid dnsServers).1
      (splitIPsValid proxyIPs).1 dnsSink4 a .accept
    rw [mem_splitIPsValid4,mem_splitIPsValid4] at h
    exact h
  | v6 a =>
    have h := ipt_accepts_iff tunName p killSwitchV6 (splitIPsValid dnsServers).2
      (splitIPsValid proxyIPs).2 dnsSink6 a .accept
    rw [mem_splitIPsValid6,mem_splitIPsValid6] at h
    exact h

end Agreement

section Interpolation

variable (proxyIPs : List String) (tunName : String) (dnsServers : List String)

/-- A range written into a rule is fixed or the address of an IP literal. -/
def FromLiteral {w : ℕ} (fixed : List (Range w)) (sink : BitVec w) (f : BitVec w → Address)
    (ips : List String) (r : Range w) : Prop :=
  r ∈ fixed ∨ ∃ a, r = host a ∧ (a = sink ∨ Names ips (f a))

/-- What the nftables builder writes into a rule. -/
def NftMatch.Written (ips : List String) (tunName : String) : NftMatch → Prop
  | .oif name => name = "lo"
  | .ipDaddr r => FromLiteral killSwitchV4 dnsSink4 .v4 ips r
  | .ip6Daddr r => FromLiteral killSwitchV6 dnsSink6 .v6 ips r
  | .metaMark n => n = killSwitchDirectMark
  | .oifname t => t = tunName ∧ validTunName tunName = true

/-- What the iptables builder writes into a rule of one family. -/
def IptMatch.Written {w : ℕ} (fixed : List (Range w)) (sink : BitVec w) (f : BitVec w → Address)
    (ips : List String) (tunName : String) : IptMatch w → Prop
  | .out t => t = "lo" ∨ (t = tunName ∧ validTunName tunName = true)
  | .daddr r => FromLiteral fixed sink f ips r
  | .mark n => n = killSwitchDirectMark

theorem names_append (ips rest : List String) (a : Address) :
    Names (ips ++ rest) a ↔ Names ips a ∨ Names rest a := by
  simp [Names,or_and_right,exists_or]

theorem nft_written : ∀ c ∈ nftMatches proxyIPs tunName dnsServers,
    c.Written (proxyIPs ++ dnsServers) tunName := by
  intro c hc
  simp only [nftMatches,List.mem_append,List.mem_map,List.mem_singleton] at hc
  rcases hc with (((((((rfl | ⟨r,hr,rfl⟩) | ⟨r,hr,rfl⟩) | ⟨a,ha,rfl⟩) | ⟨a,ha,rfl⟩) | rfl) | hc) |
    ⟨a,ha,rfl⟩) | ⟨a,ha,rfl⟩
  · rfl
  · exact Or.inl hr
  · exact Or.inl hr
  · exact Or.inr ⟨a,rfl,ha.symm.imp_right fun h =>
      (names_append ..).mpr (Or.inr ((mem_splitIPsValid4 a).mp h))⟩
  · exact Or.inr ⟨a,rfl,ha.symm.imp_right fun h =>
      (names_append ..).mpr (Or.inr ((mem_splitIPsValid6 a).mp h))⟩
  · rfl
  · split_ifs at hc with hs
    · rw [List.mem_singleton.mp hc]
      obtain ⟨hv,hn⟩ := (sanitized_iff (sanitizeTunName tunName)).mp ⟨hs,rfl⟩
      exact ⟨hn,hv⟩
    · cases hc
  · exact Or.inr ⟨a,rfl,Or.inr ((names_append ..).mpr (Or.inl ((mem_splitIPsValid4 a).mp ha)))⟩
  · exact Or.inr ⟨a,rfl,Or.inr ((names_append ..).mpr (Or.inl ((mem_splitIPsValid6 a).mp ha)))⟩

theorem ipt_written {w : ℕ} {fixed : List (Range w)} {dns proxies : List (BitVec w)}
    {sink : BitVec w} {f : BitVec w → Address} {ips : List String}
    (hd : ∀ a ∈ dns, Names ips (f a)) (hp : ∀ a ∈ proxies, Names ips (f a)) :
    ∀ c ∈ iptMatches tunName fixed dns sink proxies, c.Written fixed sink f ips tunName := by
  intro c hc
  simp only [iptMatches,List.mem_append,List.mem_map,List.mem_singleton] at hc
  rcases hc with ((((rfl | ⟨r,hr,rfl⟩) | ⟨a,ha,rfl⟩) | rfl) | hc) | ⟨a,ha,rfl⟩
  · exact Or.inl rfl
  · exact Or.inl hr
  · exact Or.inr ⟨a,rfl,ha.symm.imp_right (hd a)⟩
  · rfl
  · split_ifs at hc with hs
    · rw [List.mem_singleton.mp hc]
      obtain ⟨hv,hn⟩ := (sanitized_iff (sanitizeTunName tunName)).mp ⟨hs,rfl⟩
      exact Or.inr ⟨hn,hv⟩
    · cases hc
  · exact Or.inr ⟨a,rfl,Or.inr (hp a ha)⟩

/-- Both backends accept the documented whitelist and drop the rest, and every
address they write comes from an IP literal. -/
theorem backends_accept_whitelist :
    (∀ p, nftVerdict (nftRules proxyIPs tunName dnsServers) p =
      iptVerdict (ipt4Rules proxyIPs tunName dnsServers) (ipt6Rules proxyIPs tunName dnsServers) p) ∧
    (∀ p, nftVerdict (nftRules proxyIPs tunName dnsServers) p = .accept ↔
      Whitelisted proxyIPs tunName dnsServers p) ∧
    (∀ c ∈ nftMatches proxyIPs tunName dnsServers, c.Written (proxyIPs ++ dnsServers) tunName) ∧
    (∀ c ∈ ipt4Matches proxyIPs tunName dnsServers,
      c.Written killSwitchV4 dnsSink4 .v4 (proxyIPs ++ dnsServers) tunName) ∧
    ∀ c ∈ ipt6Matches proxyIPs tunName dnsServers,
      c.Written killSwitchV6 dnsSink6 .v6 (proxyIPs ++ dnsServers) tunName := by
  have hl : ∀ a, Names proxyIPs a → Names (proxyIPs ++ dnsServers) a :=
    fun a h => (names_append ..).mpr (Or.inl h)
  have hr : ∀ a, Names dnsServers a → Names (proxyIPs ++ dnsServers) a :=
    fun a h => (names_append ..).mpr (Or.inr h)
  refine ⟨fun p => verdict_eq_of_iff ?_,nft_accepts_iff proxyIPs tunName dnsServers,
    nft_written proxyIPs tunName dnsServers,?_,?_⟩
  · rw [nft_accepts_iff,iptables_accepts_iff]
  · exact ipt_written tunName (fun a ha => hr _ ((mem_splitIPsValid4 a).mp ha))
      fun a ha => hl _ ((mem_splitIPsValid4 a).mp ha)
  · exact ipt_written tunName (fun a ha => hr _ ((mem_splitIPsValid6 a).mp ha))
      fun a ha => hl _ ((mem_splitIPsValid6 a).mp ha)

end Interpolation

end Whoisthat.KillSwitchRules
