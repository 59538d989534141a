import Mathlib.Data.Int.Notation

/-!
# Database records

The persisted structures, field by field in the order of the Go sources. Go
`int` and `int64` are `ℤ`, a `json.RawMessage` is its text, pointers are
options. A record that only a constrained producer builds carries the
producer's guarantee as a field.
-/

set_option autoImplicit false

namespace Whoisthat.Records

abbrev RawMessage := String

/-- `unicode.IsSpace` -/
def isSpace (c : Char) : Bool :=
  (9 ≤ c.toNat ∧ c.toNat ≤ 13) ∨ c.toNat = 0x20 ∨ c.toNat = 0x85 ∨ c.toNat = 0xA0 ∨
    c.toNat = 0x1680 ∨ (0x2000 ≤ c.toNat ∧ c.toNat ≤ 0x200a) ∨ c.toNat = 0x2028 ∨
    c.toNat = 0x2029 ∨ c.toNat = 0x202f ∨ c.toNat = 0x205f ∨ c.toNat = 0x3000

/-- `strings.TrimSpace` -/
def trimSpace (s : String) : String :=
  String.ofList ((s.toList.dropWhile isSpace).reverse.dropWhile isSpace).reverse

def normalizeProfileURI (uri : String) : String := trimSpace uri

/-- What a refresh matches servers by: the trimmed share link, or the
provider key of a server that came with its own configuration. -/
inductive Identity where
  | uri (u : String)
  | managed (key : String)
  deriving DecidableEq, Repr

/-- One parsed subscription entry. The subscription parser marks an entry
managed only together with its configuration text and a provider key. -/
structure DBAddProfileData where
  uri : String
  groupId : ℤ
  name : String
  protocol : String
  address : String
  host : String
  port : ℤ
  nanoID : String
  config : RawMessage
  providerKey : String
  managed : Bool
  carried : managed = true → config ≠ "" ∧ providerKey ≠ ""
  deriving DecidableEq

structure Profile where
  id : ℤ
  groupId : ℤ
  nanoID : String
  name : String
  protocol : String
  uri : String
  address : String
  host : String
  testResult : ℤ
  testedAt : ℤ
  lossPct : ℤ
  jitterMs : ℤ
  port : ℤ
  managed : Bool
  providerKey : String
  keyed : managed = true → providerKey ≠ ""
  deriving DecidableEq

def Profile.identity (p : Profile) : Identity :=
  if p.managed then .managed p.providerKey else .uri (normalizeProfileURI p.uri)

def DBAddProfileData.identity (d : DBAddProfileData) : Identity :=
  if d.managed then .managed d.providerKey else .uri (normalizeProfileURI d.uri)

structure Group where
  id : ℤ
  subscriptionUrl : String
  name : String
  lastId : ℤ
  subLastUpdated : ℤ
  subExpires : ℤ
  subUpload : ℤ
  subDownload : ℤ
  subTotal : ℤ
  subUpdateInterval : ℤ
  subUpdateIntervalOverride : ℤ
  subAutoUpdateDisabled : Bool
  profileOrder : List ℤ
  routingMode : String
  manualRoutingMode : String
  activeRoutingProfileId : String
  pendingActiveRoutingProfileId : String
  subName : String
  subscriptionFormat : String
  deriving DecidableEq

structure DBConfig where
  lastGroupId : ℤ
  groupOrder : List ℤ
  deriving DecidableEq

structure RoutingRule where
  type : String
  domain : String
  ip : String
  protocol : String
  port : String
  network : String
  outboundTag : String
  enabled : Bool
  deriving DecidableEq

structure HappDNSConfig where
  fakeDNSEnabled : Bool
  remoteDNSType : String
  remoteDNSDomain : String
  remoteDNSIP : String
  domesticDNSType : String
  domesticDNSDomain : String
  domesticDNSIP : String
  hosts : List (String × String)
  deriving DecidableEq

structure RoutingConfig where
  domainStrategy : String
  rules : List RoutingRule
  dns : Option HappDNSConfig
  deriving DecidableEq

structure RoutingProfile where
  id : String
  groupId : ℤ
  name : String
  source : String
  state : String
  lastError : String
  rawJSON : RawMessage
  rules : List RoutingRule
  domainStrategy : String
  globalProxy : Bool
  dns : Option HappDNSConfig
  geoDir : String
  lastUpdated : ℤ
  geoUpdatedAt : ℤ
  createdAt : ℤ
  updatedAt : ℤ
  deriving DecidableEq

structure GroupWithProfiles where
  group : Group
  profiles : List Profile
  routingProfiles : List RoutingProfile

structure GroupAdded where
  id : ℤ
  subscriptionUrl : String
  name : String
  deriving DecidableEq

def manualRoutingInherit : String := "inherit"
def manualRoutingCustom : String := "custom"

/-- `structs.LANRuleIP`, also the literal of `defaultRouting` -/
def lanRuleIP : String :=
  "10.0.0.0/8,172.16.0.0/12,192.168.0.0/16,fc00::/7,fe80::/10,::1/128"

end Whoisthat.Records
