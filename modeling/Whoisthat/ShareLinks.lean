import Whoisthat.Base64
import Whoisthat.HappLinks
import Whoisthat.JsonScanner
import Whoisthat.WhiteSpace

/-!
# Share links in a subscription body

A body is decoded from base64 when some variant accepts it, taken for JSON when
it is a document, read line by line by the batch parser and word by word when
that finds nothing. A list of links among other lines is followed through all
four steps. What the single-link parser makes of a link of a known protocol and
which servers a JSON document holds are parameters.
-/

set_option autoImplicit false

namespace Whoisthat.ShareLinks
open Whoisthat.Base64 Whoisthat.JsonScanner Whoisthat.Utf8 Whoisthat.WhiteSpace
open Whoisthat.HappLinks (ascii)
open Whoisthat.Separators (trim_spec mem_of_trim mem_of_field Separating)

section Source

structure RawData where
  remarks : Bytes
  address : Option Bytes
  host : Option Bytes

/-- `structs.DBAddProfileData` without the random id -/
structure DBAddProfileData where
  uri : Bytes
  groupId : ℤ
  name : Bytes
  protocol : Bytes
  address : Bytes
  host : Bytes
  port : ℤ
  config : Bytes
  providerKey : Bytes
  managed : Bool
  deriving DecidableEq

structure ProfileMetadata where
  name : Bytes
  protocol : Bytes
  address : Option Bytes
  host : Option Bytes

/-- One server of a JSON subscription. -/
structure ConfigProfile where
  name : Bytes
  protocol : Bytes
  address : Bytes
  host : Bytes
  port : ℤ
  raw : Bytes
  providerKey : Bytes

structure Parsers where
  /-- What `createOutboundObject` makes of a link of a known protocol. -/
  link : Bytes → Bytes → Option RawData
  /-- The servers of a valid document. -/
  servers : Bytes → List ConfigProfile

/-- The prefixes in the order they are tried, with their protocols. -/
def schemes : List (Bytes × Option Bytes) :=
  [(ascii "vmess://",some (ascii "vmess")),(ascii "vless://",some (ascii "vless")),
    (ascii "ss://",some (ascii "shadowsocks")),(ascii "socks5://",some (ascii "socks")),
    (ascii "socks4://",some (ascii "socks")),(ascii "socks://",some (ascii "socks")),
    (ascii "http://",none),(ascii "trojan://",some (ascii "trojan")),
    (ascii "hysteria2://",some (ascii "hysteria2")),(ascii "hy2://",some (ascii "hysteria2"))]

def getUriProtocol (uri : Bytes) : Option Bytes :=
  (schemes.find? fun scheme => scheme.1.isPrefixOf uri).bind Prod.snd

variable (p : Parsers)

def createOutboundObject (uri : Bytes) : Option RawData :=
  (getUriProtocol uri).bind fun proto => p.link proto uri

def getMetadata (uri : Bytes) : Option ProfileMetadata :=
  (createOutboundObject p uri).map fun rd =>
    { name := rd.remarks
      protocol := (getUriProtocol uri).getD []
      address := rd.address
      host := rd.host }

/-- The end of a line without its carriage return. -/
def dropCR (line : Bytes) : Bytes := if line.getLast? = some 0x0D then line.dropLast else line

/-- The lines of a text; behind the last line feed there is none. -/
def splitLines (text : Bytes) : List Bytes :=
  let lines := text.splitOn 0x0A
  if lines.getLast? = some [] then lines.dropLast else lines

def maxTokenSize : ℕ := 1024*1024

/-- `none` is a line that does not fit the buffer. -/
def scanLines (text : Bytes) : Option (List Bytes) :=
  if (splitLines text).any fun line => maxTokenSize ≤ line.length then none
  else some ((splitLines text).map dropCR)

def batchItem (line : Bytes) : Option (Bytes × ProfileMetadata) :=
  if line = [] then none else (getMetadata p line).map (line,·)

def getMetadataBatch (text : Bytes) : Option (List (Bytes × ProfileMetadata)) :=
  (scanLines text).map fun lines => lines.filterMap fun line => batchItem p (trimSpace line)

def profileData (gid : ℤ) (uri : Bytes) (m : ProfileMetadata) : DBAddProfileData :=
  { uri := uri
    groupId := gid
    name := m.name
    protocol := m.protocol
    address := m.address.getD []
    host := m.host.getD []
    port := 0
    config := []
    providerKey := []
    managed := false }

def getDBAddProfileDatasFromStrBatch (text : Bytes) (gid : ℤ) : Option (List DBAddProfileData) :=
  (getMetadataBatch p text).map fun items => items.map fun item => profileData gid item.1 item.2

def getDBAddProfileDataFromURI (gid : ℤ) (uri : Bytes) : Option DBAddProfileData :=
  (getMetadata p uri).map (profileData gid uri)

/-- The loop over the words of a text. -/
def perLink (text : Bytes) (gid : ℤ) : List DBAddProfileData :=
  (words text).filterMap (getDBAddProfileDataFromURI p gid)

def byteOrderMark : Bytes := [0xEF,0xBB,0xBF]

def trimPrefix (mark text : Bytes) : Bytes :=
  if mark.isPrefixOf text then text.drop mark.length else text

/-- `xrayjson.Parse`; no servers is an error. -/
def parseJson (text : Bytes) : List ConfigProfile :=
  let trimmed := trimSpace (trimPrefix byteOrderMark text)
  match trimmed with
  | c::_ => if (c = 0x5B ∨ c = 0x7B) ∧ valid trimmed = true then p.servers trimmed else []
  | [] => []

def configProfile (gid : ℤ) (config : ConfigProfile) : DBAddProfileData :=
  { uri := []
    groupId := gid
    name := config.name
    protocol := config.protocol
    address := config.address
    host := config.host
    port := config.port
    config := config.raw
    providerKey := config.providerKey
    managed := true }

def decode64 (text : Bytes) : Bytes := (firstDecoded wellFormed (trimSpace text)).getD text

/-- The steps after decoding. -/
def readBody (text : Bytes) (gid : ℤ) : List DBAddProfileData :=
  match parseJson p text with
  | config::configs => (config::configs).map (configProfile gid)
  | [] =>
    match getDBAddProfileDatasFromStrBatch p text gid with
    | some (profile::profiles) => profile::profiles
    | _ => perLink p text gid

def getDBAddProfileDatasFromStr (text : Bytes) (gid : ℤ) : List DBAddProfileData :=
  readBody p (decode64 text) gid

end Source

section Specification

variable (p : Parsers)

inductive Line where
  /-- A link, and whether a carriage return ends its line. -/
  | link (uri : Bytes) (cr : Bool)
  /-- A blank or unparsable line, with what ends it. -/
  | other (text : Bytes)
  deriving DecidableEq

def Line.text : Line → Bytes
  | .link uri cr => uri ++ (if cr then [0x0D] else [])
  | .other text => text

def Line.uri : Line → Option Bytes
  | .link uri _ => some uri
  | .other _ => none

/-- What a line may hold: a link that parses alone, or what no line feed is in
and does not parse. -/
def Line.Proper : Line → Prop
  | .link uri _ => SpaceFree uri ∧ (getMetadata p uri).isSome = true
  | .other text => 0x0A ∉ text ∧ getMetadata p (trimSpace (dropCR text)) = none

def body (lines : List Line) : Bytes := List.intercalate [0x0A] (lines.map Line.text)

def uris (lines : List Line) : List Bytes := lines.filterMap Line.uri

inductive Form where
  | plain
  | encoded (v : Variant)

/-- How a body is given; line breaks may be anywhere in an encoded one. -/
def Given (form : Form) (plain text : Bytes) : Prop :=
  match form with
  | .plain => text = plain
  | .encoded v => unwrapped text = encode v plain

/-- The profile of a link, as its metadata has it. -/
def Shows (uri : Bytes) (data : DBAddProfileData) : Prop :=
  ∃ m, getMetadata p uri = some m ∧ data.uri = uri ∧ data.name = m.name ∧
    data.protocol = m.protocol ∧ data.address = m.address.getD [] ∧ data.host = m.host.getD []

/-- One profile for each link, in order. -/
def Imports (lines : List Line) (profiles : List DBAddProfileData) : Prop :=
  List.Forall₂ (Shows p) (uris lines) profiles

/-- Both parsers find the same in the body. -/
def Agrees (gid : ℤ) (lines : List Line) : Prop :=
  getDBAddProfileDatasFromStrBatch p (body lines) gid = some (perLink p (body lines) gid)

def Long (lines : List Line) : Prop := ∃ l ∈ lines, maxTokenSize ≤ l.text.length

/-- A word of an unparsable line is a link of its own. -/
def Stray (lines : List Line) : Prop :=
  ∃ text, Line.other text ∈ lines ∧ ∃ word ∈ words text, (getMetadata p word).isSome = true

/-- A body without links is no encoding of another one, nor a JSON subscription. -/
def Telling (form : Form) (plain : Bytes) : Prop :=
  parseJson p plain = [] ∧ match form with
    | .plain => ∀ v data, decode v (trimSpace plain) = some data → wellFormed data = false
    | .encoded _ => True

/-- When the profiles of a body are those of its links. -/
def Readable (form : Form) (lines : List Line) : Prop :=
  (match form with
    | .plain => True
    | .encoded _ => uris lines = [] ∨ wellFormed (body lines) = true) ∧
  (uris lines = [] → Telling p form (body lines)) ∧
  (Stray p lines → uris lines ≠ [] ∧ ¬Long lines)

end Specification

section Metadata

variable {p : Parsers} {uri : Bytes}

theorem schemes_slash : ∀ scheme ∈ schemes,
    scheme.1 = scheme.1.takeWhile (· ≠ 0x2F) ++ [0x2F,0x2F] ∧ 0x3A ∈ scheme.1 ∧
      ∀ b ∈ scheme.1.takeWhile (· ≠ 0x2F), b ≠ 0x22 := by
  have hall : schemes.all (fun scheme =>
      scheme.1 = scheme.1.takeWhile (· ≠ 0x2F) ++ [0x2F,0x2F] && scheme.1.contains 0x3A &&
        (scheme.1.takeWhile (· ≠ 0x2F)).all (· ≠ 0x22)) = true := by
    decide +kernel
  intro scheme hscheme
  have hone := List.all_eq_true.mp hall scheme hscheme
  rw [Bool.and_eq_true,Bool.and_eq_true,List.all_eq_true] at hone
  obtain ⟨⟨hsame,hcolon⟩,hquote⟩ := hone
  exact ⟨of_decide_eq_true hsame,List.contains_iff_mem.mp hcolon,fun b hb =>
    of_decide_eq_true (hquote b hb)⟩

/-- A link that parses has its slashes right after the name of the scheme. -/
theorem metadata_scheme (h : (getMetadata p uri).isSome = true) : 0x3A ∈ uri ∧
    ∃ pre rest, uri = pre ++ 0x2F::rest ∧ ∀ b ∈ pre, b ≠ 0x22 := by
  obtain ⟨m,hm⟩ := Option.isSome_iff_exists.mp h
  obtain ⟨rd,hrd,-⟩ := Option.map_eq_some_iff.mp hm
  obtain ⟨proto,hproto,-⟩ := Option.bind_eq_some_iff.mp hrd
  obtain ⟨scheme,hfind,-⟩ := Option.bind_eq_some_iff.mp hproto
  obtain ⟨hslash,hcolon,hquote⟩ := schemes_slash scheme (List.mem_of_find?_eq_some hfind)
  have hstarts : scheme.1.isPrefixOf uri = true := by
    simpa using List.find?_some hfind
  obtain ⟨rest,hrest⟩ := List.isPrefixOf_iff_prefix.mp hstarts
  constructor
  · rw [← hrest]
    exact List.mem_append_left _ hcolon
  · refine ⟨scheme.1.takeWhile (· ≠ 0x2F),0x2F::rest,?_,hquote⟩
    calc uri = scheme.1 ++ rest := hrest.symm
      _ = scheme.1.takeWhile (· ≠ 0x2F) ++ [0x2F,0x2F] ++ rest := by rw [← hslash]
      _ = _ := by rw [List.append_assoc]; rfl

theorem metadata_none (h : 0x3A ∉ uri) : getMetadata p uri = none :=
  Option.not_isSome_iff_eq_none.mp fun hsome => h (metadata_scheme hsome).1

theorem metadata_ne (h : (getMetadata p uri).isSome = true) : uri ≠ [] := by
  rintro rfl
  exact absurd (metadata_scheme h).1 List.not_mem_nil

end Metadata

section Lines

variable {p : Parsers} {lines : List Line}

/-- What the lines of a body are scanned into; one empty line may be missing at
the end. -/
theorem splitLines_body (hlines : ∀ l ∈ lines, l.Proper p) :
    ∃ tail, (tail = [] ∨ tail = [[]]) ∧
      lines.map Line.text = splitLines (body lines) ++ tail := by
  cases lines with
  | nil => exact ⟨[],.inl rfl,by decide⟩
  | cons first rest =>
    have hfeed : ∀ l ∈ (first::rest).map Line.text, (0x0A : UInt8) ∉ l := by
      intro l hl
      obtain ⟨line,hline,rfl⟩ := List.mem_map.mp hl
      have hproper := hlines line hline
      cases line with
      | other text => exact hproper.1
      | link uri cr =>
        have huri := not_mem_of_free hproper.1 (b := 0x0A) (by decide)
        cases cr <;> simp [Line.text,huri]
    have hsplit : (body (first::rest)).splitOn 0x0A = (first::rest).map Line.text :=
      List.splitOn_intercalate _ hfeed (by simp)
    rw [splitLines,hsplit]
    split
    · rename_i hlast
      refine ⟨[[]],.inr rfl,?_⟩
      exact (List.dropLast_append_getLast? _ hlast).symm
    · exact ⟨[],.inl rfl,(List.append_nil _).symm⟩

theorem filterMap_body {β : Type} (hlines : ∀ l ∈ lines, l.Proper p) (f : Bytes → Option β)
    (hf : f [] = none) :
    (splitLines (body lines)).filterMap f = lines.filterMap fun l => f l.text := by
  obtain ⟨tail,htail,hmap⟩ := splitLines_body hlines
  have hnone : tail.filterMap f = [] := by
    rcases htail with rfl | rfl <;> simp [hf]
  calc (splitLines (body lines)).filterMap f
      = (splitLines (body lines) ++ tail).filterMap f := by
        rw [List.filterMap_append,hnone,List.append_nil]
    _ = lines.filterMap fun l => f l.text := by rw [← hmap,List.filterMap_map]; rfl

theorem long_iff (hlines : ∀ l ∈ lines, l.Proper p) :
    (splitLines (body lines)).any (fun line => maxTokenSize ≤ line.length) = true ↔
      Long lines := by
  obtain ⟨tail,htail,hmap⟩ := splitLines_body hlines
  have hnone : ∀ line ∈ tail, ¬maxTokenSize ≤ line.length := by
    rcases htail with rfl | rfl <;> simp [maxTokenSize]
  rw [List.any_eq_true]
  constructor
  · rintro ⟨line,hline,hlong⟩
    have hin : line ∈ lines.map Line.text := hmap ▸ List.mem_append_left _ hline
    obtain ⟨l,hl,rfl⟩ := List.mem_map.mp hin
    exact ⟨l,hl,of_decide_eq_true hlong⟩
  · rintro ⟨l,hl,hlong⟩
    have hin := hmap ▸ List.mem_map_of_mem hl
    rcases List.mem_append.mp hin with hin | hin
    · exact ⟨l.text,hin,decide_eq_true hlong⟩
    · exact absurd hlong (hnone l.text hin)

theorem dropCR_free {uri : Bytes} (h : SpaceFree uri) (cr : Bool) :
    dropCR (uri ++ if cr then [0x0D] else []) = uri := by
  cases cr with
  | true => rw [if_pos rfl,dropCR,if_pos (by simp),List.dropLast_concat]
  | false =>
    rw [if_neg (by decide),List.append_nil,dropCR,if_neg]
    intro hlast
    exact not_mem_of_free h (by decide) (List.mem_of_getLast? hlast)

/-- The batch parser finds the links and nothing else. -/
theorem batchItem_line {l : Line} (h : l.Proper p) :
    batchItem p (trimSpace (dropCR l.text)) =
      l.uri.bind fun uri => (getMetadata p uri).map (uri,·) := by
  cases l with
  | link uri cr =>
    rw [Line.text,dropCR_free h.1,trimSpace_free h.1,batchItem,if_neg (metadata_ne h.2)]
    rfl
  | other text =>
    rw [batchItem]
    split
    · rfl
    · rw [Line.text,h.2]
      rfl

def expected (p : Parsers) (gid : ℤ) (lines : List Line) : List DBAddProfileData :=
  (uris lines).filterMap (getDBAddProfileDataFromURI p gid)

theorem batch_body (gid : ℤ) (hlines : ∀ l ∈ lines, l.Proper p) (hshort : ¬Long lines) :
    getDBAddProfileDatasFromStrBatch p (body lines) gid = some (expected p gid lines) := by
  have hscan : scanLines (body lines) = some ((splitLines (body lines)).map dropCR) :=
    if_neg fun hany => hshort ((long_iff hlines).mp hany)
  have hitems : ((splitLines (body lines)).map dropCR).filterMap
      (fun line => batchItem p (trimSpace line)) =
      lines.filterMap fun l => l.uri.bind fun uri => (getMetadata p uri).map (uri,·) := by
    rw [List.filterMap_map,filterMap_body hlines _ rfl]
    exact List.filterMap_congr fun l hl => batchItem_line (hlines l hl)
  rw [getDBAddProfileDatasFromStrBatch,getMetadataBatch,hscan,Option.map_some,Option.map_some,
    hitems,List.map_filterMap,expected,uris,List.filterMap_filterMap]
  refine congrArg some (List.filterMap_congr fun l _ => ?_)
  cases l.uri with
  | none => rfl
  | some uri => simp [getDBAddProfileDataFromURI,Function.comp_def]

theorem batch_long (gid : ℤ) (hlines : ∀ l ∈ lines, l.Proper p) (hlong : Long lines) :
    getDBAddProfileDatasFromStrBatch p (body lines) gid = none := by
  have hscan : scanLines (body lines) = none := if_pos ((long_iff hlines).mpr hlong)
  rw [getDBAddProfileDatasFromStrBatch,getMetadataBatch,hscan]
  rfl

end Lines

section Words

variable {p : Parsers} {lines : List Line}

theorem words_body (lines : List Line) :
    words (body lines) = lines.flatMap fun l => words l.text := by
  induction lines with
  | nil => decide
  | cons first rest ih =>
    cases rest with
    | nil => simp [body]
    | cons next rest =>
      have hbody : body (first::next::rest) = first.text ++ 0x0A::body (next::rest) := by
        simp [body,List.intercalate_cons_cons]
      rw [hbody,words_line,ih]
      rfl

theorem words_link {uri : Bytes} (h : SpaceFree uri) (hne : uri ≠ []) (cr : Bool) :
    words (Line.link uri cr).text = [uri] := by
  cases cr with
  | true =>
    show words (uri ++ [0x0D]) = [uri]
    rw [words_return,words_free h hne]
    rfl
  | false =>
    show words (uri ++ []) = [uri]
    rw [List.append_nil,words_free h hne]

/-- The profiles of the words of one line. -/
def lineLinks (p : Parsers) (gid : ℤ) (l : Line) : List DBAddProfileData :=
  (words l.text).filterMap (getDBAddProfileDataFromURI p gid)

theorem perLink_body (p : Parsers) (gid : ℤ) (lines : List Line) :
    perLink p (body lines) gid = lines.flatMap (lineLinks p gid) := by
  rw [perLink,words_body,List.filterMap_flatMap]
  rfl

theorem lineLinks_link (gid : ℤ) {uri : Bytes} {cr : Bool} (h : (Line.link uri cr).Proper p) :
    lineLinks p gid (.link uri cr) = (getDBAddProfileDataFromURI p gid uri).toList := by
  rw [lineLinks,words_link h.1 (metadata_ne h.2),List.filterMap_cons]
  cases getDBAddProfileDataFromURI p gid uri <;> rfl

theorem fromURI_isSome (gid : ℤ) (uri : Bytes) :
    (getDBAddProfileDataFromURI p gid uri).isSome = (getMetadata p uri).isSome :=
  Option.isSome_map

theorem expected_cons (gid : ℤ) (l : Line) (rest : List Line) :
    expected p gid (l::rest) =
      (l.uri.bind (getDBAddProfileDataFromURI p gid)).toList ++ expected p gid rest := by
  cases l with
  | other text => rfl
  | link uri cr =>
    rw [expected,expected,uris,List.filterMap_cons]
    show (uri::uris rest).filterMap (getDBAddProfileDataFromURI p gid) = _
    rw [List.filterMap_cons]
    show _ = (getDBAddProfileDataFromURI p gid uri).toList ++ _
    cases getDBAddProfileDataFromURI p gid uri <;> rfl

theorem perLink_expected (gid : ℤ) (hlines : ∀ l ∈ lines, l.Proper p) (hstray : ¬Stray p lines) :
    perLink p (body lines) gid = expected p gid lines := by
  rw [perLink_body]
  induction lines with
  | nil => rfl
  | cons l rest ih =>
    have hrest : ¬Stray p rest := fun ⟨text,hin,hword⟩ =>
      hstray ⟨text,List.mem_cons_of_mem l hin,hword⟩
    have hproper := hlines l List.mem_cons_self
    rw [List.flatMap_cons,expected_cons,
      ih (fun l hl => hlines l (List.mem_cons_of_mem _ hl)) hrest]
    cases l with
    | link uri cr =>
      rw [lineLinks_link gid hproper]
      rfl
    | other text =>
      have hnone : lineLinks p gid (.other text) = [] := by
        refine List.filterMap_eq_nil_iff.mpr fun word hword => Option.not_isSome_iff_eq_none.mp ?_
        rw [fromURI_isSome]
        exact fun hsome => hstray ⟨text,List.mem_cons_self,word,hword,hsome⟩
      rw [hnone]
      rfl

theorem expected_length (gid : ℤ) (hlines : ∀ l ∈ lines, l.Proper p) :
    (expected p gid lines).length = (uris lines).length := by
  induction lines with
  | nil => rfl
  | cons l rest ih =>
    have hproper := hlines l List.mem_cons_self
    rw [expected_cons,List.length_append,ih fun l hl => hlines l (List.mem_cons_of_mem _ hl)]
    cases l with
    | other text => exact Nat.zero_add _
    | link uri cr =>
      obtain ⟨data,hdata⟩ := Option.isSome_iff_exists.mp
        ((fromURI_isSome gid uri).trans hproper.2)
      show (getDBAddProfileDataFromURI p gid uri).toList.length + _ = (uri::uris rest).length
      rw [hdata,List.length_cons,Nat.add_comm]
      rfl

theorem uris_length_le (gid : ℤ) (hlines : ∀ l ∈ lines, l.Proper p) :
    (uris lines).length ≤ (perLink p (body lines) gid).length := by
  rw [perLink_body]
  induction lines with
  | nil => exact Nat.le_refl 0
  | cons l rest ih =>
    have hproper := hlines l List.mem_cons_self
    have htail := ih fun l hl => hlines l (List.mem_cons_of_mem _ hl)
    rw [List.flatMap_cons,List.length_append]
    cases l with
    | other text => exact htail.trans (Nat.le_add_left _ _)
    | link uri cr =>
      obtain ⟨data,hdata⟩ := Option.isSome_iff_exists.mp
        ((fromURI_isSome gid uri).trans hproper.2)
      rw [lineLinks_link gid hproper,hdata]
      show (uris rest).length+1 ≤ 1+_
      omega

/-- A link of its own in another line is one profile too many. -/
theorem perLink_stray (gid : ℤ) (hlines : ∀ l ∈ lines, l.Proper p) (hstray : Stray p lines) :
    (uris lines).length < (perLink p (body lines) gid).length := by
  obtain ⟨text,hin,word,hword,hsome⟩ := hstray
  obtain ⟨first,rest,rfl⟩ := List.append_of_mem hin
  have hfirst := uris_length_le gid fun l hl => hlines l (List.mem_append_left _ hl)
  have hrest : (uris rest).length ≤ (perLink p (body rest) gid).length :=
    uris_length_le gid fun l hl => hlines l (List.mem_append_right _ (List.mem_cons_of_mem _ hl))
  have hone : 0 < (lineLinks p gid (.other text)).length := by
    obtain ⟨data,hdata⟩ := Option.isSome_iff_exists.mp ((fromURI_isSome gid word).trans hsome)
    exact List.length_pos_of_mem (List.mem_filterMap.mpr ⟨word,hword,hdata⟩)
  rw [perLink_body] at hfirst hrest ⊢
  rw [uris,List.filterMap_append,List.length_append,List.flatMap_append,List.length_append,
    List.flatMap_cons,List.length_append]
  show (uris first).length + (uris rest).length < _
  omega

end Words

section Importing

variable {p : Parsers} {lines : List Line}

theorem imports_expected (gid : ℤ) (hlines : ∀ l ∈ lines, l.Proper p) :
    Imports p lines (expected p gid lines) := by
  induction lines with
  | nil => exact .nil
  | cons l rest ih =>
    have hproper := hlines l List.mem_cons_self
    have htail := ih fun l hl => hlines l (List.mem_cons_of_mem _ hl)
    rw [expected_cons]
    cases l with
    | other text => exact htail
    | link uri cr =>
      obtain ⟨m,hm⟩ := Option.isSome_iff_exists.mp hproper.2
      have hdata : getDBAddProfileDataFromURI p gid uri = some (profileData gid uri m) := by
        rw [getDBAddProfileDataFromURI,hm]
        rfl
      show List.Forall₂ (Shows p) (uri::uris rest)
        ((getDBAddProfileDataFromURI p gid uri).toList ++ expected p gid rest)
      rw [hdata]
      exact .cons ⟨m,hm,rfl,rfl,rfl,rfl,rfl⟩ htail

theorem imports_length {profiles : List DBAddProfileData} (h : Imports p lines profiles) :
    profiles.length = (uris lines).length := h.length_eq.symm

end Importing

section Json

variable {p : Parsers} {lines : List Line}

theorem cut_slash {pre rest gone kept after : Bytes}
    (h : pre ++ 0x2F::rest = gone ++ kept ++ after) (hgone : 0x2F ∉ gone) (hafter : 0x2F ∉ after) :
    ∃ mid rest', kept = mid ++ 0x2F::rest' ∧ mid <:+ pre := by
  rw [List.append_assoc] at h
  rcases List.append_eq_append_iff.mp h with ⟨mid,hmid,htail⟩ | ⟨mid,hmid,htail⟩
  · cases mid with
    | nil =>
      rw [List.nil_append] at htail
      rcases List.append_eq_cons_iff.mp htail.symm with ⟨-,hcons⟩ | ⟨kept',hkept,-⟩
      · exact absurd (hcons ▸ List.mem_cons_self) hafter
      · exact ⟨[],kept',hkept,List.nil_suffix⟩
    | cons b mid =>
      obtain ⟨rfl,-⟩ := List.cons.inj htail
      exact absurd (hmid ▸ List.mem_append_right _ List.mem_cons_self) hgone
  · rcases List.append_eq_append_iff.mp htail with ⟨more,hmore,hrest⟩ | ⟨more,hmore,hrest⟩
    · exact absurd (hrest ▸ List.mem_append_right _ List.mem_cons_self) hafter
    · cases more with
      | nil =>
        rw [List.nil_append] at hrest
        exact absurd (hrest ▸ List.mem_cons_self) hafter
      | cons b more =>
        obtain ⟨rfl,-⟩ := List.cons.inj hrest
        exact ⟨mid,more,hmore,hmid ▸ List.suffix_append gone mid⟩

theorem body_cons (l : Line) (rest : List Line) :
    body (l::rest) = l.text ++ if rest = [] then [] else 0x0A::body rest := by
  cases rest with
  | nil => simp [body]
  | cons next rest => simp [body,List.intercalate_cons_cons]

theorem link_at {uri : Bytes} {cr : Bool} (h : Line.link uri cr ∈ lines) :
    ∃ before after, body lines = before ++ uri ++ after ∧
      (before = [] ∨ ∃ pre, before = pre ++ [0x0A]) := by
  induction lines with
  | nil => cases h
  | cons l rest ih =>
    rcases List.mem_cons.mp h with rfl | hrest
    · refine ⟨[],(if cr then [0x0D] else []) ++ if rest = [] then [] else 0x0A::body rest,?_,
        .inl rfl⟩
      rw [body_cons,Line.text,List.nil_append,List.append_assoc]
    · obtain ⟨before,after,hbody,hend⟩ := ih hrest
      refine ⟨l.text ++ 0x0A::before,after,?_,.inr ?_⟩
      · rw [body_cons,if_neg (List.ne_nil_of_mem hrest),hbody]
        simp
      · rcases hend with rfl | ⟨pre,rfl⟩
        · exact ⟨l.text,rfl⟩
        · exact ⟨l.text ++ 0x0A::pre,by simp⟩

theorem clear_before {before : Bytes} (h : before = [] ∨ ∃ pre, before = pre ++ [0x0A]) :
    Clear before := by
  rcases h with rfl | ⟨pre,rfl⟩
  · exact fun b hb => absurd hb List.not_mem_nil
  · exact clear_lineBreak pre

theorem trimPrefix_spec (mark text : Bytes) :
    ∃ gone, text = gone ++ trimPrefix mark text ∧ ∀ b ∈ gone, b ∈ mark := by
  unfold trimPrefix
  split
  · rename_i hmark
    obtain ⟨rest,rfl⟩ := List.isPrefixOf_iff_prefix.mp hmark
    exact ⟨mark,by rw [List.drop_left],fun b hb => hb⟩
  · exact ⟨[],rfl,fun b hb => absurd hb List.not_mem_nil⟩

theorem space_slash : spaceByte 0x2F = false ∧ spaceByte 0x3A = false :=
  ⟨spaceByte_printable _ (by decide) (by decide),spaceByte_printable _ (by decide) (by decide)⟩

/-- A body with a link is no JSON document. -/
theorem parseJson_link {uri : Bytes} {cr : Bool} (hmeta : (getMetadata p uri).isSome = true)
    (h : Line.link uri cr ∈ lines) : parseJson p (body lines) = [] := by
  obtain ⟨before,after,hbody,hend⟩ := link_at h
  obtain ⟨-,pre,rest,huri,hquote⟩ := metadata_scheme hmeta
  obtain ⟨mark,hmark,hmarks⟩ := trimPrefix_spec byteOrderMark (body lines)
  obtain ⟨front,back,htrim,hfront,hback⟩ :=
    trim_spec whiteSpace (trimPrefix byteOrderMark (body lines))
  have hcut : before ++ pre ++ 0x2F::(rest ++ after) =
      mark ++ front ++ trimSpace (trimPrefix byteOrderMark (body lines)) ++ back := by
    calc before ++ pre ++ 0x2F::(rest ++ after) = body lines := by rw [hbody,huri]; simp
      _ = mark ++ trimPrefix byteOrderMark (body lines) := hmark
      _ = mark ++ (front ++ trimSpace (trimPrefix byteOrderMark (body lines)) ++ back) :=
        congrArg (mark ++ ·) htrim
      _ = _ := by simp
  have hspace : ∀ b ∈ front, b ≠ 0x2F := fun b hb heq => by
    have := spaceByte_of_separating (hfront b hb)
    rw [heq,space_slash.1] at this
    cases this
  have hgone : (0x2F : UInt8) ∉ mark ++ front := fun hin => by
    rcases List.mem_append.mp hin with hin | hin
    · exact absurd (hmarks _ hin) (by decide)
    · exact hspace _ hin rfl
  have hafter : (0x2F : UInt8) ∉ back := fun hin => by
    have := spaceByte_of_separating (hback _ hin)
    rw [space_slash.1] at this
    cases this
  obtain ⟨mid,rest',htrimmed,hmid⟩ := cut_slash hcut hgone hafter
  have hclear := clear_suffix hmid (clear_append (clear_before hend) hquote)
  have hinvalid : valid (trimSpace (trimPrefix byteOrderMark (body lines))) = false :=
    htrimmed ▸ invalid_of_slash hclear
  unfold parseJson
  simp only
  split
  · rw [if_neg]
    rw [hinvalid]
    exact fun hv => Bool.false_ne_true hv.2
  · rfl

end Json

section Decoding

variable {p : Parsers} {lines : List Line}

theorem char_space (c : UInt8) (h : textChar c = true) (hspace : spaceByte c = true) :
    lineBreak c = true := by
  have hvisible : ∀ c : UInt8, textChar c = true → lineBreak c = true ∨ 0x20 < c ∧ c < 0x80 := by
    decide +kernel
  rcases hvisible c h with hbreak | ⟨hlow,hascii⟩
  · exact hbreak
  · rw [spaceByte_printable c hlow hascii] at hspace
    cases hspace

theorem decode64_plain {text : Bytes} (h : 0x3A ∈ text) : decode64 text = text := by
  have hnone : firstDecoded wellFormed (trimSpace text) = none := by
    cases hfirst : firstDecoded wellFormed (trimSpace text) with
    | none => rfl
    | some data =>
      obtain ⟨-,v,hv⟩ := firstDecoded_some hfirst
      exact absurd (decode_chars hv 0x3A (mem_trimSpace space_slash.2 h)) (by decide)
  rw [decode64,hnone]
  rfl

theorem encoded_chars {v : Variant} {text plain : Bytes} (h : unwrapped text = encode v plain) :
    ∀ c ∈ text, textChar c = true :=
  decode_chars (decode_wrapped h)

/-- Trimming an encoded text takes away line breaks only. -/
theorem unwrapped_trimSpace {text : Bytes} (h : ∀ c ∈ text, textChar c = true) :
    unwrapped (trimSpace text) = unwrapped text := by
  obtain ⟨before,after,hsplit,hbefore,hafter⟩ := trim_spec whiteSpace text
  have hnone : ∀ part : Bytes, (∀ b ∈ part, b ∈ text) → (∀ b ∈ part, Separating whiteSpace b) →
      unwrapped part = [] := fun part hin hsep => by
    refine List.filter_eq_nil_iff.mpr fun b hb => ?_
    rw [char_space b (h b (hin b hb)) (spaceByte_of_separating (hsep b hb))]
    decide
  have hb := hnone before (fun b hb => by rw [hsplit]; simp [hb]) hbefore
  have ha := hnone after (fun b hb => by rw [hsplit]; simp [hb]) hafter
  conv_rhs => rw [hsplit]
  unfold unwrapped at hb ha ⊢
  rw [List.filter_append,List.filter_append,hb,ha,List.nil_append,List.append_nil]
  rfl

theorem decode64_encoded {v : Variant} {text plain : Bytes}
    (h : unwrapped text = encode v plain) :
    decode64 text = if wellFormed plain then plain else text := by
  rw [decode64,firstDecoded_wrapped ((unwrapped_trimSpace (encoded_chars h)).trans h)]
  split <;> rfl

theorem mem_of_splitOn {sep b : UInt8} {text line : Bytes} (hline : line ∈ text.splitOn sep)
    (hb : b ∈ line) : b ∈ text := by
  induction text generalizing line with
  | nil =>
    rw [List.splitOn_nil,List.mem_singleton] at hline
    exact absurd (hline ▸ hb) List.not_mem_nil
  | cons c text ih =>
    obtain ⟨first,rest,hsplit⟩ := List.exists_cons_of_ne_nil (List.splitOn_ne_nil sep text)
    rw [List.splitOn_cons_eq_if_modifyHead,hsplit] at hline
    have htail : ∀ l ∈ first::rest, b ∈ l → b ∈ c::text := fun l hl hbl =>
      List.mem_cons_of_mem c (ih (hsplit ▸ hl) hbl)
    split at hline
    · rcases List.mem_cons.mp hline with rfl | hin
      · cases hb
      · exact htail line hin hb
    · rcases List.mem_cons.mp hline with rfl | hin
      · rcases List.mem_cons.mp hb with rfl | hb
        · exact List.mem_cons_self
        · exact htail first List.mem_cons_self hb
      · exact htail line (List.mem_cons_of_mem first hin) hb

theorem mem_of_scanLines {text line : Bytes} {found : List Bytes} {b : UInt8}
    (hscan : scanLines text = some found) (hline : line ∈ found) (hb : b ∈ line) : b ∈ text := by
  unfold scanLines at hscan
  split at hscan
  · cases hscan
  · cases hscan
    obtain ⟨whole,hwhole,rfl⟩ := List.mem_map.mp hline
    have hin : b ∈ whole := by
      unfold dropCR at hb
      split at hb
      · exact List.dropLast_subset whole hb
      · exact hb
    have hsplit : whole ∈ text.splitOn 0x0A := by
      unfold splitLines at hwhole
      simp only at hwhole
      split at hwhole
      · exact List.dropLast_subset _ hwhole
      · exact hwhole
    exact mem_of_splitOn hsplit hin

/-- An encoded text itself holds no links. -/
theorem readBody_encoded (gid : ℤ) {text : Bytes} (h : ∀ c ∈ text, textChar c = true) :
    readBody p text gid = [] := by
  have hcolon : ∀ part : Bytes, (∀ b ∈ part, b ∈ text) → getMetadata p part = none :=
    fun part hin => metadata_none fun hc => absurd (h 0x3A (hin _ hc)) (by decide)
  have hjson : parseJson p text = [] := by
    unfold parseJson
    simp only
    split
    · rename_i c rest hc
      obtain ⟨gone,hgone,-⟩ := trimPrefix_spec byteOrderMark text
      have hin : c ∈ text := by
        rw [hgone]
        exact List.mem_append_right _ (mem_of_trim (hc ▸ List.mem_cons_self))
      rw [if_neg]
      rintro ⟨rfl | rfl,-⟩ <;> exact absurd (h _ hin) (by decide)
    · rfl
  have hwords : perLink p text gid = [] := by
    refine List.filterMap_eq_nil_iff.mpr fun word hword => ?_
    rw [getDBAddProfileDataFromURI,hcolon word fun b hb => mem_of_field hword hb]
    rfl
  have hbatch : getDBAddProfileDatasFromStrBatch p text gid = none ∨
      getDBAddProfileDatasFromStrBatch p text gid = some [] := by
    cases hscan : scanLines text with
    | none => exact .inl (by rw [getDBAddProfileDatasFromStrBatch,getMetadataBatch,hscan]; rfl)
    | some found =>
      have hitems : found.filterMap (fun line => batchItem p (trimSpace line)) = [] := by
        refine List.filterMap_eq_nil_iff.mpr fun line hline => ?_
        have hmeta : getMetadata p (trimSpace line) = none :=
          hcolon _ fun b hb => mem_of_scanLines hscan hline (mem_of_trim hb)
        rw [batchItem,hmeta]
        split <;> rfl
      refine .inr ?_
      rw [getDBAddProfileDatasFromStrBatch,getMetadataBatch,hscan,Option.map_some,hitems]
      rfl
  rw [readBody,hjson]
  rcases hbatch with hb | hb <;> rw [hb] <;> exact hwords

end Decoding

section Bodies

variable {p : Parsers} (gid : ℤ) {lines : List Line} {form : Form} {text : Bytes}

theorem agrees_iff (hlines : ∀ l ∈ lines, l.Proper p) :
    Agrees p gid lines ↔ ¬Long lines ∧ ¬Stray p lines := by
  constructor
  · intro h
    have hshort : ¬Long lines := fun hlong => by
      rw [Agrees,batch_long gid hlines hlong] at h
      cases h
    refine ⟨hshort,fun hstray => ?_⟩
    rw [Agrees,batch_body gid hlines hshort] at h
    have hmore := perLink_stray gid hlines hstray
    rw [← Option.some.inj h,expected_length gid hlines] at hmore
    exact Nat.lt_irrefl _ hmore
  · rintro ⟨hshort,hstray⟩
    rw [Agrees,batch_body gid hlines hshort,perLink_expected gid hlines hstray]

theorem link_of_uris (h : uris lines ≠ []) : ∃ uri cr, Line.link uri cr ∈ lines := by
  obtain ⟨uri,huri⟩ := List.exists_mem_of_ne_nil _ h
  obtain ⟨l,hl,hsome⟩ := List.mem_filterMap.mp huri
  cases l with
  | link uri' cr => exact ⟨uri',cr,hl⟩
  | other text => cases hsome

/-- What is read of a decoded body that has links. -/
theorem readBody_links (hlines : ∀ l ∈ lines, l.Proper p) (h : uris lines ≠ []) :
    Imports p lines (readBody p (body lines) gid) ↔ (Stray p lines → ¬Long lines) := by
  obtain ⟨uri,cr,hlink⟩ := link_of_uris h
  have hjson := parseJson_link (hlines _ hlink).2 hlink
  by_cases hlong : Long lines
  · have hread : readBody p (body lines) gid = perLink p (body lines) gid := by
      rw [readBody,hjson,batch_long gid hlines hlong]
    rw [hread]
    constructor
    · intro himports hstray _
      have hmore := perLink_stray gid hlines hstray
      rw [imports_length himports] at hmore
      exact Nat.lt_irrefl _ hmore
    · intro hstray
      rw [perLink_expected gid hlines fun hs => hstray hs hlong]
      exact imports_expected gid hlines
  · have hread : readBody p (body lines) gid = expected p gid lines := by
      have hlen := expected_length (p := p) gid hlines
      rw [readBody,hjson,batch_body gid hlines hlong]
      cases hexpected : expected p gid lines with
      | nil =>
        rw [hexpected] at hlen
        exact absurd (List.length_eq_zero_iff.mp hlen.symm) h
      | cons data rest => rfl
    rw [hread]
    exact ⟨fun _ _ => hlong,fun _ => imports_expected gid hlines⟩

theorem readBody_none (hlines : ∀ l ∈ lines, l.Proper p) (h : uris lines = [])
    (hjson : parseJson p (body lines) = []) (hstray : ¬Stray p lines) :
    Imports p lines (readBody p (body lines) gid) := by
  have hexpected : expected p gid lines = [] := by rw [expected,h]; rfl
  have hread : readBody p (body lines) gid = expected p gid lines := by
    rw [readBody,hjson,perLink_expected gid hlines hstray,hexpected]
    by_cases hlong : Long lines
    · rw [batch_long gid hlines hlong]
    · rw [batch_body gid hlines hlong,hexpected]
  rw [hread]
  exact imports_expected gid hlines

theorem colon_body (hlines : ∀ l ∈ lines, l.Proper p) (h : uris lines ≠ []) :
    0x3A ∈ body lines := by
  obtain ⟨uri,cr,hlink⟩ := link_of_uris h
  obtain ⟨before,after,hbody,-⟩ := link_at hlink
  rw [hbody]
  simp [(metadata_scheme (hlines _ hlink).2).1]

theorem imports_links (hlines : ∀ l ∈ lines, l.Proper p) (htext : Given form (body lines) text)
    (h : uris lines ≠ []) :
    Imports p lines (getDBAddProfileDatasFromStr p text gid) ↔ Readable p form lines := by
  cases form with
  | plain =>
    rw [getDBAddProfileDatasFromStr,show text = body lines from htext,
      decode64_plain (colon_body hlines h),readBody_links gid hlines h]
    exact ⟨fun hs => ⟨trivial,fun hnone => absurd hnone h,fun hstray => ⟨h,hs hstray⟩⟩,
      fun hr hstray => (hr.2.2 hstray).2⟩
  | encoded v =>
    rw [getDBAddProfileDatasFromStr,decode64_encoded htext]
    cases hvalid : wellFormed (body lines) with
    | true =>
      rw [if_pos rfl,readBody_links gid hlines h]
      exact ⟨fun hs => ⟨.inr hvalid,fun hnone => absurd hnone h,fun hstray => ⟨h,hs hstray⟩⟩,
        fun hr hstray => (hr.2.2 hstray).2⟩
    | false =>
      rw [if_neg Bool.false_ne_true,readBody_encoded gid (encoded_chars htext)]
      constructor
      · intro himports
        have hlen := imports_length himports
        exact absurd (List.length_eq_zero_iff.mp hlen.symm) h
      · rintro ⟨hvalid',-⟩
        rcases hvalid' with hnone | hvalid'
        · exact absurd hnone h
        · rw [hvalid] at hvalid'
          cases hvalid'

theorem imports_none (hlines : ∀ l ∈ lines, l.Proper p) (htext : Given form (body lines) text)
    (h : uris lines = []) (hreadable : Readable p form lines) :
    Imports p lines (getDBAddProfileDatasFromStr p text gid) := by
  obtain ⟨hjson,htelling⟩ := hreadable.2.1 h
  have hstray : ¬Stray p lines := fun hs => (hreadable.2.2 hs).1 h
  have hread := readBody_none gid hlines h hjson hstray
  cases form with
  | plain =>
    have hnone : firstDecoded wellFormed (trimSpace (body lines)) = none := by
      cases hfirst : firstDecoded wellFormed (trimSpace (body lines)) with
      | none => rfl
      | some data =>
        obtain ⟨hvalid,v,hv⟩ := firstDecoded_some hfirst
        have hinvalid := htelling v data hv
        rw [hvalid] at hinvalid
        cases hinvalid
    rw [getDBAddProfileDatasFromStr,show text = body lines from htext,decode64,hnone]
    exact hread
  | encoded v =>
    rw [getDBAddProfileDatasFromStr,decode64_encoded htext]
    split
    · exact hread
    · rw [readBody_encoded gid (encoded_chars htext),Imports,h]
      exact .nil

variable (p) (lines) (form) (text)

/-- The links of a readable body are imported, with links only those of a readable
one, and the two parsers agree exactly on short lines without links of their own
in the others. -/
theorem body_imported (hlines : ∀ l ∈ lines, l.Proper p) (htext : Given form (body lines) text) :
    (Readable p form lines → Imports p lines (getDBAddProfileDatasFromStr p text gid)) ∧
      (uris lines ≠ [] → Imports p lines (getDBAddProfileDatasFromStr p text gid) →
        Readable p form lines) ∧
      (Agrees p gid lines ↔ ¬Long lines ∧ ¬Stray p lines) := by
  refine ⟨fun hreadable => ?_,fun h => (imports_links gid hlines htext h).mp,
    agrees_iff gid hlines⟩
  by_cases h : uris lines = []
  · exact imports_none gid hlines htext h hreadable
  · exact (imports_links gid hlines htext h).mpr hreadable

end Bodies

section Samples

def trojanLink : Bytes := ascii "trojan://k@a.de:443#de"

/-- The parsers on one link. -/
def trojanParsers : Parsers where
  link _ uri := if uri = trojanLink then some ⟨ascii "de",some (ascii "a.de"),none⟩ else none
  servers _ := []

def announced : List Line := [.other (ascii "#title: home"),.link trojanLink true,.other []]

/-- A body wrapped into lines of 20 digits at first. -/
def wrapped : Bytes :=
  (encode ⟨false,true⟩ (body announced)).take 20 ++ 0x0D::0x0A::
    (encode ⟨false,true⟩ (body announced)).drop 20

theorem announced_imported :
    Imports trojanParsers announced (getDBAddProfileDatasFromStr trojanParsers wrapped 1) := by
  have hproper : ∀ l ∈ announced, l.Proper trojanParsers := by
    unfold announced
    simp only [List.forall_mem_cons,List.not_mem_nil,false_implies,implies_true,and_true]
    exact ⟨⟨by decide +kernel,by decide +kernel⟩,⟨by decide +kernel,by decide +kernel⟩,
      by decide +kernel,by decide +kernel⟩
  have hgiven : Given (.encoded ⟨false,true⟩) (body announced) wrapped := by
    show unwrapped wrapped = encode ⟨false,true⟩ (body announced)
    decide +kernel
  have hshort : ¬Long announced := by
    unfold Long
    decide +kernel
  exact (body_imported trojanParsers 1 announced (.encoded ⟨false,true⟩) wrapped hproper hgiven).1
    ⟨.inr (by decide +kernel),fun h => absurd h (by decide +kernel),
      fun _ => ⟨by decide +kernel,hshort⟩⟩

def mentioned : List Line := [.link trojanLink false,.other (ascii "or trojan://k@a.de:443#de")]

/-- A link named in a sentence is found by one parser and not by the other. -/
theorem mentioned_link_disagrees :
    (∀ l ∈ mentioned, l.Proper trojanParsers) ∧ Given .plain (body mentioned) (body mentioned) ∧
      ¬(Imports trojanParsers mentioned
          (getDBAddProfileDatasFromStr trojanParsers (body mentioned) 1) ∧
        Agrees trojanParsers 1 mentioned) := by
  refine ⟨?_,rfl,fun h => ?_⟩
  · unfold mentioned
    simp only [List.forall_mem_cons,List.not_mem_nil,false_implies,implies_true,and_true]
    exact ⟨⟨by decide +kernel,by decide +kernel⟩,by decide +kernel,by decide +kernel⟩
  · have hdiffer : ¬getDBAddProfileDatasFromStrBatch trojanParsers (body mentioned) 1 =
        some (perLink trojanParsers (body mentioned) 1) := by
      decide +kernel
    exact hdiffer h.2

end Samples

end Whoisthat.ShareLinks
