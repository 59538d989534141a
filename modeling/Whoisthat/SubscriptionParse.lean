import Whoisthat.ProviderConfig

/-!
# Parsing of JSON subscriptions

`Parse` decodes every entry into structs, whose field names match in any
letter case; equal names are decoded over each other. `Prepare` reads the
stored document through untyped maps. What the first accepts the second
accepts under a condition on the document alone.
-/

set_option autoImplicit false

namespace Whoisthat.SubscriptionParse
open Whoisthat.Records Whoisthat.RoutingStore Whoisthat.Json Whoisthat.ProviderConfig

section StructDecoding

/-- Two letters outside ASCII fold to letters of field names. -/
def foldRune (c : Char) : Char :=
  if c.toNat = 0x17F then 's' else if c.toNat = 0x212A then 'k' else c.toLower

def matchesField (key field : String) : Bool := key.toList.map foldRune = field.toList.map foldRune

/-- A decoded value, and whether nothing had the wrong type so far. -/
abbrev Decoded (α : Type) := α × Bool

def decodeString (old : String) : Value → Decoded String
  | .str s => (s,true)
  | .null => (old,true)
  | _ => (old,false)

def decodeInt (old : ℤ) : Value → Decoded ℤ
  | .num n =>
    match n.int64 with
    | some v => (v,true)
    | none => (old,false)
  | .null => (old,true)
  | _ => (old,false)

/-- The first `len` elements are visible; the rest of the array underneath
keeps what earlier decodings left there. -/
structure Slice (α : Type) where
  backing : List α
  len : ℕ

def Slice.empty {α : Type} : Slice α := ⟨[],0⟩

def Slice.items {α : Type} (s : Slice α) : List α := s.backing.take s.len

def decodeSlice {α : Type} (zero : α) (element : α → Value → Decoded α) (old : Slice α) :
    Value → Decoded (Slice α)
  | .arr [] => (.empty,true)
  | .arr items =>
    let results := items.mapIdx fun i item => element (old.backing.getD i zero) item
    (⟨results.map Prod.fst ++ old.backing.drop items.length,items.length⟩,results.all Prod.snd)
  | .null => (.empty,true)
  | _ => (old,false)

/-- The members in order, each decoded by what the struct does with it. -/
def decodeStruct {α : Type} (field : α → String → Value → Decoded α) (old : α) :
    Value → Decoded α
  | .obj fields => fields.foldl (fun acc e =>
      let r := field acc.1 e.1 e.2
      (r.1,acc.2 && r.2)) (old,true)
  | .null => (old,true)
  | _ => (old,false)

end StructDecoding

structure Outbound where
  tag : String
  protocol : String
  settings : Option Value
  streamSettings : Option Value

structure ConfigDoc where
  remarks : String
  outbounds : Slice Outbound

structure Endpoint where
  address : String
  port : ℤ

structure EndpointSettings where
  vnext : Slice Endpoint
  servers : Slice Endpoint
  address : String
  port : ℤ

def decodeOutbound : Outbound → Value → Decoded Outbound :=
  decodeStruct fun ob key value =>
    if matchesField key "tag" then
      let r := decodeString ob.tag value
      ({ ob with tag := r.1 },r.2)
    else if matchesField key "protocol" then
      let r := decodeString ob.protocol value
      ({ ob with protocol := r.1 },r.2)
    else if matchesField key "settings" then ({ ob with settings := some value },true)
    else if matchesField key "streamSettings" then ({ ob with streamSettings := some value },true)
    else (ob,true)

def decodeDoc : ConfigDoc → Value → Decoded ConfigDoc :=
  decodeStruct fun doc key value =>
    if matchesField key "remarks" then
      let r := decodeString doc.remarks value
      ({ doc with remarks := r.1 },r.2)
    else if matchesField key "outbounds" then
      let r := decodeSlice ⟨"","",none,none⟩ decodeOutbound doc.outbounds value
      ({ doc with outbounds := r.1 },r.2)
    else (doc,true)

def decodeEndpoint : Endpoint → Value → Decoded Endpoint :=
  decodeStruct fun ep key value =>
    if matchesField key "address" then
      let r := decodeString ep.address value
      ({ ep with address := r.1 },r.2)
    else if matchesField key "port" then
      let r := decodeInt ep.port value
      ({ ep with port := r.1 },r.2)
    else (ep,true)

def decodeEndpointSettings : EndpointSettings → Value → Decoded EndpointSettings :=
  decodeStruct fun s key value =>
    if matchesField key "vnext" then
      let r := decodeSlice ⟨"",0⟩ decodeEndpoint s.vnext value
      ({ s with vnext := r.1 },r.2)
    else if matchesField key "servers" then
      let r := decodeSlice ⟨"",0⟩ decodeEndpoint s.servers value
      ({ s with servers := r.1 },r.2)
    else if matchesField key "address" then
      let r := decodeString s.address value
      ({ s with address := r.1 },r.2)
    else if matchesField key "port" then
      let r := decodeInt s.port value
      ({ s with port := r.1 },r.2)
    else (s,true)

/-- One server entry. -/
structure ParsedProfile where
  raw : Value
  name : String
  protocol : String
  address : String
  host : String
  port : ℤ
  providerKey : String

def firstProxyOutbound (outbounds : List Outbound) : Option Outbound :=
  outbounds.find? fun ob => !isServiceProtocol ob.protocol

/-- Type errors inside the settings are ignored, the other fields count. -/
def outboundEndpoint (ob : Outbound) : Endpoint :=
  let settings := (decodeEndpointSettings ⟨.empty,.empty,"",0⟩ (ob.settings.getD .null)).1
  match settings.vnext.items,settings.servers.items with
  | ep::_,_ => ep
  | [],ep::_ => ep
  | [],[] => ⟨settings.address,settings.port⟩

def hostFields : List (String × String) :=
  [("wsSettings","host"),("xhttpSettings","host"),("grpcSettings","authority"),
    ("tlsSettings","serverName"),("realitySettings","serverName")]

/-- The nested string if both levels are there and it is not blank. -/
def hostField (stream : Fields) (c : String × String) : Option String :=
  match lastMember stream c.1 with
  | some (.obj nested) =>
    match lastMember nested c.2 with
    | some (.str value) => if trimSpace value = "" then none else some value
    | _ => none
  | _ => none

def outboundHost (ob : Outbound) (fallback : String) : String :=
  match ob.streamSettings with
  | some (.obj stream) => (hostFields.findSome? (hostField stream)).getD fallback
  | _ => fallback

def displayProtocol (protocol : String) : String :=
  let p := toLower (trimSpace protocol)
  if p = "hysteria" then "hysteria2" else p

def parseOne (raw : Value) (index : ℕ) : Option ParsedProfile :=
  match decodeDoc ⟨"",.empty⟩ raw with
  | (_,false) => none
  | (doc,true) =>
    match firstProxyOutbound doc.outbounds.items with
    | none => none
    | some proxy =>
      let ep := outboundEndpoint proxy
      let remarks := trimSpace doc.remarks
      some
        { raw := raw
          name :=
            if remarks ≠ "" then remarks
            else if ep.address ≠ "" then ep.address ++ ":" ++ toString ep.port
            else "Server " ++ toString (index+1)
          protocol := displayProtocol proxy.protocol
          address := ep.address
          host := outboundHost proxy ep.address
          port := ep.port
          providerKey :=
            if remarks ≠ "" then remarks
            else proxy.protocol ++ "://" ++ ep.address ++ ":" ++ toString ep.port }

/-- Equal keys are numbered in order from the second on. -/
def numberKeys (seen : List String) : List ParsedProfile → List ParsedProfile
  | [] => []
  | p::ps =>
    let n := seen.count p.providerKey + 1
    (if n > 1 then { p with providerKey := p.providerKey ++ "#" ++ toString n } else p)
      :: numberKeys (p.providerKey::seen) ps

inductive ParseError where
  | notConfiguration
  | noUsable
  deriving DecidableEq

/-- The body is the document its bytes spell, without a byte order mark, and
`none` when they spell none. -/
def parse (body : Option Value) : Except ParseError (List ParsedProfile) :=
  match body with
  | some (.arr items) =>
    let profiles := numberKeys [] ((items.mapIdx fun i raw => parseOne raw i).filterMap id)
    if profiles.isEmpty then .error .noUsable else .ok profiles
  | some (.obj fields) =>
    match parseOne (.obj fields) 0 with
    | some p => .ok [p]
    | none => .error .noUsable
  | _ => .error .notConfiguration

section Acceptance

/-- An outbound that both carries a proxy connection and has a name, by the
exact names of its members. -/
def NamedProxy (item : Value) : Prop :=
  ∃ ob protocol tag, item = .obj ob ∧
    lastMember ob "protocol" = some (.str protocol) ∧ isServiceProtocol protocol = false ∧
    lastMember ob "tag" = some (.str tag) ∧ tag ≠ ""

/-- What `Prepare` needs of a stored document. -/
structure Preparable (raw : Value) : Prop where
  fits : raw.numbersFit = true
  outbounds : ∃ fields items, raw = .obj fields ∧
    lastMember fields "outbounds" = some (.arr items) ∧ ∃ item ∈ items, NamedProxy item

theorem index_asString_decoded (fields : Fields) (name : String) :
    (Fields.index (decodeFields [] fields) name).asString =
      match lastMember fields name with
      | some (.str s) => s
      | _ => "" := by
  rw [index_decodeFields]
  cases lastMember fields name with
  | none => rfl
  | some v => cases v <;> rfl

theorem isProxyOutbound_decoded (ob : Fields) :
    isProxyOutbound (decodeFields [] ob) = true ↔ NamedProxy (.obj ob) := by
  rw [isProxyOutbound_iff,tagOf,index_asString_decoded,index_asString_decoded]
  constructor
  · rintro ⟨hp,ht⟩
    split at hp
    case h_1 protocol hpl =>
      split at ht
      case h_1 tag htl => exact ⟨ob,protocol,tag,rfl,hpl,hp,htl,ht⟩
      case h_2 => exact absurd rfl ht
    case h_2 => exact absurd hp (by decide)
  · rintro ⟨_,protocol,tag,⟨⟩,hpl,hp,htl,ht⟩
    rw [hpl,htl]
    exact ⟨hp,ht⟩

theorem slice_decoded (fields : Fields) :
    (Fields.index (decodeFields [] fields) "outbounds").asSlice =
      match lastMember fields "outbounds" with
      | some (.arr items) => items.map Value.decode
      | _ => [] := by
  rw [index_decodeFields]
  cases lastMember fields "outbounds" with
  | none => rfl
  | some v => cases v <;> simp [Value.decode,Value.asSlice,decodeItems_eq_map]

theorem proxy_decoded (fields : Fields) :
    (∃ ob, Value.obj ob ∈ (Fields.index (decodeFields [] fields) "outbounds").asSlice ∧
      isProxyOutbound ob = true) ↔
    ∃ items, lastMember fields "outbounds" = some (.arr items) ∧
      ∃ item ∈ items, NamedProxy item := by
  rw [slice_decoded]
  constructor
  · rintro ⟨ob,hob,hp⟩
    split at hob
    case h_1 items hl =>
      obtain ⟨item,hitem,hd⟩ := List.mem_map.mp hob
      obtain ⟨l,rfl,rfl⟩ := decode_eq_obj.mp hd
      exact ⟨items,hl,_,hitem,(isProxyOutbound_decoded l).mp hp⟩
    case h_2 => exact absurd hob List.not_mem_nil
  · rintro ⟨items,hl,item,hitem,hn⟩
    obtain ⟨ob,_,_,rfl,_⟩ := id hn
    rw [hl]
    exact ⟨_,List.mem_map.mpr ⟨_,hitem,rfl⟩,(isProxyOutbound_decoded ob).mpr hn⟩

theorem prepares_iff (raw : Value) (opts : Options) :
    (∃ prepared, prepare raw opts = .ok prepared) ↔ Preparable raw := by
  constructor
  · rintro ⟨_,h⟩
    obtain ⟨config,hc,hp,_⟩ := prepare_ok.mp h
    cases raw with
    | obj fields =>
      simp only [unmarshalMap,Option.ite_none_right_eq_some,Option.some.injEq] at hc
      obtain ⟨hfit,rfl⟩ := hc
      obtain ⟨items,hl,hitem⟩ := (proxy_decoded fields).mp hp
      exact ⟨hfit,fields,items,rfl,hl,hitem⟩
    | null =>
      cases Option.some.inj hc
      obtain ⟨ob,hob,_⟩ := hp
      exact absurd hob List.not_mem_nil
    | _ => exact nomatch hc
  · rintro ⟨hfit,fields,items,rfl,hl,hitem⟩
    have hc : unmarshalMap (.obj fields) = some (decodeFields [] fields) := if_pos hfit
    exact ⟨_,prepare_ok.mpr ⟨_,hc,(proxy_decoded fields).mpr ⟨items,hl,hitem⟩,rfl⟩⟩

theorem decodeStruct_ok {α : Type} {field : α → String → Value → Decoded α} {old new : α}
    {v : Value} (h : decodeStruct field old v = (new,true)) :
    (∃ fields, v = .obj fields) ∨ (v = .null ∧ new = old) := by
  cases v with
  | obj fields => exact .inl ⟨fields,rfl⟩
  | null => exact .inr ⟨rfl,(Prod.mk.inj h).1.symm⟩
  | _ => exact absurd (Prod.mk.inj h).2 Bool.false_ne_true

theorem parseOne_some {raw : Value} {i : ℕ} {p : ParsedProfile} (h : parseOne raw i = some p) :
    p.raw = raw ∧ ∃ fields, raw = .obj fields := by
  unfold parseOne at h
  split at h
  · exact nomatch h
  · rename_i doc hdoc
    split at h
    · exact nomatch h
    · rename_i proxy hproxy
      refine ⟨by rw [← Option.some.inj h],?_⟩
      rcases decodeStruct_ok hdoc with hobj | ⟨-,rfl⟩
      · exact hobj
      · exact nomatch hproxy

theorem mem_numberKeys {seen : List String} {ps : List ParsedProfile} {p : ParsedProfile}
    (h : p ∈ numberKeys seen ps) : ∃ q ∈ ps, p.raw = q.raw := by
  induction ps generalizing seen with
  | nil => exact nomatch h
  | cons q qs ih =>
    rw [numberKeys] at h
    rcases List.mem_cons.mp h with rfl | h
    · exact ⟨q,List.mem_cons_self,by split <;> rfl⟩
    · obtain ⟨q',hq',hraw⟩ := ih h
      exact ⟨q',List.mem_cons_of_mem q hq',hraw⟩

/-- Every accepted profile stores an object. -/
theorem parse_object {body : Option Value} {profiles : List ParsedProfile} {p : ParsedProfile}
    (h : parse body = .ok profiles) (hp : p ∈ profiles) : ∃ fields, p.raw = .obj fields := by
  unfold parse at h
  split at h
  · rename_i items
    simp only at h
    split at h
    · exact nomatch h
    · cases Except.ok.inj h
      obtain ⟨q,hq,hraw⟩ := mem_numberKeys hp
      obtain ⟨o,ho,hsome⟩ := List.mem_filterMap.mp hq
      obtain ⟨i,hi,rfl⟩ := List.mem_mapIdx.mp ho
      obtain ⟨hr,hobj⟩ := parseOne_some hsome
      rw [hraw,hr]
      exact hobj
  · split at h
    · rename_i q hq
      cases Except.ok.inj h
      cases List.mem_singleton.mp hp
      obtain ⟨hr,hobj⟩ := parseOne_some hq
      rw [hr]
      exact hobj
    · exact nomatch h
  · exact nomatch h

/-- An accepted server can be connected with any ports and manual rules exactly
if its document's numbers fit a double and the member named `outbounds` that
counts lists an outbound with a proxy protocol and a tag. -/
theorem imported_prepares_iff (body : Option Value) (profiles : List ParsedProfile)
    (p : ParsedProfile) (h : parse body = .ok profiles) (hp : p ∈ profiles) :
    ∃ fields, p.raw = .obj fields ∧ ∀ opts : Options,
      (∃ prepared, prepare p.raw opts = .ok prepared) ↔
        (p.raw.numbersFit = true ∧ ∃ items, lastMember fields "outbounds" = some (.arr items) ∧
          ∃ item ∈ items, NamedProxy item) := by
  obtain ⟨fields,hraw⟩ := parse_object h hp
  refine ⟨fields,hraw,fun opts => (prepares_iff p.raw opts).trans ?_⟩
  constructor
  · rintro ⟨hfit,fields',items,hraw',hitems⟩
    cases hraw.symm.trans hraw'
    exact ⟨hfit,items,hitems⟩
  · rintro ⟨hfit,items,hitems⟩
    exact ⟨hfit,fields,items,hraw,hitems⟩

def singleOutbound (outbound : Fields) : Value := .obj [("outbounds",.arr [.obj outbound])]

theorem tagged_server_prepares :
    ∃ p, parse (some (singleOutbound [("protocol",.str "vless"),("tag",.str "de")])) = .ok [p] ∧
      ∀ opts, ∃ prepared, prepare p.raw opts = .ok prepared := by
  have hparse : parse (some (singleOutbound [("protocol",.str "vless"),("tag",.str "de")])) =
      .ok [_] := rfl
  refine ⟨_,hparse,fun opts => ?_⟩
  obtain ⟨fields,hraw,hiff⟩ := imported_prepares_iff _ _ _ hparse (List.mem_singleton.mpr rfl)
  cases hraw
  exact (hiff opts).mpr ⟨rfl,_,rfl,_,List.mem_singleton.mpr rfl,_,"vless","de",rfl,rfl,by decide,
    rfl,by decide⟩

/-- A server without a tag is listed and never connects. -/
theorem untagged_server_never_prepares :
    ∃ p, parse (some (singleOutbound [("protocol",.str "vless")])) = .ok [p] ∧
      ∀ opts, ¬∃ prepared, prepare p.raw opts = .ok prepared := by
  refine ⟨_,rfl,fun opts h => ?_⟩
  obtain ⟨_,fields,items,⟨⟩,⟨⟩,item,hitem,ob,_,tag,hob,_,_,htag,_⟩ := (prepares_iff _ opts).mp h
  cases List.mem_singleton.mp hitem
  cases hob
  exact nomatch htag

end Acceptance

end Whoisthat.SubscriptionParse
