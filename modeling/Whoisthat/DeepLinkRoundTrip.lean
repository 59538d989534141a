import Whoisthat.DeepLinks

/-!
# Written deep links

A query form is written as an action and its parameters in any order, the link it
carries and a name or a group percent-encoded, and with other parameters in between.
It is read as just that link and that name or group.
-/

set_option autoImplicit false

namespace Whoisthat.DeepLinkRoundTrip
open Whoisthat.Utf8 (Bytes)
open Whoisthat.LinkText (Result percent question slash equals ampersand)
open Whoisthat.HappLinks (ascii)
open Whoisthat.Delimiters
open Whoisthat.WhiteSpace (trimSpace)
open Whoisthat.DeepLinkText
open Whoisthat.DeepLinks

section Writing

inductive Kind where
  | subscription
  | routing
  | profile
  deriving DecidableEq

def Kind.actions : Kind → List String
  | .subscription => subscriptionActions
  | .routing => routingActions
  | .profile => profileActions

/-- The parameters that carry the link, in order of preference. -/
def Kind.keys : Kind → List String
  | .subscription => ["url","link","sub"]
  | .routing => ["link","url","uri"]
  | .profile => ["uri","link","url"]

/-- The parameters that carry the name or the group, in order of preference. -/
def Kind.seconds : Kind → List String
  | .subscription => ["name","title"]
  | .routing => ["group"]
  | .profile => ["group"]

def Kind.result (value : Bytes) (second : Option Bytes) : Kind → DeepLinkAction
  | .subscription => .addSubscription (second.getD (deriveNameFromUrl value)) value
  | .routing => .importHappRouting value second
  | .profile => .addProfile value second

def visible (c : UInt8) : Bool := 0x21 ≤ c && c ≤ 0x7E

/-- What an encoder escapes at least, besides percent signs. -/
def special (c : UInt8) : Bool := !visible c || c = ampersand || c = plus

def pairText (p : Bytes × Bytes) : Bytes := p.1 ++ equals::p.2

def lowerKey (k : Bytes) : Bytes := k.map HappLinks.lowerByte

/-- The first parameter of a list that is there. -/
def first (ps : Params) (keys : List String) : Option Bytes := keys.findSome? ps.get

/-- A query form: an action, a link under one of its keys, perhaps a name or a group,
and other parameters, in any order. -/
structure Written where
  kind : Kind
  action : String
  listed : action ∈ kind.actions
  preferred : List String
  key : String
  later : List String
  keys : kind.keys = preferred ++ key::later
  value : Bytes
  valueText : Bytes
  escaped : Percent.Escaped special value valueText
  wellFormed : Utf8.wellFormed value = true
  scheme : kind = .subscription → web value = true
  second : Option (String × Bytes × Bytes)
  secondKey : ∀ x ∈ second, ∃ later, kind.seconds = x.1::later
  secondEscaped : ∀ x ∈ second, Percent.Escaped special x.2.1 x.2.2
  secondWellFormed : ∀ x ∈ second, Utf8.wellFormed x.2.1 = true
  extras : List (Bytes × Bytes)
  extraBytes : ∀ p ∈ extras, equals ∉ p.1 ∧
    ∀ c ∈ pairText p, visible c = true ∧ c ≠ ampersand
  extraKeys : ∀ p ∈ extras, ∀ k ∈ preferred ++ key ::
    (match second with | some x => [x.1] | none => kind.seconds), lowerKey p.1 ≠ ascii k
  pairs : List (Bytes × Bytes)
  order : pairs.Perm ((ascii key,valueText) ::
    ((second.map fun x => (ascii x.1,x.2.2)).toList ++ extras))

def Written.link (w : Written) : Bytes :=
  ascii "wit://" ++ ascii w.action ++ question::[ampersand].intercalate (w.pairs.map pairText)

def Written.result (w : Written) : DeepLinkAction :=
  w.kind.result w.value (w.second.map fun x => x.2.1)

end Writing

section Bytes

variable {w : Written}

theorem visible_bounds : ∀ c : UInt8, visible c = true → 0x20 < c ∧ c < 0x80 := by
  decide +kernel

/-- Visible bytes are no part of white space. -/
theorem trimSpace_visible {s : Bytes} (h : ∀ c ∈ s, visible c = true) : trimSpace s = s := by
  refine WhiteSpace.trimSpace_free fun space hspace hin => ?_
  have hnonempty : WhiteSpace.whiteSpace.all (· ≠ []) = true := by decide
  have hne := of_decide_eq_true (List.all_eq_true.mp hnonempty space hspace)
  obtain ⟨c,hc⟩ := List.exists_mem_of_ne_nil space hne
  obtain ⟨hlow,hhigh⟩ := visible_bounds c (h c (hin.subset hc))
  have hno := WhiteSpace.spaceByte_printable c hlow hhigh
  rw [WhiteSpace.spaceByte_of_separating ⟨space,hspace,hc⟩] at hno
  cases hno

theorem special_plain : ∀ c : UInt8, special c = true → c ≠ percent → Percent.hexDigit c = none := by
  decide +kernel

/-- An encoded text has visible bytes only, and no ampersand among them. -/
theorem escaped_visible {m n : Bytes} (h : Percent.Escaped special m n) :
    ∀ c ∈ n, visible c = true ∧ c ≠ ampersand := by
  have hfree : ∀ c ∈ n, special c = false := fun c hc => by
    by_contra hs
    have hspecial := Bool.eq_true_of_not_eq_false hs
    have hpercent : c ≠ percent := fun heq => by
      rw [heq] at hspecial
      exact absurd hspecial (by decide)
    exact LinkSpelling.escaped_free h hspecial hpercent (special_plain c hspecial hpercent) hc
  intro c hc
  have hplain := hfree c hc
  rw [special,Bool.or_eq_false_iff,Bool.or_eq_false_iff] at hplain
  exact ⟨by simpa using hplain.1.1,of_decide_eq_false hplain.1.2⟩

end Bytes

section Forms

/-- No text behind `a` begins with `p`. -/
def clash (p : String) (a : Bytes) : Bool := !(ascii p).isPrefixOf a && !a.isPrefixOf (ascii p)

theorem startsWith_clash {p : String} {a : Bytes} (h : clash p a = true) (s : Bytes) :
    startsWith (a ++ s) p = false := by
  rw [clash,Bool.and_eq_true,Bool.not_eq_true',Bool.not_eq_true'] at h
  by_contra hstarts
  have hfront := startsWith_iff.mp (Bool.eq_true_of_not_eq_false hstarts)
  rcases List.prefix_or_prefix_of_prefix hfront (List.prefix_append a s) with hp | ha
  · rw [List.isPrefixOf_iff_prefix.mpr hp] at h
    cases h.1
  · rw [List.isPrefixOf_iff_prefix.mpr ha] at h
    cases h.2

def allActions : List String := subscriptionActions ++ routingActions ++ profileActions

theorem mem_allActions {k : Kind} {a : String} (h : a ∈ k.actions) : a ∈ allActions := by
  cases k with
  | subscription => exact List.mem_append_left _ (List.mem_append_left _ h)
  | routing => exact List.mem_append_left _ (List.mem_append_right _ h)
  | profile => exact List.mem_append_right _ h

/-- What is checked before an action is split off. -/
def earlier : List String := protocols ++ ["https://","http://","sub/","subscription/","add-sub/"]

/-- What an action has to be for the link to come to its query. -/
def plainAction (a : Bytes) : Bool :=
  earlier.all (fun p => clash p (a ++ [question])) &&
    clash "happ://routing/" (lowerKey (a ++ [question])) &&
    clash "happ:routing/" (lowerKey (a ++ [question])) && a.head?.any (· ≠ slash) &&
    question ∉ a && trimSlashes a = a && a.all visible

theorem actions_plain : ∀ a ∈ allActions, plainAction (ascii a) = true := by
  decide +kernel

/-- Lower case is known on ASCII. -/
def AsciiLower (toLowercase : Bytes → Bytes) : Prop :=
  ∀ s : Bytes, (∀ c ∈ s, c < 0x80) → toLowercase s = lowerKey s

variable {toLowercase : Bytes → Bytes}

theorem happRouting_clash {a : Bytes} (h : clash "happ://routing/" a = true)
    (h' : clash "happ:routing/" a = true) (s : Bytes) : happRouting (a ++ s) = false := by
  rw [happRouting,startsWith_clash h,startsWith_clash h',Bool.or_false]

theorem trimSlashes_query {a : Bytes} (h : question ∉ a) (q : Bytes) :
    splitAction (a ++ question::q) = (trimSlashes a,q) := by
  rw [splitAction,if_pos (List.mem_append_right a List.mem_cons_self),before_cut h,after_cut h]

/-- Behind its scheme a query form is an action and its parameters. -/
theorem parseRest_query (hlower : AsciiLower toLowercase) {a q : Bytes}
    (ha : plainAction a = true) (hbytes : ∀ c ∈ a ++ question::q, visible c = true) :
    parseRest toLowercase (a ++ question::q) =
      .ok (runAction toLowercase a (params toLowercase q)) := by
  simp only [plainAction,Bool.and_eq_true,decide_eq_true_eq] at ha
  obtain ⟨⟨⟨⟨⟨⟨hearlier,hlong⟩,hshort⟩,-⟩,hquestion⟩,htrim⟩,-⟩ := ha
  have hsplit : a ++ question::q = (a ++ [question]) ++ q := by
    rw [List.append_assoc,List.singleton_append]
  have hno : ∀ p ∈ earlier, startsWith (a ++ question::q) p = false := fun p hp => by
    rw [hsplit]
    exact startsWith_clash (List.all_eq_true.mp hearlier p hp) q
  have hlowered : toLowercase (a ++ question::q) = lowerKey (a ++ [question]) ++ lowerKey q := by
    rw [hlower _ fun c hc => (visible_bounds c (hbytes c hc)).2,hsplit,lowerKey,List.map_append]
    rfl
  have hrouting : happRouting (toLowercase (a ++ question::q)) = false := by
    rw [hlowered]
    exact happRouting_clash hlong hshort _
  have hprotocols : protocols.any (startsWith (a ++ question::q)) = false :=
    List.any_eq_false.mpr fun p hp => by
      rw [hno p (List.mem_append_left _ hp)]
      exact Bool.false_ne_true
  have hweb : web (a ++ question::q) = false := by
    rw [web,hno "https://" (by decide),hno "http://" (by decide),Bool.or_false]
  have hpath : pathRest (a ++ question::q) = none := by
    simp only [pathRest,stripped,hno "sub/" (by decide),hno "subscription/" (by decide),
      hno "add-sub/" (by decide),Bool.false_eq_true,if_false,Option.or_none]
  rw [parseRest,hrouting,hprotocols,hweb,hpath,trimSlashes_query hquestion,htrim,queryParams_eq]
  rfl

theorem parseDeeplink_query (hlower : AsciiLower toLowercase) {a q : Bytes}
    (ha : plainAction a = true) (hbytes : ∀ c ∈ a ++ question::q, visible c = true) :
    parseDeeplink toLowercase (ascii "wit://" ++ (a ++ question::q)) =
      .ok (runAction toLowercase a (params toLowercase q)) := by
  have hall : ∀ c ∈ ascii "wit://" ++ (a ++ question::q), visible c = true := by
    intro c hc
    rcases List.mem_append.mp hc with hc | hc
    · exact List.all_eq_true.mp (by decide : (ascii "wit://").all visible = true) c hc
    · exact hbytes c hc
  have hhead : (a ++ question::q).dropWhile (· = slash) = a ++ question::q := by
    have hfirst := ha
    simp only [plainAction,Bool.and_eq_true] at hfirst
    cases a with
    | nil => exact List.dropWhile_cons_of_neg (by decide)
    | cons c t =>
      have hc : (decide (c ≠ slash)) = true := hfirst.1.1.1.2
      exact List.dropWhile_cons_of_neg (by simpa using hc)
  have hlowered : toLowercase (ascii "wit://" ++ (a ++ question::q)) =
      lowerKey (ascii "wit://") ++ lowerKey (a ++ question::q) := by
    rw [hlower _ fun c hc => (visible_bounds c (hall c hc)).2,lowerKey,List.map_append]
    rfl
  have hrouting : happRouting (toLowercase (ascii "wit://" ++ (a ++ question::q))) = false := by
    rw [hlowered]
    exact happRouting_clash (by decide) (by decide) _
  have hstripped : stripped (ascii "wit://" ++ (a ++ question::q)) "wit://" =
      some (a ++ question::q) := by
    rw [stripped,if_pos (startsWith_append _ _),List.drop_left]
  have hne : ascii "wit://" ++ (a ++ question::q) ≠ [] :=
    List.append_ne_nil_of_left_ne_nil (by decide) _
  rw [parseDeeplink,trimSpace_visible hall]
  simp only [hrouting,hstripped,hne,if_false,Bool.false_eq_true,Option.some_or,hhead]
  exact parseRest_query hlower ha hbytes

end Forms

section Parameters

variable {toLowercase : Bytes → Bytes}

/-- What a pair is read as. -/
def entry (toLowercase : Bytes → Bytes) (p : Bytes × Bytes) : Bytes × Bytes :=
  (toLowercase p.1,decoded p.2)

/-- Every pair becomes a parameter, and the last comes first. -/
theorem params_pairs {pairs : List (Bytes × Bytes)} (hne : pairs ≠ [])
    (hplain : ∀ p ∈ pairs, equals ∉ p.1 ∧ ampersand ∉ pairText p) :
    params toLowercase ([ampersand].intercalate (pairs.map pairText)) =
      (pairs.map (entry toLowercase)).reverse := by
  have hfree : ∀ text ∈ pairs.map pairText, ampersand ∉ text := by
    intro text htext
    obtain ⟨p,hp,rfl⟩ := List.mem_map.mp htext
    exact (hplain p hp).2
  have hsplit := List.splitOn_intercalate ampersand hfree (by simpa using hne)
  have hkept : (pairs.map pairText).filter (· ≠ []) = pairs.map pairText :=
    List.filter_eq_self.mpr fun text htext => by
      obtain ⟨p,-,rfl⟩ := List.mem_map.mp htext
      simp [pairText]
  have hfold : ∀ (l : List (Bytes × Bytes)) (ps : Params), (∀ p ∈ l, equals ∉ p.1) →
      (l.map pairText).foldl (fun ps pair => if equals ∈ pair then
        (toLowercase (before equals pair),decoded (after equals pair))::ps else ps) ps =
        (l.map (entry toLowercase)).reverse ++ ps := by
    intro l
    induction l with
    | nil => exact fun ps _ => rfl
    | cons p l ih =>
      intro ps hl
      have hequals := hl p List.mem_cons_self
      have hin : equals ∈ pairText p := List.mem_append_right _ List.mem_cons_self
      have hentry : (toLowercase (before equals (pairText p)),decoded (after equals (pairText p))) =
          entry toLowercase p := by
        rw [pairText,before_cut hequals,after_cut hequals]
        rfl
      rw [List.map_cons,List.foldl_cons,if_pos hin,hentry,
        ih _ fun p' hp' => hl p' (List.mem_cons_of_mem p hp')]
      simp
  rw [params,hsplit,hkept,hfold pairs [] fun p hp => (hplain p hp).1,List.append_nil]

/-- A parameter is found where no other has its key. -/
theorem get_sole {l : List (Bytes × Bytes)} {k : String} {x : Bytes} (h : (ascii k,x) ∈ l)
    (hsole : ∀ p ∈ l, p.1 = ascii k → p.2 = x) : Params.get l k = some x := by
  rw [Params.get]
  induction l with
  | nil => cases h
  | cons p l ih =>
    rw [List.lookup_cons]
    by_cases hp : ascii k = p.1
    · rw [hp,beq_self_eq_true]
      exact congrArg some (hsole p List.mem_cons_self hp.symm)
    · rw [beq_false_of_ne hp]
      refine ih ((List.mem_cons.mp h).resolve_left fun heq => ?_)
        fun p' hp' => hsole p' (List.mem_cons_of_mem p hp')
      exact hp (congrArg Prod.fst heq)

theorem get_absent {l : List (Bytes × Bytes)} {k : String} (h : ∀ p ∈ l, p.1 ≠ ascii k) :
    Params.get l k = none := by
  rw [Params.get,List.lookup_eq_none_iff]
  exact fun p hp => bne_iff_ne.mpr (h p hp).symm

/-- The first parameter of a list is the one whose preferred ones are absent. -/
theorem first_found {ps : Params} {preferred later : List String} {k : String} {x : Bytes}
    (hbefore : ∀ k' ∈ preferred, ps.get k' = none) (hk : ps.get k = some x) :
    first ps (preferred ++ k::later) = some x := by
  have hnone : preferred.findSome? ps.get = none := List.findSome?_eq_none_iff.mpr hbefore
  rw [first,List.findSome?_append,hnone,Option.none_or,List.findSome?_cons,hk]

theorem first_absent {ps : Params} {keys : List String} (h : ∀ k ∈ keys, ps.get k = none) :
    first ps keys = none := List.findSome?_eq_none_iff.mpr h

theorem first_two (ps : Params) (a b : String) : (ps.get a).or (ps.get b) = first ps [a,b] := by
  simp only [first,List.findSome?_cons,List.findSome?_nil]
  cases ps.get a <;> cases ps.get b <;> rfl

theorem first_three (ps : Params) (a b c : String) :
    ((ps.get a).or (ps.get b)).or (ps.get c) = first ps [a,b,c] := by
  simp only [first,List.findSome?_cons,List.findSome?_nil]
  cases ps.get a <;> cases ps.get b <;> cases ps.get c <;> rfl

/-- An action of its kind goes by the first of the keys and the first of the seconds. -/
theorem runAction_kind {kind : Kind} {a : String} (ha : a ∈ kind.actions) {ps : Params}
    {value : Bytes} (hvalue : first ps kind.keys = some value)
    (hscheme : kind = .subscription → web value = true) :
    runAction toLowercase (ascii a) ps = .ok (kind.result value (first ps kind.seconds)) := by
  cases kind with
  | subscription =>
    have hactions : ∀ a ∈ subscriptionActions, (ascii a ≠ ascii "connect" ∧
        ascii a ≠ ascii "disconnect" ∧ ascii a ≠ ascii "toggle") ∧
        isAction routingActions (ascii a) = false ∧
        isAction subscriptionActions (ascii a) = true := by decide +kernel
    obtain ⟨⟨h1,h2,h3⟩,hrouting,hown⟩ := hactions a ha
    have hkeys : ((ps.get "url").or (ps.get "link")).or (ps.get "sub") = some value :=
      (first_three ps _ _ _).trans hvalue
    have hweb : (!startsWith value "http://" && !startsWith value "https://") = false := by
      have hw := hscheme rfl
      rw [web,Bool.or_comm] at hw
      rw [← Bool.not_or,hw]
      rfl
    rw [runAction,if_neg h1,if_neg h2,if_neg h3,hrouting,hown,hkeys,first_two ps "name" "title"]
    simp only [hweb,Bool.false_eq_true,if_false,if_true]
    rfl
  | routing =>
    have hactions : ∀ a ∈ routingActions, (ascii a ≠ ascii "connect" ∧
        ascii a ≠ ascii "disconnect" ∧ ascii a ≠ ascii "toggle") ∧
        isAction routingActions (ascii a) = true := by decide +kernel
    obtain ⟨⟨h1,h2,h3⟩,hown⟩ := hactions a ha
    have hkeys : ((ps.get "link").or (ps.get "url")).or (ps.get "uri") = some value :=
      (first_three ps _ _ _).trans hvalue
    have hsecond : ps.get "group" = first ps ["group"] := by
      simp only [first,List.findSome?_cons,List.findSome?_nil]
      cases ps.get "group" <;> rfl
    rw [runAction,if_neg h1,if_neg h2,if_neg h3,hown,hkeys,hsecond]
    rfl
  | profile =>
    have hactions : ∀ a ∈ profileActions, (ascii a ≠ ascii "connect" ∧
        ascii a ≠ ascii "disconnect" ∧ ascii a ≠ ascii "toggle") ∧
        isAction routingActions (ascii a) = false ∧
        isAction subscriptionActions (ascii a) = false ∧
        isAction profileActions (ascii a) = true := by decide +kernel
    obtain ⟨⟨h1,h2,h3⟩,hrouting,hsubscription,hown⟩ := hactions a ha
    have hkeys : ((ps.get "uri").or (ps.get "link")).or (ps.get "url") = some value :=
      (first_three ps _ _ _).trans hvalue
    have hsecond : ps.get "group" = first ps ["group"] := by
      simp only [first,List.findSome?_cons,List.findSome?_nil]
      cases ps.get "group" <;> rfl
    rw [runAction,if_neg h1,if_neg h2,if_neg h3,hrouting,hsubscription,hown,hkeys,hsecond]
    rfl

end Parameters

section RoundTrip

variable {toLowercase : Bytes → Bytes}

/-- The names of parameters are told apart and need no escaping or lowering. -/
def plainName (k : Bytes) : Bool := k.all visible && equals ∉ k && ampersand ∉ k && lowerKey k = k

theorem names_plain (kind : Kind) : ∀ k ∈ kind.keys ++ kind.seconds,
    plainName (ascii k) = true := by
  cases kind <;> decide +kernel

theorem names_distinct (kind : Kind) : ((kind.keys ++ kind.seconds).map ascii).Nodup := by
  cases kind <;> decide +kernel

theorem decoded_spelled {m n : Bytes} (h : Percent.Escaped special m n)
    (hm : Utf8.wellFormed m = true) : decoded n = m :=
  Except.ok.inj ((urlDecode_eq n).symm.trans (urlDecode_spelled (by decide) h hm))

variable (w : Written)

theorem mem_pairs {p : Bytes × Bytes} : p ∈ w.pairs ↔ p = (ascii w.key,w.valueText) ∨
    (∃ x ∈ w.second, p = (ascii x.1,x.2.2)) ∨ p ∈ w.extras := by
  rw [w.order.mem_iff,List.mem_cons,List.mem_append,Option.mem_toList]
  simp only [Option.mem_def,Option.map_eq_some_iff]
  refine or_congr_right (or_congr_left ⟨?_,?_⟩)
  · rintro ⟨x,hx,rfl⟩
    exact ⟨x,hx,rfl⟩
  · rintro ⟨x,hx,rfl⟩
    exact ⟨x,hx,rfl⟩

theorem key_mem : w.key ∈ w.kind.keys ++ w.kind.seconds := by
  rw [w.keys]
  exact List.mem_append_left _ (List.mem_append_right _ List.mem_cons_self)

theorem preferred_mem {k : String} (h : k ∈ w.preferred) : k ∈ w.kind.keys ++ w.kind.seconds := by
  rw [w.keys]
  exact List.mem_append_left _ (List.mem_append_left _ h)

theorem second_mem {x : String × Bytes × Bytes} (h : x ∈ w.second) :
    x.1 ∈ w.kind.seconds := by
  obtain ⟨later,hlater⟩ := w.secondKey x h
  rw [hlater]
  exact List.mem_cons_self

theorem names_inj {a b : String} (ha : a ∈ w.kind.keys ++ w.kind.seconds)
    (hb : b ∈ w.kind.keys ++ w.kind.seconds) (h : ascii a = ascii b) : a = b :=
  List.inj_on_of_nodup_map (names_distinct w.kind) ha hb h

/-- A key of a link is none of the names or groups. -/
theorem keys_seconds {a b : String} (ha : a ∈ w.kind.keys) (hb : b ∈ w.kind.seconds) :
    ascii a ≠ ascii b := by
  have hdisjoint := (List.nodup_append.mp (List.Nodup.of_map ascii (names_distinct w.kind))).2.2
  intro h
  exact hdisjoint a ha b hb (names_inj w (List.mem_append_left _ ha) (List.mem_append_right _ hb) h)

theorem preferred_key {k : String} (h : k ∈ w.preferred) : ascii k ≠ ascii w.key := by
  have hnodup := (List.nodup_append.mp (List.Nodup.of_map ascii (names_distinct w.kind))).1
  rw [w.keys] at hnodup
  have hdisjoint := (List.nodup_append.mp hnodup).2.2
  intro heq
  exact hdisjoint k h w.key List.mem_cons_self
    (names_inj w (preferred_mem w h) (key_mem w) heq)

theorem pairs_visible {p : Bytes × Bytes} (h : p ∈ w.pairs) :
    equals ∉ p.1 ∧ ∀ c ∈ pairText p, visible c = true ∧ c ≠ ampersand := by
  have hwritten : ∀ k ∈ w.kind.keys ++ w.kind.seconds, ∀ {m n : Bytes},
      Percent.Escaped special m n → equals ∉ ascii k ∧
        ∀ c ∈ pairText (ascii k,n), visible c = true ∧ c ≠ ampersand := by
    intro k hk m n hn
    have hname := names_plain w.kind k hk
    simp only [plainName,Bool.and_eq_true,decide_eq_true_eq] at hname
    refine ⟨hname.1.1.2,fun c hc => ?_⟩
    rcases List.mem_append.mp hc with hc | hc
    · refine ⟨List.all_eq_true.mp hname.1.1.1 c hc,fun heq => hname.1.2 ?_⟩
      rw [← heq]
      exact hc
    · rcases List.mem_cons.mp hc with rfl | hc
      · exact ⟨by decide,by decide⟩
      · exact escaped_visible hn c hc
  rcases (mem_pairs w).mp h with rfl | ⟨x,hx,rfl⟩ | h
  · exact hwritten w.key (key_mem w) w.escaped
  · exact hwritten x.1 (List.mem_append_right _ (second_mem w hx)) (w.secondEscaped x hx)
  · exact w.extraBytes p h

/-- The keys that the pairs are read under. -/
theorem lower_pair (hlower : AsciiLower toLowercase) {p : Bytes × Bytes} (h : p ∈ w.pairs) :
    toLowercase p.1 = lowerKey p.1 :=
  hlower p.1 fun c hc =>
    (visible_bounds c ((pairs_visible w h).2 c (List.mem_append_left _ hc)).1).2

theorem lower_name {k : String} (h : k ∈ w.kind.keys ++ w.kind.seconds) :
    lowerKey (ascii k) = ascii k := by
  have hname := names_plain w.kind k h
  simp only [plainName,Bool.and_eq_true,decide_eq_true_eq] at hname
  exact hname.2

/-- What the pairs are read as. -/
theorem mem_entries (hlower : AsciiLower toLowercase) {e : Bytes × Bytes}
    (h : e ∈ (w.pairs.map (entry toLowercase)).reverse) :
    e = (ascii w.key,w.value) ∨ (∃ x ∈ w.second, e = (ascii x.1,x.2.1)) ∨
      ∃ p ∈ w.extras, e.1 = lowerKey p.1 := by
  obtain ⟨p,hp,rfl⟩ := List.mem_map.mp (List.mem_reverse.mp h)
  have hkey := lower_pair w hlower hp
  rw [entry,hkey]
  rcases (mem_pairs w).mp hp with rfl | ⟨x,hx,rfl⟩ | hp
  · rw [lower_name w (key_mem w),decoded_spelled w.escaped w.wellFormed]
    exact .inl rfl
  · rw [lower_name w (List.mem_append_right _ (second_mem w hx)),
      decoded_spelled (w.secondEscaped x hx) (w.secondWellFormed x hx)]
    exact .inr (.inl ⟨x,hx,rfl⟩)
  · exact .inr (.inr ⟨p,hp,rfl⟩)

theorem entries_mem (hlower : AsciiLower toLowercase) :
    (ascii w.key,w.value) ∈ (w.pairs.map (entry toLowercase)).reverse ∧
      ∀ x ∈ w.second, (ascii x.1,x.2.1) ∈ (w.pairs.map (entry toLowercase)).reverse := by
  have hentry : ∀ k ∈ w.kind.keys ++ w.kind.seconds, ∀ {m n : Bytes}, decoded n = m →
      (ascii k,n) ∈ w.pairs → (ascii k,m) ∈ (w.pairs.map (entry toLowercase)).reverse := by
    intro k hk m n hn hin
    have hsame : entry toLowercase (ascii k,n) = (ascii k,m) := by
      rw [entry,lower_pair w hlower hin,lower_name w hk,hn]
    rw [List.mem_reverse,← hsame]
    exact List.mem_map_of_mem hin
  refine ⟨hentry w.key (key_mem w) (decoded_spelled w.escaped w.wellFormed)
    ((mem_pairs w).mpr (.inl rfl)),fun x hx => ?_⟩
  exact hentry x.1 (List.mem_append_right _ (second_mem w hx))
    (decoded_spelled (w.secondEscaped x hx) (w.secondWellFormed x hx))
    ((mem_pairs w).mpr (.inr (.inl ⟨x,hx,rfl⟩)))

theorem value_found (hlower : AsciiLower toLowercase) :
    first (w.pairs.map (entry toLowercase)).reverse w.kind.keys = some w.value := by
  rw [w.keys]
  refine first_found (fun k hk => get_absent fun e he heq => ?_)
    (get_sole (entries_mem w hlower).1 fun e he heq => ?_)
  · rcases mem_entries w hlower he with rfl | ⟨x,hx,rfl⟩ | ⟨p,hp,hkey⟩
    · exact preferred_key w hk heq.symm
    · have hin : k ∈ w.kind.keys := by
        rw [w.keys]
        exact List.mem_append_left _ hk
      exact keys_seconds w hin (second_mem w hx) heq.symm
    · exact w.extraKeys p hp k (List.mem_append_left _ hk) (hkey.symm.trans heq)
  · rcases mem_entries w hlower he with rfl | ⟨x,hx,rfl⟩ | ⟨p,hp,hkey⟩
    · rfl
    · have hin : w.key ∈ w.kind.keys := by
        rw [w.keys]
        exact List.mem_append_right _ List.mem_cons_self
      exact absurd heq.symm (keys_seconds w hin (second_mem w hx))
    · exact absurd (hkey.symm.trans heq)
        (w.extraKeys p hp w.key (List.mem_append_right _ List.mem_cons_self))

theorem second_found (hlower : AsciiLower toLowercase) :
    first (w.pairs.map (entry toLowercase)).reverse w.kind.seconds =
      w.second.map fun x => x.2.1 := by
  have hkey {k : String} (hk : k ∈ w.kind.seconds) : ascii w.key ≠ ascii k := by
    have hin : w.key ∈ w.kind.keys := by
      rw [w.keys]
      exact List.mem_append_right _ List.mem_cons_self
    exact keys_seconds w hin hk
  rcases hsecond : w.second with _ | x
  · refine first_absent fun k hk => get_absent fun e he heq => ?_
    rcases mem_entries w hlower he with rfl | ⟨x,hx,rfl⟩ | ⟨p,hp,hlow⟩
    · exact hkey hk heq
    · rw [hsecond] at hx
      cases hx
    · refine w.extraKeys p hp k ?_ (hlow.symm.trans heq)
      rw [hsecond]
      exact List.mem_append_right _ (List.mem_cons_of_mem _ hk)
  · obtain ⟨later,hlater⟩ := w.secondKey x hsecond
    rw [hlater]
    refine @first_found _ [] later _ _ (fun k hk => absurd hk List.not_mem_nil)
      (get_sole ((entries_mem w hlower).2 x hsecond) fun e he heq => ?_)
    rcases mem_entries w hlower he with rfl | ⟨y,hy,rfl⟩ | ⟨p,hp,hlow⟩
    · exact absurd heq (hkey (second_mem w hsecond))
    · cases hsecond.symm.trans hy
      rfl
    · refine absurd (hlow.symm.trans heq) (w.extraKeys p hp x.1 ?_)
      rw [hsecond]
      exact List.mem_append_right _ (List.mem_cons_of_mem _ List.mem_cons_self)

/-- A written form is read as what it was written with. -/
theorem parseDeeplink_written (hlower : AsciiLower toLowercase) :
    parseDeeplink toLowercase w.link = .ok (.ok w.result) := by
  have hplain := actions_plain w.action (mem_allActions w.listed)
  have hne : w.pairs ≠ [] := List.ne_nil_of_mem ((mem_pairs w).mpr (.inl rfl))
  have hbytes : ∀ c ∈ ascii w.action ++ question::[ampersand].intercalate
      (w.pairs.map pairText), visible c = true := by
    intro c hc
    rcases List.mem_append.mp hc with hc | hc
    · simp only [plainAction,Bool.and_eq_true] at hplain
      exact List.all_eq_true.mp hplain.2 c hc
    · rcases List.mem_cons.mp hc with rfl | hc
      · decide
      · rcases mem_intercalate hc with rfl | ⟨text,htext,hc⟩
        · decide
        · obtain ⟨p,hp,rfl⟩ := List.mem_map.mp htext
          exact ((pairs_visible w hp).2 c hc).1
  have hparams := @params_pairs toLowercase w.pairs hne fun p hp =>
    ⟨(pairs_visible w hp).1,fun hin => ((pairs_visible w hp).2 _ hin).2 rfl⟩
  rw [Written.link,List.append_assoc,parseDeeplink_query hlower hplain hbytes,hparams,
    runAction_kind w.listed (value_found w hlower) w.scheme,second_found w hlower]
  rfl

end RoundTrip

section Result

/-- A deep link ends in an error or an action, its subscription is one over HTTP, and a
written form gives back what it was written with. -/
structure Sound (toLowercase : Bytes → Bytes) (link : Bytes) : Prop where
  total : ∃ r, parseDeeplink toLowercase link = .ok r
  web : ∀ name url, parseDeeplink toLowercase link = .ok (.ok (.addSubscription name url)) →
    web url = true
  written : ∀ w : Written, w.link = link →
    parseDeeplink toLowercase link = .ok (.ok w.result)

/-- Just the subscription that an unknown action names has to be one over HTTP already. -/
theorem sound_iff {toLowercase : Bytes → Bytes} (hlower : AsciiLower toLowercase) (link : Bytes) :
    Sound toLowercase link ↔ ∀ url, uncheckedUrl toLowercase link = some url → web url = true := by
  obtain ⟨r,hr,hchecked⟩ := @parseDeeplink_checked toLowercase link
  have hwritten : ∀ w : Written, w.link = link →
      parseDeeplink toLowercase link = .ok (.ok w.result) := fun w hw =>
    hw ▸ parseDeeplink_written w hlower
  constructor
  · intro h url hurl
    rcases hchecked with ⟨hnone,-⟩ | ⟨name,u,hu,rfl⟩
    · cases hnone.symm.trans hurl
    · cases hu.symm.trans hurl
      exact h.web name url hr
  · intro h
    refine ⟨⟨r,hr⟩,fun name url hparsed => ?_,hwritten⟩
    cases hr.symm.trans hparsed
    rcases hchecked with ⟨-,hweb⟩ | ⟨name',u,hu,heq⟩
    · exact hweb name url rfl
    · cases heq
      exact h url hu

theorem web_fallback_sound : Sound lowerKey (ascii "wit://open?url=https%3A%2F%2Fa.b") := by
  refine (sound_iff (fun s _ => rfl) _).mpr fun url hurl => ?_
  have hcomputed : uncheckedUrl lowerKey (ascii "wit://open?url=https%3A%2F%2Fa.b") =
      some (ascii "https://a.b") := by decide +kernel
  cases hcomputed.symm.trans hurl
  decide

/-- A link with an unknown action adds a subscription of any scheme. -/
theorem file_fallback_unsound : ¬Sound lowerKey (ascii "wit://open?url=file%3A%2F%2F%2Fsub") := by
  intro h
  obtain ⟨r,hr,hchecked⟩ :=
    @parseDeeplink_checked lowerKey (ascii "wit://open?url=file%3A%2F%2F%2Fsub")
  have hcomputed : uncheckedUrl lowerKey (ascii "wit://open?url=file%3A%2F%2F%2Fsub") =
      some (ascii "file:///sub") := by decide +kernel
  rcases hchecked with ⟨hnone,-⟩ | ⟨name,u,hu,rfl⟩
  · cases hcomputed.symm.trans hnone
  · cases hcomputed.symm.trans hu
    exact absurd (h.web name _ hr) (by decide)

end Result

end Whoisthat.DeepLinkRoundTrip
