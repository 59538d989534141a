import Whoisthat.LinkText
import Whoisthat.Patterns
import Whoisthat.Percent

/-!
# Redaction of provider tokens

A subscription URL carries its secrets as a user with a password and as a query.
Three functions take them out of a text before it is logged or stored. Two texts
that differ in the secrets alone should come out alike: they do where the secrets
are queries of ordinary characters, and for no URL whatever its secrets are.
-/

set_option autoImplicit false

namespace Whoisthat.Redaction
open Whoisthat.Utf8 (Bytes)
open Whoisthat.LinkText (hash question atSign colon slash decimalDigit)
open Whoisthat.Percent (unescape)
open Whoisthat.HappLinks (ascii)
open Whoisthat.Delimiters
open Whoisthat.Patterns
open Whoisthat.Occurrences (index)

section Source

/-- `\s` -/
def space (c : UInt8) : Bool := c ∈ [0x09,0x0A,0x0C,0x0D,0x20]

/-- The bytes of `…`. -/
def ellipsis : Bytes := [0xE2,0x80,0xA6]

/-- `[^/\s@]` -/
def userinfoByte (c : UInt8) : Bool := c ≠ slash && !space c && c ≠ atSign

/-- `://[^/\s@]+@` -/
def userinfoRe (s : Bytes) : ℕ :=
  if (ascii "://").isPrefixOf s then
    let run := (s.drop 3).takeWhile userinfoByte
    if run ≠ [] ∧ (s.drop (3+run.length)).head? = some atSign then 3+run.length+1 else 0
  else 0

/-- `[^\s"']` -/
def queryByte (c : UInt8) : Bool := !space c && c ∉ ascii "\"'"

/-- `\?[^\s"']*` -/
def queryRe : Bytes → ℕ
  | c::t => if c = question then 1+(t.takeWhile queryByte).length else 0
  | [] => 0

/-- `://…@` -/
def userinfoMask : Bytes := ascii "://" ++ ellipsis ++ [atSign]

/-- `?…` -/
def queryMask : Bytes := question::ellipsis

def redactSecret (s : Bytes) : Bytes :=
  replaceAll queryRe queryMask (replaceAll userinfoRe userinfoMask s)

/-- The bytes at which a query ends. -/
def stop (c : UInt8) : Bool := c ∈ ascii " \t\r\n:\"'"

def sanitizeError (err : Option Bytes) : Bytes :=
  match err with
  | none => []
  | some s =>
    match index [question] s with
    | none => s
    | some idx =>
      match (s.drop idx).findIdx? stop with
      | some endIdx => s.take idx ++ ascii "?..." ++ s.drop (idx+endIdx)
      | none => s.take idx ++ ascii "?..."

def control (c : UInt8) : Bool := c < 0x20 || c = 0x7F

/-- `[a-zA-Z]` -/
def letter (c : UInt8) : Bool := (0x41 ≤ c && c ≤ 0x5A) || (0x61 ≤ c && c ≤ 0x7A)

def schemeByte (c : UInt8) : Bool := letter c || decimalDigit c || c ∈ ascii "+-."

/-- The scheme, empty where there is none, and what follows it. -/
def getScheme (s : Bytes) : Option (Bytes × Bytes) :=
  match s with
  | [] => some ([],[])
  | c::_ =>
    if c = colon then none
    else if letter c then
      match s.dropWhile schemeByte with
      | [] => some ([],s)
      | d::rest => if d = colon then some (s.takeWhile schemeByte,rest) else some ([],s)
    else some ([],s)

def validUserinfo (s : Bytes) : Bool :=
  s.all fun c => letter c || decimalDigit c || c ∈ ascii "-._:~!$&'()*+,;=%@"

structure User where
  username : Bytes
  password : Option Bytes

def parseUserinfo (userinfo : Bytes) : Option User :=
  if validUserinfo userinfo then
    if colon ∈ userinfo then
      (unescape false (before colon userinfo)).bind fun username =>
        (unescape false (after colon userinfo)).map fun password => ⟨username,some password⟩
    else (unescape false userinfo).map fun username => ⟨username,none⟩
  else none

/-- The user and the text of the host. -/
def parseAuthority (authority : Bytes) : Option (Option User × Bytes) :=
  match lastIndex atSign authority with
  | none => some (none,authority)
  | some i => (parseUserinfo (authority.take i)).map fun user => (some user,authority.drop (i+1))

/-- What the URL library does with a host and a path behind a scheme, and with a fragment. -/
structure UrlLibrary where
  Place : Type
  parsePlace : Bytes → Option Bytes → Bytes → Option Place
  frontText : Option User → Place → Bytes
  parseFragment : Bytes → Option Bytes

structure Url (lib : UrlLibrary) where
  user : Option User
  place : lib.Place
  forceQuery : Bool
  rawQuery : Bytes
  fragment : Bytes

/-- `url.Parse` in front of the query. -/
def parseFront (lib : UrlLibrary) (front : Bytes) : Option (Option User × lib.Place) :=
  (getScheme front).bind fun (scheme,rest) =>
    if (ascii "//").isPrefixOf rest && (scheme ≠ [] || !(ascii "///").isPrefixOf rest) then
      let path := (rest.drop 2).dropWhile fun c => c ≠ slash
      (parseAuthority (before slash (rest.drop 2))).bind fun (user,host) =>
        (lib.parsePlace scheme (some host) path).map fun place => (user,place)
    else (lib.parsePlace scheme none rest).map fun place => (none,place)

/-- `url.Parse` -/
def parse (lib : UrlLibrary) (raw : Bytes) : Option (Url lib) :=
  let u := before hash raw
  if u.any control then none
  else (parseFront lib (before question u)).bind fun (user,place) =>
    (if after hash raw = [] then some [] else lib.parseFragment (after hash raw)).map
      fun fragment => ⟨user,place,question ∈ u && after question u = [],after question u,fragment⟩

/-- `URL.String` -/
def Url.string {lib : UrlLibrary} (u : Url lib) : Bytes :=
  lib.frontText u.user u.place ++
    (if u.forceQuery || u.rawQuery ≠ [] then question::u.rawQuery else []) ++
    (if u.fragment ≠ [] then hash::u.fragment else [])

def maskURL (lib : UrlLibrary) (raw : Bytes) : Bytes :=
  match parse lib raw with
  | none => raw
  | some u =>
    if u.rawQuery ≠ [] then { u with rawQuery := ascii "..." }.string else u.string

end Source

section Hiding

variable {h h' : Bytes}

theorem userinfoByte_question : userinfoByte question = true := by decide

/-- `://` stands whole in a text or begins behind it, where a question mark follows. -/
theorem separator_front (p s : Bytes) :
    (ascii "://").isPrefixOf (p ++ question::s) = (ascii "://").isPrefixOf p := by
  match p with
  | [] => rfl
  | [_] => simp [ascii,List.isPrefixOf,question]
  | [_,_] => simp [ascii,List.isPrefixOf,question]
  | _::_::_::_ => simp [ascii,List.isPrefixOf]

theorem userinfoRe_miss {s : Bytes} (hs : (ascii "://").isPrefixOf s = false) :
    userinfoRe s = 0 := by
  rw [userinfoRe,hs]
  rfl

/-- A match is decided by the run behind `://` and the byte that ends it. -/
theorem userinfoRe_run {run t : Bytes} (hrun : ∀ c ∈ run, userinfoByte c = true)
    (ht : ∀ c ∈ t.head?, userinfoByte c = false) : userinfoRe (ascii "://" ++ (run ++ t)) =
      if run ≠ [] ∧ t.head? = some atSign then run.length+4 else 0 := by
  have hfront : (ascii "://").isPrefixOf (ascii "://" ++ (run ++ t)) = true :=
    List.isPrefixOf_iff_prefix.mpr (List.prefix_append _ _)
  have hdrop : (ascii "://" ++ (run ++ t)).drop 3 = run ++ t := rfl
  have htake : (run ++ t).takeWhile userinfoByte = run := by
    rw [List.takeWhile_append_of_pos hrun]
    cases t with
    | nil => exact List.append_nil run
    | cons c t =>
      rw [List.takeWhile_cons_of_neg (by rw [ht c rfl]; exact Bool.false_ne_true),List.append_nil]
  have hnext : (ascii "://" ++ (run ++ t)).drop (3+run.length) = t := by
    rw [← List.drop_drop,hdrop,List.drop_left]
  have hlength : 3+run.length+1 = run.length+4 := by omega
  rw [userinfoRe,if_pos hfront,hdrop,htake]
  show (if run ≠ [] ∧ ((ascii "://" ++ (run ++ t)).drop (3+run.length)).head? = some atSign then
    3+run.length+1 else 0) = _
  rw [hnext,hlength]

/-- A text before its first byte outside a class. -/
theorem class_cut (p : UInt8 → Bool) (s : Bytes) : (∀ c ∈ s, p c = true) ∨
    ∃ run c t, s = run ++ c::t ∧ (∀ c ∈ run, p c = true) ∧ p c = false := by
  by_cases hall : ∀ c ∈ s, p c = true
  · exact .inl hall
  · refine .inr ⟨s.takeWhile p,?_⟩
    have hne : s.dropWhile p ≠ [] := fun hnil =>
      hall fun c hc => List.dropWhile_eq_nil_iff.mp hnil c hc
    obtain ⟨c,t,hct⟩ := List.exists_cons_of_ne_nil hne
    refine ⟨c,t,?_,fun x hx => List.mem_takeWhile_imp hx,?_⟩
    · rw [← hct,List.takeWhile_append_dropWhile]
    · have hhead := List.head?_dropWhile_not p s
      rw [hct] at hhead
      simpa using hhead

/-- A byte of a query that none of the redactors takes for a delimiter. -/
def ordinary (c : UInt8) : Bool := c ≠ colon && userinfoByte c && queryByte c

theorem ordinary_bytes {c : UInt8} (hc : ordinary c = true) :
    c ≠ colon ∧ userinfoByte c = true ∧ queryByte c = true := by
  simp only [ordinary,Bool.and_eq_true,decide_eq_true_eq] at hc
  exact ⟨hc.1.1,hc.1.2,hc.2⟩

theorem ordinary_goes {c : UInt8} (hc : ordinary c = true) : (!stop c) = true := by
  revert c
  decide +kernel

/-- A query of ordinary bytes holds no credentials of its own. -/
theorem query_kept (hh : ∀ c ∈ h, ordinary c = true) (r : Bytes) :
    replaceAll userinfoRe userinfoMask (question::(h ++ r)) =
      question::(h ++ replaceAll userinfoRe userinfoMask r) := by
  refine @replaceAll_keep _ _ _ (question::h) _ fun a b hab hb => userinfoRe_miss ?_
  obtain ⟨c,t,rfl⟩ := List.exists_cons_of_ne_nil hb
  have hc : c ≠ colon := by
    have hin : c ∈ question::h := hab ▸ List.mem_append_right a List.mem_cons_self
    rcases List.mem_cons.mp hin with rfl | hin
    · decide
    · exact (ordinary_bytes (hh c hin)).1
  have hfirst : (colon == c) = false := beq_false_of_ne hc.symm
  show (colon == c && _) = false
  rw [hfirst,Bool.false_and]

/-- Credentials are replaced by their mask. -/
theorem userinfo_hit {run : Bytes} (hne : run ≠ []) (hrun : ∀ c ∈ run, userinfoByte c = true)
    (t : Bytes) : replaceAll userinfoRe userinfoMask (ascii "://" ++ (run ++ atSign::t)) =
      userinfoMask ++ replaceAll userinfoRe userinfoMask t := by
  have hmatch := userinfoRe_run (t := atSign::t) hrun fun c hc => by cases hc; decide
  rw [if_pos ⟨hne,rfl⟩] at hmatch
  have hdrop : (ascii "://" ++ (run ++ atSign::t)).drop (run.length+4) = t := by
    have hsplit : ascii "://" ++ (run ++ atSign::t) = (ascii "://" ++ run ++ [atSign]) ++ t := by
      simp only [List.append_assoc,List.singleton_append]
    have hlength : run.length+4 = (ascii "://" ++ run ++ [atSign]).length := by
      have hthree : (ascii "://").length = 3 := by decide
      simp only [List.length_append,List.length_singleton,hthree]
      omega
    rw [hsplit,hlength,List.drop_left]
  have hhit := @replaceAll_hit _ _ userinfoMask _ _ _ hmatch
  exact hhit.trans (congrArg (userinfoMask ++ replaceAll userinfoRe userinfoMask ·) hdrop)

/-- Where the run behind `://` ends in the front part, that part decides what happens. -/
theorem userinfo_step {p run t : Bytes} {c d : UInt8} (hp : ascii "://" ++ (run ++ d::t) = c::p)
    (hrun : ∀ x ∈ run, userinfoByte x = true) (hd : userinfoByte d = false) (s : Bytes) :
    replaceAll userinfoRe userinfoMask (c::p ++ s) =
      if run ≠ [] ∧ d = atSign then userinfoMask ++ replaceAll userinfoRe userinfoMask (t ++ s)
      else c::replaceAll userinfoRe userinfoMask (p ++ s) := by
  have htext : c::p ++ s = ascii "://" ++ (run ++ d::(t ++ s)) := by
    rw [← hp]
    simp only [List.append_assoc,List.cons_append]
  by_cases hmatch : run ≠ [] ∧ d = atSign
  · obtain ⟨hne,rfl⟩ := hmatch
    rw [htext,userinfo_hit hne hrun,if_pos ⟨hne,rfl⟩]
  · rw [if_neg hmatch]
    refine replaceAll_miss ?_
    show userinfoRe (c::p ++ s) = 0
    rw [htext,userinfoRe_run hrun fun x hx => by cases hx; exact hd]
    exact if_neg fun hboth => hmatch ⟨hboth.1,Option.some.inj hboth.2⟩

/-- With either query the credentials are found at the same places: either both queries
stay behind the same text, or a match takes both up to the same place. -/
def Together (h h' r p : Bytes) : Prop :=
  (∃ b, replaceAll userinfoRe userinfoMask (p ++ question::(h ++ r)) =
      b ++ question::(h ++ replaceAll userinfoRe userinfoMask r) ∧
    replaceAll userinfoRe userinfoMask (p ++ question::(h' ++ r)) =
      b ++ question::(h' ++ replaceAll userinfoRe userinfoMask r)) ∨
    replaceAll userinfoRe userinfoMask (p ++ question::(h ++ r)) =
      replaceAll userinfoRe userinfoMask (p ++ question::(h' ++ r))

theorem together_append {r p : Bytes} (b : Bytes) {x : Bytes} (hx : ∀ k, k = h ∨ k = h' →
    replaceAll userinfoRe userinfoMask (x ++ question::(k ++ r)) =
      b ++ replaceAll userinfoRe userinfoMask (p ++ question::(k ++ r)))
    (hp : Together h h' r p) : Together h h' r x := by
  rw [Together,hx h (.inl rfl),hx h' (.inr rfl)]
  refine hp.imp ?_ fun heq => congrArg (b ++ ·) heq
  rintro ⟨b',hb,hb'⟩
  exact ⟨b ++ b',by rw [hb,List.append_assoc],by rw [hb',List.append_assoc]⟩

theorem userinfo_together (hh : ∀ c ∈ h, ordinary c = true) (hh' : ∀ c ∈ h', ordinary c = true)
    (p r : Bytes) : Together h h' r p := by
  have hordinary : ∀ k, k = h ∨ k = h' → ∀ c ∈ k, ordinary c = true := by
    rintro k (rfl | rfl)
    · exact hh
    · exact hh'
  induction hn : p.length using Nat.strong_induction_on generalizing p with
  | _ n ih =>
    subst hn
    match p with
    | [] => exact .inl ⟨[],query_kept hh r,query_kept hh' r⟩
    | c::p' =>
      have hskip (hmiss : ∀ k, k = h ∨ k = h' →
          userinfoRe (c::p' ++ question::(k ++ r)) = 0) : Together h h' r (c::p') :=
        together_append [c] (fun k hk => replaceAll_miss (hmiss k hk))
          (ih p'.length (by simp) p' rfl)
      by_cases hfront : (ascii "://").isPrefixOf (c::p') = true
      · obtain ⟨q,hq⟩ := List.isPrefixOf_iff_prefix.mp hfront
        rcases class_cut userinfoByte q with hall | ⟨run,d,t,rfl,hrun,hd⟩
        · -- the run goes through the question mark and the query into the rest
          have hrun : ∀ k, k = h ∨ k = h' → ∀ s : Bytes, (∀ c ∈ s, userinfoByte c = true) →
              ∀ c ∈ q ++ question::(k ++ s), userinfoByte c = true := by
            intro k hk s hs c hc
            rcases List.mem_append.mp hc with hc | hc
            · exact hall c hc
            rcases List.mem_cons.mp hc with rfl | hc
            · exact userinfoByte_question
            rcases List.mem_append.mp hc with hc | hc
            · exact (ordinary_bytes (hordinary k hk c hc)).2.1
            · exact hs c hc
          have htext : ∀ k s t, c::p' ++ question::(k ++ (s ++ t)) =
              ascii "://" ++ ((q ++ question::(k ++ s)) ++ t) := fun k s t => by
            rw [← hq]
            simp only [List.append_assoc,List.cons_append]
          have hne : ∀ k s, q ++ question::(k ++ s) ≠ [] := fun k s =>
            List.append_ne_nil_of_right_ne_nil q (List.cons_ne_nil _ _)
          rcases class_cut userinfoByte r with hr | ⟨s,d,t,rfl,hs,hd⟩
          · refine hskip fun k hk => ?_
            have hend := htext k r []
            rw [List.append_nil] at hend
            rw [hend,userinfoRe_run (hrun k hk r hr) fun x hx => by cases hx]
            exact if_neg fun hboth => nomatch hboth.2
          · by_cases hat : d = atSign
            · subst hat
              refine .inr ?_
              rw [htext,htext,userinfo_hit (hne h s) (hrun h (.inl rfl) s hs),
                userinfo_hit (hne h' s) (hrun h' (.inr rfl) s hs)]
            · refine hskip fun k hk => ?_
              rw [htext,userinfoRe_run (hrun k hk s hs) fun x hx => by cases hx; exact hd]
              exact if_neg fun hboth => hat (Option.some.inj hboth.2)
        · by_cases hmatch : run ≠ [] ∧ d = atSign
          · refine together_append userinfoMask (fun k _ => ?_) (ih t.length ?_ t rfl)
            · exact (userinfo_step hq hrun hd _).trans (if_pos hmatch)
            · have hlength := congrArg List.length hq
              simp only [List.length_append,List.length_cons] at hlength ⊢
              omega
          · exact together_append [c] (fun k _ =>
              (userinfo_step hq hrun hd _).trans (if_neg hmatch)) (ih p'.length (by simp) p' rfl)
      · refine hskip fun k _ => userinfoRe_miss ?_
        rw [separator_front]
        exact Bool.eq_false_of_not_eq_true hfront

theorem separator_split (c : UInt8) (p s : Bytes) :
    (ascii "://").isPrefixOf (c::p ++ colon::s) = (ascii "://").isPrefixOf (c::p) := by
  match p with
  | [] => simp [ascii,List.isPrefixOf,colon]
  | [_] => simp [ascii,List.isPrefixOf,colon]
  | _::_::_ => simp [ascii,List.isPrefixOf]

/-- Credentials without an `@` in them are replaced alike, wherever they stand. -/
theorem credentials_alike {run run' : Bytes} (hne : run ≠ []) (hne' : run' ≠ [])
    (hrun : ∀ c ∈ run, userinfoByte c = true) (hrun' : ∀ c ∈ run', userinfoByte c = true)
    (p r : Bytes) :
    replaceAll userinfoRe userinfoMask (p ++ (ascii "://" ++ (run ++ atSign::r))) =
      replaceAll userinfoRe userinfoMask (p ++ (ascii "://" ++ (run' ++ atSign::r))) := by
  have hthree : ∀ s, ascii "://" ++ s = colon::slash::slash::s := fun s => by
    have hbytes : ascii "://" = [colon,slash,slash] := by decide
    rw [hbytes]
    rfl
  induction hn : p.length using Nat.strong_induction_on generalizing p with
  | _ n ih =>
    subst hn
    match p with
    | [] => rw [List.nil_append,List.nil_append,userinfo_hit hne hrun,userinfo_hit hne' hrun']
    | c::p' =>
      have hskip (hmiss : ∀ s, userinfoRe (c::p' ++ (ascii "://" ++ s)) = 0) :
          replaceAll userinfoRe userinfoMask (c::p' ++ (ascii "://" ++ (run ++ atSign::r))) =
            replaceAll userinfoRe userinfoMask
              (c::p' ++ (ascii "://" ++ (run' ++ atSign::r))) := by
        have hone : ∀ s, replaceAll userinfoRe userinfoMask (c::p' ++ (ascii "://" ++ s)) =
            c::replaceAll userinfoRe userinfoMask (p' ++ (ascii "://" ++ s)) :=
          fun s => replaceAll_miss (hmiss s)
        rw [hone,hone,ih p'.length (by simp) p' rfl]
      by_cases hfront : (ascii "://").isPrefixOf (c::p') = true
      · obtain ⟨q,hq⟩ := List.isPrefixOf_iff_prefix.mp hfront
        rcases class_cut userinfoByte q with hall | ⟨q,d,t,rfl,hin,hd⟩
        · -- the run ends at the slashes of the credentials' own `://`
          refine hskip fun s => ?_
          have htext : c::p' ++ (ascii "://" ++ s) =
              ascii "://" ++ ((q ++ [colon]) ++ slash::slash::s) := by
            rw [hthree s,← hq]
            simp only [List.append_assoc,List.cons_append,List.nil_append]
          have hin : ∀ x ∈ q ++ [colon], userinfoByte x = true := fun x hx => by
            rcases List.mem_append.mp hx with hx | hx
            · exact hall x hx
            · rw [List.mem_singleton.mp hx]
              decide
          rw [htext,userinfoRe_run hin fun x hx => by cases hx; decide]
          exact if_neg fun hboth => absurd (Option.some.inj hboth.2) (by decide)
        · rw [userinfo_step hq hin hd,userinfo_step hq hin hd]
          have hlength := congrArg List.length hq
          simp only [List.length_append,List.length_cons] at hlength
          rw [ih t.length (by simp only [List.length_cons]; omega) t rfl,
            ih p'.length (by simp) p' rfl]
      · refine hskip fun s => userinfoRe_miss ?_
        rw [hthree s,separator_split]
        exact Bool.eq_false_of_not_eq_true hfront

/-- A question mark takes what follows it with it, up to a space or a quote. -/
theorem query_hit {run t : Bytes} (hrun : ∀ c ∈ run, queryByte c = true)
    (ht : ∀ c ∈ t.head?, queryByte c = false) :
    replaceAll queryRe queryMask (question::(run ++ t)) =
      queryMask ++ replaceAll queryRe queryMask t := by
  have htake : (run ++ t).takeWhile queryByte = run := by
    rw [List.takeWhile_append_of_pos hrun]
    cases t with
    | nil => exact List.append_nil run
    | cons c t =>
      rw [List.takeWhile_cons_of_neg (by rw [ht c rfl]; exact Bool.false_ne_true),List.append_nil]
  have hmatch : queryRe (question::(run ++ t)) = run.length+1 := by
    rw [queryRe,if_pos rfl,htake,Nat.add_comm]
  rw [replaceAll_hit hmatch,List.drop_succ_cons,List.drop_left]

theorem query_other {c : UInt8} (hc : c ≠ question) (s : Bytes) :
    replaceAll queryRe queryMask (c::s) = c::replaceAll queryRe queryMask s :=
  replaceAll_miss (if_neg hc)

/-- The last run of a text that goes on with `t`. -/
theorem query_through {run : Bytes} (hrun : ∀ c ∈ run, queryByte c = true) (r : Bytes) :
    replaceAll queryRe queryMask (question::(run ++ r)) =
      queryMask ++ replaceAll queryRe queryMask (r.dropWhile queryByte) := by
  have hsplit : run ++ r = (run ++ r.takeWhile queryByte) ++ r.dropWhile queryByte := by
    rw [List.append_assoc,List.takeWhile_append_dropWhile]
  rw [hsplit,query_hit]
  · intro c hc
    rcases List.mem_append.mp hc with hc | hc
    · exact hrun c hc
    · exact List.mem_takeWhile_imp hc
  · intro c hc
    have hhead := List.head?_dropWhile_not queryByte r
    rw [Option.mem_def.mp hc] at hhead
    simpa using hhead

/-- Queries without spaces and quotes are replaced alike. -/
theorem query_alike (hh : ∀ c ∈ h, queryByte c = true) (hh' : ∀ c ∈ h', queryByte c = true)
    (p r : Bytes) : replaceAll queryRe queryMask (p ++ question::(h ++ r)) =
      replaceAll queryRe queryMask (p ++ question::(h' ++ r)) := by
  induction hn : p.length using Nat.strong_induction_on generalizing p with
  | _ n ih =>
    subst hn
    match p with
    | [] =>
      rw [List.nil_append,List.nil_append,query_through hh,query_through hh']
    | c::p' =>
      by_cases hc : c = question
      · subst hc
        rcases class_cut queryByte p' with hall | ⟨run,d,t,rfl,hrun,hd⟩
        · have hinto : ∀ k : Bytes, (∀ c ∈ k, queryByte c = true) →
              replaceAll queryRe queryMask (question::p' ++ question::(k ++ r)) =
                queryMask ++ replaceAll queryRe queryMask (r.dropWhile queryByte) := by
            intro k hk
            have hsplit : question::p' ++ question::(k ++ r) =
                question::((p' ++ question::k) ++ r) := by
              simp only [List.cons_append,List.append_assoc]
            rw [hsplit,query_through]
            intro c hc
            rcases List.mem_append.mp hc with hc | hc
            · exact hall c hc
            rcases List.mem_cons.mp hc with rfl | hc
            · decide
            · exact hk c hc
          rw [hinto h hh,hinto h' hh']
        · have hjump : ∀ s, replaceAll queryRe queryMask
              (question::(run ++ d::t) ++ question::s) =
              queryMask ++ replaceAll queryRe queryMask (d::t ++ question::s) := fun s => by
            have hsplit : question::(run ++ d::t) ++ question::s =
                question::(run ++ (d::t ++ question::s)) := by
              simp only [List.cons_append,List.append_assoc]
            rw [hsplit,query_hit hrun fun x hx => by cases hx; exact hd]
          rw [hjump,hjump,ih (d::t).length
            (by simp only [List.length_append,List.length_cons]; omega) (d::t) rfl]
      · rw [List.cons_append,List.cons_append,query_other hc,query_other hc,
          ih p'.length (by simp) p' rfl]

/-- Two queries of ordinary bytes are redacted alike, wherever they stand. -/
theorem redactSecret_alike (hh : ∀ c ∈ h, ordinary c = true) (hh' : ∀ c ∈ h', ordinary c = true)
    (p r : Bytes) : redactSecret (p ++ question::(h ++ r)) =
      redactSecret (p ++ question::(h' ++ r)) := by
  rw [redactSecret,redactSecret]
  rcases userinfo_together hh hh' p r with ⟨b,hb,hb'⟩ | heq
  · rw [hb,hb']
    exact query_alike (fun c hc => (ordinary_bytes (hh c hc)).2.2)
      (fun c hc => (ordinary_bytes (hh' c hc)).2.2) b _
  · rw [heq]

end Hiding

section Secrets

/-- A delimiter with the part behind it, or nothing. -/
def marked (c : UInt8) : Option Bytes → Bytes
  | none => []
  | some s => c::s

def schemeText (scheme : Bytes) : Bytes := if scheme = [] then [] else scheme ++ [colon]

def credentialsText : Option (Bytes × Bytes) → Bytes
  | none => []
  | some (user,password) => ascii "//" ++ user ++ colon::password ++ [atSign]

/-- A URL that the library accepts, in its parts. Without credentials the place begins
behind the scheme, with them behind their `@`. -/
structure SecretUrl (lib : UrlLibrary) where
  scheme : Bytes
  credentials : Option (Bytes × Bytes)
  place : Bytes
  query : Option Bytes
  fragment : Option Bytes
  scheme_bytes : ∀ c ∈ scheme, schemeByte c = true
  scheme_head : ∀ c ∈ scheme.head?, letter c = true
  user_ends : ∀ p ∈ credentials, p.1 ≠ [] ∧ p.2 ≠ [] ∧ colon ∉ p.1 ∧
    ∀ c ∈ p.1 ++ p.2, c ≠ slash ∧ c ≠ question ∧ c ≠ hash
  place_ends : question ∉ place ∧ hash ∉ place
  host_ends : credentials ≠ none → atSign ∉ before slash place
  query_ends : ∀ q ∈ query, q ≠ [] ∧ hash ∉ q
  accepted : (parse lib (schemeText scheme ++ credentialsText credentials ++ place ++
    marked question query ++ marked hash fragment)).isSome = true

variable {lib : UrlLibrary}

def SecretUrl.front (U : SecretUrl lib) : Bytes :=
  schemeText U.scheme ++ credentialsText U.credentials ++ U.place

def SecretUrl.text (U : SecretUrl lib) : Bytes :=
  U.front ++ marked question U.query ++ marked hash U.fragment

/-- The two differ in their secrets alone, and have the same kinds of them. -/
structure Alike (U V : SecretUrl lib) : Prop where
  scheme : V.scheme = U.scheme
  place : V.place = U.place
  fragment : V.fragment = U.fragment
  credentials : V.credentials.isSome = U.credentials.isSome
  query : V.query.isSome = U.query.isSome

/-- Neither redactor of a text around the URLs tells them apart, nor that of a URL. -/
structure Same (before behind : Bytes) (U V : SecretUrl lib) : Prop where
  redacted : redactSecret (before ++ U.text ++ behind) = redactSecret (before ++ V.text ++ behind)
  masked : maskURL lib U.text = maskURL lib V.text
  sanitized : sanitizeError (some (before ++ U.text ++ behind)) =
    sanitizeError (some (before ++ V.text ++ behind))

/-- The query holds no delimiter of a redactor. -/
def SecretUrl.Ordinary (U : SecretUrl lib) : Prop := ∀ q ∈ U.query, ∀ c ∈ q, ordinary c = true

/-- The credentials stand behind a scheme and hold no `@`. -/
def SecretUrl.PlainUser (U : SecretUrl lib) : Prop :=
  ∀ p ∈ U.credentials, U.scheme ≠ [] ∧ ∀ c ∈ p.1 ++ p.2, userinfoByte c = true

theorem scheme_found {scheme rest : Bytes} (hbytes : ∀ c ∈ scheme, schemeByte c = true)
    (hhead : ∀ c ∈ scheme.head?, letter c = true) :
    getScheme (schemeText scheme ++ slash::rest) = some (scheme,slash::rest) := by
  cases scheme with
  | nil => rfl
  | cons c scheme =>
    have hletter : letter c = true := hhead c rfl
    have hcolon : c ≠ colon := by
      rintro rfl
      exact absurd hletter (by decide)
    have hdrop : ((c::scheme) ++ colon::slash::rest).dropWhile schemeByte = colon::slash::rest := by
      rw [List.dropWhile_append_of_pos hbytes]
      exact List.dropWhile_cons_of_neg (by decide)
    have htake : ((c::scheme) ++ colon::slash::rest).takeWhile schemeByte = c::scheme := by
      rw [List.takeWhile_append_of_pos hbytes,List.takeWhile_cons_of_neg (by decide),
        List.append_nil]
    have htext : schemeText (c::scheme) ++ slash::rest = c::scheme ++ colon::slash::rest := by
      rw [schemeText,if_neg (List.cons_ne_nil c scheme),List.append_assoc]
      rfl
    rw [htext]
    show (if c = colon then none else if letter c then
      match ((c::scheme) ++ colon::slash::rest).dropWhile schemeByte with
      | [] => _
      | d::rest' => if d = colon then
          some (((c::scheme) ++ colon::slash::rest).takeWhile schemeByte,rest') else _
      else _) = _
    rw [if_neg hcolon,if_pos hletter,hdrop,htake]
    exact if_pos rfl

/-- What is read in front of the query, where there are credentials. -/
theorem front_read {scheme user password place : Bytes}
    (hbytes : ∀ c ∈ scheme, schemeByte c = true) (hhead : ∀ c ∈ scheme.head?, letter c = true)
    (huser : user ≠ []) (hends : ∀ c ∈ user ++ password, c ≠ slash)
    (hhost : atSign ∉ before slash place) :
    parseFront lib (schemeText scheme ++ credentialsText (some (user,password)) ++ place) =
      (parseUserinfo (user ++ colon::password)).bind fun u =>
        (lib.parsePlace scheme (some (before slash place))
          (place.dropWhile fun c => c ≠ slash)).map fun read => (some u,read) := by
  obtain ⟨c,user',rfl⟩ := List.exists_cons_of_ne_nil huser
  have hslash : ∀ x ∈ c::user' ++ colon::password ++ [atSign], decide (x ≠ slash) = true := by
    intro x hx
    rcases List.mem_append.mp hx with hx | hx
    · rcases List.mem_append.mp hx with hx | hx
      · exact decide_eq_true (hends x (List.mem_append_left _ hx))
      rcases List.mem_cons.mp hx with rfl | hx
      · decide
      · exact decide_eq_true (hends x (List.mem_append_right _ hx))
    · rw [List.mem_singleton.mp hx]
      decide
  have htext : schemeText scheme ++ credentialsText (some (c::user',password)) ++ place =
      schemeText scheme ++
      slash::(slash::(c::user' ++ colon::password ++ [atSign] ++ place)) := by
    have htwo : ascii "//" = [slash,slash] := by decide
    simp only [credentialsText,htwo,List.append_assoc,List.cons_append,List.nil_append]
  have hthree : (ascii "///").isPrefixOf (slash::slash::(c::user' ++ colon::password ++ [atSign] ++
      place)) = false := by
    have hc : (slash == c) = false := beq_false_of_ne (hends c (List.mem_append_left _
      List.mem_cons_self)).symm
    show (true && (true && (slash == c && true))) = false
    rw [hc]
    rfl
  have hauthority : before slash (c::user' ++ colon::password ++ [atSign] ++ place) =
      (c::user' ++ colon::password) ++ atSign::before slash place := by
    rw [before,List.takeWhile_append_of_pos hslash,List.append_assoc]
    rfl
  have hpath : (c::user' ++ colon::password ++ [atSign] ++ place).dropWhile (fun x => x ≠ slash) =
      place.dropWhile fun x => x ≠ slash := List.dropWhile_append_of_pos hslash
  have hparsed : parseAuthority ((c::user' ++ colon::password) ++ atSign::before slash place) =
      (parseUserinfo (c::user' ++ colon::password)).map fun u =>
        (some u,before slash place) := by
    rw [parseAuthority,lastIndex_cut _ hhost]
    simp only [List.take_left,← List.drop_drop,List.drop_left]
    rfl
  rw [htext,parseFront,scheme_found hbytes hhead,Option.bind_some]
  simp only [hthree,Bool.not_false,Bool.or_true,Bool.and_true]
  have htwo : (ascii "//").isPrefixOf (slash::slash::(c::user' ++ colon::password ++ [atSign] ++
      place)) = true := by
    have hbytes : ascii "//" = [slash,slash] := by decide
    rw [hbytes]
    rfl
  rw [if_pos htwo,List.drop_succ_cons,List.drop_succ_cons,List.drop_zero,hauthority,hpath,hparsed]
  cases parseUserinfo (c::user' ++ colon::password) <;> rfl

theorem userinfo_isSome {user password : Bytes} (h : colon ∉ user) :
    (parseUserinfo (user ++ colon::password)).isSome = (validUserinfo (user ++ colon::password) &&
      ((unescape false user).isSome && (unescape false password).isSome)) := by
  rw [parseUserinfo,if_pos (List.mem_append_right user List.mem_cons_self),before_cut h,
    after_cut h]
  cases validUserinfo (user ++ colon::password) with
  | false => rfl
  | true =>
    rw [if_pos rfl]
    cases unescape false user <;> cases unescape false password <;> rfl

/-- A password may begin with a colon. -/
theorem userinfo_colon {user password : Bytes} (h : colon ∉ user) :
    (parseUserinfo (user ++ colon::colon::password)).isSome =
      (parseUserinfo (user ++ colon::password)).isSome := by
  have hcolon : unescape false (colon::password) = (unescape false password).map (colon::·) :=
    Percent.unescape_keep (by decide) password
  have hvalid : validUserinfo (user ++ colon::colon::password) =
      validUserinfo (user ++ colon::password) := by
    have hone : ∀ t, validUserinfo (colon::t) = validUserinfo t := fun t => by
      show (true && _) = _
      exact Bool.true_and _
    have happ : ∀ t, validUserinfo (user ++ t) = (validUserinfo user && validUserinfo t) :=
      fun t => List.all_append
    rw [happ,happ,hone,hone]
  rw [userinfo_isSome h,userinfo_isSome h,hvalid,hcolon,Option.isSome_map]

theorem front_isSome {scheme user password place : Bytes}
    (hbytes : ∀ c ∈ scheme, schemeByte c = true) (hhead : ∀ c ∈ scheme.head?, letter c = true)
    (huser : user ≠ []) (hends : ∀ c ∈ user ++ password, c ≠ slash)
    (hhost : atSign ∉ before slash place) :
    (parseFront lib (schemeText scheme ++ credentialsText (some (user,password)) ++ place)).isSome =
      ((parseUserinfo (user ++ colon::password)).isSome && (lib.parsePlace scheme
        (some (before slash place)) (place.dropWhile fun c => c ≠ slash)).isSome) := by
  rw [front_read hbytes hhead huser hends hhost]
  cases parseUserinfo (user ++ colon::password) with
  | none => rfl
  | some u => rw [Option.bind_some,Option.isSome_map,Option.isSome_some,Bool.true_and]

/-- The three parts of a URL are read one by one. -/
theorem parse_parts {front : Bytes} {query fragment : Option Bytes} (hquestion : question ∉ front)
    (hhash : hash ∉ front) (hquery : ∀ q ∈ query, hash ∉ q) :
    parse lib (front ++ marked question query ++ marked hash fragment) =
      if (front ++ marked question query).any control then none
      else (parseFront lib front).bind fun read =>
        (if fragment.getD [] = [] then some [] else lib.parseFragment (fragment.getD [])).map
          fun f => ⟨read.1,read.2,query = some [],query.getD [],f⟩ := by
  have hfree : hash ∉ front ++ marked question query := by
    intro hin
    rcases List.mem_append.mp hin with hin | hin
    · exact hhash hin
    · cases query with
      | none => cases hin
      | some q =>
        rcases List.mem_cons.mp hin with heq | hin
        · exact absurd heq (by decide)
        · exact hquery q rfl hin
  have hfront : before question (front ++ marked question query) = front := by
    cases query with
    | none => rw [marked,List.append_nil,before_free hquestion]
    | some q => exact before_cut hquestion
  have hraw : after question (front ++ marked question query) = query.getD [] := by
    cases query with
    | none => exact after_free (by rw [marked,List.append_nil]; exact hquestion)
    | some q => exact after_cut hquestion
  have hforce : (decide (question ∈ front ++ marked question query) &&
      decide (after question (front ++ marked question query) = [])) = decide (query = some []) := by
    rw [hraw]
    cases query with
    | none => simp [marked,hquestion]
    | some q => simp [marked]
  have hcut : before hash (front ++ marked question query ++ marked hash fragment) =
      front ++ marked question query := by
    cases fragment with
    | none => rw [marked,List.append_nil,before_free hfree]
    | some f => exact before_cut hfree
  have hafter : after hash (front ++ marked question query ++ marked hash fragment) =
      fragment.getD [] := by
    cases fragment with
    | none => exact after_free (by rw [marked,List.append_nil]; exact hfree)
    | some f => exact after_cut hfree
  rw [parse,hcut,hafter,hfront,hforce,hraw]

theorem parse_isSome {front : Bytes} {query fragment : Option Bytes} (hquestion : question ∉ front)
    (hhash : hash ∉ front) (hquery : ∀ q ∈ query, hash ∉ q) :
    (parse lib (front ++ marked question query ++ marked hash fragment)).isSome =
      (!(front ++ marked question query).any control && ((parseFront lib front).isSome &&
        (if fragment.getD [] = [] then some [] else
          lib.parseFragment (fragment.getD [])).isSome)) := by
  rw [parse_parts hquestion hhash hquery]
  cases (front ++ marked question query).any control with
  | true => rfl
  | false =>
    cases parseFront lib front with
    | none => rfl
    | some read => exact Option.isSome_map

/-- A query may begin with a colon. -/
theorem query_colon {front q : Bytes} {fragment : Option Bytes} (hquestion : question ∉ front)
    (hhash : hash ∉ front) (hq : hash ∉ q) :
    (parse lib (front ++ marked question (some (colon::q)) ++ marked hash fragment)).isSome =
      (parse lib (front ++ marked question (some q) ++ marked hash fragment)).isSome := by
  have hq' : hash ∉ colon::q := fun hin => by
    rcases List.mem_cons.mp hin with heq | hin
    · exact absurd heq (by decide)
    · exact hq hin
  rw [parse_isSome hquestion hhash fun x hx => by cases hx; exact hq',
    parse_isSome hquestion hhash fun x hx => by cases hx; exact hq]
  have hcontrol : (front ++ marked question (some (colon::q))).any control =
      (front ++ marked question (some q)).any control := by
    rw [marked,marked,List.any_append,List.any_append,List.any_cons,List.any_cons,List.any_cons]
    have hcolon : control colon = false := by decide
    rw [hcolon,Bool.false_or]
  rw [hcontrol]

/-- The first question mark loses what stands behind it up to a delimiter. -/
theorem sanitize_mark {a b : Bytes} (h : question ∉ a) : sanitizeError (some (a ++ question::b)) =
    a ++ ascii "?..." ++ b.dropWhile fun c => !stop c := by
  have hquestion : stop question = false := by decide
  have hfind : (question::b).findIdx? stop = (b.findIdx? stop).map (· + 1) := by
    rw [List.findIdx?_cons,hquestion]
    rfl
  have htake : (a ++ question::b).take a.length = a := List.take_left
  have hdrop : (a ++ question::b).drop a.length = question::b := List.drop_left
  rw [sanitizeError,index_cut h]
  simp only [hdrop,hfind,htake]
  rcases hstop : b.findIdx? stop with _ | i
  · have hall : ∀ c ∈ b, (!stop c) = true := fun c hc => by
      rw [List.findIdx?_eq_none_iff.mp hstop c hc]
      rfl
    rw [List.dropWhile_eq_nil_iff.mpr hall,List.append_nil]
    rfl
  · have hi := (List.findIdx?_eq_some_iff_findIdx_eq.mp hstop).2
    have hnot : (b.dropWhile fun c => !stop c) = b.drop i := by
      rw [List.dropWhile_eq_drop_findIdx_not]
      simp only [Bool.not_not]
      rw [hi]
    rw [hnot,Option.map_some]
    simp only [← List.drop_drop,hdrop]
    rw [List.drop_drop,List.drop_succ_cons]

theorem sanitize_free {s : Bytes} (h : question ∉ s) : sanitizeError (some s) = s := by
  rw [sanitizeError,index_free h]

/-- What stands in front of the first question mark stays. -/
theorem sanitize_append {a : Bytes} (h : question ∉ a) (s : Bytes) :
    sanitizeError (some (a ++ s)) = a ++ sanitizeError (some s) := by
  by_cases hs : question ∈ s
  · obtain ⟨x,y,rfl,hx⟩ := first_cut hs
    have hax : question ∉ a ++ x := fun hin => (List.mem_append.mp hin).elim h hx
    rw [← List.append_assoc,sanitize_mark hax,sanitize_mark hx]
    simp only [List.append_assoc]
  · rw [sanitize_free hs,sanitize_free fun hin => (List.mem_append.mp hin).elim h hs]

theorem dropWhile_colon (x y : Bytes) : ((x ++ y).dropWhile fun c => !stop c).length <
    ((x ++ colon::y).dropWhile fun c => !stop c).length := by
  induction x with
  | nil =>
    have hcolon : (colon::y).dropWhile (fun c => !stop c) = colon::y :=
      List.dropWhile_cons_of_neg (by decide)
    rw [List.nil_append,List.nil_append,hcolon,List.length_cons]
    exact Nat.lt_succ_of_le (List.dropWhile_sublist _).length_le
  | cons c x ih =>
    rw [List.cons_append,List.cons_append,List.dropWhile_cons,List.dropWhile_cons]
    cases hc : stop c with
    | false => simpa [hc] using ih
    | true => simp

/-- A colon is never sanitized away without trace: the text gets longer by what it adds. -/
theorem sanitize_colon (x y : Bytes) : (sanitizeError (some (x ++ y))).length <
    (sanitizeError (some (x ++ colon::y))).length := by
  by_cases hx : question ∈ x
  · obtain ⟨a,b,rfl,ha⟩ := first_cut hx
    rw [List.append_assoc,List.append_assoc,List.cons_append,List.cons_append,sanitize_mark ha,
      sanitize_mark ha]
    have hlonger := dropWhile_colon b y
    simp only [List.length_append]
    omega
  · have hcolon : sanitizeError (some (colon::y)) = colon::sanitizeError (some y) :=
      sanitize_append (a := [colon]) (by decide) y
    rw [sanitize_append hx,sanitize_append hx,hcolon,List.length_append,List.length_append]
    simp

theorem schemeText_free {scheme : Bytes} (h : ∀ c ∈ scheme, schemeByte c = true) :
    ∀ c ∈ schemeText scheme, c ≠ question ∧ c ≠ hash := by
  intro c hc
  rw [schemeText] at hc
  split at hc
  · cases hc
  rcases List.mem_append.mp hc with hc | hc
  · have hbyte := h c hc
    constructor <;> rintro rfl <;> exact absurd hbyte (by decide +kernel)
  · rw [List.mem_singleton.mp hc]
    decide

theorem front_free (U : SecretUrl lib) : question ∉ U.front ∧ hash ∉ U.front := by
  have hfree : ∀ c ∈ U.front, c ≠ question ∧ c ≠ hash := by
    intro c hc
    rcases List.mem_append.mp hc with hc | hc
    · rcases List.mem_append.mp hc with hc | hc
      · exact schemeText_free U.scheme_bytes c hc
      · rcases hcred : U.credentials with _ | ⟨user,password⟩
        · rw [hcred] at hc
          cases hc
        · obtain ⟨-,-,-,hends⟩ := U.user_ends (user,password) hcred
          have hbytes : ascii "//" = [slash,slash] := by decide
          rw [hcred,credentialsText,hbytes] at hc
          simp only [List.mem_append,List.mem_cons,List.not_mem_nil,or_false] at hc
          rcases hc with (((rfl | rfl) | hc) | rfl | hc) | rfl
          · decide
          · decide
          · exact (hends c (List.mem_append_left _ hc)).2
          · decide
          · exact (hends c (List.mem_append_right _ hc)).2
          · decide
    · exact ⟨fun heq => U.place_ends.1 (heq ▸ hc),fun heq => U.place_ends.2 (heq ▸ hc)⟩
  exact ⟨fun hin => (hfree _ hin).1 rfl,fun hin => (hfree _ hin).2 rfl⟩

/-- The colon inserted in front of the query, or else of the password. -/
theorem longer_query {U : SecretUrl lib} {q : Bytes} (hq : U.query = some q) :
    ∃ V : SecretUrl lib, Alike U V ∧ ∃ x y, U.text = x ++ y ∧ V.text = x ++ colon::y := by
  obtain ⟨hquestion,hhash⟩ := front_free U
  have hfree : hash ∉ q := (U.query_ends q hq).2
  have haccepted := U.accepted
  rw [hq] at haccepted
  refine ⟨{ U with
    query := some (colon::q)
    query_ends := fun x hx => ?_
    accepted := (query_colon hquestion hhash hfree).trans haccepted },
    ⟨rfl,rfl,rfl,rfl,by rw [hq]; rfl⟩,U.front ++ [question],q ++ marked hash U.fragment,?_,?_⟩
  · cases hx
    refine ⟨List.cons_ne_nil _ _,fun hin => ?_⟩
    rcases List.mem_cons.mp hin with heq | hin
    · exact absurd heq (by decide)
    · exact hfree hin
  · rw [SecretUrl.text,hq]
    simp only [marked,List.append_assoc,List.cons_append,List.nil_append]
  · simp only [SecretUrl.text,SecretUrl.front,marked,List.append_assoc,List.cons_append,
      List.nil_append]

theorem longer_password {U : SecretUrl lib} {user password : Bytes}
    (hc : U.credentials = some (user,password)) :
    ∃ V : SecretUrl lib, Alike U V ∧ ∃ x y, U.text = x ++ y ∧ V.text = x ++ colon::y := by
  obtain ⟨huser,hpassword,hcolon,hends⟩ := U.user_ends (user,password) hc
  have hhost := U.host_ends (by rw [hc]; exact Option.some_ne_none _)
  have hends' : ∀ c ∈ user ++ colon::password, c ≠ slash ∧ c ≠ question ∧ c ≠ hash := by
    intro c hin
    rcases List.mem_append.mp hin with hin | hin
    · exact hends c (List.mem_append_left _ hin)
    rcases List.mem_cons.mp hin with rfl | hin
    · decide
    · exact hends c (List.mem_append_right _ hin)
  obtain ⟨x,y,hx,hy⟩ : ∃ x y, credentialsText (some (user,password)) ++ U.place = x ++ y ∧
      credentialsText (some (user,colon::password)) ++ U.place = x ++ colon::y := by
    refine ⟨ascii "//" ++ user ++ [colon],password ++ [atSign] ++ U.place,?_,?_⟩ <;>
      simp only [credentialsText,List.append_assoc,List.cons_append,List.nil_append]
  have hfront : U.front = schemeText U.scheme ++ x ++ y := by
    rw [SecretUrl.front,hc,List.append_assoc,hx,List.append_assoc]
  have hfront' : schemeText U.scheme ++ credentialsText (some (user,colon::password)) ++ U.place =
      schemeText U.scheme ++ x ++ colon::y := by
    rw [List.append_assoc,hy,List.append_assoc]
  have hkept : ∀ c, c ∉ U.front → c ≠ colon → c ∉ schemeText U.scheme ++ x ++ colon::y := by
    intro c hc hne hin
    refine hc (hfront ▸ ?_)
    rcases List.mem_append.mp hin with hin | hin
    · exact List.mem_append_left _ hin
    · exact List.mem_append_right _ ((List.mem_cons.mp hin).resolve_left hne)
  have hcontrol : (schemeText U.scheme ++ x ++ colon::y ++ marked question U.query).any control =
      (U.front ++ marked question U.query).any control := by
    have hcolon : control colon = false := by decide
    rw [hfront]
    simp only [List.any_append,List.any_cons,hcolon,Bool.false_or]
  have haccepted : (parse lib (schemeText U.scheme ++ credentialsText (some (user,colon::password)) ++
      U.place ++ marked question U.query ++ marked hash U.fragment)).isSome = true := by
    have hold : (parse lib U.text).isSome = true := U.accepted
    have hqueries : ∀ q ∈ U.query, hash ∉ q := fun q hq => (U.query_ends q hq).2
    obtain ⟨hquestion,hhash⟩ := front_free U
    rw [SecretUrl.text,parse_isSome hquestion hhash hqueries] at hold
    rw [hfront',parse_isSome (hkept _ hquestion (by decide)) (hkept _ hhash (by decide)) hqueries,
      hcontrol,← hfront',front_isSome U.scheme_bytes U.scheme_head huser (fun c hc =>
      (hends' c hc).1) hhost,userinfo_colon hcolon,← front_isSome U.scheme_bytes U.scheme_head huser
      (fun c hc => (hends c hc).1) hhost,← hc]
    exact hold
  refine ⟨{ U with
    credentials := some (user,colon::password)
    user_ends := fun p hp => ?_
    host_ends := fun _ => hhost
    accepted := haccepted },⟨rfl,rfl,rfl,by rw [hc]; rfl,rfl⟩,schemeText U.scheme ++ x,
    y ++ marked question U.query ++ marked hash U.fragment,?_,?_⟩
  · cases hp
    exact ⟨huser,List.cons_ne_nil _ _,hcolon,hends'⟩
  · rw [SecretUrl.text,hfront]
    simp only [List.append_assoc]
  · show schemeText U.scheme ++ credentialsText (some (user,colon::password)) ++ U.place ++ _ ++ _ = _
    rw [hfront']
    simp only [List.append_assoc,List.cons_append]

/-- A URL with a secret has one like it with a colon more. -/
theorem longer_secret {U : SecretUrl lib} (h : ¬(U.credentials = none ∧ U.query = none)) :
    ∃ V : SecretUrl lib, Alike U V ∧ ∃ x y, U.text = x ++ y ∧ V.text = x ++ colon::y := by
  by_cases hc : U.credentials = none
  · obtain ⟨q,hq⟩ := Option.ne_none_iff_exists'.mp fun hnone => h ⟨hc,hnone⟩
    exact longer_query hq
  · obtain ⟨⟨user,password⟩,hc⟩ := Option.ne_none_iff_exists'.mp hc
    exact longer_password hc

/-- Without secrets there is one text. -/
theorem text_eq {U V : SecretUrl lib} (h : Alike U V) (hc : V.credentials = U.credentials)
    (hq : V.query = U.query) : V.text = U.text := by
  rw [SecretUrl.text,SecretUrl.text,SecretUrl.front,SecretUrl.front,h.scheme,h.place,h.fragment,hc,
    hq]

theorem front_eq {U V : SecretUrl lib} (h : Alike U V) (hc : V.credentials = U.credentials) :
    V.front = U.front := by
  rw [SecretUrl.front,SecretUrl.front,h.scheme,h.place,hc]

theorem none_of_alike {α : Type} {a b : Option α} (h : b.isSome = a.isSome) (ha : a = none) :
    b = none := by
  rw [ha] at h
  exact Option.not_isSome_iff_eq_none.mp (by simp [h])

/-- Queries of ordinary bytes behind equal texts are redacted alike. -/
theorem queries_redacted {U V : SecretUrl lib} (h : Alike U V) (hU : U.Ordinary)
    (hV : V.Ordinary) (p r : Bytes) :
    redactSecret (p ++ (marked question U.query ++ r)) =
      redactSecret (p ++ (marked question V.query ++ r)) := by
  rcases hq : U.query with _ | q
  · rw [none_of_alike h.query hq]
  · obtain ⟨q',hq'⟩ := Option.isSome_iff_exists.mp (h.query.trans (by rw [hq]; rfl))
    rw [hq']
    exact redactSecret_alike (hU q hq) (hV q' hq') p r

/-- Plain credentials in front of equal texts are redacted alike. -/
theorem users_redacted {U V : SecretUrl lib} (h : Alike U V) (hU : U.PlainUser)
    (hV : V.PlainUser) (p r : Bytes) :
    redactSecret (p ++ (U.front ++ r)) = redactSecret (p ++ (V.front ++ r)) := by
  rcases hc : U.credentials with _ | ⟨user,password⟩
  · rw [front_eq h ((none_of_alike h.credentials hc).trans hc.symm)]
  · obtain ⟨⟨user',password'⟩,hc'⟩ :=
      Option.isSome_iff_exists.mp (h.credentials.trans (by rw [hc]; rfl))
    obtain ⟨hscheme,hplain⟩ := hU _ hc
    obtain ⟨-,hplain'⟩ := hV _ hc'
    have hbytes : ascii "://" = colon::ascii "//" := by decide
    have htext : ∀ a b, schemeText U.scheme ++ credentialsText (some (a,b)) ++ U.place ++ r =
        U.scheme ++ (ascii "://" ++ ((a ++ colon::b) ++ atSign::(U.place ++ r))) := fun a b => by
      rw [schemeText,if_neg hscheme,hbytes]
      simp only [credentialsText,List.append_assoc,List.cons_append,List.nil_append]
    have hrun : ∀ a b : Bytes, (∀ c ∈ a ++ b, userinfoByte c = true) →
        ∀ c ∈ a ++ colon::b, userinfoByte c = true := by
      intro a b hab c hc
      rcases List.mem_append.mp hc with hc | hc
      · exact hab c (List.mem_append_left _ hc)
      rcases List.mem_cons.mp hc with rfl | hc
      · decide
      · exact hab c (List.mem_append_right _ hc)
    have hne : ∀ a b : Bytes, a ++ colon::b ≠ [] := fun a b =>
      List.append_ne_nil_of_right_ne_nil a (List.cons_ne_nil _ _)
    rw [SecretUrl.front,SecretUrl.front,hc,hc',h.scheme,h.place,htext,htext,redactSecret,
      redactSecret]
    refine congrArg (replaceAll queryRe queryMask) ?_
    have halike := credentials_alike (hne user password) (hne user' password')
      (hrun user password hplain) (hrun user' password' hplain') (p ++ U.scheme) (U.place ++ r)
    simp only [List.append_assoc] at halike ⊢
    exact halike

/-- A masked URL keeps what stands in front of its query, and behind it. -/
theorem masked_query {front q : Bytes} {fragment : Option Bytes} (hquestion : question ∉ front)
    (hhash : hash ∉ front) (hq : q ≠ [] ∧ hash ∉ q)
    (haccepted : (parse lib (front ++ marked question (some q) ++ marked hash fragment)).isSome) :
    some (maskURL lib (front ++ marked question (some q) ++ marked hash fragment)) =
      (parseFront lib front).bind fun read =>
        (if fragment.getD [] = [] then some [] else lib.parseFragment (fragment.getD [])).map
          fun f => lib.frontText read.1 read.2 ++ question::ascii "..." ++
            (if f ≠ [] then hash::f else []) := by
  have hparts := @parse_parts lib front (some q) fragment hquestion hhash fun x hx => by
    cases hx
    exact hq.2
  rw [hparts] at haccepted
  rw [maskURL,hparts]
  generalize (front ++ marked question (some q)).any control = c at haccepted ⊢
  cases c with
  | true => cases haccepted
  | false =>
    generalize parseFront lib front = read at haccepted ⊢
    cases read with
    | none => cases haccepted
    | some read =>
      generalize (if fragment.getD [] = [] then some [] else
        lib.parseFragment (fragment.getD [])) = f at haccepted ⊢
      cases f with
      | none => cases haccepted
      | some f =>
        have hdots : ascii "..." ≠ [] := by decide
        simp [Url.string,hq.1,hdots]

/-- The secrets of a query are masked. -/
theorem masked_alike {U V : SecretUrl lib} (h : Alike U V) (hc : V.credentials = U.credentials) :
    maskURL lib U.text = maskURL lib V.text := by
  rcases hq : U.query with _ | q
  · rw [text_eq h hc ((none_of_alike h.query hq).trans hq.symm)]
  · obtain ⟨q',hq'⟩ := Option.isSome_iff_exists.mp (h.query.trans (by rw [hq]; rfl))
    obtain ⟨hquestion,hhash⟩ := front_free U
    have hU : (parse lib U.text).isSome = true := U.accepted
    have hV : (parse lib V.text).isSome = true := V.accepted
    have htextU : U.text = U.front ++ marked question (some q) ++ marked hash U.fragment := by
      rw [SecretUrl.text,hq]
    have htextV : V.text = U.front ++ marked question (some q') ++ marked hash U.fragment := by
      rw [SecretUrl.text,hq',front_eq h hc,h.fragment]
    rw [htextU] at hU ⊢
    rw [htextV] at hV ⊢
    refine Option.some.inj ?_
    rw [masked_query hquestion hhash (U.query_ends q hq) hU,
      masked_query hquestion hhash (V.query_ends q' hq') hV]

/-- Queries without a delimiter behind equal texts are sanitized alike. -/
theorem queries_sanitized {U V : SecretUrl lib} (h : Alike U V) (hU : U.Ordinary)
    (hV : V.Ordinary) {p : Bytes} (hp : question ∉ p) (r : Bytes) :
    sanitizeError (some (p ++ (marked question U.query ++ r))) =
      sanitizeError (some (p ++ (marked question V.query ++ r))) := by
  rcases hq : U.query with _ | q
  · rw [none_of_alike h.query hq]
  · obtain ⟨q',hq'⟩ := Option.isSome_iff_exists.mp (h.query.trans (by rw [hq]; rfl))
    have hstop : ∀ k : Bytes, (∀ c ∈ k, ordinary c = true) → (k ++ r).dropWhile (fun c => !stop c) =
        r.dropWhile fun c => !stop c := by
      intro k hk
      exact List.dropWhile_append_of_pos fun c hc => ordinary_goes (hk c hc)
    rw [hq']
    show sanitizeError (some (p ++ question::(q ++ r))) =
      sanitizeError (some (p ++ question::(q' ++ r)))
    rw [sanitize_mark hp,sanitize_mark hp,hstop q (hU q hq),hstop q' (hV q' hq')]

/-- A URL and those like it are redacted alike in all three ways exactly when it has no
secrets; ordinary queries are hidden, and plain credentials from one redactor. -/
theorem redacted_iff (lib : UrlLibrary) (p r : Bytes) (U : SecretUrl lib) :
    ((∀ V, Alike U V → Same p r U V) ↔ U.credentials = none ∧ U.query = none) ∧
      ∀ V, Alike U V → U.Ordinary → V.Ordinary →
        (V.credentials = U.credentials → question ∉ p → Same p r U V) ∧
        (U.PlainUser → V.PlainUser →
          redactSecret (p ++ U.text ++ r) = redactSecret (p ++ V.text ++ r)) := by
  refine ⟨⟨fun hall => ?_,?_⟩,fun V h hU hV => ⟨fun hc hp => ?_,fun hu hv => ?_⟩⟩
  · by_contra hsecret
    obtain ⟨V,hV,x,y,hx,hy⟩ := longer_secret hsecret
    have hsame := congrArg List.length (hall V hV).sanitized
    have hlonger := sanitize_colon (p ++ x) (y ++ r)
    rw [hx,hy] at hsame
    simp only [List.append_assoc,List.cons_append] at hsame hlonger
    omega
  · rintro ⟨hc,hq⟩ V h
    have heq := text_eq h ((none_of_alike h.credentials hc).trans hc.symm)
      ((none_of_alike h.query hq).trans hq.symm)
    exact ⟨by rw [heq],by rw [heq],by rw [heq]⟩
  · have htext : V.text = U.front ++ marked question V.query ++ marked hash U.fragment := by
      rw [SecretUrl.text,front_eq h hc,h.fragment]
    refine ⟨?_,masked_alike h hc,?_⟩
    · rw [htext,SecretUrl.text]
      simp only [List.append_assoc]
      rw [← List.append_assoc,← List.append_assoc p]
      exact queries_redacted h hU hV _ _
    · rw [htext,SecretUrl.text]
      simp only [List.append_assoc]
      rw [← List.append_assoc,← List.append_assoc p]
      exact queries_sanitized h hU hV
        (fun hin => (List.mem_append.mp hin).elim hp (front_free U).1) _
  · have hqueries := queries_redacted h hU hV (p ++ U.front) (marked hash U.fragment ++ r)
    have husers := users_redacted h hu hv p (marked question V.query ++ (marked hash U.fragment ++ r))
    rw [SecretUrl.text,SecretUrl.text,h.fragment]
    simp only [List.append_assoc] at hqueries husers ⊢
    exact hqueries.trans husers

/-- Hosts and paths as they stand, users with their `@` and colons escaped. -/
def plainLibrary : UrlLibrary where
  Place := Bytes × Option Bytes × Bytes
  parsePlace scheme host path := some (scheme,host,path)
  frontText user place :=
    let escaped := fun s : Bytes => s.flatMap fun c =>
      if c = atSign then ascii "%40" else if c = colon then ascii "%3A" else [c]
    let named := match user with
      | none => []
      | some u => escaped u.username ++
          (match u.password with
            | none => []
            | some p => colon::escaped p) ++ [atSign]
    schemeText place.1 ++ (match place.2.1 with
      | none => []
      | some host => ascii "//" ++ named ++ host) ++ place.2.2
  parseFragment := unescape false

/-- A URL whose password is `p` or has a further `@` in it. -/
def passwordUrl (further : Bool) : SecretUrl plainLibrary where
  scheme := ascii "https"
  credentials := some (ascii "u",if further then ascii "p@q" else ascii "p")
  place := ascii "h/"
  query := some (ascii "k=1")
  fragment := none
  scheme_bytes := by decide +kernel
  scheme_head := by decide +kernel
  user_ends := fun p hp => by
    cases hp
    cases further <;> decide +kernel
  place_ends := by decide +kernel
  host_ends := fun _ => by decide +kernel
  query_ends := fun q hq => by
    cases hq
    decide +kernel
  accepted := by cases further <;> decide +kernel

/-- A further `@` in a password shows in all three texts. -/
theorem further_at_shown : Alike (passwordUrl false) (passwordUrl true) ∧
    redactSecret (passwordUrl false).text ≠ redactSecret (passwordUrl true).text ∧
    maskURL plainLibrary (passwordUrl false).text ≠ maskURL plainLibrary (passwordUrl true).text ∧
    sanitizeError (some (passwordUrl false).text) ≠ sanitizeError (some (passwordUrl true).text) :=
  ⟨⟨rfl,rfl,rfl,rfl,rfl⟩,by decide +kernel,by decide +kernel,by decide +kernel⟩

end Secrets

end Whoisthat.Redaction
