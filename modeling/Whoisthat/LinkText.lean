import Whoisthat.Delimiters
import Whoisthat.HappLinks
import Whoisthat.Percent
import Whoisthat.WhiteSpace

/-!
# The texts in a share link

Percent sequences, query strings and addresses as the link parsers read them.
A slice of a text can panic, and none of these ever does. An address is what
stands before its last colon, less a pair of brackets, and a decimal port of 16
bits behind it: splitting it in the standard way first makes no difference.
-/

set_option autoImplicit false

namespace Whoisthat.LinkText
open Whoisthat.Utf8 (Bytes)
open Whoisthat.Delimiters
open Whoisthat.HappLinks (ascii)
open Whoisthat.Occurrences (index)
open Whoisthat.Percent (hexByte)
open Whoisthat.WhiteSpace (trimSpace)

section Source

inductive Failure where
  | panic
  | refused
  deriving DecidableEq

abbrev Result := Except Failure

/-- `s[i:j]` -/
def slice (s : Bytes) (i j : ℕ) : Result Bytes :=
  if i ≤ j ∧ j ≤ s.length then .ok ((s.drop i).take (j-i)) else .error .panic

def percent : UInt8 := 0x25
def hash : UInt8 := 0x23
def question : UInt8 := 0x3F
def atSign : UInt8 := 0x40
def colon : UInt8 := 0x3A
def slash : UInt8 := 0x2F
def equals : UInt8 := 0x3D
def ampersand : UInt8 := 0x26
def comma : UInt8 := 0x2C
def opening : UInt8 := 0x5B
def closing : UInt8 := 0x5D

/-- The byte of a percent sign and two digits. -/
def escape : Bytes → Option UInt8
  | c::hi::lo::_ => if c = percent then hexByte hi lo else none
  | _ => none

/-- The loop of `URLDecode`, with the bytes of an escape still to be skipped. -/
def urlDecodeAfter : ℕ → Bytes → Bytes
  | _,[] => []
  | n+1,_::t => urlDecodeAfter n t
  | 0,c::t =>
    match escape (c::t) with
    | some b => b::urlDecodeAfter 2 t
    | none => c::urlDecodeAfter 0 t

/-- A percent sign without two digits behind it is left as it is. -/
def urlDecode (s : Bytes) : Bytes := urlDecodeAfter 0 s

/-- The flag tells whether `sep` was found. -/
def splitOnce (s sep : Bytes) : Result (Bytes × Bytes × Bool) :=
  match index sep s with
  | none => .ok (s,[],false)
  | some idx => do
    let front ← slice s 0 idx
    let behind ← slice s (idx+sep.length) s.length
    return (front,behind,true)

abbrev Query := List (Bytes × Bytes)

def addPair (res : Query) (pair : Bytes) : Result Query :=
  if pair = [] then .ok res
  else do
    let (k,v,_) ← splitOnce pair [equals]
    return if (res.lookup k).isNone ∧ v ≠ [] then res ++ [(k,v)] else res

/-- Of several values of a key the first that is not empty counts. -/
def parseQuery (raw : Bytes) : Result Query :=
  if raw = [] then .ok [] else (raw.splitOn ampersand).foldlM addPair []

def getQueryParam (q : Query) (keys : List String) : Option Bytes :=
  keys.findSome? fun k => (q.lookup (ascii k)).filter fun v => v ≠ []

def decimalDigit (c : UInt8) : Bool := 0x30 ≤ c && c ≤ 0x39

def decimal (digits : Bytes) : ℕ := digits.foldl (fun n c => 10*n+(c.toNat-0x30)) 0

/-- `strconv.ParseUint(s, 10, 16)` -/
def parseUint (s : Bytes) : Option UInt16 :=
  if s ≠ [] ∧ s.all decimalDigit = true ∧ decimal s < 2^16 then some (UInt16.ofNat (decimal s))
  else none

/-- `net.SplitHostPort` -/
def splitHostPort (hostport : Bytes) : Option (Bytes × Bytes) :=
  match lastIndex colon hostport with
  | none => none
  | some i =>
    if hostport.head? = some opening then
      match index [closing] hostport with
      | none => none
      | some stop =>
        if stop+1 = i ∧ opening ∉ hostport.drop 1 ∧ closing ∉ hostport.drop (stop+1) then
          some ((hostport.drop 1).take (stop-1),hostport.drop (i+1))
        else none
    else if colon ∈ hostport.take i ∨ opening ∈ hostport ∨ closing ∈ hostport then none
    else some (hostport.take i,hostport.drop (i+1))

def splitAddress (addr : Bytes) : Result (Bytes × Bytes) :=
  match splitHostPort addr with
  | some hostPort => .ok hostPort
  | none =>
    match lastIndex colon addr with
    | none => .error .refused
    | some lastColon => do
      let host ← slice addr 0 lastColon
      let port ← slice addr (lastColon+1) addr.length
      return (host,port)

def trimBrackets (host : Bytes) : Bytes := trimSuffix [closing] (trimPrefix [opening] host)

def parseHostPort (addr : Bytes) : Result (Bytes × UInt16) := do
  let (raw,portStr) ← splitAddress (trimSuffix [slash] addr)
  let host := trimBrackets raw
  if host = [] then .error .refused
  else match parseUint portStr with
    | some port => .ok (host,port)
    | none => .error .refused

/-- An empty result is none. -/
def splitALPN (alpn : Option Bytes) : List Bytes :=
  ((alpn.getD []).splitOn comma).filterMap fun p =>
    let trimmed := trimSpace p
    if trimmed = [] then none else some trimmed

end Source

section Slices

theorem slice_front (a b : Bytes) : slice (a ++ b) 0 a.length = .ok a := by
  rw [slice,if_pos ⟨Nat.zero_le _,by simp⟩]
  simp

theorem slice_back (a b : Bytes) : slice (a ++ b) a.length (a ++ b).length = .ok b := by
  rw [slice,if_pos ⟨by simp,Nat.le_refl _⟩]
  simp

theorem slice_behind (a : Bytes) (c : UInt8) (b : Bytes) :
    slice (a ++ c::b) (a.length+1) (a ++ c::b).length = .ok b := by
  have h := slice_back (a ++ [c]) b
  rwa [List.append_assoc,List.length_append,List.length_singleton] at h

theorem splitOnce_eq (s : Bytes) (c : UInt8) :
    splitOnce s [c] = .ok (before c s,after c s,decide (c ∈ s)) := by
  by_cases h : c ∈ s
  · obtain ⟨a,b,rfl,ha⟩ := first_cut h
    rw [splitOnce,index_cut ha,before_cut ha,after_cut ha,decide_eq_true h]
    dsimp only
    rw [slice_front,List.length_singleton,slice_behind]
    rfl
  · rw [splitOnce,index_free h,before_free h,after_free h,decide_eq_false h]

/-- The pairs of a query, the first value of a key that is not empty. -/
def queryOf (raw : Bytes) : Query :=
  (raw.splitOn ampersand).foldl (fun res pair =>
    if (res.lookup (before equals pair)).isNone ∧ after equals pair ≠ [] then
      res ++ [(before equals pair,after equals pair)]
    else res) []

theorem addPair_eq (res : Query) (pair : Bytes) : addPair res pair =
    .ok (if (res.lookup (before equals pair)).isNone ∧ after equals pair ≠ [] then
      res ++ [(before equals pair,after equals pair)] else res) := by
  unfold addPair
  split
  · rename_i h
    subst h
    simp [after]
  · rw [splitOnce_eq]
    rfl

theorem parseQuery_eq (raw : Bytes) : parseQuery raw = .ok (queryOf raw) := by
  have hfold : ∀ (pairs : List Bytes) (res : Query), pairs.foldlM addPair res =
      .ok (pairs.foldl (fun res pair =>
        if (res.lookup (before equals pair)).isNone ∧ after equals pair ≠ [] then
          res ++ [(before equals pair,after equals pair)]
        else res) res) := by
    intro pairs
    induction pairs with
    | nil => exact fun res => rfl
    | cons pair pairs ih =>
      intro res
      rw [List.foldlM_cons,addPair_eq]
      exact ih _
  unfold parseQuery
  split
  · rename_i h
    subst h
    rfl
  · exact hfold _ _

end Slices

section Addresses

variable {addr raw digits : Bytes}

theorem trimBrackets_free (ho : opening ∉ raw) (hc : closing ∉ raw) : trimBrackets raw = raw := by
  rw [trimBrackets,trimPrefix_free ho,trimSuffix_free hc]

theorem trimBrackets_pair {mid : Bytes} : trimBrackets (opening::mid ++ [closing]) = mid := by
  have hfront : trimPrefix [opening] (opening::mid ++ [closing]) = mid ++ [closing] :=
    trimPrefix_hit [opening] (mid ++ [closing])
  rw [trimBrackets,hfront,trimSuffix_hit]

/-- A standard split takes the host out of its brackets, and else agrees. -/
theorem splitHostPort_cut (h : colon ∉ digits) {host port : Bytes}
    (hs : splitHostPort (raw ++ colon::digits) = some (host,port)) :
    trimBrackets host = trimBrackets raw ∧ port = digits := by
  unfold splitHostPort at hs
  rw [lastIndex_cut raw h] at hs
  dsimp only at hs
  have hport : (raw ++ colon::digits).drop (raw.length+1) = digits := by
    rw [List.drop_length_add_append]
    rfl
  have hraw : (raw ++ colon::digits).take raw.length = raw := List.take_left
  rw [hport,hraw] at hs
  split at hs
  · rename_i hhead
    by_cases hclosing : closing ∈ raw ++ colon::digits
    · obtain ⟨mid,rest,hcut,hmid⟩ := first_cut hclosing
      rw [hcut,index_cut hmid] at hs
      dsimp only at hs
      split at hs
      · rename_i hcond
        obtain ⟨hstop,hopen,-⟩ := hcond
        obtain ⟨rfl,rfl⟩ := Prod.mk.inj (Option.some.inj hs)
        refine ⟨?_,rfl⟩
        have hfront : mid ++ [closing] = raw := by
          have hlen : raw.length = (mid ++ [closing]).length := by
            rw [List.length_append,← hstop]
            rfl
          have hsame : raw ++ colon::digits = (mid ++ [closing]) ++ rest := by
            rw [hcut,List.append_assoc]
            rfl
          exact (List.append_inj_left hsame hlen).symm
        cases mid with
        | nil =>
          rw [hcut] at hhead
          cases hhead
        | cons o mid =>
          rw [hcut] at hhead
          obtain rfl := Option.some.inj hhead
          have hinner : ((opening::mid ++ closing::rest).drop 1).take
              ((opening::mid).length-1) = mid := by simp
          rw [hinner,← hfront,trimBrackets_pair]
          refine trimBrackets_free (fun ho => hopen ?_) fun hc =>
            hmid (List.mem_cons_of_mem _ hc)
          exact List.mem_append_left _ ho
      · cases hs
    · rw [index_free hclosing] at hs
      cases hs
  · split at hs
    · cases hs
    · obtain ⟨rfl,rfl⟩ := Prod.mk.inj (Option.some.inj hs)
      exact ⟨rfl,rfl⟩

theorem splitHostPort_free (h : colon ∉ addr) : splitHostPort addr = none := by
  rw [splitHostPort,lastIndex_free h]

/-- An address with a colon. -/
theorem parseHostPort_cut (haddr : trimSuffix [slash] addr = raw ++ colon::digits)
    (h : colon ∉ digits) :
    parseHostPort addr =
      if trimBrackets raw = [] then .error .refused
      else match parseUint digits with
        | some port => .ok (trimBrackets raw,port)
        | none => .error .refused := by
  have hsplit : ∃ host, splitAddress (raw ++ colon::digits) = .ok (host,digits) ∧
      trimBrackets host = trimBrackets raw := by
    unfold splitAddress
    cases hs : splitHostPort (raw ++ colon::digits) with
    | some hostPort =>
      obtain ⟨host,port⟩ := hostPort
      obtain ⟨hhost,rfl⟩ := splitHostPort_cut h hs
      exact ⟨host,rfl,hhost⟩
    | none =>
      refine ⟨raw,?_,rfl⟩
      rw [lastIndex_cut raw h]
      dsimp only
      rw [slice_front,slice_behind]
      rfl
  obtain ⟨host,hsplit,hhost⟩ := hsplit
  rw [parseHostPort,haddr,hsplit,← hhost]
  rfl

theorem parseHostPort_free (h : colon ∉ trimSuffix [slash] addr) :
    parseHostPort addr = .error .refused := by
  rw [parseHostPort,splitAddress,splitHostPort_free h,lastIndex_free h]
  rfl

theorem parseHostPort_safe (addr : Bytes) : parseHostPort addr ≠ .error .panic := by
  by_cases h : colon ∈ trimSuffix [slash] addr
  · obtain ⟨raw,digits,hcut,hdigits⟩ := last_cut h
    rw [parseHostPort_cut hcut hdigits]
    split
    · exact fun he => by cases he
    · cases parseUint digits <;> exact fun he => by cases he
  · rw [parseHostPort_free h]
    exact fun he => by cases he

/-- What is accepted is a host with a port of digits. -/
theorem parseHostPort_ok {host : Bytes} {port : UInt16}
    (h : parseHostPort addr = .ok (host,port)) :
    ∃ raw digits, trimSuffix [slash] addr = raw ++ colon::digits ∧ colon ∉ digits ∧
      host = trimBrackets raw ∧ host ≠ [] ∧ parseUint digits = some port := by
  by_cases hcolon : colon ∈ trimSuffix [slash] addr
  · obtain ⟨raw,digits,hcut,hdigits⟩ := last_cut hcolon
    rw [parseHostPort_cut hcut hdigits] at h
    split at h
    · cases h
    · rename_i hne
      cases hp : parseUint digits with
      | none =>
        rw [hp] at h
        cases h
      | some p =>
        rw [hp] at h
        obtain ⟨rfl,rfl⟩ := Prod.mk.inj (Except.ok.inj h)
        exact ⟨raw,digits,hcut,hdigits,rfl,hne,hp⟩
  · rw [parseHostPort_free hcolon] at h
    cases h

end Addresses

end Whoisthat.LinkText
