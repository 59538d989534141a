import Mathlib.Data.Nat.Notation

/-!
# IP literals

`net.ParseIP`: dotted decimal without leading zeros, or colon-separated groups
of hexadecimal digits with at most one `::` and possibly a dotted tail, and no
zone. An address is 128 bits; those under `::ffff:0:0/96` are IPv4.
-/

set_option autoImplicit false

namespace Whoisthat.IPLiterals

abbrev IP := BitVec 128
abbrev IPv4 := BitVec 32

inductive Address where
  | v4 (a : IPv4)
  | v6 (a : IP)
  deriving DecidableEq

def ipv4 (a b c d : ℕ) : IPv4 := BitVec.ofNat 32 (((a*256+b)*256+c)*256+d)

def decimal (cs : List Char) : ℕ := cs.foldl (fun n c => n*10 + (c.toNat - '0'.toNat)) 0

/-- A field of a dotted address. -/
def parseOctet (cs : List Char) : Option ℕ :=
  if cs = [] ∨ cs.all Char.isDigit = false ∨ (1 < cs.length ∧ cs.head? = some '0') then none
  else if decimal cs ≤ 255 then some (decimal cs) else none

def parseIPv4 (cs : List Char) : Option IPv4 :=
  match (cs.splitOn '.').mapM parseOctet with
  | some [a,b,c,d] => some (ipv4 a b c d)
  | _ => none

def isHexDigit (c : Char) : Bool :=
  c.isDigit || ('a' ≤ c && c ≤ 'f') || ('A' ≤ c && c ≤ 'F')

def hexDigit (c : Char) : ℕ :=
  if c.isDigit then c.toNat - '0'.toNat
  else if 'a' ≤ c then c.toNat - 'a'.toNat + 10
  else c.toNat - 'A'.toNat + 10

def hexadecimal (cs : List Char) : ℕ := cs.foldl (fun n c => n*16 + hexDigit c) 0

/-- The loop over the groups: those read, where `::` stood, and what is left. -/
def parseGroups : ℕ → List Char → List ℕ → Option ℕ → Option (List ℕ × Option ℕ × List Char)
  | 0, cs, groups, ellipsis => some (groups,ellipsis,cs)
  | n+1, cs, groups, ellipsis =>
    let digits := cs.takeWhile isHexDigit
    let next := groups ++ [hexadecimal digits]
    if digits = [] ∨ 4 < digits.length then none
    else
      match cs.dropWhile isHexDigit with
      | [] => some (next,ellipsis,[])
      | '.' :: _ =>
        if (ellipsis.isNone ∧ groups.length ≠ 6) ∨ 6 < groups.length then none
        else (parseIPv4 cs).map fun a =>
          (groups ++ [a.toNat / 65536,a.toNat % 65536],ellipsis,[])
      | [':'] => none
      | ':' :: ':' :: rest =>
        if ellipsis.isSome then none
        else if rest = [] then some (next,some next.length,[])
        else parseGroups n rest next (some next.length)
      | ':' :: rest => parseGroups n rest next ellipsis
      | _ => none

/-- `::` stands for at least one group of zeros. -/
def expandGroups (groups : List ℕ) : Option ℕ → Option (List ℕ)
  | none => if groups.length = 8 then some groups else none
  | some k =>
    if groups.length < 8 then
      some (groups.take k ++ List.replicate (8-groups.length) 0 ++ groups.drop k)
    else none

def ofGroups (groups : List ℕ) : IP := BitVec.ofNat 128 (groups.foldl (fun n g => n*65536+g) 0)

def parseIPv6 (cs : List Char) : Option IP :=
  if cs.contains '%' then none
  else
    let found := match cs with
      | [':',':'] => some ([],some 0,[])
      | ':' :: ':' :: rest => parseGroups 8 rest [] (some 0)
      | _ => parseGroups 8 cs [] none
    match found with
    | some (groups,ellipsis,[]) => (expandGroups groups ellipsis).map ofGroups
    | _ => none

/-- `To16` of an IPv4 address. -/
def mapped (a : IPv4) : IP := (0xffff#96 ++ a).cast (by decide)

/-- `net.ParseIP` -/
def parseIP (s : String) : Option IP :=
  match s.toList.find? fun c => c = '.' || c = ':' || c = '%' with
  | some '.' => (parseIPv4 s.toList).map mapped
  | some ':' => parseIPv6 s.toList
  | _ => none

/-- `To4` -/
def to4 (ip : IP) : Option IPv4 :=
  if ip >>> 32 = 0xffff#128 then some (ip.setWidth 32) else none

/-- The address a rule or a route names an IP by. -/
def address (ip : IP) : Address :=
  match to4 ip with
  | some a => .v4 a
  | none => .v6 ip

example : (parseIP "1.2.3.4").map address = some (.v4 (ipv4 1 2 3 4)) := by decide
example : (parseIP "::ffff:1.2.3.4").map address = some (.v4 (ipv4 1 2 3 4)) := by decide
example : parseIP "fd00::53" = some (BitVec.ofNat 128 (0xfd00*2^112+0x53)) := by decide
example : parseIP "1.2.3.4:53" = none := by decide

end Whoisthat.IPLiterals
