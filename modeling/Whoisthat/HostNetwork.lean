import Mathlib.Data.List.Sort
import Mathlib.Logic.Function.Basic
import Mathlib.Tactic.SplitIfs
import Whoisthat.ShellScripts

/-!
# The network state of a Linux host

Policy rules in order, routing tables, nftables tables, iptables chains, TUN
devices, `rp_filter` values and per-link DNS. A command changes one part or
fails as `ip`, `nft` and `iptables` document it: nothing is added twice and
only what exists is deleted. Addresses and firewall rules are parameters.
-/

set_option autoImplicit false

namespace Whoisthat.HostNetwork
open Whoisthat.ScriptRuns Whoisthat.ShellScripts

section State

inductive Family where
  | v4
  | v6
  deriving DecidableEq, Repr

inductive Selector where
  | fwmark (mark : ℕ)
  | uidrange (uid : ℕ)
  | other (text : String)
  deriving DecidableEq

structure PolicyRule where
  selector : Selector
  table : ℕ
  deriving DecidableEq

/-- The newest rule first; the kernel holds no rule twice. -/
abbrev RuleList := { rules : List PolicyRule // rules.Nodup }

inductive Target (α : Type) where
  | default
  | host (a : α)
  deriving DecidableEq

/-- `none` is the main table. -/
structure Place (α : Type) where
  family : Family
  table : Option ℕ
  target : Target α
  deriving DecidableEq

/-- Without a device the route leaves by the link of its gateway. -/
structure Route (α : Type) where
  gateway : Option α
  dev : Option String
  unreachable : Bool
  metric : ℕ
  deriving DecidableEq

inductive NftFamily where
  | ip
  | ip6
  | inet
  deriving DecidableEq

structure NftTable where
  family : NftFamily
  name : String
  deriving DecidableEq

structure NftChain (ρ : Type) where
  name : String
  spec : String
  rules : List ρ

inductive IptTable where
  | filter
  | nat
  | mangle
  deriving DecidableEq

/-- A built-in chain, or one made with `-N`. -/
structure ChainPlace where
  family : Family
  table : IptTable
  name : String
  deriving DecidableEq

structure Device (α : Type) where
  mtu : ℕ
  addresses : List α
  up : Bool

inductive RpFilter where
  | off
  | strict
  | loose
  deriving DecidableEq

structure LinkDns (α : Type) where
  servers : List α
  domain : Option String

variable (α ρ : Type)

/-- `saved` is a runtime file of `rp_filter` values, `rpDefault` the value of a
new interface. -/
@[ext]
structure Network where
  rules : Family → RuleList
  routes : Place α → List (Route α)
  nft : NftTable → Option (List (NftChain ρ))
  builtin : ChainPlace → List ρ
  chains : ChainPlace → Option (List ρ)
  devices : String → Option (Device α)
  rpFilter : String → Option RpFilter
  rpDefault : RpFilter
  saved : Option (List (String × RpFilter))
  linkDns : String → Option (LinkDns α)

/-- The chain that a rule jumps to. -/
class Jumps where
  target : ρ → Option String

end State

section Commands

variable {α ρ : Type} [DecidableEq α] [DecidableEq ρ] [Jumps ρ]

namespace Network

/-- `ip rule add`: in front of all others. -/
def addRule (f : Family) (r : PolicyRule) (s : Network α ρ) : Option (Network α ρ) :=
  if h : r ∈ (s.rules f).val then none
  else some { s with
    rules := Function.update s.rules f
      ⟨r::(s.rules f).val,List.nodup_cons.mpr ⟨h,(s.rules f).property⟩⟩ }

def dropRule (f : Family) (p : PolicyRule → Bool) (s : Network α ρ) : Network α ρ :=
  { s with
    rules := Function.update s.rules f
      ⟨(s.rules f).val.eraseP p,(s.rules f).property.sublist List.eraseP_sublist⟩ }

/-- `ip rule del`: the first rule that matches. -/
def delRule (f : Family) (p : PolicyRule → Bool) (s : Network α ρ) : Option (Network α ρ) :=
  if (s.rules f).val.any p then some (s.dropRule f p) else none

def setRoutes (p : Place α) (l : List (Route α)) (s : Network α ρ) : Network α ρ :=
  { s with routes := Function.update s.routes p l }

def hasDevice (s : Network α ρ) (r : Route α) : Bool :=
  match r.dev with
  | none => true
  | some d => (s.devices d).isSome

/-- The routes of one place are ordered by metric. -/
def insertRoute (r : Route α) (l : List (Route α)) : List (Route α) :=
  l.orderedInsert (fun a b => a.metric ≤ b.metric) r

/-- `ip route add`: the same metric makes it `File exists`. -/
def addRoute (p : Place α) (r : Route α) (s : Network α ρ) : Option (Network α ρ) :=
  if s.hasDevice r ∧ ∀ r' ∈ s.routes p, r'.metric ≠ r.metric then
    some (s.setRoutes p (insertRoute r (s.routes p)))
  else none

/-- `ip route replace` -/
def replaceRoute (p : Place α) (r : Route α) (s : Network α ρ) : Option (Network α ρ) :=
  if s.hasDevice r then
    some (s.setRoutes p
      (insertRoute r ((s.routes p).eraseP fun r' => r'.metric = r.metric)))
  else none

def dropRoute (p : Place α) (m : Route α → Bool) (s : Network α ρ) : Network α ρ :=
  s.setRoutes p ((s.routes p).eraseP m)

/-- `ip route del`: the first route that matches. -/
def delRoute (p : Place α) (m : Route α → Bool) (s : Network α ρ) : Option (Network α ρ) :=
  if (s.routes p).any m then some (s.dropRoute p m) else none

/-- `ip route flush table` -/
def flushRoutes (f : Family) (table : ℕ) (s : Network α ρ) : Network α ρ :=
  { s with routes := fun p => if p.family = f ∧ p.table = some table then [] else s.routes p }

def dropTable (t : NftTable) (s : Network α ρ) : Network α ρ :=
  { s with nft := Function.update s.nft t none }

/-- `nft delete table` -/
def deleteTable (t : NftTable) (s : Network α ρ) : Option (Network α ρ) :=
  (s.nft t).map fun _ => s.dropTable t

/-- `nft add table`: an existing one stays. -/
def addTable (t : NftTable) (s : Network α ρ) : Option (Network α ρ) :=
  some { s with nft := Function.update s.nft t (some ((s.nft t).getD [])) }

def editTable (t : NftTable) (edit : List (NftChain ρ) → Option (List (NftChain ρ)))
    (s : Network α ρ) : Option (Network α ρ) :=
  ((s.nft t).bind edit).map fun cs => { s with nft := Function.update s.nft t (some cs) }

def hasChain (name : String) (cs : List (NftChain ρ)) : Bool := cs.any fun c => c.name = name

/-- `nft add chain`: an existing one stays. -/
def addChain (t : NftTable) (name spec : String) : Network α ρ → Option (Network α ρ) :=
  editTable t fun cs => some (if hasChain name cs then cs else cs ++ [⟨name,spec,[]⟩])

def editChain (t : NftTable) (name : String) (edit : List ρ → List ρ) :
    Network α ρ → Option (Network α ρ) :=
  editTable t fun cs =>
    if hasChain name cs then
      some (cs.map fun c => if c.name = name then { c with rules := edit c.rules } else c)
    else none

/-- `nft flush chain` -/
def flushChain (t : NftTable) (name : String) : Network α ρ → Option (Network α ρ) :=
  editChain t name fun _ => []

/-- `nft add rule` -/
def addNftRule (t : NftTable) (name : String) (r : ρ) : Network α ρ → Option (Network α ρ) :=
  editChain t name fun rs => rs ++ [r]

def setChain (k : ChainPlace) (c : Option (List ρ)) (s : Network α ρ) : Network α ρ :=
  { s with chains := Function.update s.chains k c }

/-- `iptables -N` -/
def newChain (k : ChainPlace) (s : Network α ρ) : Option (Network α ρ) :=
  if (s.chains k).isSome then none else some (s.setChain k (some []))

/-- `iptables -F` -/
def emptyChain (k : ChainPlace) (s : Network α ρ) : Option (Network α ρ) :=
  (s.chains k).map fun _ => s.setChain k (some [])

def referred (k : ChainPlace) (s : Network α ρ) (hooks : List String) : Bool :=
  hooks.any fun hook => (s.builtin { k with name := hook }).any fun r =>
    Jumps.target r = some k.name

/-- The built-in chains of a table. -/
def hooksOf : IptTable → List String
  | .filter => ["INPUT","FORWARD","OUTPUT"]
  | .nat => ["PREROUTING","INPUT","OUTPUT","POSTROUTING"]
  | .mangle => ["PREROUTING","INPUT","FORWARD","OUTPUT","POSTROUTING"]

/-- `iptables -X`: only an empty chain without jumps to it. -/
def deleteChain (k : ChainPlace) (s : Network α ρ) : Option (Network α ρ) :=
  if s.chains k = some [] ∧ s.referred k (hooksOf k.table) = false then some (s.setChain k none)
  else none

/-- `iptables -A` on a chain made with `-N` -/
def appendChain (k : ChainPlace) (r : ρ) (s : Network α ρ) : Option (Network α ρ) :=
  (s.chains k).map fun rs => s.setChain k (some (rs ++ [r]))

def setBuiltin (k : ChainPlace) (rs : List ρ) (s : Network α ρ) : Network α ρ :=
  { s with builtin := Function.update s.builtin k rs }

/-- `iptables -A` on a built-in chain -/
def appendBuiltin (k : ChainPlace) (r : ρ) (s : Network α ρ) : Option (Network α ρ) :=
  some (s.setBuiltin k (s.builtin k ++ [r]))

/-- `iptables -I k 1 -j name` -/
def insertJump (k : ChainPlace) (r : ρ) (s : Network α ρ) : Option (Network α ρ) :=
  match Jumps.target r with
  | none => none
  | some name =>
    if (s.chains { k with name := name }).isSome then some (s.setBuiltin k (r::s.builtin k))
    else none

/-- `iptables -D`: the first rule that is equal. -/
def deleteBuiltin (k : ChainPlace) (r : ρ) (s : Network α ρ) : Option (Network α ρ) :=
  if r ∈ s.builtin k then some (s.setBuiltin k ((s.builtin k).erase r)) else none

def setDevice (name : String) (d : Device α) (s : Network α ρ) : Network α ρ :=
  { s with devices := Function.update s.devices name (some d) }

/-- `ip tuntap add`: a new device has no routes and no DNS settings. -/
def addDevice (name : String) (s : Network α ρ) : Option (Network α ρ) :=
  if name = "" ∨ 15 < name.length ∨ (s.devices name).isSome then none
  else some { s with
    devices := Function.update s.devices name (some ⟨1500,[],false⟩),
    routes := fun p => (s.routes p).filter fun r => r.dev ≠ some name,
    rpFilter := Function.update s.rpFilter name (some s.rpDefault),
    linkDns := Function.update s.linkDns name none }

def editDevice (name : String) (edit : Device α → Device α) (s : Network α ρ) :
    Option (Network α ρ) :=
  (s.devices name).map fun d => s.setDevice name (edit d)

def dropDevice (name : String) (s : Network α ρ) : Network α ρ :=
  { s with
    devices := Function.update s.devices name none,
    routes := fun p => (s.routes p).filter fun r => r.dev ≠ some name,
    rpFilter := Function.update s.rpFilter name none,
    linkDns := Function.update s.linkDns name none }

/-- `ip tuntap del`, `ip link del`: with it go its routes and settings. -/
def deleteDevice (name : String) (s : Network α ρ) : Option (Network α ρ) :=
  (s.devices name).map fun _ => s.dropDevice name

/-- `sysctl -w net.ipv4.conf.name.rp_filter` -/
def setRpFilter (name : String) (v : RpFilter) (s : Network α ρ) : Option (Network α ρ) :=
  (s.rpFilter name).map fun _ => { s with rpFilter := Function.update s.rpFilter name (some v) }

def setSaved (saved : Option (List (String × RpFilter))) (s : Network α ρ) : Network α ρ :=
  { s with saved := saved }

/-- `resolvectl dns`, `resolvectl domain`, `resolvectl revert` -/
def setLinkDns (name : String) (edit : Option (LinkDns α) → Option (LinkDns α))
    (s : Network α ρ) : Option (Network α ρ) :=
  (s.devices name).map fun _ =>
    { s with linkDns := Function.update s.linkDns name (edit (s.linkDns name)) }

end Network

end Commands

section Totals

variable {α ρ : Type} {s : Network α ρ}

@[simp] theorem dropTable_rules (t : NftTable) : (s.dropTable t).rules = s.rules := rfl

@[simp] theorem dropTable_routes (t : NftTable) : (s.dropTable t).routes = s.routes := rfl

@[simp] theorem dropRule_routes (f : Family) (p : PolicyRule → Bool) :
    (s.dropRule f p).routes = s.routes := rfl

@[simp] theorem flushRoutes_rules (f : Family) (table : ℕ) :
    (s.flushRoutes f table).rules = s.rules := rfl

@[simp] theorem flushRoutes_routes (f : Family) (table : ℕ) (p : Place α) :
    (s.flushRoutes f table).routes p =
      if p.family = f ∧ p.table = some table then [] else s.routes p := rfl

theorem eraseP_eq_filter {l : List PolicyRule} (h : l.Nodup) (r : PolicyRule) :
    l.eraseP (fun r' => r' = r) = l.filter fun r' => r' ≠ r := by
  induction l with
  | nil => rfl
  | cons a l ih =>
    obtain ⟨ha,hl⟩ := List.nodup_cons.mp h
    by_cases har : a = r
    · subst har
      have hf : l.filter (fun r' => r' ≠ a) = l := by
        apply List.filter_eq_self.mpr
        intro b hb
        simpa using fun hba : b = a => ha (hba ▸ hb)
      simpa using hf.symm
    · simp [har,ih hl]

theorem mem_insertRoute {r r' : Route α} {l : List (Route α)} :
    r' ∈ Network.insertRoute r l ↔ r' = r ∨ r' ∈ l := List.mem_orderedInsert _

/-- The route inserted is the first of its metric. -/
theorem eraseP_insertRoute {m : Route α → Bool} {r : Route α} {l : List (Route α)}
    (hr : m r = true) (hl : ∀ r' ∈ l, r'.metric < r.metric → m r' = false) :
    (Network.insertRoute r l).eraseP m = l := by
  induction l with
  | nil => simp [Network.insertRoute,hr]
  | cons a l ih =>
    rw [Network.insertRoute,List.orderedInsert]
    split_ifs with hle
    · simp [hr]
    · have ha := hl a List.mem_cons_self (Nat.lt_of_not_le hle)
      rw [List.eraseP_cons_of_neg (by simp [ha])]
      congr 1
      exact ih fun r' hr' => hl r' (List.mem_cons_of_mem a hr')

theorem filter_insertRoute (q : Route α → Bool) (r : Route α) {l : List (Route α)}
    (hl : ∀ r' ∈ l, q r' = true) :
    (Network.insertRoute r l).filter q = if q r then Network.insertRoute r l else l := by
  induction l with
  | nil =>
    rw [Network.insertRoute,List.orderedInsert,List.filter_singleton]
    cases q r <;> rfl
  | cons a l ih =>
    have ha := hl a List.mem_cons_self
    have hrest := ih fun r' hr' => hl r' (List.mem_cons_of_mem a hr')
    rw [Network.insertRoute,List.orderedInsert]
    split_ifs with hle hr
    · rw [List.filter_cons_of_pos hr,List.filter_eq_self.mpr hl]
    · rw [List.filter_cons_of_neg hr,List.filter_eq_self.mpr hl]
    · rw [if_pos (by assumption)] at hrest
      rw [List.filter_cons_of_pos ha]
      exact congrArg _ hrest
    · rw [if_neg (by assumption)] at hrest
      rw [List.filter_cons_of_pos ha]
      exact congrArg _ hrest

theorem setRoutes_self [DecidableEq α] (s : Network α ρ) (p : Place α) : s.setRoutes p (s.routes p) = s := by
  rw [Network.setRoutes,Function.update_eq_self]

theorem dropRoute_eq [DecidableEq α] {p : Place α} {m : Route α → Bool} (h : ∀ r ∈ s.routes p, m r = false) :
    s.dropRoute p m = s := by
  rw [Network.dropRoute,List.eraseP_of_forall_not fun r hr => by simp [h r hr]]
  exact setRoutes_self s p

@[simp] theorem delRoute_getD [DecidableEq α] (p : Place α) (m : Route α → Bool) :
    (s.delRoute p m).getD s = s.dropRoute p m := by
  rw [Network.delRoute]
  split_ifs with h
  · rfl
  · rw [dropRoute_eq]
    · rfl
    · simpa using h

@[simp] theorem dropRule_val (f g : Family) (p : PolicyRule → Bool) :
    ((s.dropRule f p).rules g).val =
      if g = f then (s.rules f).val.eraseP p else (s.rules g).val := by
  rw [Network.dropRule]
  by_cases h : g = f
  · subst h
    simp
  · simp [h]

theorem dropRule_eq {f : Family} {p : PolicyRule → Bool} (h : ∀ r ∈ (s.rules f).val, p r = false) :
    s.dropRule f p = s := by
  have hrule : (s.dropRule f p).rules = s.rules := by
    funext g
    apply Subtype.ext
    rw [dropRule_val]
    split_ifs with hg
    · subst hg
      exact List.eraseP_of_forall_not fun r hr => by simp [h r hr]
    · rfl
  exact Network.ext hrule rfl rfl rfl rfl rfl rfl rfl rfl rfl

@[simp] theorem delRule_getD (f : Family) (p : PolicyRule → Bool) :
    (s.delRule f p).getD s = s.dropRule f p := by
  rw [Network.delRule]
  split_ifs with h
  · rfl
  · rw [dropRule_eq]
    · rfl
    · simpa using h

theorem dropTable_eq {t : NftTable} (h : s.nft t = none) : s.dropTable t = s := by
  rw [Network.dropTable,← h,Function.update_eq_self]

@[simp] theorem deleteTable_getD (t : NftTable) : (s.deleteTable t).getD s = s.dropTable t := by
  rw [Network.deleteTable]
  cases h : s.nft t with
  | some c => rfl
  | none =>
    rw [dropTable_eq h]
    rfl

theorem addRule_cases {f : Family} {r : PolicyRule} {t : Network α ρ} (h : s.addRule f r = some t) :
    ∃ hr : r ∉ (s.rules f).val, t = { s with
      rules := Function.update s.rules f
        ⟨r::(s.rules f).val,List.nodup_cons.mpr ⟨hr,(s.rules f).property⟩⟩ } := by
  rw [Network.addRule] at h
  split_ifs at h with hr
  exact ⟨hr,(Option.some.inj h).symm⟩

theorem mem_addRule {f g : Family} {r r' : PolicyRule} {t : Network α ρ} (h : s.addRule f r = some t) :
    r' ∈ (t.rules g).val ↔ (g = f ∧ r' = r) ∨ r' ∈ (s.rules g).val := by
  obtain ⟨-,rfl⟩ := addRule_cases h
  by_cases hg : g = f
  · subst hg
    simp
  · simp [hg]

theorem setRoutes_routes [DecidableEq α] (p q : Place α) (l : List (Route α)) :
    (s.setRoutes p l).routes q = if q = p then l else s.routes q :=
  Function.update_apply _ _ _ _

theorem addRoute_cases [DecidableEq α] {p : Place α} {r : Route α} {t : Network α ρ}
    (h : s.addRoute p r = some t) : s.hasDevice r = true ∧ (∀ r' ∈ s.routes p, r'.metric ≠ r.metric) ∧
      t = s.setRoutes p (Network.insertRoute r (s.routes p)) := by
  rw [Network.addRoute] at h
  split_ifs at h with hr
  exact ⟨hr.1,hr.2,(Option.some.inj h).symm⟩

theorem replaceRoute_cases [DecidableEq α] {p : Place α} {r : Route α} {t : Network α ρ}
    (h : s.replaceRoute p r = some t) : s.hasDevice r = true ∧
      t = s.setRoutes p
        (Network.insertRoute r ((s.routes p).eraseP fun r' => r'.metric = r.metric)) := by
  rw [Network.replaceRoute] at h
  split_ifs at h with hr
  exact ⟨hr,(Option.some.inj h).symm⟩

theorem replaceRoute_some [DecidableEq α] {p : Place α} {r : Route α} (h : s.hasDevice r = true) :
    s.replaceRoute p r = some (s.setRoutes p
      (Network.insertRoute r ((s.routes p).eraseP fun r' => r'.metric = r.metric))) := if_pos h

theorem addRoute_some [DecidableEq α] {p : Place α} {r : Route α} (h : s.hasDevice r = true)
    (hfree : ∀ r' ∈ s.routes p, r'.metric ≠ r.metric) :
    s.addRoute p r = some (s.setRoutes p (Network.insertRoute r (s.routes p))) := if_pos ⟨h,hfree⟩

theorem replaced_insertRoute (r : Route α) (l : List (Route α)) :
    Network.insertRoute r ((Network.insertRoute r l).eraseP fun r' => r'.metric = r.metric) =
      Network.insertRoute r l := by
  rw [eraseP_insertRoute]
  · simp
  · intro r' _ hlt
    simpa using Nat.ne_of_lt hlt

/-- Adding a route and deleting one elsewhere can change places. -/
theorem addRoute_of_dropRoute [DecidableEq α] {p q : Place α} (hpq : p ≠ q) {r : Route α}
    {m : Route α → Bool} {u : Network α ρ} (h : (s.dropRoute q m).addRoute p r = some u) :
    ∃ w, s.addRoute p r = some w ∧ w.dropRoute q m = u := by
  obtain ⟨hdev,hfree,rfl⟩ := addRoute_cases h
  have hsame : (s.dropRoute q m).routes p = s.routes p := Function.update_of_ne hpq _ _
  rw [hsame] at hfree ⊢
  refine ⟨s.setRoutes p (Network.insertRoute r (s.routes p)),if_pos ⟨hdev,hfree⟩,?_⟩
  apply Network.ext <;> try rfl
  simp only [Network.dropRoute,Network.setRoutes,Function.update_of_ne hpq.symm]
  exact Function.update_comm hpq _ _ _

end Totals

end Whoisthat.HostNetwork
