import Mathlib.Tactic.SplitIfs
import Whoisthat.KillSwitchRules
import Whoisthat.ScriptRuns

/-!
# Re-arming the kill switch

The setup scripts command by command. nftables flushes and refills its chain in
one batch; iptables removes its jump, empties and deletes the chain and builds
it again. A probe or a loop condition that fails is an arbitrary choice.
-/

set_option autoImplicit false

namespace Whoisthat.KillSwitchArming
open Whoisthat.PacketFilter Whoisthat.IPLiterals Whoisthat.KillSwitchRules Whoisthat.ScriptRuns

/-- The arguments of `SetupKillSwitchBlock`. -/
structure Allowlist where
  proxyIPs : List String
  tunName : String
  dnsServers : List String

inductive FirewallBackend where
  | iptables
  | nftables
  deriving DecidableEq

section Nftables

/-- The output chain of `inet whoisthat_ks`, which has policy drop. -/
abbrev NftChain := Option (List (Rule NftMatch))

def addChain (s : NftChain) : Option NftChain :=
  match s with
  | none => some (some [])
  | some rules => some (some rules)

/-- `nft -f`: flush and refill, all or nothing. -/
def refill (rules : List (Rule NftMatch)) (s : NftChain) : Option NftChain :=
  s.map fun _ => some rules

def Allowlist.nft (a : Allowlist) : List (Rule NftMatch) :=
  nftRules a.proxyIPs a.tunName a.dnsServers

/-- `buildKillSwitchNftScript`, where `listed` is what `nft list chain` says. -/
def nftScript (a : Allowlist) (listed : Bool) : List (Command NftChain) :=
  (if listed then [] else [may some,must addChain]) ++ [must (refill a.nft)]

def nftAccepts (s : NftChain) (p : Packet) : Bool :=
  match s with
  | none => true
  | some rules => nftVerdict rules p = .accept

end Nftables

section Iptables

/-- One family: the jumps from `OUTPUT` and the chain `WHOISTHAT_KS`. -/
structure Family (w : ℕ) where
  jumps : ℕ
  chain : Option (List (Rule (IptMatch w)))

structure IptState where
  v4 : Family 32
  v6 : Family 128

variable {w : ℕ}

def deleteJump (f : Family w) : Option (Family w) :=
  if f.jumps = 0 then none else some { f with jumps := f.jumps-1 }

def flush (f : Family w) : Option (Family w) :=
  f.chain.map fun _ => { f with chain := some [] }

def deleteChain (f : Family w) : Option (Family w) :=
  if f.chain = some [] ∧ f.jumps = 0 then some { f with chain := none } else none

/-- `-N WHOISTHAT_KS || -F WHOISTHAT_KS` -/
def newChain (f : Family w) : Option (Family w) := some { f with chain := some [] }

def append (r : Rule (IptMatch w)) (f : Family w) : Option (Family w) :=
  f.chain.map fun rules => { f with chain := some (rules ++ [r]) }

def insertJump (f : Family w) : Option (Family w) :=
  f.chain.map fun _ => { f with jumps := f.jumps+1 }

/-- The loop over the jumps ran `loops` times. -/
def teardownFamily (loops : ℕ) : List (Command (Family w)) :=
  List.replicate loops (must deleteJump) ++ [may flush,may deleteChain]

def buildFamily (rules : List (Rule (IptMatch w))) : List (Command (Family w)) :=
  [must newChain] ++ rules.map (fun r => must (append r)) ++ [must insertJump]

def onV4 (c : Command (Family 32)) : Command IptState :=
  c.lift IptState.v4 fun s f => { s with v4 := f }

def onV6 (c : Command (Family 128)) : Command IptState :=
  c.lift IptState.v6 fun s f => { s with v6 := f }

def Allowlist.ipt4 (a : Allowlist) : List (Rule (IptMatch 32)) :=
  ipt4Rules a.proxyIPs a.tunName a.dnsServers

def Allowlist.ipt6 (a : Allowlist) : List (Rule (IptMatch 128)) :=
  ipt6Rules a.proxyIPs a.tunName a.dnsServers

/-- `buildKillSwitchIptablesScript` -/
def iptablesScript (a : Allowlist) (loops4 loops6 : ℕ) : List (Command IptState) :=
  (teardownFamily loops4).map onV4 ++ (teardownFamily loops6).map onV6 ++
  (buildFamily a.ipt4).map onV4 ++ (buildFamily a.ipt6).map onV6

def Family.accepts (f : Family w) (a : BitVec w) (p : Packet) : Bool :=
  match f.chain with
  | none => true
  | some rules => f.jumps = 0 || verdict (fun m p => IptMatch.holds a p m) .accept rules p = .accept

def iptAccepts (s : IptState) (p : Packet) : Bool :=
  match p.destination with
  | .v4 a => s.v4.accepts a p
  | .v6 a => s.v6.accepts a p

/-- After an earlier setup. -/
def armed (a : Allowlist) : IptState := { v4 := ⟨1,some a.ipt4⟩, v6 := ⟨1,some a.ipt6⟩ }

end Iptables

section Leaks

/-- What an installed allowlist lets through, with either backend. -/
def Allowlist.accepts (backend : FirewallBackend) (a : Allowlist) (p : Packet) : Bool :=
  match backend with
  | .nftables => nftAccepts (some a.nft) p
  | .iptables => iptAccepts (armed a) p

/-- No moment of a re-arming accepts what both allowlists reject. -/
def NeverLeaks (backend : FirewallBackend) (old new : Allowlist) : Prop :=
  ∀ p, old.accepts backend p = false → new.accepts backend p = false →
    match backend with
    | .nftables => ∀ listed faults, ∀ s ∈ trace (nftScript new listed) faults (some old.nft),
        nftAccepts s p = false
    | .iptables => ∀ loops4 loops6 faults,
        ∀ s ∈ trace (iptablesScript new loops4 loops6) faults (armed old), iptAccepts s p = false

theorem nft_never_leaks (old new : Allowlist) : NeverLeaks .nftables old new := by
  intro p hold hnew listed faults s hs
  have hkeep : s = some old.nft ∨ s = some new.nft := by
    refine @trace_keeps _ (fun s => s = some old.nft ∨ s = some new.nft) _ ?_ faults _
      (Or.inl rfl) s hs
    intro c hc s t h ht
    simp only [nftScript,List.mem_append,List.mem_singleton] at hc
    rcases hc with hc | rfl
    · split_ifs at hc with hl
      · cases hc
      · rcases List.mem_cons.mp hc with rfl | hc
        · exact Option.some.inj ht ▸ h
        · rw [List.mem_singleton.mp hc] at ht
          rcases h with rfl | rfl <;> exact Option.some.inj ht ▸ (by simp)
    · rcases h with rfl | rfl <;> exact Or.inr (Option.some.inj ht).symm
  rcases hkeep with rfl | rfl
  · exact hold
  · exact hnew

/-- Once the jump of its family is removed a packet passes. -/
theorem iptables_leaks {old new : Allowlist} {p : Packet}
    (hold : old.accepts .iptables p = false) (hnew : new.accepts .iptables p = false) :
    ¬NeverLeaks .iptables old new := by
  intro h
  have hleak := h p hold hnew 1 1 []
  cases hd : p.destination with
  | v4 a =>
    have hmem : { armed old with v4 := ⟨0,some old.ipt4⟩ } ∈
        trace (iptablesScript new 1 1) [] (armed old) :=
      mem_trace_of_run rfl (start_mem_trace _ _ _)
    have hacc := hleak _ hmem
    simp [iptAccepts,hd,Family.accepts] at hacc
  | v6 a =>
    have hmem : { v4 := ⟨0,none⟩, v6 := ⟨0,some old.ipt6⟩ } ∈
        trace (iptablesScript new 1 1) [] (armed old) :=
      mem_trace_of_run rfl (mem_trace_of_run rfl (mem_trace_of_run rfl
        (mem_trace_of_run rfl (start_mem_trace _ _ _))))
    have hacc := hleak _ hmem
    simp [iptAccepts,hd,Family.accepts] at hacc

theorem rearm_never_leaks_iff (backend : FirewallBackend) (old new : Allowlist) :
    NeverLeaks backend old new ↔ backend = .nftables ∨
      ∀ p, old.accepts .iptables p = true ∨ new.accepts .iptables p = true := by
  cases backend with
  | nftables => simp [nft_never_leaks]
  | iptables =>
    simp only [reduceCtorEq,false_or]
    constructor
    · intro h p
      by_contra hp
      rw [not_or,Bool.not_eq_true,Bool.not_eq_true] at hp
      exact iptables_leaks hp.1 hp.2 h
    · intro h p hold hnew
      rcases h p with hp | hp
      · rw [hold] at hp
        cases hp
      · rw [hnew] at hp
        cases hp

def firstServer : Allowlist := ⟨["1.1.1.1"],"whoisthattun",[]⟩

def secondServer : Allowlist := ⟨["2.2.2.2"],"whoisthattun",[]⟩

theorem iptables_rearm_opens : ¬NeverLeaks .iptables firstServer secondServer :=
  @iptables_leaks _ _ ⟨.v4 (ipv4 8 8 8 8),"eth0",0⟩ (by decide) (by decide)

end Leaks

end Whoisthat.KillSwitchArming
