import Mathlib.Tactic.SplitIfs
import Whoisthat.Session

/-!
# The allowlist of a live session

The block is armed with a copy of the TUN name, the server addresses and the
DNS servers. A connection copies them again; the TUN start does not, and a
change of the settings does not.
-/

set_option autoImplicit false

namespace Whoisthat.AllowlistFreshness
open Whoisthat.Session Whoisthat.KillSwitchArming Whoisthat.KillSwitchRules Whoisthat.IPLiterals

section Statement

def Live (s : State) : Prop := s.connected = true ∧ s.tun.isEnabled = true

/-- The block lets the traffic of a TUN with this name and these servers pass. -/
structure Covers (b : Allowlist) (tunName : String) (proxyIPs dnsServers : List String) : Prop where
  tunName : b.tunName = tunName
  proxyIPs : ∀ ip ∈ proxyIPs, ip ∈ b.proxyIPs
  dnsServers : ∀ server ∈ dnsServers, server ∈ b.dnsServers

/-- The addresses of the session, as the proxy and the TUN manager know them. -/
def addresses (s : State) : List String := s.proxyIPs ++ s.tun.proxyIPs

def Fresh (s : State) : Prop :=
  Live s → ∀ b, s.block = some b → Covers b s.tun.tunName (addresses s) s.dnsServers

/-- A failed script leaves no block but the one that was there. -/
def Firewall.Clean (s : State) : Firewall → Prop
  | .works => True
  | .fails left => ∀ b, left = some b → s.block = some b

/-- The TUN comes up under a block that was armed with what is now configured,
a block is renewed under the name of the TUN, and the DNS servers stay within
the block. -/
def Careful (s : State) (c : Command) (a : Answer) : Prop :=
  match c with
  | .connect => s.tun.isEnabled = true → s.killSwitchEnabled = false → s.block = none
  | .enableTun => s.connected = true → s.tun.isEnabled = false → ∀ b, s.block = some b →
      Covers b s.tunName (s.proxyIPs ++ serverIPs a s) s.dnsServers
  | .setKillSwitch enabled _ => Live s →
      (enabled = true → s.tunName = s.tun.tunName) ∧ Firewall.Clean s a.firewall
  | .changeDnsServers servers => Live s → ∀ b, s.block = some b →
      ∀ server ∈ servers, server ∈ b.dnsServers
  | _ => True

def CarefulRun : List (Command × Answer) → State → Prop
  | [], _ => True
  | c::cs, s => Careful s c.1 c.2 ∧ CarefulRun cs (run c.1 c.2 s)

end Statement

section Meaning

variable {b : Allowlist} {tunName : String} {proxyIPs dnsServers : List String}

/-- A packet of the session passes a block that covers it, with either backend. -/
theorem covered_accepted (h : Covers b tunName proxyIPs dnsServers) (backend : FirewallBackend)
    (p : Packet) (hp : Names proxyIPs p.destination ∨ Names dnsServers p.destination ∨
      (validTunName tunName = true ∧ p.outgoing = tunName)) : b.accepts backend p = true := by
  have hw : Whitelisted b.proxyIPs b.tunName b.dnsServers p := by
    rcases hp with ⟨raw,hraw,ha⟩ | ⟨raw,hraw,ha⟩ | ht
    · exact Or.inr (Or.inr (Or.inr (Or.inr (Or.inr ⟨raw,h.proxyIPs raw hraw,ha⟩))))
    · exact Or.inr (Or.inr (Or.inl ⟨raw,h.dnsServers raw hraw,ha⟩))
    · exact Or.inr (Or.inr (Or.inr (Or.inr (Or.inl (by rwa [h.tunName])))))
  cases backend with
  | nftables =>
    have hn := (nft_accepts_iff b.proxyIPs b.tunName b.dnsServers p).mpr hw
    exact decide_eq_true hn
  | iptables =>
    have hn := (iptables_accepts_iff b.proxyIPs b.tunName b.dnsServers p).mpr hw
    unfold iptVerdict at hn
    cases hd : p.destination with
    | v4 a =>
      rw [hd] at hn
      simpa [Allowlist.accepts,iptAccepts,hd,Family.accepts,armed,Allowlist.ipt4] using hn
    | v6 a =>
      rw [hd] at hn
      simpa [Allowlist.accepts,iptAccepts,hd,Family.accepts,armed,Allowlist.ipt6] using hn

end Meaning

section Invariant

/-- In a live session the TUN manager has the addresses of the connection. -/
structure Inv (s : State) : Prop where
  fresh : Fresh s
  servers : Live s → s.proxyIPs ≠ [] → s.tun.proxyIPs = s.proxyIPs

variable {s : State} {a : Answer}

theorem inv_dead (h : ¬Live s) : Inv s := ⟨fun hl => absurd hl h,fun hl => absurd hl h⟩

theorem dead_of_disabled (h : s.tun.isEnabled = false) : ¬Live s := by
  intro hl
  rw [hl.2] at h
  cases h

theorem stop_disabled (deletes : Bool) (s : State) : (tunStop deletes s).tun.isEnabled = false := by
  unfold tunStop
  split_ifs with h
  · rfl
  · exact Bool.eq_false_iff.mpr h

/-- What the TUN manager leaves alone. -/
structure SameSettings (s t : State) : Prop where
  tunName : t.tunName = s.tunName
  dnsServers : t.dnsServers = s.dnsServers
  proxyIPs : t.proxyIPs = s.proxyIPs
  block : t.block = s.block

theorem same_clear {t : State} (deletes : Bool) (h : SameSettings s t) :
    SameSettings s (clearNetworkRules deletes t) := by
  cases deletes <;> exact ⟨h.tunName,h.dnsServers,h.proxyIPs,h.block⟩

theorem same_create {t : State} (h : SameSettings s t) : SameSettings s (createTun t) :=
  ⟨h.tunName,h.dnsServers,h.proxyIPs,h.block⟩

theorem same_named {t : State} (h : SameSettings s t) (m : TunModeManager) :
    SameSettings s { t with tun := m } := ⟨h.tunName,h.dnsServers,h.proxyIPs,h.block⟩

theorem clear_tun (deletes : Bool) (s : State) : (clearNetworkRules deletes s).tun = s.tun := by
  cases deletes <;> rfl

theorem tunStart_cases (b : StartAnswer) (ips : List String) (hs : s.tun.isEnabled = false) :
    (tunStart b ips s).2 = false ∧ (tunStart b ips s).1.tun.isEnabled = false ∨
    (tunStart b ips s).2 = true ∧ SameSettings s (tunStart b ips s).1 ∧
      (tunStart b ips s).1.tun = ⟨s.tunName,ips,true⟩ := by
  have hc : SameSettings s (clearNetworkRules b.deletes s) := same_clear _ ⟨rfl,rfl,rfl,rfl⟩
  have ht : (clearNetworkRules b.deletes s).tun.isEnabled = false := by rw [clear_tun,hs]
  unfold tunStart
  simp only
  split_ifs
  · exact Or.inl ⟨rfl,ht⟩
  · exact Or.inl ⟨rfl,ht⟩
  · exact Or.inl ⟨rfl,by rw [clear_tun]; exact ht⟩
  · exact Or.inl ⟨rfl,by rw [clear_tun]; exact ht⟩
  · refine Or.inr ⟨rfl,same_named (same_create (same_named (same_named hc _) _)) _,?_⟩
    simp [createTun,hc.tunName]
  · exact Or.inl ⟨rfl,by rw [clear_tun]; exact ht⟩

/-- A reload changes the core, and may end the connection. -/
theorem reload_cases (r : Reload) (s : State) :
    ∃ core, (reloadRouting r s).1 = { s with core := core } ∨
      (reloadRouting r s).1 = { s with core := core, connected := false } := by
  unfold reloadRouting
  split_ifs
  · cases r with
    | refused => exact ⟨s.core,Or.inl rfl⟩
    | notStarted => exact ⟨none,Or.inr rfl⟩
    | done => exact ⟨_,Or.inl rfl⟩
  · exact ⟨s.core,Or.inl rfl⟩

theorem reload_inv (h : Inv s) (r : Reload) (tunEnabled : Bool) :
    Inv (reloadRouting r { s with tunEnabled := tunEnabled }).1 := by
  obtain ⟨core,hr | hr⟩ := reload_cases r { s with tunEnabled := tunEnabled }
  · rw [hr]
    exact ⟨h.fresh,h.servers⟩
  · rw [hr]
    exact inv_dead fun hl => Bool.false_ne_true hl.1

theorem serverIPs_of_known (h : s.proxyIPs ≠ []) : serverIPs a s = s.proxyIPs := by
  simp [serverIPs,h]

/-- The TUN comes up under the block that is there. -/
theorem startTun_inv (hs : s.tun.isEnabled = false)
    (hb : ∀ b, s.block = some b → Covers b s.tunName (s.proxyIPs ++ serverIPs a s) s.dnsServers) :
    Inv (startTun a s) := by
  unfold startTun
  split_ifs
  · exact inv_dead (dead_of_disabled hs)
  · rcases tunStart_cases a.start (serverIPs a s) hs with ⟨hok,hd⟩ | ⟨hok,hsame,htun⟩
    · cases ht : tunStart a.start (serverIPs a s) s with
      | mk t ok =>
        rw [ht] at hok hd
        simp only at hok
        subst hok
        exact inv_dead (dead_of_disabled hd)
    · cases ht : tunStart a.start (serverIPs a s) s with
      | mk t ok =>
        rw [ht] at hok hsame htun
        simp only at hok hsame htun
        subst hok
        have hinv : Inv t := by
          constructor
          · intro _ b htb
            rw [hsame.block] at htb
            rw [addresses,hsame.proxyIPs,hsame.dnsServers,htun]
            exact hb b htb
          · intro _ hne
            rw [hsame.proxyIPs] at hne ⊢
            rw [htun]
            exact serverIPs_of_known hne
        have hreload := reload_inv hinv a.reload true
        simp only
        cases hr : setTunMode true a.reload t with
        | mk u done =>
          change Inv (reloadRouting a.reload { t with tunEnabled := true }).1 at hreload
          rw [show reloadRouting a.reload { t with tunEnabled := true } = (u,done) from hr] at hreload
          cases done with
          | true => exact hreload
          | false => exact inv_dead (dead_of_disabled (stop_disabled _ _))

/-- What a connection leaves: none, or a block armed for it if the switch is on. -/
theorem proxyConnect_cases (ips : List String) (s : State) :
    (proxyConnect a ips s).2 = true →
      (proxyConnect a ips s).1.tun = s.tun ∧ (proxyConnect a ips s).1.proxyIPs = ips ∧
      ∀ b, (proxyConnect a ips s).1.block = some b →
        (s.killSwitchEnabled = false ∧ s.block = some b) ∨
        (ips ≠ [] ∧ b = ⟨ips,(proxyConnect a ips s).1.tunName,
          (proxyConnect a ips s).1.dnsServers⟩) := by
  intro hok
  cases hp : a.prepared with
  | false => simp [proxyConnect,hp] at hok
  | true =>
    cases hk : s.killSwitchEnabled with
    | false =>
      cases hc : a.coreStarts with
      | false => simp [proxyConnect,hp,preStart,proxyStop,hk,hc] at hok
      | true =>
        simp only [proxyConnect,hp,preStart,proxyStop,hk,hc,Bool.not_true,Bool.false_eq_true,
          if_false,if_true,true_and]
        exact fun b hb => Or.inl hb
    | true =>
      by_cases hi : ips = []
      · simp [proxyConnect,hp,preStart,proxyStop,hk,hi] at hok
      · cases hf : a.firewall with
        | fails left =>
          simp [proxyConnect,hp,preStart,proxyStop,hk,hi,hf,setupKillSwitchBlock] at hok
        | works =>
          cases hc : a.coreStarts with
          | false =>
            simp [proxyConnect,hp,preStart,proxyStop,hk,hi,hf,hc,setupKillSwitchBlock] at hok
          | true =>
            simp [proxyConnect,hp,preStart,proxyStop,hk,hi,hf,hc,setupKillSwitchBlock,eq_comm]

/-- Without a connection nothing is live. -/
theorem proxyConnect_dead (ips : List String) (s : State) (h : (proxyConnect a ips s).2 = false) :
    (proxyConnect a ips s).1.connected = false := by
  have hpre : ∀ f, (preStart f ips (proxyStop s)).1.connected = false := by
    intro f
    unfold preStart
    split_ifs
    · rfl
    · cases f <;> rfl
    · rfl
  cases hr : preStart a.firewall ips (proxyStop s) with
  | mk t ok =>
    have ht := hpre a.firewall
    rw [hr] at ht
    cases hp : a.prepared with
    | false => simp [proxyConnect,hp,proxyStop]
    | true =>
      cases ok with
      | false => simpa [proxyConnect,hp,hr] using ht
      | true =>
        cases hc : a.coreStarts with
        | false => simpa [proxyConnect,hp,hr,hc] using ht
        | true => simp [proxyConnect,hp,hr,hc] at h

theorem stop_settings (deletes : Bool) (s : State) :
    (tunStop deletes (proxyStop s)).killSwitchEnabled = s.killSwitchEnabled ∧
    (tunStop deletes (proxyStop s)).block = s.block := by
  unfold tunStop
  split_ifs
  · cases deletes <;> exact ⟨rfl,rfl⟩
  · exact ⟨rfl,rfl⟩

theorem connect_inv (h : Inv s) (hc : Careful s .connect a) : Inv (connect a s) := by
  unfold connect
  cases a.profile with
  | none => exact h
  | some ips =>
    obtain ⟨hks,hblock⟩ := stop_settings a.stopDeletes s
    have hstop := stop_disabled a.stopDeletes (proxyStop s)
    have hdead := @proxyConnect_dead a ips (tunStop a.stopDeletes (proxyStop s))
    have hcases := @proxyConnect_cases a ips (tunStop a.stopDeletes (proxyStop s))
    simp only
    cases ht : proxyConnect a ips (tunStop a.stopDeletes (proxyStop s)) with
    | mk t ok =>
      rw [ht] at hdead hcases
      cases ok with
      | false => exact inv_dead fun hl => Bool.false_ne_true ((hdead rfl).symm.trans hl.1)
      | true =>
        obtain ⟨htun,hips,hb⟩ := hcases rfl
        simp only at htun hips hb
        have hoff : t.tun.isEnabled = false := by rw [htun,hstop]
        simp only
        split_ifs with hen
        · refine startTun_inv hoff fun b htb => ?_
          rcases hb b htb with ⟨hk,hold⟩ | ⟨hne,rfl⟩
          · rw [hks] at hk
            rw [hblock,hc hen hk] at hold
            cases hold
          · rw [serverIPs_of_known (by rwa [hips]),hips]
            exact ⟨rfl,fun ip hip => by simpa using hip,fun server hserver => hserver⟩
        · exact inv_dead (dead_of_disabled hoff)

theorem setKillSwitch_inv (h : Inv s) {enabled force : Bool}
    (hc : Careful s (.setKillSwitch enabled force) a) : Inv (setKillSwitch enabled force a s) := by
  have hleft : Live s → ∀ left, a.firewall = .fails left → ∀ b, left = some b →
      Covers b s.tun.tunName (addresses s) s.dnsServers := by
    intro hl left hf b hb
    have hclean := (hc hl).2
    rw [hf] at hclean
    exact h.fresh hl b (hclean b hb)
  unfold setKillSwitch
  split_ifs with he hmode hips
  · exact h
  · exact ⟨h.fresh,h.servers⟩
  · cases hf : a.firewall with
    | fails left => exact ⟨fun hl b hb => hleft hl left hf b hb,h.servers⟩
    | works =>
      refine ⟨fun hl b hb => ?_,h.servers⟩
      have hl : Live s := hl
      have hne : s.proxyIPs ≠ [] := by simpa [killSwitchIPs,hl.1] using hips
      obtain rfl := Option.some.inj hb
      refine ⟨(hc hl).1 he,fun ip hip => ?_,fun server hserver => hserver⟩
      have hservers : s.tun.proxyIPs = s.proxyIPs := h.servers hl hne
      have hmem : ip ∈ s.proxyIPs := by
        change ip ∈ s.proxyIPs ++ s.tun.proxyIPs at hip
        simpa [hservers] using hip
      simpa [killSwitchIPs,hl.1] using hmem
  · cases hf : a.firewall with
    | fails left => exact ⟨fun hl b hb => hleft hl left hf b hb,h.servers⟩
    | works => exact ⟨fun _ b hb => (Option.some_ne_none b hb.symm).elim,h.servers⟩

theorem run_inv {c : Command} (h : Inv s) (hc : Careful s c a) : Inv (run c a s) := by
  cases c with
  | connect => exact connect_inv h hc
  | disconnect => exact inv_dead (dead_of_disabled (stop_disabled _ _))
  | enableTun =>
    simp only [run,enableTun]
    split_ifs with he
    · rw [Bool.and_eq_true,Bool.not_eq_true'] at he
      exact startTun_inv he.2 (hc he.1 he.2)
    · exact h
  | disableTun => exact inv_dead (dead_of_disabled (stop_disabled _ _))
  | reloadRouting => exact reload_inv h a.reload s.tunEnabled
  | setTunName name =>
    simp only [run,setTunName]
    split_ifs
    · exact ⟨h.fresh,h.servers⟩
    · exact h
  | setKillSwitch enabled force => exact setKillSwitch_inv h hc
  | changeDnsServers servers =>
    refine ⟨fun hl b hb => ?_,h.servers⟩
    have hcov := h.fresh hl b hb
    exact ⟨hcov.tunName,hcov.proxyIPs,hc hl b hb⟩

theorem runAll_inv {cs : List (Command × Answer)} (h : Inv s) (hc : CarefulRun cs s) :
    Inv (runAll cs s) := by
  induction cs generalizing s with
  | nil => exact h
  | cons c cs ih => exact ih (run_inv h hc.1) hc.2

end Invariant

section Results

theorem careful_run_fresh (s : State) (hs : Idle s) (cs : List (Command × Answer))
    (hc : CarefulRun cs s) : Fresh (runAll cs s) :=
  (runAll_inv (inv_dead fun hl => Bool.false_ne_true (hs.1.symm.trans hl.1)) hc).fresh

/-- The TUN is renamed while it is off, and a new connection arms the block anew. -/
def renamedBetween : List (Command × Answer) :=
  [(.connect,works),(.setKillSwitch true false,works),(.enableTun,works),(.disconnect,works),
    (.setTunName "tun1",works),(.connect,works),(.enableTun,works)]

theorem renamed_between_fresh : Fresh (runAll renamedBetween idle) := by
  refine careful_run_fresh idle ⟨rfl,rfl,rfl,rfl,rfl⟩ renamedBetween ?_
  refine ⟨fun h => absurd h (by decide),fun hl => absurd hl.2 (by decide),fun _ _ b hb => ?_,trivial,
    trivial,fun h => absurd h (by decide),fun _ _ b hb => ?_,trivial⟩
  · obtain rfl := Option.some.inj hb
    exact ⟨rfl,by decide,by decide⟩
  · obtain rfl := Option.some.inj hb
    exact ⟨rfl,by decide,by decide⟩

/-- The TUN is renamed and comes up under the old block. -/
theorem renamed_tun_blocked : ¬∀ cs, Fresh (runAll cs idle) := by
  intro h
  have hf := h [(.connect,works),(.setKillSwitch true false,works),(.setTunName "tun1",works),
    (.enableTun,works)]
  have hc := hf ⟨by decide,by decide⟩ ⟨["203.0.113.7"],"whoisthattun",["1.1.1.1"]⟩ rfl
  exact absurd hc.tunName (by decide)

end Results

end Whoisthat.AllowlistFreshness
