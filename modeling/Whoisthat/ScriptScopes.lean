import Whoisthat.NetworkChanges
import Whoisthat.TunNetwork

/-!
# The scopes of the scripts

What each script of TUN mode may change, stated over any scope that allows it.
-/

set_option autoImplicit false

namespace Whoisthat.ScriptScopes
open Whoisthat.ScriptRuns Whoisthat.ShellScripts Whoisthat.HostNetwork Whoisthat.NetworkChanges
open Whoisthat.IPLiterals Whoisthat.TunScripts Whoisthat.TunNetwork
open Whoisthat.KillSwitchArming (FirewallBackend)

variable {A : Scope IP FirewallRule} {f : Family} {gateway gateway6 : Option IP} {d : String}

section Routes

theorem change_addVia {ip : IP}
    (h : ∀ g, gateway = some g → A.add (mainHost f ip) (via f g)) {s t : Net}
    (ht : (addVia f gateway ip).run s = some t) : Change A s t := by
  obtain ⟨g,hg,ht⟩ := Option.bind_eq_some_iff.mp ht
  exact .addRoute (h g hg) ht

theorem change_delVia {ip : IP}
    (h : ∀ g, gateway = some g → A.del (mainHost f ip) (isVia g)) {s t : Net}
    (ht : (delVia f gateway ip).run s = some t) : Change A s t := by
  obtain ⟨g,hg,ht⟩ := Option.bind_eq_some_iff.mp ht
  exact change_delRoute (h g hg) ht

/-- The commands of two lists of addresses, one for each family. -/
theorem acts_hosts {c4 c6 : IP → Command Net} {ipv4s ipv6s : List IP}
    (h4 : ∀ ip ∈ ipv4s, ∀ s t, (c4 ip).run s = some t → Change A s t)
    (h6 : ∀ ip ∈ ipv6s, ∀ s t, (c6 ip).run s = some t → Change A s t) :
    Acts (Change A) (commands (ipv4s.map c4 ++ ipv6s.map c6)) := by
  apply acts_commands
  intro c hc
  rcases List.mem_append.mp hc with hc | hc
  · obtain ⟨ip,hip,rfl⟩ := List.mem_map.mp hc
    exact h4 ip hip
  · obtain ⟨ip,hip,rfl⟩ := List.mem_map.mp hc
    exact h6 ip hip

theorem acts_setupProxyIpRoutes {ipv4s ipv6s : List IP}
    (h4 : ∀ ip ∈ ipv4s, ∀ g, gateway = some g → A.add (mainHost .v4 ip) (via .v4 g))
    (h6 : ∀ ip ∈ ipv6s, ∀ g, gateway6 = some g → A.add (mainHost .v6 ip) (via .v6 g)) :
    Acts (Change A) (setupProxyIpRoutes ipv4s ipv6s gateway gateway6) :=
  acts_hosts (fun ip hip _ _ => change_addVia (h4 ip hip))
    fun ip hip _ _ => change_addVia (h6 ip hip)

theorem acts_deleteProxyIpRoutes {ipv4s ipv6s : List IP}
    (h4 : ∀ ip ∈ ipv4s, ∀ g, gateway = some g → A.del (mainHost .v4 ip) (isVia g))
    (h6 : ∀ ip ∈ ipv6s, ∀ g, gateway6 = some g → A.del (mainHost .v6 ip) (isVia g)) :
    Acts (Change A) (deleteProxyIpRoutes ipv4s ipv6s gateway gateway6) :=
  acts_hosts (fun ip hip _ _ => change_delVia (h4 ip hip))
    fun ip hip _ _ => change_delVia (h6 ip hip)

theorem acts_setupDnsIpRoutes {dns dns6 : Option IP}
    (h4 : ∀ ip ∈ dnsHosts4 dns gateway, ∀ g, gateway = some g →
      A.add (mainHost .v4 ip) (via .v4 g))
    (h6 : ∀ ip ∈ dnsHosts6 dns6 gateway6, ∀ g, gateway6 = some g →
      A.add (mainHost .v6 ip) (via .v6 g)) :
    Acts (Change A) (setupDnsIpRoutes dns dns6 gateway gateway6) :=
  acts_hosts (fun ip hip _ _ => change_addVia (h4 ip hip))
    fun ip hip _ _ => change_addVia (h6 ip hip)

theorem acts_deleteDnsIpRoutes {dns : Option IP}
    (h : ∀ ip ∈ dnsHosts4 dns gateway, ∀ g, gateway = some g →
      A.del (mainHost .v4 ip) (isVia g)) :
    Acts (Change A) (deleteDnsIpRoutes dns gateway) := by
  apply acts_commands
  intro c hc
  obtain ⟨ip,hip,rfl⟩ := List.mem_map.mp hc
  exact fun s t => change_delVia (h ip hip)

theorem acts_deleteDnsIpRoutes6 {dns6 : Option IP}
    (h : ∀ ip ∈ dnsHosts6 dns6 gateway6, ∀ g, gateway6 = some g →
      A.del (mainHost .v6 ip) (isVia g)) :
    Acts (Change A) (deleteDnsIpRoutes6 dns6 gateway6) := by
  apply acts_commands
  intro c hc
  obtain ⟨ip,hip,rfl⟩ := List.mem_map.mp hc
  exact fun s t => change_delVia (h ip hip)

theorem acts_setupTunIpRoute (h : A.add (mainDefault f) (tunDefault f d)) :
    Acts (Change A) (setupTunIpRoute f d) := acts_command fun _ _ => .addRoute h

theorem acts_deleteTunIpRoute (h : A.del (mainDefault f) (isTunDefault f d)) :
    Acts (Change A) (deleteTunIpRoute f d) := acts_command fun _ _ => change_delRoute h

theorem acts_addBypassRouting {sel : Selector} (hr : A.rule f ⟨sel,100⟩)
    (hg : ∀ g, gateway = some g → A.replace (tableHost f 100 g) (onDevice f d) ∧
      A.replace (tableDefault f 100) (via f g)) :
    Acts (Change A) (addBypassRouting f sel d gateway) := by
  apply acts_commands
  intro c hc s t ht
  simp only [List.mem_cons,List.not_mem_nil,or_false] at hc
  rcases hc with rfl | rfl | rfl
  · exact .addRule hr ht
  · obtain ⟨g,hgw,ht⟩ := Option.bind_eq_some_iff.mp ht
    exact .replaceRoute (hg g hgw).1 ht
  · obtain ⟨g,hgw,ht⟩ := Option.bind_eq_some_iff.mp ht
    exact .replaceRoute (hg g hgw).2 ht

theorem acts_removeBypassRouting {sel : Selector} (hr : A.unrule f ⟨sel,100⟩)
    (hg : ∀ g, gateway = some g → A.del (tableHost f 100 g) (isOn d) ∧
      A.del (tableDefault f 100) (isVia g)) :
    Acts (Change A) (removeBypassRouting f sel d gateway) := by
  apply acts_commands
  intro c hc s t ht
  simp only [List.mem_cons,List.not_mem_nil,or_false] at hc
  rcases hc with rfl | rfl | rfl
  · exact change_delRule hr ht
  · obtain ⟨g,hgw,ht⟩ := Option.bind_eq_some_iff.mp ht
    exact change_delRoute (hg g hgw).1 ht
  · obtain ⟨g,hgw,ht⟩ := Option.bind_eq_some_iff.mp ht
    exact change_delRoute (hg g hgw).2 ht

end Routes

section Device

theorem acts_deleteTun (h : A.undevice d) : Acts (Change A) (deleteTun d) := by
  apply acts_commands
  intro c hc s t ht
  simp only [List.mem_cons,List.not_mem_nil,or_false] at hc
  rcases hc with rfl | rfl | rfl
  · exact change_editDevice h ht
  · exact change_deleteDevice h ht
  · exact change_deleteDevice h ht

theorem acts_createTunOnce (h : A.device d) (hu : A.undevice d) :
    Acts (Change A) (createTunOnce d) := by
  apply acts_seq
  · apply acts_read
    intro s
    split_ifs
    · exact acts_deleteTun hu
    · exact acts_done
  · apply acts_commands
    intro c hc s t ht
    simp only [List.mem_cons,List.not_mem_nil,or_false] at hc
    rcases hc with rfl | rfl | rfl | rfl | rfl
    · exact .addDevice h ht
    · exact change_editDevice hu ht
    · exact change_editDevice hu ht
    · exact change_editDevice hu ht
    · exact change_editDevice hu ht

theorem acts_createTun (h : A.device d) (hu : A.undevice d) (retries : ℕ) :
    Acts (Change A) (createTun d retries) := by
  rw [createTun]
  induction min retries 4 with
  | zero => exact acts_createTunOnce h hu
  | succ n ih => exact acts_orElse (acts_createTunOnce h hu) ih

theorem change_linkDns {edit : Option (LinkDns IP) → Option (LinkDns IP)} (h : A.link d) {s t : Net}
    (ht : (may (Network.setLinkDns d edit)).run s = some t) : Change A s t := by
  obtain ⟨v,hv,rfl⟩ := Option.map_eq_some_iff.mp ht
  exact .linkDns h _ (by simp [hv])

theorem acts_setupResolvectlDns (h : A.link d) (dns : Option IP) :
    Acts (Change A) (setupResolvectlDns d dns) := by
  cases dns with
  | none => exact acts_done
  | some ip =>
    rw [setupResolvectlDns]
    split_ifs
    · exact acts_done
    · apply acts_commands
      intro c hc s t ht
      simp only [List.mem_cons,List.not_mem_nil,or_false] at hc
      rcases hc with rfl | rfl
      · exact change_linkDns h ht
      · exact change_linkDns h ht

theorem acts_revertResolvectlDns (h : A.link d) : Acts (Change A) (revertResolvectlDns d) := by
  rw [revertResolvectlDns]
  split_ifs
  · exact acts_done
  · exact acts_command fun _ _ => change_linkDns h

end Device

section RpFilter

theorem acts_saveRpFilter (h : A.rpFilter) (iface : String) (written : Bool) :
    Acts (Change A) (saveRpFilter d iface written) := by
  apply acts_read
  intro s
  split_ifs
  · exact acts_done
  · exact acts_command fun _ _ => change_setSaved h

theorem acts_loosen (h : A.rpFilter) (iface : String) : Acts (Change A) (loosen iface) := by
  apply acts_read
  intro s
  split_ifs
  · exact acts_command fun _ _ => change_setRpFilter h
  · exact acts_done

theorem acts_loosenRpFilter (h : A.rpFilter) (iface : String) (written : Bool) :
    Acts (Change A) (loosenRpFilter d iface written) := by
  apply acts_seq (acts_saveRpFilter h iface written)
  apply acts_lenient
  intro p hp
  simp only [List.mem_cons,List.not_mem_nil,or_false] at hp
  rcases hp with rfl | rfl <;> exact acts_loosen h _

theorem acts_restoreLine (h : A.rpFilter) (line : String × RpFilter) : Acts (Change A) (restoreLine line) := by
  apply acts_read
  intro s
  split_ifs
  · exact acts_command fun _ _ => change_setRpFilter h
  · exact acts_done

theorem acts_restoreRpFilter (h : A.rpFilter) : Acts (Change A) restoreRpFilter := by
  apply acts_read
  intro s
  cases s.saved with
  | none => exact acts_done
  | some saved =>
    apply acts_seq
    · apply acts_lenient
      intro p hp
      obtain ⟨line,-,rfl⟩ := List.mem_map.mp hp
      exact acts_restoreLine h line
    · exact acts_command fun _ _ => change_setSaved h

end RpFilter

section Conntrack

theorem acts_deleteTables {ts : List NftTable} (h : ∀ n ∈ ts, A.untable n) :
    Acts (Change A) (commands (ts.map fun n => may (Network.deleteTable n))) := by
  apply acts_commands
  intro c hc s t ht
  obtain ⟨n,hn,rfl⟩ := List.mem_map.mp hc
  exact change_deleteTable (h n hn) ht

theorem change_setupConntrackNft {iface : String} (h : A.table (mangleTable f)) :
    ∀ c ∈ setupConntrackNft f iface, ∀ s t, c.run s = some t → Change A s t := by
  intro c hc s t ht
  simp only [setupConntrackNft,List.mem_cons,List.not_mem_nil,or_false] at hc
  rcases hc with rfl | rfl | rfl | rfl | rfl | rfl
  · exact change_addTable h ht
  all_goals exact change_editTable h ht

/-- What removing the inbound marking needs. -/
structure AllowsUnmark (A : Scope IP FirewallRule) (b : FirewallBackend) (iface : String) :
    Prop where
  untable : b = .nftables → ∀ n ∈ [mangleTable .v4,mangleTable .v6,mangleInet], A.untable n
  erase : b = .iptables → ∀ f, ∀ r ∈ conntrackRules iface, A.erase (mangleHook f r.1) r.2

/-- What the inbound marking needs. -/
structure AllowsConntrack (A : Scope IP FirewallRule) (b : FirewallBackend) (iface : String) :
    Prop extends AllowsUnmark A b iface where
  table : b = .nftables → ∀ f, A.table (mangleTable f)
  append : b = .iptables → ∀ f, ∀ r ∈ conntrackRules iface, A.append (mangleHook f r.1) r.2

theorem acts_setupConntrackRules {b : FirewallBackend} {iface : String}
    (h : AllowsConntrack A b iface) : Acts (Change A) (setupConntrackRules b iface) := by
  cases b with
  | nftables =>
    apply acts_commands
    intro c hc
    rcases List.mem_append.mp hc with hc | hc
    · obtain ⟨n,hn,rfl⟩ := List.mem_map.mp hc
      exact fun s t => change_deleteTable (h.untable rfl n hn)
    · rcases List.mem_append.mp hc with hc | hc <;>
        exact change_setupConntrackNft (h.table rfl _) c hc
  | iptables =>
    apply acts_commands
    intro c hc s t ht
    obtain ⟨f,-,hc⟩ := List.mem_flatMap.mp hc
    obtain ⟨r,hr,rfl⟩ := List.mem_map.mp hc
    exact change_appendBuiltin (h.append rfl f r hr) ht

theorem acts_deleteAll {k : ChainPlace} {r : FirewallRule} (h : A.erase k r) :
    Acts (Change A) (deleteAll k r) := by
  apply acts_read
  intro s
  apply acts_commands
  intro c hc s t ht
  rw [List.eq_of_mem_replicate hc] at ht
  exact change_deleteBuiltin h ht

theorem acts_cleanConntrackRules {b : FirewallBackend} {iface : String}
    (h : AllowsUnmark A b iface) : Acts (Change A) (cleanConntrackRules b iface) := by
  cases b with
  | nftables =>
    apply acts_deleteTables
    intro n hn
    apply h.untable rfl
    simp only [List.mem_cons,List.not_mem_nil,or_false] at hn ⊢
    tauto
  | iptables =>
    apply acts_sequence
    intro p hp
    obtain ⟨f,-,hp⟩ := List.mem_flatMap.mp hp
    obtain ⟨r,hr,rfl⟩ := List.mem_map.mp hp
    exact acts_deleteAll (h.erase rfl f r hr)

end Conntrack

section DnsHijack

/-- What removing the port-53 redirect needs. -/
structure AllowsUnhijack (A : Scope IP FirewallRule) (b : FirewallBackend) : Prop where
  untable : b = .nftables → ∀ f, A.untable (hijackTable f)
  unchain : b = .iptables → ∀ f, ∀ c ∈ dnsChains, A.unchain (natPlace f c.2)
  erase : b = .iptables → ∀ f, ∀ c ∈ dnsChains, A.erase (natPlace f c.1) (.jump c.2)

/-- What the port-53 redirect needs. -/
structure AllowsHijack (A : Scope IP FirewallRule) (b : FirewallBackend) : Prop
    extends AllowsUnhijack A b where
  table : b = .nftables → ∀ f, A.table (hijackTable f)
  chain : b = .iptables → ∀ f, ∀ c ∈ dnsChains, A.chain (natPlace f c.2)
  jump : b = .iptables → ∀ f, ∀ c ∈ dnsChains, A.jump (natPlace f c.1) (.jump c.2)

theorem acts_addNftRules {n : NftTable} (h : A.table n) (name : String) (rs : List FirewallRule) :
    ∀ c ∈ rs.map (fun r => must (Network.addNftRule n name r)), ∀ s t : Net,
      c.run s = some t → Change A s t := by
  intro c hc s t ht
  obtain ⟨r,-,rfl⟩ := List.mem_map.mp hc
  exact change_editTable h ht

theorem acts_buildDnsHijackNftScript (hu : A.untable (hijackTable f))
    (h : A.table (hijackTable f)) (iface : String) (dns : DnsHijack) (sink : IP) :
    Acts (Change A) (buildDnsHijackNftScript f iface dns sink) := by
  apply acts_commands
  intro c hc
  simp only [List.mem_append] at hc
  rcases hc with (((hc | hc) | hc) | hc) | hc
  · simp only [List.mem_cons,List.not_mem_nil,or_false] at hc
    rcases hc with rfl | rfl | rfl | rfl
    · exact fun _ _ => change_deleteTable hu
    · exact fun _ _ => change_addTable h
    · exact fun _ _ => change_editTable h
    · exact fun _ _ => change_editTable h
  · split_ifs at hc
    · rw [List.mem_singleton.mp hc]
      exact fun _ _ => change_editTable h
    · cases hc
  · exact acts_addNftRules h _ _ c hc
  · split_ifs at hc
    · exact acts_addNftRules h _ _ c hc
    · exact acts_addNftRules h _ _ c hc
  · exact acts_addNftRules h _ _ c hc

theorem acts_ensureJump {k : ChainPlace} {r : FirewallRule} (h : A.jump k r) :
    Acts (Change A) (ensureJump k r) := by
  intro P hP
  apply keeps_read
  intro s hs
  split_ifs with hr
  · exact keeps_done s hs
  · exact keepsFrom_command hs fun t ht => hP s t (change_insertJump h hr ht) hs

theorem acts_appendChains {k : ChainPlace} (h : A.chain k) (rs : List FirewallRule) :
    Acts (Change A) (commands (rs.map fun r => must (Network.appendChain k r))) := by
  apply acts_commands
  intro c hc s t ht
  obtain ⟨r,-,rfl⟩ := List.mem_map.mp hc
  exact change_appendChain h ht

theorem mem_chains {c : String × String} (legacy : Bool)
    (h : c ∈ if legacy then dnsChains else dnsChains.take 2) : c ∈ dnsChains := by
  split_ifs at h
  · exact h
  · exact List.mem_of_mem_take h

theorem acts_buildDnsHijackIptablesScript (h : AllowsHijack A .iptables) (iface : String)
    (dns : DnsHijack) (sink : IP) :
    Acts (Change A) (buildDnsHijackIptablesScript f iface dns sink) := by
  have hout := h.chain rfl f ("OUTPUT","WHOISTHAT_DNS_OUT") (by simp [dnsChains])
  have hpre := h.chain rfl f ("PREROUTING","WHOISTHAT_DNS_PRE") (by simp [dnsChains])
  have hpost := h.chain rfl f ("POSTROUTING","WHOISTHAT_DNS_POST") (by simp [dnsChains])
  apply acts_sequence
  intro p hp
  simp only [List.mem_cons,List.not_mem_nil,or_false] at hp
  rcases hp with rfl | rfl | rfl | rfl | rfl | rfl
  · apply acts_commands
    intro c hc s t ht
    obtain ⟨d,hd,hc⟩ := List.mem_flatMap.mp hc
    have hmem := mem_chains dns.legacy hd
    simp only [List.mem_cons,List.not_mem_nil,or_false] at hc
    rcases hc with rfl | rfl
    · exact change_newChain (h.chain rfl f d hmem) ht
    · exact change_emptyChain (h.unchain rfl f d hmem) ht
  · apply acts_sequence
    intro q hq
    obtain ⟨d,hd,rfl⟩ := List.mem_map.mp hq
    exact acts_ensureJump (h.jump rfl f d (mem_chains dns.legacy hd))
  · exact acts_appendChains hout _
  · exact acts_appendChains hout _
  · exact acts_appendChains hpre _
  · exact acts_appendChains hpost _

theorem acts_setupDnsHijackRules {b : FirewallBackend} (h : AllowsHijack A b) (iface : String)
    (dns : DnsHijack) : Acts (Change A) (setupDnsHijackRules b iface dns) := by
  rw [setupDnsHijackRules]
  split_ifs
  · apply acts_joined
    intro p hp
    obtain ⟨f,-,rfl⟩ := List.mem_map.mp hp
    rw [setupDnsHijackFamily]
    cases (sanitizeDnsHijack dns).sink f with
    | none => exact acts_done
    | some sink =>
      cases b with
      | nftables => exact acts_buildDnsHijackNftScript (h.untable rfl f) (h.table rfl f) _ _ _
      | iptables => exact acts_buildDnsHijackIptablesScript h _ _ _
  · exact acts_done

theorem change_dnsCleanup (h : AllowsUnhijack A .iptables) {c : String × String}
    (hc : c ∈ dnsChains) {e : Command Net}
    (he : e = removeDnsJump f c ∨ e = emptyDnsChain f c ∨ e = deleteDnsChain f c) :
    ∀ s t : Net, e.run s = some t → Change A s t := by
  intro s t ht
  rcases he with rfl | rfl | rfl
  · exact change_deleteBuiltin (h.erase rfl f c hc) ht
  · exact change_emptyChain (h.unchain rfl f c hc) ht
  · exact change_deleteChain (h.unchain rfl f c hc) ht

theorem change_dnsCleanupScript (h : AllowsUnhijack A .iptables) :
    ∀ c ∈ buildDnsHijackCleanupIptablesScript f, ∀ s t : Net,
      c.run s = some t → Change A s t := by
  intro c hc
  rcases List.mem_append.mp hc with hc | hc
  · obtain ⟨d,hd,rfl⟩ := List.mem_map.mp hc
    exact change_dnsCleanup h hd (Or.inl rfl)
  · obtain ⟨d,hd,hc⟩ := List.mem_flatMap.mp hc
    simp only [List.mem_cons,List.not_mem_nil,or_false] at hc
    exact change_dnsCleanup h hd (Or.inr hc)

theorem acts_cleanDnsHijackRules {b : FirewallBackend} (h : AllowsUnhijack A b) :
    Acts (Change A) (cleanDnsHijackRules b) := by
  cases b with
  | nftables =>
    apply acts_deleteTables
    intro n hn
    simp only [List.mem_cons,List.not_mem_nil,or_false] at hn
    rcases hn with rfl | rfl <;> exact h.untable rfl _
  | iptables =>
    apply acts_commands
    intro c hc
    rcases List.mem_append.mp hc with hc | hc <;> exact change_dnsCleanupScript h c hc

end DnsHijack

section Split

variable {m : Manager}

/-- What removing the split rules of a manager needs. -/
structure AllowsUnsplit (A : Scope IP FirewallRule) (m : Manager) : Prop where
  untable : A.untable splitTable
  dropped : ∀ f, A.unrule f includeRule
  flush : ∀ f, A.flush f 200
  dropped6 : m.physV6 = false → A.unrule .v6 excludeRule
  flush6 : m.physV6 = false → A.flush .v6 100

/-- What the split rules of a manager need. -/
structure AllowsSplit (A : Scope IP FirewallRule) (m : Manager) : Prop
    extends AllowsUnsplit A m where
  table : A.table splitTable
  included : ∀ f, A.rule f includeRule
  excluded : A.rule .v4 excludeRule
  inside : ∀ f, A.replace (tableDefault f 200) (onDevice f m.tunName)
  outside : ∀ g, m.defaultInterfaceIp = some g →
    A.replace (tableHost .v4 100 g) (onDevice .v4 m.defaultInterface) ∧
    A.replace (tableDefault .v4 100) (via .v4 g)
  excluded6 : m.physV6 = false → A.rule .v6 excludeRule
  blackhole : m.physV6 = false → A.replace (tableDefault .v6 100) unreachableDefault

theorem acts_splitMarking (h : A.table splitTable) (mark uid : ℕ) (r : FirewallRule) :
    Acts (Change A) (commands (splitMarking mark uid r)) := by
  apply acts_commands
  intro c hc
  simp only [splitMarking,List.mem_append] at hc
  rcases hc with (hc | hc) | hc
  · simp only [List.mem_cons,List.not_mem_nil,or_false] at hc
    rcases hc with rfl | rfl | rfl
    · exact fun _ _ => change_addTable h
    · exact fun _ _ => change_editTable h
    · exact fun _ _ => change_editTable h
  · obtain ⟨path,-,rfl⟩ := List.mem_map.mp hc
    exact fun _ _ => change_editTable h
  · simp only [List.mem_cons,List.not_mem_nil,or_false] at hc
    rcases hc with rfl | rfl | rfl
    · exact fun _ _ => change_editTable h
    · exact fun _ _ => change_editTable h
    · exact fun _ _ => change_editTable h

theorem acts_includeRouting (hr : A.rule f includeRule)
    (ha : A.replace (tableDefault f 200) (onDevice f d)) :
    Acts (Change A) (commands (includeRouting f d)) := by
  apply acts_commands
  intro c hc
  simp only [includeRouting,List.mem_cons,List.not_mem_nil,or_false] at hc
  rcases hc with rfl | rfl
  · exact fun _ _ => .addRule hr
  · exact fun _ _ => .replaceRoute ha

theorem acts_blackhole6 (hr : A.rule .v6 excludeRule)
    (ha : A.replace (tableDefault .v6 100) unreachableDefault) :
    Acts (Change A) (commands blackhole6) := by
  apply acts_commands
  intro c hc
  simp only [blackhole6,List.mem_cons,List.not_mem_nil,or_false] at hc
  rcases hc with rfl | rfl
  · exact fun _ _ => .addRule hr
  · exact fun _ _ => .replaceRoute ha

theorem acts_applySplitRules (h : AllowsSplit A m) (mode : String) (uid : ℕ) :
    Acts (Change A) (applySplitRules mode uid m) := by
  rw [applySplitRules]
  split_ifs
  · exact acts_done
  rw [buildSplitSetupScript]
  by_cases he : mode = "exclude"
  · rw [if_pos he]
    apply acts_sequence
    intro p hp
    simp only [List.mem_cons,List.not_mem_nil,or_false] at hp
    rcases hp with rfl | rfl | rfl
    · exact acts_splitMarking h.table _ _ _
    · split_ifs
      · exact acts_addBypassRouting h.excluded h.outside
      · exact acts_done
    · split_ifs with h6
      · exact acts_done
      · rw [Bool.not_eq_true] at h6
        exact acts_blackhole6 (h.excluded6 h6) (h.blackhole h6)
  · rw [if_neg he]
    split_ifs
    · apply acts_sequence
      intro p hp
      simp only [List.mem_cons,List.not_mem_nil,or_false] at hp
      rcases hp with rfl | rfl | rfl
      · exact acts_splitMarking h.table _ _ _
      · exact acts_includeRouting (h.included _) (h.inside _)
      · exact acts_includeRouting (h.included _) (h.inside _)
    · exact acts_done

theorem acts_removeSplitRules (h : AllowsUnsplit A m) : Acts (Change A) (removeSplitRules m) := by
  apply acts_commands
  intro c hc
  simp only [List.mem_append] at hc
  rcases hc with (hc | hc) | hc
  · rw [List.mem_singleton.mp hc]
    exact fun _ _ => change_deleteTable h.untable
  · obtain ⟨f,-,hc⟩ := List.mem_flatMap.mp hc
    simp only [List.mem_cons,List.not_mem_nil,or_false] at hc
    rcases hc with rfl | rfl
    · exact fun _ _ => change_delRule (h.dropped f)
    · exact fun _ _ => change_flush (h.flush f)
  · split_ifs at hc with h6
    · cases hc
    · rw [Bool.not_eq_true] at h6
      simp only [List.mem_cons,List.not_mem_nil,or_false] at hc
      rcases hc with rfl | rfl
      · exact fun _ _ => change_delRule (h.dropped6 h6)
      · exact fun _ _ => change_flush (h.flush6 h6)

end Split

section Managers

variable {b : FirewallBackend} {m : Manager}

/-- The places in tables 100 and 200 that only a split mode fills. -/
def splitPlace (m : Manager) (p : Place IP) : Prop :=
  p.table = some 200 ∨ (m.physV6 = false ∧ p.family = .v6 ∧ p.table = some 100)

/-- The destinations of the host routes of a manager. -/
def legacyHosts (m : Manager) : Family → List IP
  | .v4 => if m.dnsHijack.legacy then dnsHosts4 m.dnsHijack.sink4 m.defaultInterfaceIp else []
  | .v6 => if m.dnsHijack.legacy then dnsHosts6 m.dnsHijack.sink6 m.defaultInterfaceIpv6 else []

def proxyHosts (m : Manager) : Family → List IP
  | .v4 => m.proxyIpv4s
  | .v6 => m.proxyIpv6s

def hosts (m : Manager) (f : Family) : List IP := proxyHosts m f ++ legacyHosts m f

/-- The selectors that bypass the TUN through table 100. -/
def bypass (m : Manager) : List Selector :=
  .fwmark 1::if 0 < m.sudoUid then [.uidrange m.sudoUid] else []

structure AllowsHostDel (A : Scope IP FirewallRule) (m : Manager) : Prop where
  del : ∀ f, ∀ ip ∈ hosts m f, ∀ g, m.gateway f = some g → A.del (mainHost f ip) (isVia g)

/-- What `setupBase` needs after the device. -/
structure AllowsBase (A : Scope IP FirewallRule) (b : FirewallBackend) (m : Manager) : Prop
    extends AllowsHostDel A m where
  link : A.link m.tunName
  add : ∀ f, ∀ ip ∈ hosts m f, ∀ g, m.gateway f = some g → A.add (mainHost f ip) (via f g)
  conntrack : AllowsConntrack A b m.defaultInterface
  hijack : AllowsHijack A b
  rule : ∀ f, ∀ sel ∈ bypass m, f = .v4 ∨ m.physV6 = true → A.rule f ⟨sel,100⟩
  table : ∀ f g, m.gateway f = some g →
    A.replace (tableHost f 100 g) (onDevice f m.defaultInterface) ∧
    A.replace (tableDefault f 100) (via f g)

structure AllowsUnbypass (A : Scope IP FirewallRule) (m : Manager) : Prop where
  unrule : ∀ f, ∀ sel ∈ bypass m, A.unrule f ⟨sel,100⟩
  table : ∀ f g, m.gateway f = some g →
    A.del (tableHost f 100 g) (isOn m.defaultInterface) ∧ A.del (tableDefault f 100) (isVia g)

/-- What `clearNetworkRules` needs. -/
structure AllowsClear (A : Scope IP FirewallRule) (b : FirewallBackend) (m : Manager) : Prop
    extends AllowsHostDel A m, AllowsUnbypass A m where
  undevice : A.undevice m.tunName
  link : A.link m.tunName
  tunDefault : ∀ f, A.del (mainDefault f) (isTunDefault f m.tunName)
  conntrack : AllowsUnmark A b m.defaultInterface
  hijack : AllowsUnhijack A b
  split : AllowsUnsplit A m

theorem legacy4_mem {ip : IP} (hl : m.dnsHijack.legacy = true)
    (h : ip ∈ dnsHosts4 m.dnsHijack.sink4 m.defaultInterfaceIp) : ip ∈ hosts m .v4 := by
  simp [hosts,legacyHosts,hl,h]

theorem legacy6_mem {ip : IP} (hl : m.dnsHijack.legacy = true)
    (h : ip ∈ dnsHosts6 m.dnsHijack.sink6 m.defaultInterfaceIpv6) : ip ∈ hosts m .v6 := by
  simp [hosts,legacyHosts,hl,h]

theorem proxy_mem {ip : IP} {f : Family} (h : ip ∈ proxyHosts m f) : ip ∈ hosts m f :=
  List.mem_append_left _ h

theorem fwmark_bypass (m : Manager) : Selector.fwmark 1 ∈ bypass m := List.mem_cons_self

theorem uid_bypass (h : 0 < m.sudoUid) : Selector.uidrange m.sudoUid ∈ bypass m := by
  simp [bypass,h]

theorem acts_deleteLegacyRoutes (h : AllowsHostDel A m) : Acts (Change A) (deleteLegacyRoutes m) := by
  rw [deleteLegacyRoutes]
  split_ifs with hl
  · apply acts_both
    · exact acts_deleteDnsIpRoutes fun ip hip => h.del .v4 ip (legacy4_mem hl hip)
    · exact acts_deleteDnsIpRoutes6 fun ip hip => h.del .v6 ip (legacy6_mem hl hip)
  · exact acts_done

theorem acts_setupLegacyRoutes (h : AllowsBase A b m) : Acts (Change A) (setupLegacyRoutes m) := by
  rw [setupLegacyRoutes]
  split_ifs with hl
  · apply acts_seq (acts_tolerate (acts_deleteLegacyRoutes h.toAllowsHostDel))
    exact acts_setupDnsIpRoutes (fun ip hip => h.add .v4 ip (legacy4_mem hl hip))
      fun ip hip => h.add .v6 ip (legacy6_mem hl hip)
  · exact acts_done

theorem acts_addFwmark6 (h : AllowsBase A b m) : Acts (Change A) (addFwmark6 m) := by
  rw [addFwmark6]
  split_ifs with h6
  · exact acts_addBypassRouting (h.rule .v6 _ (fwmark_bypass m) (Or.inr h6)) (h.table .v6)
  · exact acts_done

theorem acts_addUidRoutes (h : AllowsBase A b m) : Acts (Change A) (addUidRoutes m) := by
  rw [addUidRoutes]
  by_cases hu : 0 < m.sudoUid
  · rw [if_pos hu]
    apply acts_seq
    · exact acts_tolerate (acts_addBypassRouting (h.rule .v4 _ (uid_bypass hu) (Or.inl rfl))
        (h.table .v4))
    · split_ifs with h6
      · exact acts_tolerate (acts_addBypassRouting (h.rule .v6 _ (uid_bypass hu) (Or.inr h6))
          (h.table .v6))
      · exact acts_done
  · rw [if_neg hu]
    exact acts_done

theorem acts_setupResolved (h : A.link m.tunName) : Acts (Change A) (setupResolved m) := by
  rw [setupResolved]
  split_ifs
  · exact acts_setupResolvectlDns h _
  · exact acts_done

/-- `setupBase` from the IPv4 bypass on. -/
def setupRest (b : FirewallBackend) (m : Manager) : Script Net :=
  sequence [setupConntrackRules b m.defaultInterface,
    addUidRoutes m,
    setupDnsHijackRules b m.defaultInterface m.dnsHijack,
    setupResolved m]

/-- The bypass and the rest. -/
def setupMarks (b : FirewallBackend) (m : Manager) : Script Net :=
  .seq (addBypassRouting .v4 (.fwmark 1) m.defaultInterface (m.gateway .v4))
    (.seq (addFwmark6 m) (setupRest b m))

theorem acts_setupRest (h : AllowsBase A b m) : Acts (Change A) (setupRest b m) := by
  apply acts_sequence
  intro p hp
  simp only [List.mem_cons,List.not_mem_nil,or_false] at hp
  rcases hp with rfl | rfl | rfl | rfl
  · exact acts_setupConntrackRules h.conntrack
  · exact acts_addUidRoutes h
  · exact acts_setupDnsHijackRules h.hijack _ _
  · exact acts_setupResolved h.link

theorem acts_setupMarks (h : AllowsBase A b m) : Acts (Change A) (setupMarks b m) :=
  acts_seq (acts_addBypassRouting (h.rule .v4 _ (fwmark_bypass m) (Or.inl rfl)) (h.table .v4))
    (acts_seq (acts_addFwmark6 h) (acts_setupRest h))

theorem setupBase_eq (b : FirewallBackend) (a : Answer) (m : Manager) :
    setupBase b a m = .seq (createTun m.tunName a.retries)
      (.seq (setupProxyIpRoutes m.proxyIpv4s m.proxyIpv6s m.defaultInterfaceIp m.defaultInterfaceIpv6)
        (.seq (setupLegacyRoutes m)
          (.seq (loosenRpFilter m.tunName m.defaultInterface a.stateWritten) (setupMarks b m)))) := rfl

theorem acts_setupBase (hd : A.device m.tunName) (hu : A.undevice m.tunName) (hr : A.rpFilter)
    (h : AllowsBase A b m) (a : Answer) : Acts (Change A) (setupBase b a m) := by
  rw [setupBase_eq]
  apply acts_seq (acts_createTun hd hu _)
  apply acts_seq
  · exact acts_setupProxyIpRoutes
      (fun ip hip => h.add .v4 ip (proxy_mem hip)) fun ip hip => h.add .v6 ip (proxy_mem hip)
  apply acts_seq (acts_setupLegacyRoutes h)
  exact acts_seq (acts_loosenRpFilter hr _ _) (acts_setupMarks h)

theorem acts_setupSplit (h : AllowsSplit A m)
    (ht : ∀ f, A.add (mainDefault f) (tunDefault f m.tunName)) (mode : String) (uid : ℕ) :
    Acts (Change A) (setupSplit mode uid m) := by
  apply acts_seq
  · rw [setupTunRoutes]
    split_ifs
    · exact acts_done
    · exact acts_seq (acts_setupTunIpRoute (ht _)) (acts_setupTunIpRoute (ht _))
  · exact acts_applySplitRules h mode uid

theorem acts_removeUidRoutes (h : AllowsUnbypass A m) : Acts (Change A) (removeUidRoutes m) := by
  rw [removeUidRoutes]
  split_ifs with hu
  · exact acts_both
      (acts_removeBypassRouting (h.unrule .v4 _ (uid_bypass hu)) (h.table .v4))
      (acts_removeBypassRouting (h.unrule .v6 _ (uid_bypass hu)) (h.table .v6))
  · exact acts_done

/-- `clearNetworkRules` after the restoring of `rp_filter`. -/
def clearRest (b : FirewallBackend) (m : Manager) : List (Script Net) :=
  [deleteTunIpRoute .v4 m.tunName,
    deleteTunIpRoute .v6 m.tunName,
    deleteTun m.tunName,
    cleanDnsHijackRules b,
    deleteProxyIpRoutes m.proxyIpv4s m.proxyIpv6s m.defaultInterfaceIp m.defaultInterfaceIpv6,
    removeBypassRouting .v4 (.fwmark 1) m.defaultInterface m.defaultInterfaceIp,
    removeBypassRouting .v6 (.fwmark 1) m.defaultInterface m.defaultInterfaceIpv6,
    cleanConntrackRules b m.defaultInterface,
    removeSplitRules m,
    revertResolvectlDns m.tunName,
    deleteLegacyRoutes m,
    removeUidRoutes m]

theorem clearNetworkRules_eq (b : FirewallBackend) (m : Manager) :
    clearNetworkRules b m = .both restoreRpFilter (joined (clearRest b m)) := rfl

theorem acts_clearRest (h : AllowsClear A b m) : ∀ p ∈ clearRest b m, Acts (Change A) p := by
  intro p hp
  simp only [clearRest,List.mem_cons,List.not_mem_nil,or_false] at hp
  rcases hp with rfl | rfl | rfl | rfl | rfl | rfl | rfl | rfl | rfl | rfl | rfl | rfl
  · exact acts_deleteTunIpRoute (h.tunDefault _)
  · exact acts_deleteTunIpRoute (h.tunDefault _)
  · exact acts_deleteTun h.undevice
  · exact acts_cleanDnsHijackRules h.hijack
  · exact acts_deleteProxyIpRoutes
      (fun ip hip => h.del .v4 ip (proxy_mem hip)) fun ip hip => h.del .v6 ip (proxy_mem hip)
  · exact acts_removeBypassRouting (h.unrule .v4 _ (fwmark_bypass m)) (h.table .v4)
  · exact acts_removeBypassRouting (h.unrule .v6 _ (fwmark_bypass m)) (h.table .v6)
  · exact acts_cleanConntrackRules h.conntrack
  · exact acts_removeSplitRules h.split
  · exact acts_revertResolvectlDns h.link
  · exact acts_deleteLegacyRoutes h.toAllowsHostDel
  · exact acts_removeUidRoutes h.toAllowsUnbypass

theorem acts_clearNetworkRules (hr : A.rpFilter) (h : AllowsClear A b m) :
    Acts (Change A) (clearNetworkRules b m) :=
  acts_both (acts_restoreRpFilter hr) (acts_joined (acts_clearRest h))

theorem acts_setDnsHijackScript {new : Manager} (h : AllowsHostDel A m) (hd : A.link m.tunName)
    (hn : AllowsBase A b new) : Acts (Change A) (setDnsHijackScript b m new) := by
  apply acts_joined
  intro p hp
  simp only [List.mem_cons,List.not_mem_nil,or_false] at hp
  rcases hp with rfl | rfl | rfl | rfl | rfl | rfl
  · exact acts_deleteLegacyRoutes h
  · exact acts_cleanDnsHijackRules hn.hijack.toAllowsUnhijack
  · exact acts_revertResolvectlDns hd
  · split_ifs with hl
    · exact acts_setupDnsIpRoutes (fun ip hip => hn.add .v4 ip (legacy4_mem hl hip))
        fun ip hip => hn.add .v6 ip (legacy6_mem hl hip)
    · exact acts_done
  · exact acts_setupDnsHijackRules hn.hijack _ _
  · exact acts_setupResolved hn.link

theorem acts_reapplySplitScript (h : AllowsSplit A m)
    (ha : ∀ f, A.add (mainDefault f) (tunDefault f m.tunName))
    (hd : ∀ f, A.del (mainDefault f) (isTunDefault f m.tunName)) (mode : String) (uid : ℕ) :
    Acts (Change A) (reapplySplitScript mode uid m) := by
  apply acts_seq (acts_tolerate (acts_removeSplitRules h.toAllowsUnsplit))
  split_ifs
  · apply acts_seq (acts_tolerate (acts_deleteTunIpRoute (hd .v4)))
    apply acts_seq (acts_tolerate (acts_deleteTunIpRoute (hd .v6)))
    exact acts_applySplitRules h mode uid
  · apply acts_seq (acts_tolerate (acts_deleteTunIpRoute (hd .v4)))
    apply acts_seq (acts_setupTunIpRoute (ha .v4))
    apply acts_seq (acts_tolerate (acts_deleteTunIpRoute (hd .v6)))
    apply acts_seq (acts_tolerate (acts_setupTunIpRoute (ha .v6)))
    exact acts_applySplitRules h mode uid

end Managers

end Whoisthat.ScriptScopes
