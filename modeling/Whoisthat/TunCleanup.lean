import Whoisthat.OwnArtifacts
import Whoisthat.TunTeardown

/-!
# The teardown of what a setup left

Every rule, route, table, chain and device of a manager goes with one script of
`clearNetworkRules`, and none of the others brings it back. What is left of a
host with some of its own artifacts is the host without them.
-/

set_option autoImplicit false

namespace Whoisthat.TunCleanup
open Whoisthat.ScriptRuns Whoisthat.ShellScripts Whoisthat.HostNetwork Whoisthat.NetworkChanges
open Whoisthat.IPLiterals Whoisthat.TunScripts Whoisthat.TunNetwork Whoisthat.ScriptScopes
open Whoisthat.OwnArtifacts Whoisthat.TunTeardown
open Whoisthat.KillSwitchArming (FirewallBackend)

section Gone

variable {b : FirewallBackend} {m : Manager} {n s t : Net} {rp : Prop}

theorem rule_gone (hc : Change (ownScope b m n False rp) s t) {f : Family} {r : PolicyRule}
    (h : r ∉ (s.rules f).val) : r ∉ (t.rules f).val := by
  cases hc with
  | addRule hr _ => exact hr.1.elim
  | @delRule f' r' _ hr =>
    intro hmem
    rw [dropRule_val] at hmem
    split_ifs at hmem with hf
    · subst hf
      exact h (List.mem_of_mem_eraseP hmem)
    · exact h hmem
  | addRoute hr _ => exact hr.1.elim
  | replaceRoute hr _ => exact hr.1.elim
  | addDevice hd _ => exact hd.1.elim
  | _ => exact h

theorem split_fresh (hf : Fresh b m n) {p : Place IP} (hp : splitPlace m p) : n.routes p = [] := by
  rcases hp with hp | ⟨-,-,hp⟩
  · exact hf.tables p (Or.inr hp)
  · exact hf.tables p (Or.inl hp)

theorem route_gone (hf : Fresh b m n) (hc : Change (ownScope b m n False rp) s t) {p : Place IP}
    (h : s.routes p = n.routes p) : t.routes p = n.routes p := by
  have hdevice : (s.routes p).filter (fun r => r.dev ≠ some m.tunName) = n.routes p := by
    rw [h,List.filter_eq_self.mpr fun r hr => by simpa using hf.routes p r hr]
  cases hc with
  | addRule hr _ => exact hr.1.elim
  | addRoute hr _ => exact hr.1.elim
  | replaceRoute hr _ => exact hr.1.elim
  | delRoute s hq =>
    obtain ⟨r,-,-,hspared⟩ := hq
    rw [Network.dropRoute,setRoutes_routes]
    split_ifs with hp
    · subst hp
      rw [h,List.eraseP_of_forall_not fun r hr => by simp [hspared r hr]]
    · exact h
  | @flush f table _ hfl =>
    rw [flushRoutes_routes]
    split_ifs with hp
    · obtain ⟨f',table',target⟩ := p
      obtain ⟨rfl,rfl⟩ := hp
      exact (split_fresh hf (hfl target)).symm
    · exact h
  | addDevice hd _ => exact hd.1.elim
  | dropDevice s hd =>
    have hd' : _ = m.tunName := hd
    subst hd'
    exact hdevice
  | _ => exact h

theorem nft_gone (hc : Change (ownScope b m n False rp) s t) {k : NftTable} (h : s.nft k = none) :
    t.nft k = none := by
  cases hc with
  | addRule hr _ => exact hr.1.elim
  | addRoute hr _ => exact hr.1.elim
  | replaceRoute hr _ => exact hr.1.elim
  | addDevice hd _ => exact hd.1.elim
  | table s ht _ => exact ht.1.elim
  | @dropTable k' _ ht =>
    by_cases hk : k = k'
    · simp [Network.dropTable,hk]
    · simpa [Network.dropTable,hk] using h
  | _ => exact h

theorem builtin_gone (hc : Change (ownScope b m n False rp) s t) {k : ChainPlace} {r : FirewallRule}
    (h : r ∉ s.builtin k) : r ∉ t.builtin k := by
  cases hc with
  | addRule hr _ => exact hr.1.elim
  | addRoute hr _ => exact hr.1.elim
  | replaceRoute hr _ => exact hr.1.elim
  | addDevice hd _ => exact hd.1.elim
  | append s hk => exact hk.1.elim
  | jump s hk _ => exact hk.1.elim
  | @erase k' r' _ hk =>
    intro hmem
    by_cases hkk : k = k'
    · subst hkk
      exact h (List.mem_of_mem_erase (by simpa [Network.setBuiltin] using hmem))
    · exact h (by simpa [Network.setBuiltin,hkk] using hmem)
  | _ => exact h

theorem chain_gone (hc : Change (ownScope b m n False rp) s t) {k : ChainPlace}
    (h : s.chains k = none) : t.chains k = none := by
  cases hc with
  | addRule hr _ => exact hr.1.elim
  | addRoute hr _ => exact hr.1.elim
  | replaceRoute hr _ => exact hr.1.elim
  | addDevice hd _ => exact hd.1.elim
  | chain s hk _ => exact hk.1.elim
  | @emptyChain k' _ hk hsome =>
    have hne : k ≠ k' := fun he => by simp [← he,h] at hsome
    simpa [Network.setChain,hne] using h
  | @dropChain k' _ hk =>
    by_cases hkk : k = k'
    · simp [Network.setChain,hkk]
    · simpa [Network.setChain,hkk] using h
  | _ => exact h

theorem chain_empty (hc : Change (ownScope b m n False rp) s t) {k : ChainPlace}
    (h : s.chains k = none ∨ s.chains k = some []) : t.chains k = none ∨ t.chains k = some [] := by
  rcases h with h | h
  · exact Or.inl (chain_gone hc h)
  cases hc with
  | addRule hr _ => exact hr.1.elim
  | addRoute hr _ => exact hr.1.elim
  | replaceRoute hr _ => exact hr.1.elim
  | addDevice hd _ => exact hd.1.elim
  | chain s hk _ => exact hk.1.elim
  | @emptyChain k' _ hk hsome =>
    by_cases hkk : k = k'
    · simp [Network.setChain,hkk]
    · simp [Network.setChain,hkk,h]
  | @dropChain k' _ hk =>
    by_cases hkk : k = k'
    · simp [Network.setChain,hkk]
    · simp [Network.setChain,hkk,h]
  | _ => exact Or.inr h

theorem device_gone (hc : Change (ownScope b m n False rp) s t) {d : String}
    (h : s.devices d = none) : t.devices d = none := by
  cases hc with
  | addRule hr _ => exact hr.1.elim
  | addRoute hr _ => exact hr.1.elim
  | replaceRoute hr _ => exact hr.1.elim
  | addDevice hd _ => exact hd.1.elim
  | @setDevice d' _ v hd hsome =>
    have hne : d ≠ d' := fun he => by simp [← he,h] at hsome
    simpa [Network.setDevice,hne] using h
  | @dropDevice d' _ hd =>
    by_cases hdd : d = d'
    · simp [Network.dropDevice,hdd]
    · simpa [Network.dropDevice,hdd] using h
  | _ => exact h

end Gone

section Rest

variable {b : FirewallBackend} {m : Manager} {n s : Net}

theorem acts_rest (hf : Fresh b m n) (hu : Unrouted m n) :
    ∀ p ∈ clearRest b m, Acts (Change (ownScope b m n False False)) p :=
  acts_clearRest (ownClear hf hu)

/-- One script takes something away, and the others leave it so. -/
theorem rest_establishes (hf : Fresh b m n) (hu : Unrouted m n) {Q : Net → Prop} {p : Script Net}
    (hp : p ∈ clearRest b m) (hQ : ∀ s t, Change (ownScope b m n False False) s t → Q s → Q t)
    (he : ∀ s, Partial b m n s → Q (p.final s)) (h : Partial b m n s) :
    Q ((joined (clearRest b m)).final s) :=
  joined_establishes hp (acts_rest hf hu) (fun _ _ hc hs => partial_change hf hc hs)
    (fun s t hc _ hs => hQ s t hc hs) he h

theorem partial_rest (hf : Fresh b m n) (hu : Unrouted m n) (h : Partial b m n s) :
    Partial b m n ((joined (clearRest b m)).final s) :=
  (acts_joined (acts_rest hf hu)).final (fun _ _ hc hs => partial_change hf hc hs) h

theorem uid_rule (hf : Fresh b m n) (hu : Unrouted m n) (huid : 0 < m.sudoUid) (f : Family) (s : Net) :
    ⟨.uidrange m.sudoUid,100⟩ ∉ (((removeUidRoutes m).final s).rules f).val := by
  rw [removeUidRoutes,if_pos huid,final_both]
  cases f with
  | v4 =>
    have hacts : Acts (Change (ownScope b m n False False)) (removeBypassRouting .v6
        (.uidrange m.sudoUid) m.defaultInterface m.defaultInterfaceIpv6) :=
      acts_removeBypassRouting (bypass_own (uid_bypass huid)) ((ownClear hf hu).table .v6)
    exact hacts.final (fun _ _ hc hs => rule_gone hc hs) (removeBypass_rule .v4 _ _ _ s)
  | v6 => exact removeBypass_rule .v6 _ _ _ _

theorem rest_rules (hf : Fresh b m n) (hu : Unrouted m n) (h : Partial b m n s) {f : Family}
    {r : PolicyRule} (hr : r ∈ ownRules m) :
    r ∉ (((joined (clearRest b m)).final s).rules f).val := by
  rcases List.mem_cons.mp hr with rfl | hr
  · refine rest_establishes hf hu (p := removeSplitRules m) (by simp [clearRest])
      (fun _ _ hc hs => rule_gone hc hs) (fun u _ => ?_) h
    rw [removeSplit_rules]
    cases f with
    | v4 => simp [splitRules]
    | v6 =>
      rw [splitRules]
      split_ifs <;> simp
  · obtain ⟨sel,hsel,rfl⟩ := List.mem_map.mp hr
    rcases List.mem_cons.mp hsel with rfl | hsel
    · refine rest_establishes hf hu
        (p := removeBypassRouting f (.fwmark 1) m.defaultInterface (m.gateway f)) ?_
        (fun _ _ hc hs => rule_gone hc hs) (fun u _ => removeBypass_rule f _ _ _ u) h
      cases f <;> simp [clearRest,Manager.gateway]
    · split_ifs at hsel with huid
      · rw [List.mem_singleton.mp hsel]
        exact rest_establishes hf hu (p := removeUidRoutes m) (by simp [clearRest])
          (fun _ _ hc hs => rule_gone hc hs) (fun u _ => uid_rule hf hu huid f u) h
      · cases hsel

theorem installs_notSplit {p : Place IP} {r : Route IP} (h : Installs m p r) : ¬splitPlace m p := by
  have hgate : ∀ f g, m.gateway f = some g → m.physV6 = false → f ≠ .v6 := by
    rintro f g hg h6 rfl
    have hg' : m.defaultInterfaceIpv6 = some g := hg
    simp [Manager.physV6,hg'] at h6
  cases h with
  | host _ _ => simp [splitPlace,mainHost]
  | gateway hg => simpa [splitPlace,tableHost] using hgate _ _ hg
  | bypass hg => simpa [splitPlace,tableDefault] using hgate _ _ hg
  | tun f => simp [splitPlace,mainDefault]

theorem erased_own (h : Partial b m n s) {p : Place IP} {r : Route IP} (hr : Installs m p r)
    {q : Route IP → Bool} (hq : q r = true) (hn : ∀ r' ∈ n.routes p, q r' = false) :
    (s.routes p).eraseP q = n.routes p := by
  rcases h.routes p with hs | hs | ⟨r',hr',hs⟩
  · exact absurd hs (installs_notSplit hr)
  · rw [hs,List.eraseP_of_forall_not fun r hr => by simp [hn r hr]]
  · rw [installs_unique hr' hr] at hs
    rw [hs,eraseP_insertRoute hq fun r' hr' _ => hn r' hr']

theorem delVia_erases (hu : Unrouted m n) {f : Family} {g ip : IP} (hg : m.gateway f = some g)
    (hip : ip ∈ hosts m f) (h : Partial b m n s) :
    (((delVia f (m.gateway f) ip).run s).getD s).routes (mainHost f ip) =
      n.routes (mainHost f ip) := by
  have hrun : ((delVia f (m.gateway f) ip).run s).getD s =
      s.dropRoute (mainHost f ip) (isVia g) := by
    simp [delVia,may,hg]
  rw [hrun,Network.dropRoute,setRoutes_routes,if_pos rfl]
  exact erased_own h (.host hg hip) (isVia_via f g) (hu f ip hip g hg)

/-- A list of deletions clears each of its destinations. -/
theorem delVias_erase (hf : Fresh b m n) (hu : Unrouted m n) {cs : List (Command Net)} {f : Family}
    {g ip : IP} (hc : delVia f (m.gateway f) ip ∈ cs)
    (hcs : ∀ c ∈ cs, ∃ f, ∃ ip ∈ hosts m f, c = delVia f (m.gateway f) ip)
    (hg : m.gateway f = some g) (hip : ip ∈ hosts m f) (h : Partial b m n s) :
    ((commands cs).final s).routes (mainHost f ip) = n.routes (mainHost f ip) := by
  refine tolerant_establishes (C := Change (ownScope b m n False False)) (I := Partial b m n)
    (Q := fun u : Net => u.routes (mainHost f ip) = n.routes (mainHost f ip)) hc ?_ ?_
    (fun _ _ hc hs => partial_change hf hc hs) (fun _ _ hc _ hs => route_gone hf hc hs)
    (fun u hu' => delVia_erases hu hg hip hu') h
  · intro c hc
    obtain ⟨f',ip',-,rfl⟩ := hcs c hc
    rfl
  · intro c hc u t ht
    obtain ⟨f',ip',hip',rfl⟩ := hcs c hc
    exact change_delVia ((ownHostDel hu).del f' ip' hip') ht

theorem proxyRoutes_erased (hf : Fresh b m n) (hu : Unrouted m n) {f : Family} {g ip : IP}
    (hg : m.gateway f = some g) (hip : ip ∈ proxyHosts m f) (h : Partial b m n s) :
    ((deleteProxyIpRoutes m.proxyIpv4s m.proxyIpv6s m.defaultInterfaceIp
      m.defaultInterfaceIpv6).final s).routes (mainHost f ip) = n.routes (mainHost f ip) := by
  apply delVias_erase hf hu _ _ hg (proxy_mem hip) h
  · cases f with
    | v4 => exact List.mem_append_left _ (List.mem_map.mpr ⟨ip,hip,rfl⟩)
    | v6 => exact List.mem_append_right _ (List.mem_map.mpr ⟨ip,hip,rfl⟩)
  · intro c hc
    rcases List.mem_append.mp hc with hc | hc
    · obtain ⟨ip',hip',rfl⟩ := List.mem_map.mp hc
      exact ⟨.v4,ip',@proxy_mem m ip' .v4 hip',rfl⟩
    · obtain ⟨ip',hip',rfl⟩ := List.mem_map.mp hc
      exact ⟨.v6,ip',@proxy_mem m ip' .v6 hip',rfl⟩

theorem legacyRoutes_erased (hf : Fresh b m n) (hu : Unrouted m n) {f : Family} {g ip : IP}
    (hg : m.gateway f = some g) (hip : ip ∈ legacyHosts m f) (h : Partial b m n s) :
    ((deleteLegacyRoutes m).final s).routes (mainHost f ip) = n.routes (mainHost f ip) := by
  cases hl : m.dnsHijack.legacy with
  | false => cases f <;> simp [legacyHosts,hl] at hip
  | true =>
    have h4 : Acts (Change (ownScope b m n False False))
        (deleteDnsIpRoutes m.dnsHijack.sink4 m.defaultInterfaceIp) :=
      acts_deleteDnsIpRoutes fun ip hip => (ownHostDel hu).del .v4 ip (legacy4_mem hl hip)
    have h6 : Acts (Change (ownScope b m n False False))
        (deleteDnsIpRoutes6 m.dnsHijack.sink6 m.defaultInterfaceIpv6) :=
      acts_deleteDnsIpRoutes6 fun ip hip => (ownHostDel hu).del .v6 ip (legacy6_mem hl hip)
    rw [deleteLegacyRoutes,if_pos hl,final_both]
    cases f with
    | v4 =>
      rw [legacyHosts,if_pos hl] at hip
      refine h6.final (P := fun u : Net => u.routes (mainHost .v4 ip) = n.routes (mainHost .v4 ip))
        (fun _ _ hc hs => route_gone hf hc hs) ?_
      apply delVias_erase hf hu (List.mem_map.mpr ⟨ip,hip,rfl⟩) _ hg (legacy4_mem hl hip) h
      intro c hc
      obtain ⟨ip',hip',rfl⟩ := List.mem_map.mp hc
      exact ⟨.v4,ip',legacy4_mem hl hip',rfl⟩
    | v6 =>
      rw [legacyHosts,if_pos hl] at hip
      have hpart := h4.final (fun _ _ hc hs => partial_change hf hc hs) h
      apply delVias_erase hf hu (List.mem_map.mpr ⟨ip,hip,rfl⟩) _ hg (legacy6_mem hl hip) hpart
      intro c hc
      obtain ⟨ip',hip',rfl⟩ := List.mem_map.mp hc
      exact ⟨.v6,ip',legacy6_mem hl hip',rfl⟩

theorem rest_installed (hf : Fresh b m n) (hu : Unrouted m n) (h : Partial b m n s) {p : Place IP}
    {r : Route IP} (hr : Installs m p r) :
    ((joined (clearRest b m)).final s).routes p = n.routes p := by
  have hkeep : ∀ u t : Net, Change (ownScope b m n False False) u t →
      u.routes p = n.routes p → t.routes p = n.routes p := fun _ _ hc hs => route_gone hf hc hs
  have hnone : ∀ p : Place IP, p.table = some 100 → ∀ (q : Route IP → Bool),
      ∀ r ∈ n.routes p, q r = false := by
    intro p hp q r hr
    rw [hf.tables p (Or.inl hp)] at hr
    cases hr
  cases hr with
  | @host f g ip hg hip =>
    rcases List.mem_append.mp hip with hip | hip
    · exact rest_establishes hf hu (p := deleteProxyIpRoutes _ _ _ _) (by simp [clearRest]) hkeep
        (fun u hpart => proxyRoutes_erased hf hu hg hip hpart) h
    · exact rest_establishes hf hu (p := deleteLegacyRoutes m) (by simp [clearRest]) hkeep
        (fun u hpart => legacyRoutes_erased hf hu hg hip hpart) h
  | @gateway f g hg =>
    refine rest_establishes hf hu
      (p := removeBypassRouting f (.fwmark 1) m.defaultInterface (m.gateway f)) ?_ hkeep ?_ h
    · cases f <;> simp [clearRest,Manager.gateway]
    · intro u hpart
      have hne : tableHost f 100 g ≠ tableDefault f 100 := by simp [tableHost,tableDefault]
      rw [hg,final_removeBypass,Network.dropRoute,setRoutes_routes,if_neg hne,Network.dropRoute,
        setRoutes_routes,if_pos rfl]
      exact erased_own hpart (.gateway hg) (isOn_onDevice f _) (hnone _ rfl _)
  | @bypass f g hg =>
    refine rest_establishes hf hu
      (p := removeBypassRouting f (.fwmark 1) m.defaultInterface (m.gateway f)) ?_ hkeep ?_ h
    · cases f <;> simp [clearRest,Manager.gateway]
    · intro u hpart
      have hne : tableDefault f 100 ≠ tableHost f 100 g := by simp [tableHost,tableDefault]
      rw [hg,final_removeBypass,Network.dropRoute,setRoutes_routes,if_pos rfl,Network.dropRoute,
        setRoutes_routes,if_neg hne]
      exact erased_own hpart (.bypass hg) (isVia_via f g) (hnone _ rfl _)
  | tun f =>
    refine rest_establishes hf hu (p := deleteTunIpRoute f m.tunName) ?_ hkeep ?_ h
    · cases f <;> simp [clearRest]
    · intro u hpart
      rw [final_deleteTun,Network.dropRoute,setRoutes_routes,if_pos rfl]
      exact erased_own hpart (.tun f) (isTunDefault_tunDefault f _)
        fun r hr => not_isTunDefault (hf.routes _ r hr)

theorem rest_routes (hf : Fresh b m n) (hu : Unrouted m n) (h : Partial b m n s) (p : Place IP) :
    ((joined (clearRest b m)).final s).routes p = n.routes p := by
  rcases (partial_rest hf hu h).routes p with hp | hp | ⟨r,hr,-⟩
  · refine rest_establishes hf hu (p := removeSplitRules m) (by simp [clearRest])
      (fun _ _ hc hs => route_gone hf hc hs) ?_ h
    intro u _
    exact ((removeSplit_routes m u p).1 hp).trans (split_fresh hf hp).symm
  · exact hp
  · exact rest_installed hf hu h hr

end Rest

section Firewall

variable {b : FirewallBackend} {m : Manager} {n s : Net} {f : Family}

theorem rest_nft (hf : Fresh b m n) (hu : Unrouted m n) (h : Partial b m n s) {t : NftTable}
    (ht : t ∈ ownTables b) : ((joined (clearRest b m)).final s).nft t = none := by
  have hkeep : ∀ u v : Net, Change (ownScope b m n False False) u v → u.nft t = none →
      v.nft t = none := fun _ _ hc hs => nft_gone hc hs
  have hsplit : t = splitTable → ((joined (clearRest b m)).final s).nft t = none := by
    rintro rfl
    refine rest_establishes hf hu (p := removeSplitRules m) (by simp [clearRest]) hkeep ?_ h
    intro u _
    rw [removeSplit_nft]
    exact Function.update_self _ _ _
  cases b with
  | iptables => exact hsplit (List.mem_singleton.mp ht)
  | nftables =>
    have hmark : t ∈ [mangleInet,mangleTable .v4,mangleTable .v6] →
        ((joined (clearRest .nftables m)).final s).nft t = none := fun hmem =>
      rest_establishes hf hu (p := cleanConntrackRules .nftables m.defaultInterface)
        (by simp [clearRest]) hkeep (fun u _ => deleteTables_gone hmem u) h
    have hhijack : t ∈ [hijackTable .v4,hijackTable .v6] →
        ((joined (clearRest .nftables m)).final s).nft t = none := fun hmem =>
      rest_establishes hf hu (p := cleanDnsHijackRules .nftables)
        (by simp [clearRest]) hkeep (fun u _ => deleteTables_gone hmem u) h
    simp only [ownTables,List.mem_cons,List.not_mem_nil,or_false] at ht
    rcases ht with ht | ht | ht | ht | ht | ht
    · exact hsplit ht
    · exact hmark (by simp [ht])
    · exact hmark (by simp [ht])
    · exact hmark (by simp [ht])
    · exact hhijack (by simp [ht])
    · exact hhijack (by simp [ht])

theorem rest_marks (hf : Fresh b m n) (hu : Unrouted m n) (h : Partial b m n s) {k : ChainPlace}
    {r : FirewallRule} (hr : OwnMark m b k r) :
    r ∉ ((joined (clearRest b m)).final s).builtin k := by
  cases hr with
  | @mark f r hr =>
    refine rest_establishes hf hu (p := cleanConntrackRules .iptables m.defaultInterface)
      (by simp [clearRest]) (fun _ _ hc hs => builtin_gone hc hs) ?_ h
    intro u _
    exact marks_gone hr u

theorem tolerant_cleanup (f : Family) : ∀ c ∈ buildDnsHijackCleanupIptablesScript f,
    c.tolerated = true := by
  intro c hc
  rcases List.mem_append.mp hc with hc | hc
  · obtain ⟨d,-,rfl⟩ := List.mem_map.mp hc
    rfl
  · obtain ⟨d,-,hc⟩ := List.mem_flatMap.mp hc
    simp only [List.mem_cons,List.not_mem_nil,or_false] at hc
    rcases hc with rfl | rfl <;> rfl

/-- Deleting the jump once is enough: a setup never adds it twice. -/
theorem jump_erased (hf : Fresh .iptables m n) (h : Partial .iptables m n s)
    {c : String × String} (hc : c ∈ dnsChains) :
    FirewallRule.jump c.2 ∉ (((removeDnsJump f c).run s).getD s).builtin (natPlace f c.1) := by
  have hn := hf.jumps rfl f c.1 c hc
  obtain ⟨pre,post,hs,hnd,-,hpost⟩ := h.builtin (natPlace f c.1)
  have hmark : FirewallRule.jump c.2 ∉ post := by
    intro hmem
    have htable := mark_table (hpost _ hmem)
    simp [natPlace] at htable
  change _ ∉ ((s.deleteBuiltin (natPlace f c.1) (.jump c.2)).getD s).builtin _
  rw [Network.deleteBuiltin]
  split_ifs with hmem
  · simp only [Option.getD_some,Network.setBuiltin,Function.update_self]
    rw [hs,erase_own hn]
    split_ifs with hpre
    · simp [hnd.mem_erase_iff,hn,hmark]
    · simpa [hpre,hn] using fun hmem => hmark (List.mem_of_mem_erase hmem)
  · exact hmem

/-- No chain of the daemon is reached from its hook. -/
def Unjumped (f : Family) (s : Net) : Prop :=
  ∀ c ∈ dnsChains, FirewallRule.jump c.2 ∉ s.builtin (natPlace f c.1)

theorem target_jump {r : FirewallRule} {name : String} (h : Jumps.target r = some name) :
    r = .jump name := by
  cases r with
  | jump chain => rw [Option.some.inj h]
  | _ => cases h

theorem not_referred (hf : Fresh .iptables m n) (h : Partial .iptables m n s) (hj : Unjumped f s)
    {c : String × String} (hc : c ∈ dnsChains) :
    s.referred (natPlace f c.2) (Network.hooksOf .nat) = false := by
  rw [Bool.eq_false_iff]
  intro href
  obtain ⟨hook,-,href⟩ := List.any_eq_true.mp href
  obtain ⟨r,hr,href⟩ := List.any_eq_true.mp href
  rw [target_jump (of_decide_eq_true href)] at hr
  have hplace : FirewallRule.jump c.2 ∈ s.builtin (natPlace f hook) := hr
  obtain ⟨pre,post,hs,-,hpre,hpost⟩ := h.builtin (natPlace f hook)
  rw [hs] at hplace
  rcases List.mem_append.mp hplace with hmem | hmem
  · have hown := hpre _ hmem
    generalize hk : natPlace f hook = k at hown
    generalize hj' : FirewallRule.jump c.2 = r' at hown
    cases hown with
    | @jump f' c' hc' =>
      have hhook : hook = c'.1 := congrArg ChainPlace.name hk
      have hchain : c.2 = c'.2 := FirewallRule.jump.inj hj'
      refine hj c' hc' ?_
      rw [← hhook,← hchain,hs]
      exact List.mem_append_left _ hmem
  · rcases List.mem_append.mp hmem with hmem | hmem
    · exact hf.jumps rfl f hook c hc hmem
    · have htable := mark_table (hpost _ hmem)
      simp [natPlace] at htable

theorem chain_deleted (hf : Fresh .iptables m n) (h : Partial .iptables m n s) (hj : Unjumped f s)
    {c : String × String} (hc : c ∈ dnsChains)
    (he : s.chains (natPlace f c.2) = none ∨ s.chains (natPlace f c.2) = some []) :
    (((deleteDnsChain f c).run s).getD s).chains (natPlace f c.2) = none := by
  change ((s.deleteChain (natPlace f c.2)).getD s).chains _ = none
  rw [Network.deleteChain]
  split_ifs with hdel
  · simp [Network.setChain]
  · rcases he with he | he
    · exact he
    · exact absurd ⟨he,not_referred hf h hj hc⟩ hdel

theorem chain_emptied (f : Family) (c : String × String) (s : Net) :
    (((emptyDnsChain f c).run s).getD s).chains (natPlace f c.2) = none ∨
    (((emptyDnsChain f c).run s).getD s).chains (natPlace f c.2) = some [] := by
  change ((s.emptyChain (natPlace f c.2)).getD s).chains _ = none ∨
    ((s.emptyChain (natPlace f c.2)).getD s).chains _ = some []
  rw [Network.emptyChain]
  cases h : s.chains (natPlace f c.2) with
  | none => exact Or.inl h
  | some rs => exact Or.inr (by simp [Network.setChain])

theorem unjumped_kept {rp : Prop} {t : Net} (hc : Change (ownScope b m n False rp) s t)
    (h : Unjumped f s) : Unjumped f t := fun c hmem => builtin_gone hc (h c hmem)

theorem jumps_erased (hf : Fresh .iptables m n) (h : Partial .iptables m n s) :
    Unjumped f ((commands (dnsChains.map (removeDnsJump f))).final s) := by
  intro c hc
  refine tolerant_establishes (C := Change (ownScope .iptables m n False False))
    (I := Partial .iptables m n) (Q := fun u : Net => FirewallRule.jump c.2 ∉
      u.builtin (natPlace f c.1)) (List.mem_map.mpr ⟨c,hc,rfl⟩) ?_ ?_
    (fun _ _ hc hs => partial_change hf hc hs) (fun _ _ hc _ hs => builtin_gone hc hs)
    (fun u hu => jump_erased hf hu hc) h
  · intro d hd
    obtain ⟨c',-,rfl⟩ := List.mem_map.mp hd
    rfl
  · intro d hd
    obtain ⟨c',hc',rfl⟩ := List.mem_map.mp hd
    exact change_dnsCleanup ownUnhijack hc' (Or.inl rfl)

/-- The chains are emptied and deleted one after the other. -/
theorem chains_deleted (hf : Fresh .iptables m n) (h : Partial .iptables m n s)
    {c : String × String} (hc : c ∈ dnsChains) :
    ((commands (buildDnsHijackCleanupIptablesScript f)).final s).chains (natPlace f c.2) = none := by
  have hcleanup : ∀ d ∈ buildDnsHijackCleanupIptablesScript f, ∀ u t : Net, d.run u = some t →
      Change (ownScope .iptables m n False False) u t := change_dnsCleanupScript ownUnhijack
  have htolerant := tolerant_cleanup f
  obtain ⟨as,bs,hsplit⟩ := List.append_of_mem hc
  have hscript : buildDnsHijackCleanupIptablesScript f = dnsChains.map (removeDnsJump f) ++
      ((as.flatMap fun c => [emptyDnsChain f c,deleteDnsChain f c]) ++ [emptyDnsChain f c] ++
        deleteDnsChain f c::bs.flatMap fun c => [emptyDnsChain f c,deleteDnsChain f c]) := by
    rw [buildDnsHijackCleanupIptablesScript]
    congr 1
    rw [hsplit,List.flatMap_append,List.flatMap_cons,List.append_assoc]
    rfl
  rw [hscript] at hcleanup htolerant ⊢
  have hjumps : Partial .iptables m n ((commands (dnsChains.map (removeDnsJump f))).final s) :=
    (acts_commands fun d hd => hcleanup d (List.mem_append_left _ hd)).final
      (fun _ _ hc hs => partial_change hf hc hs) h
  rw [final_commands_append fun d hd => htolerant d (List.mem_append_left _ hd)]
  exact establishes_after (C := Change (ownScope .iptables m n False False))
    (I := fun u => Partial .iptables m n u ∧ Unjumped f u)
    (R := fun u : Net => u.chains (natPlace f c.2) = none ∨ u.chains (natPlace f c.2) = some [])
    (Q := fun u : Net => u.chains (natPlace f c.2) = none)
    (fun d hd => htolerant d (List.mem_append_right _ hd))
    (fun d hd => hcleanup d (List.mem_append_right _ hd))
    (fun _ _ hc hu => ⟨partial_change hf hc hu.1,unjumped_kept hc hu.2⟩)
    (fun _ _ hc hu => chain_empty hc hu) (fun _ _ hc hu => chain_gone hc hu)
    (fun u _ => chain_emptied f c u) (fun u hu he => chain_deleted hf hu.1 hu.2 hc he)
    ⟨hjumps,jumps_erased hf h⟩

/-- The scripts of both families, one after the other. -/
theorem final_cleanHijack (s : Net) : (cleanDnsHijackRules .iptables).final s =
    (commands (buildDnsHijackCleanupIptablesScript .v6)).final
      ((commands (buildDnsHijackCleanupIptablesScript .v4)).final s) :=
  final_commands_append (tolerant_cleanup .v4)

theorem partial_cleanup (hf : Fresh .iptables m n) (h : Partial .iptables m n s) :
    Partial .iptables m n ((commands (buildDnsHijackCleanupIptablesScript f)).final s) := by
  have hacts : Acts (Change (ownScope .iptables m n False False))
      (commands (buildDnsHijackCleanupIptablesScript f)) :=
    acts_commands (change_dnsCleanupScript ownUnhijack)
  exact hacts.final (fun _ _ hc hs => partial_change hf hc hs) h

/-- What the script of its family removes stays removed. -/
theorem hijack_establishes (hf : Fresh .iptables m n) {Q : Net → Prop}
    (hQ : ∀ s t, Change (ownScope .iptables m n False False) s t → Q s → Q t)
    (he : ∀ s, Partial .iptables m n s →
      Q ((commands (buildDnsHijackCleanupIptablesScript f)).final s))
    (h : Partial .iptables m n s) : Q ((cleanDnsHijackRules .iptables).final s) := by
  have hacts : Acts (Change (ownScope .iptables m n False False))
      (commands (buildDnsHijackCleanupIptablesScript .v6)) :=
    acts_commands (change_dnsCleanupScript ownUnhijack)
  rw [final_cleanHijack]
  cases f with
  | v4 => exact hacts.final hQ (he s h)
  | v6 => exact he _ (partial_cleanup hf h)

theorem rest_chains (hf : Fresh b m n) (hu : Unrouted m n) (h : Partial b m n s) {k : ChainPlace}
    (hk : OwnChain b k) : ((joined (clearRest b m)).final s).chains k = none := by
  cases hk with
  | @chain f c hc =>
    exact rest_establishes hf hu (p := cleanDnsHijackRules .iptables) (by simp [clearRest])
      (fun _ _ hc hs => chain_gone hc hs)
      (fun u hpart => hijack_establishes (Q := fun u : Net => u.chains (natPlace f c.2) = none) hf
        (fun _ _ hc hs => chain_gone hc hs) (fun v hv => chains_deleted hf hv hc) hpart) h

theorem rest_jumps (hf : Fresh b m n) (hu : Unrouted m n) (h : Partial b m n s) {k : ChainPlace}
    {r : FirewallRule} (hr : OwnJump b k r) :
    r ∉ ((joined (clearRest b m)).final s).builtin k := by
  cases hr with
  | @jump f c hc =>
    have hstep : ∀ v : Net, Partial .iptables m n v → FirewallRule.jump c.2 ∉
        ((commands (buildDnsHijackCleanupIptablesScript f)).final v).builtin (natPlace f c.1) := by
      intro v hv
      have hacts : Acts (Change (ownScope .iptables m n False False))
          (commands (dnsChains.flatMap fun c => [emptyDnsChain f c,deleteDnsChain f c])) :=
        acts_commands fun d hd => change_dnsCleanupScript ownUnhijack d (List.mem_append_right _ hd)
      rw [buildDnsHijackCleanupIptablesScript,final_commands_append fun d hd =>
        tolerant_cleanup f d (List.mem_append_left _ hd)]
      exact hacts.final (P := fun u : Net => FirewallRule.jump c.2 ∉ u.builtin (natPlace f c.1))
        (fun _ _ hc hs => builtin_gone hc hs) (jumps_erased hf hv c hc)
    exact rest_establishes hf hu (p := cleanDnsHijackRules .iptables) (by simp [clearRest])
      (fun _ _ hc hs => builtin_gone hc hs)
      (fun u hpart => hijack_establishes (Q := fun u : Net => FirewallRule.jump c.2 ∉
        u.builtin (natPlace f c.1)) hf (fun _ _ hc hs => builtin_gone hc hs) hstep hpart) h

end Firewall

end Whoisthat.TunCleanup
