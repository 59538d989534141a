import Whoisthat.ScriptTriples
import Whoisthat.StartRollback

/-!
# When a start succeeds

The firewall scripts succeed on any host. The rest needs the device name, the
interface, free destinations and a free metric for the TUN's default route, and
with these a start without faults succeeds if its proxy lists are tidy.
-/

set_option autoImplicit false

namespace Whoisthat.StartSuccess
open Whoisthat.ScriptRuns Whoisthat.ShellScripts Whoisthat.HostNetwork Whoisthat.NetworkChanges
open Whoisthat.ScriptTriples Whoisthat.IPLiterals Whoisthat.TunScripts Whoisthat.TunNetwork
open Whoisthat.ScriptScopes Whoisthat.OwnArtifacts Whoisthat.TunCleanup Whoisthat.RpFilterRestore
open Whoisthat.StartRollback
open Whoisthat.KillSwitchArming (FirewallBackend)

section Tables

variable {t : NftTable} {names : List String} {name : String} {s : Net}

def HasChains (t : NftTable) (names : List String) (s : Net) : Prop :=
  ∃ cs, s.nft t = some cs ∧ ∀ name ∈ names, Network.hasChain name cs = true

theorem addTable_chains (s : Net) : ∃ u, s.addTable t = some u ∧ HasChains t [] u :=
  ⟨_,rfl,_,Function.update_self _ _ _,by simp⟩

theorem addChain_chains (spec : String) (h : HasChains t names s) :
    ∃ u, s.addChain t name spec = some u ∧ HasChains t (name::names) u := by
  obtain ⟨cs,hcs,hnames⟩ := h
  have hchain : ∀ extra : List (NftChain FirewallRule), ∀ name' ∈ names,
      Network.hasChain name' (cs ++ extra) = true := by
    intro extra name' hn
    rw [Network.hasChain,List.any_append,Bool.or_eq_true]
    exact Or.inl (hnames name' hn)
  rw [Network.addChain,Network.editTable,hcs]
  refine ⟨_,rfl,_,Function.update_self _ _ _,?_⟩
  intro name' hn
  split_ifs with hhas
  · rcases List.mem_cons.mp hn with rfl | hn
    · exact hhas
    · exact hnames name' hn
  · rcases List.mem_cons.mp hn with rfl | hn
    · simp [Network.hasChain]
    · exact hchain _ name' hn

theorem editChain_chains {edit : List FirewallRule → List FirewallRule} (hn : name ∈ names)
    (h : HasChains t names s) : ∃ u, s.editChain t name edit = some u ∧ HasChains t names u := by
  obtain ⟨cs,hcs,hnames⟩ := h
  rw [Network.editChain,Network.editTable,hcs,Option.bind_some,if_pos (hnames name hn)]
  refine ⟨_,rfl,_,Function.update_self _ _ _,?_⟩
  intro name' hn'
  obtain ⟨c,hc,hname⟩ := List.any_eq_true.mp (hnames name' hn')
  refine List.any_eq_true.mpr ⟨_,List.mem_map_of_mem hc,?_⟩
  split_ifs <;> exact hname

theorem achieves_rules {rs : List FirewallRule} (hn : name ∈ names) :
    Achieves (HasChains t names) (commands (rs.map fun r => must (Network.addNftRule t name r)))
      (HasChains t names) := by
  apply achieves_commands
  intro c hc
  obtain ⟨r,-,rfl⟩ := List.mem_map.mp hc
  exact achieves_must fun s hs => editChain_chains hn hs

theorem achieves_deleteTables {P : Net → Prop} (hP : ∀ s t, P s → P (s.dropTable t))
    (ts : List NftTable) :
    Achieves P (commands (ts.map fun t => may (Network.deleteTable t))) P := by
  apply achieves_commands
  intro c hc
  obtain ⟨t,-,rfl⟩ := List.mem_map.mp hc
  exact achieves_may fun s hs => by rw [deleteTable_getD]; exact hP s t hs

theorem achieves_conntrackNft (f : Family) (iface : String) :
    Achieves (fun _ => True) (commands (setupConntrackNft f iface)) fun _ => True := by
  apply achieves_seq (achieves_must fun s _ => addTable_chains s)
  apply achieves_seq (achieves_must fun s hs => addChain_chains _ hs)
  apply achieves_seq (achieves_must fun s hs => addChain_chains _ hs)
  have hrules : ∀ rs : List (String × FirewallRule), (∀ r ∈ rs, r.1 ∈ ["output","prerouting"]) →
      Achieves (HasChains (mangleTable f) ["output","prerouting"])
        (commands (rs.map fun r => must (Network.addNftRule (mangleTable f) r.1 r.2)))
        (HasChains (mangleTable f) ["output","prerouting"]) := by
    intro rs hrs
    apply achieves_commands
    intro c hc
    obtain ⟨r,hr,rfl⟩ := List.mem_map.mp hc
    exact achieves_must fun s hs => editChain_chains (hrs r hr) hs
  exact achieves_weaken (hrules [("prerouting",.tagInbound iface),("prerouting",.restoreMark),
    ("output",.restoreMark)] (by simp)) (fun _ h => h) fun _ _ => trivial

theorem achieves_conntrack (b : FirewallBackend) (iface : String) :
    Achieves (fun _ => True) (setupConntrackRules b iface) fun _ => True := by
  cases b with
  | nftables =>
    exact achieves_append (achieves_deleteTables (fun _ _ _ => trivial) _)
      (achieves_append (achieves_conntrackNft .v4 iface) (achieves_conntrackNft .v6 iface))
  | iptables =>
    apply achieves_commands
    intro c hc
    obtain ⟨f,-,hc⟩ := List.mem_flatMap.mp hc
    obtain ⟨r,-,rfl⟩ := List.mem_map.mp hc
    exact achieves_must fun s _ => ⟨_,rfl,trivial⟩

theorem achieves_hijackNft (f : Family) (iface : String) (d : DnsHijack) (sink : IP) :
    Achieves (fun _ => True) (buildDnsHijackNftScript f iface d sink) fun _ => True := by
  have hstart : Achieves (fun _ => True) (commands
      [may (Network.deleteTable (hijackTable f)),must (Network.addTable (hijackTable f)),
        must (Network.addChain (hijackTable f) "prerouting"
          "type nat hook prerouting priority -100;"),
        must (Network.addChain (hijackTable f) "output" "type nat hook output priority -100;")])
      (HasChains (hijackTable f) ["output","prerouting"]) := by
    apply achieves_seq (achieves_may (Q := fun _ => True) fun _ _ => trivial)
    apply achieves_seq (achieves_must fun s _ => addTable_chains s)
    apply achieves_seq (achieves_must fun s hs => addChain_chains _ hs)
    exact achieves_seq (achieves_must fun s hs => addChain_chains _ hs) achieves_done
  rw [buildDnsHijackNftScript]
  cases d.legacy with
  | true =>
    have hpost : Achieves (HasChains (hijackTable f) ["output","prerouting"]) (commands
        [must (Network.addChain (hijackTable f) "postrouting"
          "type nat hook postrouting priority 100;")])
        (HasChains (hijackTable f) ["postrouting","output","prerouting"]) :=
      achieves_seq (achieves_must fun s hs => addChain_chains _ hs) achieves_done
    refine achieves_weaken (achieves_append (achieves_append (achieves_append
      (achieves_append hstart hpost) (achieves_rules (by simp))) (achieves_rules (by simp)))
      (achieves_rules (by simp))) (fun _ h => h) fun _ _ => trivial
  | false =>
    refine achieves_weaken (achieves_append (achieves_append (achieves_append
      (achieves_append hstart achieves_done) (achieves_rules (by simp))) (achieves_rules (by simp)))
      (achieves_rules (by simp))) (fun _ h => h) fun _ _ => trivial

end Tables

section Chains

variable {f : Family} {cs : List (String × String)} {s t : Net}

/-- The chains of the redirect are there. -/
def Chained (f : Family) (cs : List (String × String)) (s : Net) : Prop :=
  ∀ c ∈ cs, (s.chains (natPlace f c.2)).isSome

theorem chained_set (h : Chained f cs s) (k : ChainPlace) (rs : List FirewallRule) :
    Chained f cs (s.setChain k (some rs)) := by
  intro c hc
  by_cases hk : natPlace f c.2 = k
  · simp [Network.setChain,hk]
  · simpa [Network.setChain,hk] using h c hc

/-- Made if it is not there, and emptied. -/
theorem achieves_newChain (c : String × String) :
    Achieves (Chained f cs) (commands [may (Network.newChain (natPlace f c.2)),
      must (Network.emptyChain (natPlace f c.2))]) (Chained f (cs ++ [c])) := by
  have hmade : Achieves (Chained f cs) (.command (may (Network.newChain (natPlace f c.2))))
      fun s => Chained f cs s ∧ (s.chains (natPlace f c.2)).isSome := by
    apply achieves_may
    intro s hs
    rw [Network.newChain]
    split_ifs with hsome
    · exact ⟨hs,hsome⟩
    · exact ⟨chained_set hs _ _,by simp [Network.setChain]⟩
  apply achieves_seq hmade
  refine achieves_seq (achieves_must fun s hs => ?_) achieves_done
  obtain ⟨rs,hrs⟩ := Option.isSome_iff_exists.mp hs.2
  refine ⟨_,by rw [Network.emptyChain,hrs]; rfl,?_⟩
  intro c' hc'
  rcases List.mem_append.mp hc' with hc' | hc'
  · exact chained_set hs.1 _ _ c' hc'
  · rw [List.mem_singleton.mp hc']
    simp [Network.setChain]

theorem achieves_newChains (ds : List (String × String)) :
    Achieves (Chained f cs) (commands (ds.flatMap fun c =>
      [may (Network.newChain (natPlace f c.2)),must (Network.emptyChain (natPlace f c.2))]))
      (Chained f (cs ++ ds)) := by
  induction ds generalizing cs with
  | nil =>
    rw [List.append_nil]
    exact achieves_done
  | cons d ds ih =>
    rw [List.flatMap_cons,List.append_cons]
    exact achieves_append (achieves_newChain d) ih

theorem achieves_ensureJump {c : String × String} (hc : c ∈ cs) :
    Achieves (Chained f cs) (ensureJump (natPlace f c.1) (.jump c.2)) (Chained f cs) := by
  apply achieves_read
  intro s hs
  split_ifs
  · exact ⟨rfl,hs⟩
  · refine achieves_must (fun s hs => ?_) s hs
    obtain ⟨rs,hrs⟩ := Option.isSome_iff_exists.mp (hs c hc)
    refine ⟨_,if_pos ?_,hs⟩
    exact Option.isSome_iff_exists.mpr ⟨rs,hrs⟩

theorem achieves_appendChain {c : String × String} (hc : c ∈ cs) (rs : List FirewallRule) :
    Achieves (Chained f cs) (commands (rs.map fun r => must (Network.appendChain (natPlace f c.2) r)))
      (Chained f cs) := by
  apply achieves_commands
  intro e he
  obtain ⟨r,-,rfl⟩ := List.mem_map.mp he
  apply achieves_must
  intro s hs
  obtain ⟨old,hold⟩ := Option.isSome_iff_exists.mp (hs c hc)
  exact ⟨_,by rw [Network.appendChain,hold]; rfl,chained_set hs _ _⟩

theorem achieves_hijackIptables (f : Family) (iface : String) (d : DnsHijack) (sink : IP) :
    Achieves (fun _ => True) (buildDnsHijackIptablesScript f iface d sink) fun _ => True := by
  generalize hcs : (if d.legacy then dnsChains else dnsChains.take 2) = cs
  have hout : ("OUTPUT","WHOISTHAT_DNS_OUT") ∈ cs := by
    rw [← hcs]
    split_ifs <;> simp [dnsChains]
  have hpre : ("PREROUTING","WHOISTHAT_DNS_PRE") ∈ cs := by
    rw [← hcs]
    split_ifs <;> simp [dnsChains]
  have hpost : Achieves (Chained f cs) (commands ((if d.legacy then masquerades iface sink else []).map
      fun r => must (Network.appendChain (natPlace f "WHOISTHAT_DNS_POST") r))) (Chained f cs) := by
    cases hl : d.legacy with
    | false => exact achieves_done
    | true =>
      apply @achieves_appendChain f cs ("POSTROUTING","WHOISTHAT_DNS_POST")
      rw [← hcs,hl]
      simp [dnsChains]
  have hjumps : Achieves (Chained f cs)
      (sequence (cs.map fun c => ensureJump (natPlace f c.1) (.jump c.2))) (Chained f cs) := by
    apply achieves_sequence
    intro p hp
    obtain ⟨c,hc,rfl⟩ := List.mem_map.mp hp
    exact achieves_ensureJump hc
  have hnew : Achieves (fun _ => True) (commands (cs.flatMap fun c =>
      [may (Network.newChain (natPlace f c.2)),must (Network.emptyChain (natPlace f c.2))]))
      (Chained f cs) :=
    achieves_weaken (@achieves_newChains f [] cs) (fun _ _ _ hc => by cases hc) fun _ h => h
  rw [buildDnsHijackIptablesScript,hcs]
  apply achieves_seq hnew
  apply achieves_seq hjumps
  apply achieves_seq (achieves_appendChain hout _)
  apply achieves_seq (achieves_appendChain hout _)
  apply achieves_seq (achieves_appendChain hpre _)
  exact achieves_weaken (achieves_seq hpost achieves_done) (fun _ h => h) fun _ _ => trivial

theorem achieves_hijack (b : FirewallBackend) (iface : String) (d : DnsHijack) :
    Achieves (fun _ => True) (setupDnsHijackRules b iface d) fun _ => True := by
  rw [setupDnsHijackRules]
  split_ifs
  · apply achieves_joined
    intro p hp
    obtain ⟨f,-,rfl⟩ := List.mem_map.mp hp
    rw [setupDnsHijackFamily]
    cases (sanitizeDnsHijack d).sink f with
    | none => exact achieves_done
    | some sink =>
      cases b with
      | nftables => exact achieves_hijackNft f iface _ sink
      | iptables => exact achieves_hijackIptables f iface _ sink
  · exact achieves_done

end Chains

section Standing

variable {b : FirewallBackend} {m : Manager} {n s t : Net} {f : Family}

/-- The TUN is there, not yet with its default routes. -/
structure Standing (b : FirewallBackend) (m : Manager) (n s : Net) : Prop
    extends Partial b m n s where
  device : (s.devices m.tunName).isSome
  default : ∀ f, ∀ r ∈ s.routes (mainDefault f), r.dev ≠ some m.tunName

/-- No device comes or goes, and the default routes of the main table stay. -/
def standScope : Scope IP FirewallRule := { Scope.anything IP FirewallRule with
  add := fun p _ => ∀ f, p ≠ mainDefault f
  replace := fun p _ => ∀ f, p ≠ mainDefault f
  device := fun _ => False
  undevice := fun _ => False }

theorem device_stands {d : String} (hc : Change standScope s t) (h : (s.devices d).isSome) :
    (t.devices d).isSome := by
  cases hc with
  | addRule _ hadd =>
    obtain ⟨_,rfl⟩ := addRule_cases hadd
    exact h
  | addRoute _ hadd =>
    obtain ⟨-,-,rfl⟩ := addRoute_cases hadd
    exact h
  | replaceRoute _ hrep =>
    obtain ⟨-,rfl⟩ := replaceRoute_cases hrep
    exact h
  | addDevice hd _ => exact hd.elim
  | setDevice _ hd _ => exact hd.elim
  | dropDevice _ hd => exact hd.elim
  | _ => exact h

theorem default_stands {r : Route IP} (hc : Change standScope s t)
    (h : r ∈ t.routes (mainDefault f)) : r ∈ s.routes (mainDefault f) := by
  cases hc with
  | addRule _ hadd =>
    obtain ⟨_,rfl⟩ := addRule_cases hadd
    exact h
  | addRoute hr hadd =>
    obtain ⟨-,-,rfl⟩ := addRoute_cases hadd
    rwa [setRoutes_routes,if_neg (Ne.symm (hr f))] at h
  | replaceRoute hr hrep =>
    obtain ⟨-,rfl⟩ := replaceRoute_cases hrep
    rwa [setRoutes_routes,if_neg (Ne.symm (hr f))] at h
  | @delRoute p q _ _ =>
    rw [Network.dropRoute,setRoutes_routes] at h
    split_ifs at h with hp
    · exact hp ▸ List.mem_of_mem_eraseP h
    · exact h
  | flush s _ =>
    rw [flushRoutes_routes] at h
    split_ifs at h
    · cases h
    · exact h
  | addDevice hd _ => exact hd.elim
  | setDevice _ hd _ => exact hd.elim
  | dropDevice _ hd => exact hd.elim
  | _ => exact h

theorem standBase (b : FirewallBackend) (m : Manager) : AllowsBase standScope b m where
  del _ _ _ _ _ := trivial
  link := trivial
  add _ _ _ _ _ f := by simp [mainHost,mainDefault]
  conntrack := ⟨⟨fun _ _ _ => trivial,fun _ _ _ _ => trivial⟩,fun _ _ => trivial,
    fun _ _ _ _ => trivial⟩
  hijack := ⟨⟨fun _ _ => trivial,fun _ _ _ _ => trivial,fun _ _ _ _ => trivial⟩,fun _ _ => trivial,
    fun _ _ _ _ => trivial,fun _ _ _ _ => trivial⟩
  rule _ _ _ _ := trivial
  table _ _ _ := ⟨fun f => by simp [tableHost,mainDefault],fun f => by simp [tableDefault,mainDefault]⟩

/-- A step that cannot fail on a standing TUN leaves it standing. -/
theorem achieves_standing (hf : Fresh b m n) {p : Script Net}
    (hown : Acts (Change (ownScope b m n True True)) p) (hstand : Acts (Change standScope) p)
    (hok : ∀ s, Standing b m n s → p.succeeds s = true) :
    Achieves (Standing b m n) p (Standing b m n) := by
  intro s hs
  have hpart := hown.final (fun _ _ hc hs => partial_change hf hc hs) hs.toPartial
  have hdevice := hstand.final (P := fun s : Net => (s.devices m.tunName).isSome)
    (fun _ _ hc hs => device_stands hc hs) hs.device
  have hdefault := hstand.final
    (P := fun s : Net => ∀ f, ∀ r ∈ s.routes (mainDefault f), r.dev ≠ some m.tunName)
    (fun _ _ hc hs f r hr => hs f r (default_stands hc hr)) hs.default
  exact ⟨hok s hs,⟨hpart,hdevice,hdefault⟩⟩

theorem achieves_editDevice {d : String} {P : Net → Prop}
    (hP : ∀ s v, P s → P (s.setDevice d v)) (edit : Device IP → Device IP) :
    Achieves (fun s => (s.devices d).isSome ∧ P s) (.command (must (Network.editDevice d edit)))
      fun s => (s.devices d).isSome ∧ P s := by
  apply achieves_must
  rintro s ⟨hd,hs⟩
  obtain ⟨v,hv⟩ := Option.isSome_iff_exists.mp hd
  exact ⟨_,by rw [Network.editDevice,hv]; rfl,by simp [Network.setDevice],hP s _ hs⟩

theorem achieves_createTunOnce (hf : Fresh b m n) (hnamed : m.tunName ≠ "")
    (hshort : m.tunName.length ≤ 15) :
    Achieves (fun s => s = n) (createTunOnce m.tunName)
      fun s => (s.devices m.tunName).isSome ∧ s.routes = n.routes := by
  have hstart : Achieves (fun s => s = n) (.read fun s =>
      if (s.devices m.tunName).isSome then deleteTun m.tunName else .done) fun s => s = n := by
    apply achieves_read
    rintro s rfl
    simp [hf.device]
  have hadd : Achieves (fun s => s = n) (.command (must (Network.addDevice m.tunName)))
      fun s => (s.devices m.tunName).isSome ∧ s.routes = n.routes := by
    apply achieves_must
    rintro s rfl
    refine ⟨_,if_neg (by simp [hnamed,hshort,hf.device]),by simp,?_⟩
    funext p
    exact List.filter_eq_self.mpr fun r hr => by simpa using hf.routes p r hr
  have hedit := fun edit => @achieves_editDevice m.tunName (fun s => s.routes = n.routes)
    (fun _ _ hs => hs) edit
  apply achieves_seq hstart
  apply achieves_seq hadd
  apply achieves_seq (hedit _)
  apply achieves_seq (hedit _)
  apply achieves_seq (hedit _)
  exact achieves_seq (hedit _) achieves_done

theorem achieves_createTun (hf : Fresh b m n) (hnamed : m.tunName ≠ "")
    (hshort : m.tunName.length ≤ 15) (retries : ℕ) :
    Achieves (fun s => s = n) (createTun m.tunName retries)
      fun s => Standing b m n s ∧ s.routes = n.routes := by
  have hfirst : Achieves (fun s => s = n) (createTun m.tunName retries)
      fun s => (s.devices m.tunName).isSome ∧ s.routes = n.routes := by
    rw [createTun]
    cases min retries 4 with
    | zero => exact achieves_createTunOnce hf hnamed hshort
    | succ k => exact achieves_first (achieves_createTunOnce hf hnamed hshort)
  have hdevice : (ownScope b m n True True).device m.tunName := ⟨trivial,rfl⟩
  have hacts : Acts (Change (ownScope b m n True True)) (createTun m.tunName retries) :=
    acts_createTun hdevice rfl _
  rintro s rfl
  obtain ⟨hok,hdev,hroutes⟩ := hfirst s rfl
  have hpart := hacts.final (fun _ _ hc hs => partial_change hf hc hs) (partial_self hf)
  exact ⟨hok,⟨hpart,hdev,fun f r hr => hf.routes _ r (hroutes ▸ hr)⟩,hroutes⟩

end Standing

section Hosts

variable {b : FirewallBackend} {m : Manager} {n s : Net} {f : Family}

/-- Different destinations that are free can all be added. -/
theorem addVias_final {gateway : Option IP} {ips : List IP} (hnd : ips.Nodup)
    (h : ∀ ip ∈ ips, gateway.isSome ∧ ∀ r ∈ s.routes (mainHost f ip), r.metric ≠ defaultMetric f) :
    (commands (ips.map (addVia f gateway))).succeeds s = true ∧
    ∀ p, (∀ ip ∈ ips, p ≠ mainHost f ip) →
      ((commands (ips.map (addVia f gateway))).final s).routes p = s.routes p := by
  induction ips generalizing s with
  | nil => exact ⟨rfl,fun _ _ => rfl⟩
  | cons ip ips ih =>
    obtain ⟨hnew,hnd⟩ := List.nodup_cons.mp hnd
    obtain ⟨hg,hfree⟩ := h ip List.mem_cons_self
    obtain ⟨g,rfl⟩ := Option.isSome_iff_exists.mp hg
    have hadd : (addVia f (some g) ip).run s = some (s.setRoutes (mainHost f ip)
        (Network.insertRoute (via f g) (s.routes (mainHost f ip)))) := addRoute_some rfl hfree
    have hone : (Script.command (addVia f (some g) ip)).succeeds s = true := by
      rw [succeeds_command,hadd]
      rfl
    have hfinal : (Script.command (addVia f (some g) ip)).final s = s.setRoutes (mainHost f ip)
        (Network.insertRoute (via f g) (s.routes (mainHost f ip))) := by
      rw [final_command,hadd]
      rfl
    rw [List.map_cons,commands_cons,seq_ok,final_seq_ok hone,hfinal]
    obtain ⟨hok,hsame⟩ := @ih (s.setRoutes (mainHost f ip)
        (Network.insertRoute (via f g) (s.routes (mainHost f ip)))) hnd (by
      intro ip' hip'
      have hne : mainHost f ip' ≠ mainHost f ip := fun he => hnew ((mainHost_inj he).2 ▸ hip')
      rw [setRoutes_routes,if_neg hne]
      exact h ip' (List.mem_cons_of_mem ip hip'))
    refine ⟨⟨hone,hok⟩,?_⟩
    intro p hp
    rw [hsame p fun ip' hip' => hp ip' (List.mem_cons_of_mem ip hip'),setRoutes_routes,
      if_neg (hp ip List.mem_cons_self)]

theorem hosts_added {gateway gateway6 : Option IP} {ips ips6 : List IP} (hnd : ips.Nodup)
    (hnd6 : ips6.Nodup) (h : ∀ ip ∈ ips, gateway.isSome ∧
      ∀ r ∈ s.routes (mainHost .v4 ip), r.metric ≠ defaultMetric .v4)
    (h6 : ∀ ip ∈ ips6, gateway6.isSome ∧
      ∀ r ∈ s.routes (mainHost .v6 ip), r.metric ≠ defaultMetric .v6) :
    (commands (ips.map (addVia .v4 gateway) ++ ips6.map (addVia .v6 gateway6))).succeeds s = true := by
  have hfour : Achieves (fun u => u = s) (commands (ips.map (addVia .v4 gateway)))
      fun u => ∀ ip, u.routes (mainHost .v6 ip) = s.routes (mainHost .v6 ip) := by
    rintro u rfl
    obtain ⟨hok,hsame⟩ := addVias_final hnd h
    exact ⟨hok,fun ip => hsame _ fun ip' _ => by simp [mainHost]⟩
  have hsix : Achieves (fun u : Net => ∀ ip, u.routes (mainHost .v6 ip) = s.routes (mainHost .v6 ip))
      (commands (ips6.map (addVia .v6 gateway6))) fun _ => True := by
    intro u hu
    exact ⟨(addVias_final hnd6 fun ip hip => by rw [hu ip]; exact h6 ip hip).1,trivial⟩
  exact (achieves_append hfour hsix s rfl).1

end Hosts

section Succeeding

variable {b : FirewallBackend} {m : Manager} {n s t : Net} {f : Family}

/-- Nothing outside the proxy lists is in the way of a start. -/
structure Ready (mode : String) (m : Manager) (n : Net) : Prop extends Addable m n where
  iface : (n.devices m.defaultInterface).isSome
  default : mode ≠ "include" → ∀ f, ∀ r ∈ n.routes (mainDefault f), r.metric ≠ 1

theorem proxies_succeed (htidy : Tidy m) (hadd : Addable m n) (hg : m.defaultInterfaceIp.isSome)
    (hs : s.routes = n.routes) : (setupProxyIpRoutes m.proxyIpv4s m.proxyIpv6s m.defaultInterfaceIp
      m.defaultInterfaceIpv6).succeeds s = true := by
  apply hosts_added htidy.v4 htidy.v6
  · intro ip hip
    exact ⟨hg,fun r hr => hadd.free .v4 ip (@proxy_mem m ip .v4 hip) r (hs ▸ hr)⟩
  · intro ip hip
    refine ⟨?_,fun r hr => hadd.free .v6 ip (@proxy_mem m ip .v6 hip) r (hs ▸ hr)⟩
    rw [Option.isSome_iff_ne_none]
    intro hnone
    rw [htidy.gateway hnone] at hip
    cases hip

theorem dnsHosts4_nodup (h : m.defaultInterfaceIp.isSome → m.dnsHijack.sink4 ≠ some stubResolver) :
    (dnsHosts4 m.dnsHijack.sink4 m.defaultInterfaceIp).Nodup := by
  cases hs : m.dnsHijack.sink4 with
  | none => exact List.nodup_nil
  | some ip =>
    cases hg : m.defaultInterfaceIp with
    | none => exact List.nodup_nil
    | some g =>
      have hne : ip ≠ stubResolver := by
        rintro rfl
        exact h (by simp [hg]) hs
      simpa [dnsHosts4] using hne

theorem dnsHosts6_nodup (sink gateway : Option IP) : (dnsHosts6 sink gateway).Nodup := by
  cases sink <;> cases gateway <;> simp [dnsHosts6]

theorem dnsHosts4_gateway {sink gateway : Option IP} {ip : IP} (h : ip ∈ dnsHosts4 sink gateway) :
    gateway.isSome := by
  cases sink <;> cases gateway <;> simp [dnsHosts4] at h ⊢

theorem dnsHosts6_gateway {sink gateway : Option IP} {ip : IP} (h : ip ∈ dnsHosts6 sink gateway) :
    gateway.isSome := by
  cases sink <;> cases gateway <;> simp [dnsHosts6] at h ⊢

/-- The deletions before make place even for the address of a proxy. -/
theorem legacy_succeeds (hf : Fresh b m n) (hu : Unrouted m n) (hadd : Addable m n)
    (h : Partial b m n s) : (setupLegacyRoutes m).succeeds s = true := by
  rw [setupLegacyRoutes]
  split_ifs with hl
  · rw [seq_ok,succeeds_tolerate,final_tolerate]
    refine ⟨rfl,?_⟩
    apply hosts_added (dnsHosts4_nodup (hadd.stub hl)) (dnsHosts6_nodup _ _)
    · intro ip hip
      obtain ⟨g,hg⟩ := Option.isSome_iff_exists.mp (dnsHosts4_gateway hip)
      have hhost : ip ∈ legacyHosts m .v4 := by simp [legacyHosts,hl,hip]
      rw [legacyRoutes_erased hf hu (f := .v4) hg hhost h]
      exact ⟨by simp [hg],hadd.free .v4 ip (legacy4_mem hl hip)⟩
    · intro ip hip
      obtain ⟨g,hg⟩ := Option.isSome_iff_exists.mp (dnsHosts6_gateway hip)
      have hhost : ip ∈ legacyHosts m .v6 := by simp [legacyHosts,hl,hip]
      rw [legacyRoutes_erased hf hu (f := .v6) hg hhost h]
      exact ⟨by simp [hg],hadd.free .v6 ip (legacy6_mem hl hip)⟩
  · rfl

theorem saveRpFilter_succeeds (d iface : String) (written : Bool) (s : Net) :
    (saveRpFilter d iface written).succeeds s = true := by
  rw [saveRpFilter,succeeds_read]
  split_ifs
  · rfl
  · rw [succeeds_command]
    rfl

/-- Only the TUN's own value decides. -/
theorem loosen_succeeds (hf : Fresh b m n) (iface : String) (written : Bool)
    (h : Standing b m n s) : (loosenRpFilter m.tunName iface written).succeeds s = true := by
  have hown : ∀ {p}, Acts (Change (ownScope b m n True True)) p → Acts (Change standScope) p →
      p = saveRpFilter m.tunName iface written ∨ p = .tolerate (loosen iface) →
      Achieves (Standing b m n) p (Standing b m n) := by
    intro p hp hp' hcase
    apply achieves_standing hf hp hp'
    intro s _
    rcases hcase with rfl | rfl
    · exact saveRpFilter_succeeds _ _ _ s
    · rfl
  have hlast : Achieves (Standing b m n) (loosen m.tunName) fun _ => True := by
    apply achieves_read
    intro s hs
    rw [if_pos hs.device]
    have hsome : (s.rpFilter m.tunName).isSome := by
      rw [Option.isSome_iff_ne_none]
      intro hnone
      simpa [hs.gone.mpr hnone] using hs.device
    obtain ⟨v,hv⟩ := Option.isSome_iff_exists.mp hsome
    exact ⟨by simp [must,Network.setRpFilter,hv],trivial⟩
  have hall := achieves_seq
    (hown (acts_saveRpFilter trivial _ _) (acts_saveRpFilter trivial _ _) (Or.inl rfl))
    (achieves_seq (hown (acts_tolerate (acts_loosen trivial _)) (acts_tolerate (acts_loosen trivial _))
      (Or.inr rfl)) hlast)
  exact (hall s h).1

theorem addBypass_succeeds {sel : Selector} {d : String} {g : IP} (hd : (s.devices d).isSome) :
    (addBypassRouting f sel d (some g)).succeeds s = true := by
  have hall : Achieves (fun s : Net => (s.devices d).isSome) (addBypassRouting f sel d (some g))
      fun s => (s.devices d).isSome := by
    apply achieves_seq (R := fun s : Net => (s.devices d).isSome)
    · apply achieves_may
      intro s hs
      cases hadd : s.addRule f ⟨sel,100⟩ with
      | none => exact hs
      | some t =>
        obtain ⟨_,rfl⟩ := addRule_cases hadd
        exact hs
    apply achieves_seq (R := fun s : Net => (s.devices d).isSome)
    · exact achieves_must fun s hs => ⟨_,replaceRoute_some hs,hs⟩
    exact achieves_seq (achieves_must fun s hs => ⟨_,replaceRoute_some rfl,hs⟩) achieves_done
  exact (hall s hd).1

/-- The interface is the host's own device. -/
theorem standing_iface (hf : Fresh b m n) (hi : (n.devices m.defaultInterface).isSome)
    (h : Partial b m n s) : (s.devices m.defaultInterface).isSome := by
  have hne : m.defaultInterface ≠ m.tunName := by
    intro he
    rw [he,hf.device] at hi
    cases hi
  rw [h.devices _ hne]
  exact hi

theorem marks_succeed (hf : Fresh b m n) (hu : Unrouted m n) (hg : m.defaultInterfaceIp.isSome)
    (hi : (n.devices m.defaultInterface).isSome) :
    Achieves (Standing b m n) (setupMarks b m) (Standing b m n) := by
  have hbase : AllowsBase (ownScope b m n True True) b m := ownBase hf hu
  have hstand := standBase b m
  obtain ⟨g,hg⟩ := Option.isSome_iff_exists.mp hg
  have huid : Sure (addUidRoutes m) := by
    rw [addUidRoutes]
    split_ifs
    · exact sure_seq (sure_tolerate _) (sure_tolerate _)
    · exact sure_seq (sure_tolerate _) sure_done
    · exact sure_done
  have hresolved : Sure (setupResolved m) := by
    rw [setupResolved]
    split_ifs
    · cases m.dnsHijack.sink4 with
      | none => exact sure_done
      | some ip =>
        rw [setupResolvectlDns]
        split_ifs
        · exact sure_done
        · apply sure_commands
          intro c hc
          simp only [List.mem_cons,List.not_mem_nil,or_false] at hc
          rcases hc with rfl | rfl <;> rfl
    · exact sure_done
  apply achieves_seq
  · apply achieves_standing hf
      (acts_addBypassRouting (hbase.rule .v4 _ (fwmark_bypass m) (Or.inl rfl)) (hbase.table .v4))
      (acts_addBypassRouting (hstand.rule .v4 _ (fwmark_bypass m) (Or.inl rfl)) (hstand.table .v4))
    intro s hs
    have hgate : m.gateway .v4 = some g := hg
    rw [hgate]
    exact addBypass_succeeds (standing_iface hf hi hs.toPartial)
  apply achieves_seq
  · apply achieves_standing hf (acts_addFwmark6 hbase) (acts_addFwmark6 hstand)
    intro s hs
    rw [addFwmark6]
    split_ifs with h6
    · obtain ⟨g6,hg6⟩ := Option.isSome_iff_exists.mp h6
      rw [hg6]
      exact addBypass_succeeds (standing_iface hf hi hs.toPartial)
    · rfl
  apply achieves_seq
  · exact achieves_standing hf (acts_setupConntrackRules hbase.conntrack)
      (acts_setupConntrackRules hstand.conntrack) fun s _ => (achieves_conntrack b _ s trivial).1
  apply achieves_seq
  · exact achieves_standing hf (acts_addUidRoutes hbase) (acts_addUidRoutes hstand)
      fun s _ => huid [] s
  apply achieves_seq
  · exact achieves_standing hf (acts_setupDnsHijackRules hbase.hijack _ _)
      (acts_setupDnsHijackRules hstand.hijack _ _) fun s _ => (achieves_hijack b _ _ s trivial).1
  apply achieves_seq _ achieves_done
  exact achieves_standing hf (acts_setupResolved hbase.link) (acts_setupResolved hstand.link)
    fun s _ => hresolved [] s

theorem standing_default (h : Standing b m n s) (f : Family) :
    s.routes (mainDefault f) = n.routes (mainDefault f) := by
  rcases h.routes (mainDefault f) with hs | hs | ⟨r,hr,hs⟩
  · simp [splitPlace,mainDefault] at hs
  · exact hs
  · have hmem : r ∈ s.routes (mainDefault f) := hs ▸ mem_insertRoute.mpr (Or.inl rfl)
    rw [installs_unique hr (.tun f)] at hmem
    exact absurd (by cases f <;> rfl) (h.default f _ hmem)

/-- The TUN and the interface. -/
def Linked (m : Manager) (s : Net) : Prop :=
  (s.devices m.tunName).isSome ∧ (s.devices m.defaultInterface).isSome

theorem linked_stands (hc : Change standScope s t) (h : Linked m s) : Linked m t :=
  ⟨device_stands hc h.1,device_stands hc h.2⟩

theorem achieves_tunRoutes (hf : Fresh b m n) {mode : String} (hr : Ready mode m n) :
    Achieves (Standing b m n) (setupTunRoutes mode m) (Linked m) := by
  have hlinked : ∀ s, Standing b m n s → Linked m s :=
    fun s hs => ⟨hs.device,standing_iface hf hr.iface hs.toPartial⟩
  rw [setupTunRoutes]
  split_ifs with hmode
  · exact achieves_weaken achieves_done (fun _ h => h) hlinked
  · have hone : ∀ f, (tunDefault f m.tunName).dev = some m.tunName ∧
        (tunDefault f m.tunName).metric = 1 := fun f => by cases f <;> exact ⟨rfl,rfl⟩
    have hadd : ∀ f (u : Net), Linked m u → u.routes (mainDefault f) = n.routes (mainDefault f) →
        ∃ t, u.addRoute (mainDefault f) (tunDefault f m.tunName) = some t ∧ (Linked m t ∧
          ∀ f', f' ≠ f → t.routes (mainDefault f') = u.routes (mainDefault f')) := by
      intro f u hu hroutes
      refine ⟨_,addRoute_some ?_ ?_,hu,?_⟩
      · rw [Network.hasDevice,(hone f).1]
        exact hu.1
      · intro r' hr'
        rw [(hone f).2]
        exact hr.default hmode f r' (hroutes ▸ hr')
      · intro f' hne
        rw [setRoutes_routes,if_neg fun he => hne (congrArg Place.family he)]
    have hfour : Achieves (Standing b m n) (setupTunIpRoute .v4 m.tunName) fun u => Linked m u ∧
        u.routes (mainDefault .v6) = n.routes (mainDefault .v6) := by
      apply achieves_must
      intro u hu
      obtain ⟨t,ht,hlink,hsame⟩ := hadd .v4 u (hlinked u hu) (standing_default hu .v4)
      exact ⟨t,ht,hlink,(hsame .v6 (by simp)).trans (standing_default hu .v6)⟩
    apply achieves_seq hfour
    apply achieves_must
    intro u hu
    obtain ⟨t,ht,hlink,-⟩ := hadd .v6 u hu.1 hu.2
    exact ⟨t,ht,hlink⟩

theorem achieves_marking (mark uid : ℕ) (r : FirewallRule) :
    Achieves (fun _ => True) (commands (splitMarking mark uid r)) fun _ => True := by
  have hmay : ∀ {Q : Net → Prop} {s : Net} {o : Option Net}, (∃ u, o = some u ∧ Q u) →
      Q (o.getD s) := by
    rintro Q s o ⟨u,rfl,hu⟩
    exact hu
  have hstart : Achieves (fun _ => True) (commands [may (Network.addTable splitTable),
      may (Network.addChain splitTable "output"
        "type route hook output priority -150; policy accept;"),
      must (Network.flushChain splitTable "output")]) (HasChains splitTable ["output"]) := by
    apply achieves_seq (achieves_may fun s _ => hmay (addTable_chains s))
    apply achieves_seq (achieves_may fun s hs => hmay (addChain_chains _ hs))
    exact achieves_seq (achieves_must fun s hs => editChain_chains (by simp) hs) achieves_done
  have hslices : Achieves (HasChains splitTable ["output"]) (commands ((splitCgroupRelPaths uid).map
      fun path => must (Network.addNftRule splitTable "output"
        (.markSlice (splitCgroupLevel path) path mark)))) (HasChains splitTable ["output"]) := by
    apply achieves_commands
    intro c hc
    obtain ⟨path,-,rfl⟩ := List.mem_map.mp hc
    exact achieves_must fun s hs => editChain_chains (by simp) hs
  refine achieves_append (achieves_append hstart hslices) ?_
  apply achieves_seq (achieves_may fun s hs => hmay (addChain_chains _ hs))
  apply achieves_seq (achieves_must fun s hs => editChain_chains (by simp) hs)
  exact achieves_weaken (achieves_seq (achieves_must fun s hs => editChain_chains (by simp) hs)
    achieves_done) (fun _ h => h) fun _ _ => trivial

theorem achieves_split (hg : m.defaultInterfaceIp.isSome) (mode : String) (uid : ℕ) :
    Achieves (Linked m) (applySplitRules mode uid m) fun _ => True := by
  obtain ⟨g,hg⟩ := Option.isSome_iff_exists.mp hg
  have hmarks : ∀ mark r, Achieves (Linked m) (commands (splitMarking mark uid r)) (Linked m) := by
    intro mark r
    have hacts : Acts (Change standScope) (commands (splitMarking mark uid r)) :=
      acts_splitMarking trivial mark uid r
    exact achieves_weaken (achieves_frame (achieves_marking mark uid r) hacts
      fun _ _ hc hs => linked_stands hc hs) (fun _ h => ⟨trivial,h⟩) fun _ h => h.2
  have hinclude : ∀ f, Achieves (Linked m) (commands (includeRouting f m.tunName)) (Linked m) := by
    intro f
    apply achieves_seq (R := Linked m)
    · apply achieves_may
      intro s hs
      cases hadd : s.addRule f includeRule with
      | none => exact hs
      | some t =>
        obtain ⟨_,rfl⟩ := addRule_cases hadd
        exact hs
    · exact achieves_seq (achieves_must fun s hs => ⟨_,replaceRoute_some hs.1,hs⟩) achieves_done
  have hblackhole : Sure (commands blackhole6) := by
    apply sure_commands
    intro c hc
    simp only [blackhole6,List.mem_cons,List.not_mem_nil,or_false] at hc
    rcases hc with rfl | rfl <;> rfl
  rw [applySplitRules]
  split_ifs
  · exact achieves_weaken achieves_done (fun _ h => h) fun _ _ => trivial
  rw [buildSplitSetupScript]
  by_cases he : mode = "exclude"
  · rw [if_pos he]
    apply achieves_seq (hmarks _ _)
    apply achieves_seq (R := fun _ => True)
    · split_ifs
      · rw [hg]
        exact fun s hs => ⟨addBypass_succeeds hs.2,trivial⟩
      · exact fun s _ => ⟨rfl,trivial⟩
    refine achieves_seq ?_ achieves_done
    split_ifs
    · exact achieves_done
    · exact achieves_sure hblackhole fun _ _ => trivial
  · rw [if_neg he]
    split_ifs
    · apply achieves_seq (hmarks _ _)
      apply achieves_seq (hinclude .v4)
      exact achieves_weaken (achieves_seq (hinclude .v6) achieves_done) (fun _ h => h)
        fun _ _ => trivial
    · exact fun s _ => ⟨rfl,trivial⟩

/-- Step by step a tidy start gets to its end. -/
theorem setup_succeeds (hf : Fresh b m n) (hu : Unrouted m n) (hg : m.defaultInterfaceIp.isSome)
    (htidy : Tidy m) {a : Answer} (hr : Ready a.splitMode m n) : (setup b a m).succeeds n = true := by
  have hbase : AllowsBase (ownScope b m n True True) b m := ownBase hf hu
  have hproxies : Achieves (fun s => Standing b m n s ∧ s.routes = n.routes)
      (setupProxyIpRoutes m.proxyIpv4s m.proxyIpv6s m.defaultInterfaceIp m.defaultInterfaceIpv6)
      (Standing b m n) := by
    have hown : Acts (Change (ownScope b m n True True)) (setupProxyIpRoutes m.proxyIpv4s
        m.proxyIpv6s m.defaultInterfaceIp m.defaultInterfaceIpv6) :=
      acts_setupProxyIpRoutes (fun ip hip => hbase.add .v4 ip (proxy_mem hip))
        fun ip hip => hbase.add .v6 ip (proxy_mem hip)
    have hstand : Acts (Change standScope) (setupProxyIpRoutes m.proxyIpv4s
        m.proxyIpv6s m.defaultInterfaceIp m.defaultInterfaceIpv6) :=
      acts_setupProxyIpRoutes (fun ip hip => (standBase b m).add .v4 ip (proxy_mem hip))
        fun ip hip => (standBase b m).add .v6 ip (proxy_mem hip)
    intro s hs
    have hok := proxies_succeed htidy hr.toAddable hg hs.2
    have hstay := achieves_standing (p := .tolerate (setupProxyIpRoutes m.proxyIpv4s m.proxyIpv6s
      m.defaultInterfaceIp m.defaultInterfaceIpv6)) hf (acts_tolerate hown) (acts_tolerate hstand)
      (fun _ _ => rfl)
    exact ⟨hok,(hstay s hs.1).2⟩
  have hlegacy : Achieves (Standing b m n) (setupLegacyRoutes m) (Standing b m n) :=
    achieves_standing hf (acts_setupLegacyRoutes hbase) (acts_setupLegacyRoutes (standBase b m))
      fun s hs => legacy_succeeds hf hu hr.toAddable hs.toPartial
  have hloose : Achieves (Standing b m n)
      (loosenRpFilter m.tunName m.defaultInterface a.stateWritten) (Standing b m n) :=
    achieves_standing hf (acts_loosenRpFilter trivial _ _) (acts_loosenRpFilter trivial _ _)
      fun s hs => loosen_succeeds hf _ _ hs
  have hall : Achieves (fun s => s = n) (setupBase b a m) (Standing b m n) := by
    rw [setupBase_eq]
    apply achieves_seq (achieves_createTun hf hr.named hr.short _)
    apply achieves_seq hproxies
    apply achieves_seq hlegacy
    exact achieves_seq hloose (marks_succeed hf hu hg hr.iface)
  exact (achieves_seq hall (achieves_seq (achieves_tunRoutes hf hr) (achieves_split hg _ _)) n rfl).1

end Succeeding

end Whoisthat.StartSuccess
