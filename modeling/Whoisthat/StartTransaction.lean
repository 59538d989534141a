import Whoisthat.StartSuccess

/-!
# Start as a transaction

On a host without leftovers a start leaves everything or nothing, a stop takes
everything back, and the proxy lists alone make no start fail, exactly when no
host route of an address is there before, the loosened value can be recorded
and the lists are tidy.
-/

set_option autoImplicit false

namespace Whoisthat.StartTransaction
open Whoisthat.ScriptRuns Whoisthat.ShellScripts Whoisthat.HostNetwork Whoisthat.NetworkChanges
open Whoisthat.ScriptTriples Whoisthat.IPLiterals Whoisthat.TunScripts Whoisthat.TunNetwork
open Whoisthat.ScriptScopes Whoisthat.OwnArtifacts Whoisthat.TunCleanup Whoisthat.RpFilterRestore
open Whoisthat.StartRollback Whoisthat.StartSuccess
open Whoisthat.KillSwitchArming (FirewallBackend)

section Statement

variable (d : Daemon) (a : Answer) (ipv4s ipv6s : List IP) (dns : DnsHijack) (t : Manager) (n : Net)

structure Transactional : Prop where
  failed : ∀ faults, (start d a faults ipv4s ipv6s dns t n).ok = false →
    (start d a faults ipv4s ipv6s dns t n).manager.isEnabled = false ∧
    (start d a faults ipv4s ipv6s dns t n).net = n
  stopped : ∀ faults, (start d a faults ipv4s ipv6s dns t n).ok = true →
    (stop d (start d a faults ipv4s ipv6s dns t n).manager
      (start d a faults ipv4s ipv6s dns t n).net).net = n
  started : ∀ l, a.link = some l → Ready a.splitMode (configured d a l ipv4s ipv6s dns t) n →
    (start d a [] ipv4s ipv6s dns t n).ok = true

structure Undisturbed : Prop where
  idle : t.isEnabled = false
  old : Unrouted t n
  new : ∀ l, a.link = some l → Unrouted (configured d a l ipv4s ipv6s dns t) n
  recordable : ∀ l, a.link = some l → Addable (configured d a l ipv4s ipv6s dns t) n →
    Tidy (configured d a l ipv4s ipv6s dns t) →
    Recordable a.stateWritten (configured d a l ipv4s ipv6s dns t) n
  tidy : ∀ l, a.link = some l → Ready a.splitMode (configured d a l ipv4s ipv6s dns t) n →
    Tidy (configured d a l ipv4s ipv6s dns t)

end Statement

section Clearing

variable {b : FirewallBackend} {m : Manager} {n s t : Net} {f : Family}

theorem sure_mays {α : Type} (xs : List α) (r : α → Net → Option Net) :
    Sure (commands (xs.map fun x => may (r x))) := by
  apply sure_commands
  intro c hc
  obtain ⟨x,-,rfl⟩ := List.mem_map.mp hc
  rfl

theorem sure_removeBypass (f : Family) (sel : Selector) (iface : String) (gateway : Option IP) :
    Sure (removeBypassRouting f sel iface gateway) := by
  apply sure_commands
  intro c hc
  simp only [List.mem_cons,List.not_mem_nil,or_false] at hc
  rcases hc with rfl | rfl | rfl <;> rfl

theorem sure_cleanHijack (b : FirewallBackend) : Sure (cleanDnsHijackRules b) := by
  cases b with
  | nftables => exact sure_mays _ _
  | iptables =>
    apply sure_commands
    intro c hc
    rcases List.mem_append.mp hc with hc | hc <;> exact tolerant_cleanup _ c hc

theorem sure_cleanConntrack (b : FirewallBackend) (iface : String) :
    Sure (cleanConntrackRules b iface) := by
  cases b with
  | nftables => exact sure_mays _ _
  | iptables =>
    apply sure_sequence
    intro p hp
    obtain ⟨f,r,-,rfl⟩ := TunTeardown.mem_deleteMarks.mp hp
    exact TunTeardown.sure_deleteAll _ _

theorem sure_clearRest (b : FirewallBackend) (m : Manager) : ∀ p ∈ clearRest b m, Sure p := by
  intro p hp
  simp only [clearRest,List.mem_cons,List.not_mem_nil,or_false] at hp
  rcases hp with rfl | rfl | rfl | rfl | rfl | rfl | rfl | rfl | rfl | rfl | rfl | rfl
  · exact sure_command rfl
  · exact sure_command rfl
  · apply sure_commands
    intro c hc
    simp only [List.mem_cons,List.not_mem_nil,or_false] at hc
    rcases hc with rfl | rfl | rfl <;> rfl
  · exact sure_cleanHijack b
  · apply sure_commands
    intro c hc
    rcases List.mem_append.mp hc with hc | hc <;>
      obtain ⟨ip,-,rfl⟩ := List.mem_map.mp hc <;> rfl
  · exact sure_removeBypass _ _ _ _
  · exact sure_removeBypass _ _ _ _
  · exact sure_cleanConntrack b _
  · apply sure_commands
    intro c hc
    simp only [List.mem_append] at hc
    rcases hc with (hc | hc) | hc
    · rw [List.mem_singleton.mp hc]
      rfl
    · obtain ⟨f,-,hc⟩ := List.mem_flatMap.mp hc
      simp only [List.mem_cons,List.not_mem_nil,or_false] at hc
      rcases hc with rfl | rfl <;> rfl
    · split_ifs at hc
      · cases hc
      · simp only [List.mem_cons,List.not_mem_nil,or_false] at hc
        rcases hc with rfl | rfl <;> rfl
  · rw [revertResolvectlDns]
    split_ifs
    · exact sure_done
    · exact sure_command rfl
  · rw [deleteLegacyRoutes]
    split_ifs
    · exact sure_both (sure_commands (by
        intro c hc
        obtain ⟨ip,-,rfl⟩ := List.mem_map.mp hc
        rfl)) (sure_commands (by
        intro c hc
        obtain ⟨ip,-,rfl⟩ := List.mem_map.mp hc
        rfl))
    · exact sure_done
  · rw [removeUidRoutes]
    split_ifs
    · exact sure_both (sure_removeBypass _ _ _ _) (sure_removeBypass _ _ _ _)
    · exact sure_done

theorem clear_succeeds (b : FirewallBackend) (m : Manager) (n : Net) :
    (clearNetworkRules b m).succeeds n = true := by
  rw [clearNetworkRules_eq,succeeds_both,restore_succeeds]
  exact sure_joined (sure_clearRest b m) [] _

end Clearing

section Starting

variable {d : Daemon} {a : Answer} {ipv4s ipv6s : List IP} {dns : DnsHijack} {t : Manager} {n : Net}
variable {faults : List Bool} {l : Link}

/-- Without leftovers the clearing before a start changes nothing. -/
theorem clear_fresh {b : FirewallBackend} {m : Manager} (hf : Fresh b m n) (hu : Unrouted m n) :
    (clearNetworkRules b m).final n = n :=
  cleared hf hu (partial_self hf) (rpKept_of_same hf.saved (rpSame_self m n))

theorem start_fresh (hf : Fresh d.backend t n) (hu : Unrouted t n) (hl : a.link = some l) :
    start d a faults ipv4s ipv6s dns t n =
      startSetup d a faults (configured d a l ipv4s ipv6s dns t)
        ((clearNetworkRules d.backend t).run [] n).passed n := by
  rw [start,if_pos (clear_succeeds d.backend t n),hl,clear_fresh hf hu]

theorem start_unlinked (hl : a.link = none) :
    (start d a faults ipv4s ipv6s dns t n).ok = false ∧
    (start d a faults ipv4s ipv6s dns t n).manager = { t with tunName := a.tunName } ∧
    (start d a faults ipv4s ipv6s dns t n).net = (clearNetworkRules d.backend t).final n := by
  rw [start,if_pos (clear_succeeds d.backend t n),hl]
  exact ⟨rfl,rfl,rfl⟩

theorem clear_enable (b : FirewallBackend) (m : Manager) :
    clearNetworkRules b m.enable = clearNetworkRules b m := rfl

theorem stop_enabled (d : Daemon) (m : Manager) (s : Net) :
    (stop d m.enable s).net = (clearNetworkRules d.backend m).final s := by
  have henabled : m.enable.isEnabled = true := rfl
  rw [stop,if_pos henabled,clear_enable]

theorem startSetup_cases (d : Daemon) (a : Answer) (faults : List Bool) (m : Manager)
    (passed : List Net) (n : Net) :
    (((setup d.backend a m).run faults n).ok = true ∧
      (startSetup d a faults m passed n).ok = true ∧
      (startSetup d a faults m passed n).manager = m.enable ∧
      (startSetup d a faults m passed n).net = ((setup d.backend a m).run faults n).state) ∨
    (((setup d.backend a m).run faults n).ok = false ∧
      (startSetup d a faults m passed n).ok = false ∧
      (startSetup d a faults m passed n).manager = m ∧
      (startSetup d a faults m passed n).net =
        (clearNetworkRules d.backend m).final ((setup d.backend a m).run faults n).state) := by
  rw [startSetup]
  split_ifs with hok
  · exact Or.inl ⟨hok,rfl,rfl,rfl⟩
  · exact Or.inr ⟨Bool.eq_false_iff.mpr hok,rfl,rfl,rfl⟩

/-- Either way the network ends as the clearing leaves what the setup has left. -/
theorem start_ends (hf : Fresh d.backend t n) (hu : Unrouted t n) (hl : a.link = some l)
    (faults : List Bool) :
    ((start d a faults ipv4s ipv6s dns t n).ok = true ∧
      (stop d (start d a faults ipv4s ipv6s dns t n).manager
        (start d a faults ipv4s ipv6s dns t n).net).net =
      (clearNetworkRules d.backend (configured d a l ipv4s ipv6s dns t)).final
        ((setup d.backend a (configured d a l ipv4s ipv6s dns t)).run faults n).state) ∨
    ((start d a faults ipv4s ipv6s dns t n).ok = false ∧
      (start d a faults ipv4s ipv6s dns t n).manager = configured d a l ipv4s ipv6s dns t ∧
      (start d a faults ipv4s ipv6s dns t n).net =
      (clearNetworkRules d.backend (configured d a l ipv4s ipv6s dns t)).final
        ((setup d.backend a (configured d a l ipv4s ipv6s dns t)).run faults n).state) := by
  rw [start_fresh hf hu hl]
  rcases startSetup_cases d a faults (configured d a l ipv4s ipv6s dns t)
    ((clearNetworkRules d.backend t).run [] n).passed n with ⟨-,hok,hm,hn⟩ | ⟨-,hok,hm,hn⟩
  · refine Or.inl ⟨hok,?_⟩
    rw [hm,hn,stop_enabled]
  · exact Or.inr ⟨hok,hm,hn⟩

theorem start_ready (hf : Fresh d.backend t n) (hu : Unrouted t n) (hl : a.link = some l)
    (hfm : Fresh d.backend (configured d a l ipv4s ipv6s dns t) n)
    (hum : Unrouted (configured d a l ipv4s ipv6s dns t) n)
    (htidy : Tidy (configured d a l ipv4s ipv6s dns t))
    (hready : Ready a.splitMode (configured d a l ipv4s ipv6s dns t) n) :
    (start d a [] ipv4s ipv6s dns t n).ok = true := by
  have hsetup := setup_succeeds hfm hum rfl htidy hready
  rw [start_fresh hf hu hl]
  rcases startSetup_cases d a [] (configured d a l ipv4s ipv6s dns t)
    ((clearNetworkRules d.backend t).run [] n).passed n with ⟨-,hok,-⟩ | ⟨hfail,-⟩
  · exact hok
  · rw [Script.succeeds] at hsetup
    rw [hsetup] at hfail
    cases hfail

theorem undisturbed_transactional (hf : Fresh d.backend t n)
    (hfm : ∀ l, a.link = some l → Fresh d.backend (configured d a l ipv4s ipv6s dns t) n)
    (h : Undisturbed d a ipv4s ipv6s dns t n) : Transactional d a ipv4s ipv6s dns t n := by
  have hend : ∀ l, a.link = some l → ∀ faults,
      (clearNetworkRules d.backend (configured d a l ipv4s ipv6s dns t)).final
        ((setup d.backend a (configured d a l ipv4s ipv6s dns t)).run faults n).state = n := by
    intro l hl faults
    have hu := h.new l hl
    exact cleared (hfm l hl) hu (partial_setup (hfm l hl) hu a faults)
      (kept_setup (hfm l hl) hu a (h.recordable l hl) faults)
  refine ⟨?_,?_,?_⟩
  · intro faults hok
    cases hl : a.link with
    | none =>
      obtain ⟨-,hm,hn⟩ := @start_unlinked d a ipv4s ipv6s dns t n faults hl
      exact ⟨by rw [hm]; exact h.idle,hn.trans (clear_fresh hf h.old)⟩
    | some l =>
      rcases @start_ends d a ipv4s ipv6s dns t n l hf h.old hl faults with ⟨hok',-⟩ | ⟨-,hm,hn⟩
      · rw [hok'] at hok
        cases hok
      · exact ⟨by rw [hm]; exact h.idle,hn.trans (hend l hl faults)⟩
  · intro faults hok
    cases hl : a.link with
    | none =>
      rw [(@start_unlinked d a ipv4s ipv6s dns t n faults hl).1] at hok
      cases hok
    | some l =>
      rcases @start_ends d a ipv4s ipv6s dns t n l hf h.old hl faults with ⟨-,hn⟩ | ⟨hok',-,-⟩
      · exact hn.trans (hend l hl faults)
      · rw [hok'] at hok
        cases hok
  · exact fun l hl hready => start_ready hf h.old hl (hfm l hl) (h.new l hl) (h.tidy l hl hready) hready

end Starting

section Taken

variable {b : FirewallBackend} {m : Manager} {n s t : Net} {f : Family} {ip g : IP} {p : Place IP}

/-- No route is added. -/
def takingScope : Scope IP FirewallRule := { Scope.anything IP FirewallRule with
  add := fun _ _ => False
  replace := fun _ _ => False }

theorem route_taken (hc : Change takingScope s t) (p : Place IP) :
    (t.routes p).Sublist (s.routes p) := by
  cases hc with
  | addRule _ hadd =>
    obtain ⟨_,rfl⟩ := addRule_cases hadd
    exact List.Sublist.refl _
  | addRoute hr _ => exact hr.elim
  | replaceRoute hr _ => exact hr.elim
  | delRoute s _ =>
    rw [Network.dropRoute,setRoutes_routes]
    split_ifs with hp
    · exact hp ▸ List.eraseP_sublist
    · exact List.Sublist.refl _
  | flush s _ =>
    rw [flushRoutes_routes]
    split_ifs
    · exact List.nil_sublist _
    · exact List.Sublist.refl _
  | addDevice _ hadd =>
    rw [Network.addDevice] at hadd
    split_ifs at hadd
    rw [← Option.some.inj hadd]
    exact List.filter_sublist
  | dropDevice s _ => exact List.filter_sublist
  | _ => exact List.Sublist.refl _

theorem takingHostDel (m : Manager) : AllowsHostDel takingScope m := ⟨fun _ _ _ _ _ => trivial⟩

theorem takingClear (b : FirewallBackend) (m : Manager) : AllowsClear takingScope b m where
  toAllowsHostDel := takingHostDel m
  undevice := trivial
  link := trivial
  tunDefault _ := trivial
  conntrack := ⟨fun _ _ _ => trivial,fun _ _ _ _ => trivial⟩
  hijack := ⟨fun _ _ => trivial,fun _ _ _ _ => trivial,fun _ _ _ _ => trivial⟩
  split := ⟨trivial,fun _ => trivial,fun _ => trivial,fun _ => trivial,fun _ => trivial⟩
  unrule _ _ _ := trivial
  table _ _ _ := ⟨trivial,trivial⟩

theorem sublist_kept (hc : Change takingScope s t) (h : (s.routes p).Sublist (n.routes p)) :
    (t.routes p).Sublist (n.routes p) := (route_taken hc p).trans h

theorem shorter_kept (hc : Change takingScope s t)
    (h : (s.routes p).length < (n.routes p).length) : (t.routes p).length < (n.routes p).length :=
  Nat.lt_of_le_of_lt (route_taken hc p).length_le h

/-- The deletion takes the route, or it is gone already. -/
theorem delVia_shorter {r : Route IP} (hg : m.gateway f = some g)
    (hr : r ∈ n.routes (mainHost f ip)) (hvia : isVia g r = true)
    (h : (s.routes (mainHost f ip)).Sublist (n.routes (mainHost f ip))) :
    ((((delVia f (m.gateway f) ip).run s).getD s).routes (mainHost f ip)).length <
      (n.routes (mainHost f ip)).length := by
  have hrun : ((delVia f (m.gateway f) ip).run s).getD s =
      s.dropRoute (mainHost f ip) (isVia g) := by
    simp [delVia,may,hg]
  rw [hrun,Network.dropRoute,setRoutes_routes,if_pos rfl]
  by_cases hmem : ∃ r' ∈ s.routes (mainHost f ip), isVia g r' = true
  · obtain ⟨r',hr',hvia'⟩ := hmem
    rw [List.length_eraseP_of_mem hr' hvia']
    have hpos := List.length_pos_of_mem hr'
    have hle := h.length_le
    omega
  · apply Nat.lt_of_le_of_ne (List.eraseP_sublist.trans h).length_le
    intro hlen
    have hsame := (List.eraseP_sublist.trans h).eq_of_length hlen
    refine hmem ⟨r,?_,hvia⟩
    rw [← hsame] at hr
    exact List.mem_of_mem_eraseP hr

theorem delVias_shorter {cs : List (Command Net)} {r : Route IP} (hg : m.gateway f = some g)
    (hr : r ∈ n.routes (mainHost f ip)) (hvia : isVia g r = true)
    (hc : delVia f (m.gateway f) ip ∈ cs)
    (hcs : ∀ c ∈ cs, ∃ f ip, c = delVia f (m.gateway f) ip)
    (h : (s.routes (mainHost f ip)).Sublist (n.routes (mainHost f ip))) :
    (((commands cs).final s).routes (mainHost f ip)).length < (n.routes (mainHost f ip)).length := by
  refine tolerant_establishes (C := Change takingScope)
    (I := fun u : Net => (u.routes (mainHost f ip)).Sublist (n.routes (mainHost f ip)))
    (Q := fun u : Net => (u.routes (mainHost f ip)).length < (n.routes (mainHost f ip)).length)
    hc ?_ ?_ (fun _ _ hc hs => sublist_kept hc hs) (fun _ _ hc _ hs => shorter_kept hc hs)
    (fun _ hu => delVia_shorter hg hr hvia hu) h
  · intro c hc
    obtain ⟨f',ip',rfl⟩ := hcs c hc
    rfl
  · intro c hc u t ht
    obtain ⟨f',ip',rfl⟩ := hcs c hc
    exact change_delVia (fun _ _ => trivial) ht

theorem proxyRoutes_shorter {r : Route IP} (hg : m.gateway f = some g)
    (hr : r ∈ n.routes (mainHost f ip)) (hvia : isVia g r = true) (hip : ip ∈ proxyHosts m f)
    (h : (s.routes (mainHost f ip)).Sublist (n.routes (mainHost f ip))) :
    (((deleteProxyIpRoutes m.proxyIpv4s m.proxyIpv6s m.defaultInterfaceIp
      m.defaultInterfaceIpv6).final s).routes (mainHost f ip)).length <
      (n.routes (mainHost f ip)).length := by
  apply delVias_shorter hg hr hvia _ _ h
  · cases f with
    | v4 => exact List.mem_append_left _ (List.mem_map.mpr ⟨ip,hip,rfl⟩)
    | v6 => exact List.mem_append_right _ (List.mem_map.mpr ⟨ip,hip,rfl⟩)
  · intro c hc
    rcases List.mem_append.mp hc with hc | hc
    · obtain ⟨ip',-,rfl⟩ := List.mem_map.mp hc
      exact ⟨.v4,ip',rfl⟩
    · obtain ⟨ip',-,rfl⟩ := List.mem_map.mp hc
      exact ⟨.v6,ip',rfl⟩

theorem legacyRoutes_shorter {r : Route IP} (hg : m.gateway f = some g)
    (hr : r ∈ n.routes (mainHost f ip)) (hvia : isVia g r = true) (hip : ip ∈ legacyHosts m f)
    (h : (s.routes (mainHost f ip)).Sublist (n.routes (mainHost f ip))) :
    (((deleteLegacyRoutes m).final s).routes (mainHost f ip)).length <
      (n.routes (mainHost f ip)).length := by
  cases hl : m.dnsHijack.legacy with
  | false => cases f <;> simp [legacyHosts,hl] at hip
  | true =>
    have h4 : Acts (Change takingScope)
        (deleteDnsIpRoutes m.dnsHijack.sink4 m.defaultInterfaceIp) :=
      acts_deleteDnsIpRoutes fun _ _ _ _ => trivial
    have h6 : Acts (Change takingScope)
        (deleteDnsIpRoutes6 m.dnsHijack.sink6 m.defaultInterfaceIpv6) :=
      acts_deleteDnsIpRoutes6 fun _ _ _ _ => trivial
    rw [deleteLegacyRoutes,if_pos hl,final_both]
    cases f with
    | v4 =>
      rw [legacyHosts,if_pos hl] at hip
      refine h6.final (P := fun u : Net => (u.routes (mainHost .v4 ip)).length <
        (n.routes (mainHost .v4 ip)).length) (fun _ _ hc hs => shorter_kept hc hs) ?_
      apply delVias_shorter hg hr hvia (List.mem_map.mpr ⟨ip,hip,rfl⟩) _ h
      intro c hc
      obtain ⟨ip',-,rfl⟩ := List.mem_map.mp hc
      exact ⟨.v4,ip',rfl⟩
    | v6 =>
      rw [legacyHosts,if_pos hl] at hip
      have hsub := h4.final (P := fun u : Net => (u.routes (mainHost .v6 ip)).Sublist
        (n.routes (mainHost .v6 ip))) (fun _ _ hc hs => sublist_kept hc hs) h
      apply delVias_shorter hg hr hvia (List.mem_map.mpr ⟨ip,hip,rfl⟩) _ hsub
      intro c hc
      obtain ⟨ip',-,rfl⟩ := List.mem_map.mp hc
      exact ⟨.v6,ip',rfl⟩

/-- A teardown takes a host's own route to one of its addresses. -/
theorem clear_shorter {r : Route IP} (hip : ip ∈ hosts m f) (hg : m.gateway f = some g)
    (hr : r ∈ n.routes (mainHost f ip)) (hvia : isVia g r = true)
    (h : (s.routes (mainHost f ip)).Sublist (n.routes (mainHost f ip))) :
    (((clearNetworkRules b m).final s).routes (mainHost f ip)).length <
      (n.routes (mainHost f ip)).length := by
  have hrestore : Acts (Change takingScope) restoreRpFilter := acts_restoreRpFilter trivial
  have hsub := hrestore.final (P := fun u : Net => (u.routes (mainHost f ip)).Sublist
    (n.routes (mainHost f ip))) (fun _ _ hc hs => sublist_kept hc hs) h
  have hstep : ∀ p ∈ clearRest b m, (∀ u : Net, (u.routes (mainHost f ip)).Sublist
      (n.routes (mainHost f ip)) → ((p.final u).routes (mainHost f ip)).length <
        (n.routes (mainHost f ip)).length) →
      (((joined (clearRest b m)).final (restoreRpFilter.final s)).routes (mainHost f ip)).length <
        (n.routes (mainHost f ip)).length := fun p hp he =>
    joined_establishes (C := Change takingScope)
      (I := fun u : Net => (u.routes (mainHost f ip)).Sublist (n.routes (mainHost f ip)))
      (Q := fun u : Net => (u.routes (mainHost f ip)).length < (n.routes (mainHost f ip)).length)
      hp (acts_clearRest (takingClear b m)) (fun _ _ hc hs => sublist_kept hc hs)
      (fun _ _ hc _ hs => shorter_kept hc hs) he hsub
  rw [clearNetworkRules_eq,final_both]
  rcases List.mem_append.mp hip with hip | hip
  · exact hstep (deleteProxyIpRoutes _ _ _ _) (by simp [clearRest])
      fun u hu => proxyRoutes_shorter hg hr hvia hip hu
  · exact hstep (deleteLegacyRoutes m) (by simp [clearRest])
      fun u hu => legacyRoutes_shorter hg hr hvia hip hu

end Taken

end Whoisthat.StartTransaction
