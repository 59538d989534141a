import Whoisthat.StartTransaction

/-!
# What a transactional start needs

Each condition of an undisturbed start is needed: a device that cannot be made
shows which routes a teardown takes from the host, a start without faults shows
the loosened value that no file has, and an untidy list stops a start itself.
-/

set_option autoImplicit false

namespace Whoisthat.StartConditions
open Whoisthat.ScriptRuns Whoisthat.ShellScripts Whoisthat.HostNetwork Whoisthat.NetworkChanges
open Whoisthat.ScriptTriples Whoisthat.IPLiterals Whoisthat.TunScripts Whoisthat.TunNetwork
open Whoisthat.ScriptScopes Whoisthat.OwnArtifacts Whoisthat.TunCleanup Whoisthat.RpFilterRestore
open Whoisthat.StartRollback Whoisthat.StartSuccess Whoisthat.StartTransaction
open Whoisthat.KillSwitchArming (FirewallBackend)

section Faulted

variable {d : String} {s : Net} {k : ℕ}

/-- Every command of the try is made to fail. -/
theorem createTunOnce_faulted (h : 4 ≤ k) :
    ((createTunOnce d).run (List.replicate k true) s).ok = false ∧
    ∃ j, k ≤ j + 4 ∧
      ((createTunOnce d).run (List.replicate k true) s).faults = List.replicate j true := by
  obtain ⟨j,rfl⟩ := Nat.exists_eq_add_of_le' h
  rw [createTunOnce,run_seq,run_read]
  split_ifs
  · exact ⟨rfl,j,Nat.le_refl _,rfl⟩
  · rename_i hok
    exact absurd rfl hok
  · exact ⟨rfl,j + 3,by omega,rfl⟩
  · rename_i hok
    exact absurd rfl hok

theorem createTunTries_faulted {tries : ℕ} (h : 4 * (tries + 1) ≤ k) :
    ((createTunTries d tries).run (List.replicate k true) s).ok = false := by
  induction tries generalizing s k with
  | zero => exact (createTunOnce_faulted h).1
  | succ tries ih =>
    obtain ⟨hfail,j,hj,hfaults⟩ := @createTunOnce_faulted d s k (by omega)
    rw [createTunTries,run_orElse,if_neg (Bool.eq_false_iff.mp hfail),hfaults,Outcome.after,Bool.and_true]
    exact ih (by omega)

/-- At most five tries of at most four commands. -/
theorem createTun_faulted (d : String) (retries : ℕ) (s : Net) :
    ((createTun d retries).run (List.replicate 20 true) s).ok = false :=
  createTunTries_faulted (by omega)

theorem setup_faulted (b : FirewallBackend) (a : Answer) (m : Manager) (s : Net) :
    ((setup b a m).run (List.replicate 20 true) s).ok = false ∧
    ((setup b a m).run (List.replicate 20 true) s).state =
      ((createTun m.tunName a.retries).run (List.replicate 20 true) s).state := by
  have hfail := createTun_faulted m.tunName a.retries s
  have hbase : (setupBase b a m).run (List.replicate 20 true) s =
      (createTun m.tunName a.retries).run (List.replicate 20 true) s := by
    rw [setupBase_eq,run_seq,if_neg (Bool.eq_false_iff.mp hfail)]
  rw [setup,run_seq,hbase,if_neg (Bool.eq_false_iff.mp hfail)]
  exact ⟨hfail,rfl⟩

end Faulted

section Routes

variable {d : Daemon} {a : Answer} {ipv4s ipv6s : List IP} {dns : DnsHijack} {t : Manager} {n : Net}
variable {f : Family} {ip g : IP} {r : Route IP} {l : Link}

theorem clear_sublist (b : FirewallBackend) (m : Manager) {s : Net} {p : Place IP}
    (h : (s.routes p).Sublist (n.routes p)) :
    (((clearNetworkRules b m).final s).routes p).Sublist (n.routes p) :=
  (acts_clearNetworkRules trivial (takingClear b m)).final
    (P := fun u : Net => (u.routes p).Sublist (n.routes p)) (fun _ _ hc hs => sublist_kept hc hs) h

/-- A start without its device only takes routes away. -/
theorem faulted_sublist (b : FirewallBackend) (a : Answer) (m : Manager) {s : Net} {p : Place IP}
    (h : (s.routes p).Sublist (n.routes p)) :
    (((setup b a m).run (List.replicate 20 true) s).state.routes p).Sublist (n.routes p) := by
  have hcreate : Acts (Change takingScope) (createTun m.tunName a.retries) :=
    acts_createTun trivial trivial _
  rw [(setup_faulted b a m s).2]
  exact (hcreate (fun u : Net => (u.routes p).Sublist (n.routes p))
    (fun _ _ hc hs => sublist_kept hc hs) s h _).2

theorem start_faulted (hl : a.link = some l) :
    (start d a (List.replicate 20 true) ipv4s ipv6s dns t n).ok = false ∧
    (start d a (List.replicate 20 true) ipv4s ipv6s dns t n).manager =
      configured d a l ipv4s ipv6s dns t ∧
    (start d a (List.replicate 20 true) ipv4s ipv6s dns t n).net =
      (clearNetworkRules d.backend (configured d a l ipv4s ipv6s dns t)).final
        ((setup d.backend a (configured d a l ipv4s ipv6s dns t)).run (List.replicate 20 true)
          ((clearNetworkRules d.backend t).final n)).state := by
  rw [start,if_pos (clear_succeeds d.backend t n),hl]
  dsimp only
  rw [startSetup,if_neg (Bool.eq_false_iff.mp (setup_faulted _ _ _ _).1)]
  exact ⟨rfl,rfl,rfl⟩

/-- A start that fails does not disable a TUN. -/
theorem needs_idle (h : Transactional d a ipv4s ipv6s dns t n) :
    t.isEnabled = false := by
  cases hl : a.link with
  | none =>
    obtain ⟨hfail,hm,-⟩ := @start_unlinked d a ipv4s ipv6s dns t n [] hl
    have hidle := (h.failed _ hfail).1
    rwa [hm] at hidle
  | some l =>
    obtain ⟨hfail,hm,-⟩ := @start_faulted d a ipv4s ipv6s dns t n l hl
    have hidle := (h.failed _ hfail).1
    rwa [hm] at hidle

/-- The clearing before a start takes the routes of the last configuration. -/
theorem needs_old (h : Transactional d a ipv4s ipv6s dns t n) :
    Unrouted t n := by
  intro f ip hip g hg r hr
  by_contra hvia
  have htaken := clear_shorter (b := d.backend) hip hg hr (by simpa using hvia) (List.Sublist.refl _)
  cases hl : a.link with
  | none =>
    obtain ⟨hfail,-,hnet⟩ := @start_unlinked d a ipv4s ipv6s dns t n [] hl
    rw [← hnet,(h.failed [] hfail).2] at htaken
    exact Nat.lt_irrefl _ htaken
  | some l =>
    obtain ⟨hfail,-,hnet⟩ := @start_faulted d a ipv4s ipv6s dns t n l hl
    have hsub := clear_sublist d.backend (configured d a l ipv4s ipv6s dns t)
      (faulted_sublist d.backend a (configured d a l ipv4s ipv6s dns t)
        (List.Sublist.refl (((clearNetworkRules d.backend t).final n).routes (mainHost f ip))))
    rw [← hnet,(h.failed _ hfail).2] at hsub
    exact Nat.not_lt.mpr hsub.length_le htaken

/-- The clearing after a start takes those of the new one. -/
theorem needs_new (hf : Fresh d.backend t n) (h : Transactional d a ipv4s ipv6s dns t n)
    (hl : a.link = some l) : Unrouted (configured d a l ipv4s ipv6s dns t) n := by
  intro f ip hip g hg r hr
  by_contra hvia
  obtain ⟨hfail,-,hnet⟩ := @start_faulted d a ipv4s ipv6s dns t n l hl
  rw [clear_fresh hf (needs_old h),(h.failed _ hfail).2] at hnet
  have htaken := clear_shorter (b := d.backend) hip hg hr (by simpa using hvia)
    (faulted_sublist d.backend a (configured d a l ipv4s ipv6s dns t)
      (List.Sublist.refl (n.routes (mainHost f ip))))
  rw [← hnet] at htaken
  exact Nat.lt_irrefl _ htaken

end Routes

section Values

variable {b : FirewallBackend} {m : Manager} {n s t : Net} {up : Prop} {d : String}

/-- The interface is loose and the file does not have its value. -/
structure Lost (m : Manager) (s : Net) : Prop where
  loose : s.rpFilter m.defaultInterface = some .loose
  lines : ∀ saved, s.saved = some saved → ∀ line ∈ savedLines saved, line.1 ≠ m.defaultInterface

theorem lost_change (hne : m.defaultInterface ≠ m.tunName)
    (hc : Change (ownScope b m n up False) s t) (h : Lost m s) : Lost m t where
  loose := ((rp_change hc).2 _ hne).trans h.loose
  lines saved hs := h.lines saved ((rp_change hc).1 ▸ hs)

theorem loosen_final (d : String) (s : Net) : (loosen d).final s =
    if (s.devices d).isSome ∧ (s.rpFilter d).isSome then
      { s with rpFilter := Function.update s.rpFilter d (some .loose) } else s := by
  rw [loosen,final_read]
  by_cases hd : (s.devices d).isSome
  · rw [if_pos hd,final_command]
    cases hv : s.rpFilter d <;> simp [must,Network.setRpFilter,hd,hv]
  · simp [hd]

/-- What is saved leaves out an interface whose value cannot be written down. -/
theorem save_final (d iface : String) (written : Bool) (hs : s.saved = none)
    (hrec : ¬(validInterfaceName iface = true ∧ written = true)) :
    ((saveRpFilter d iface written).final s).rpFilter = s.rpFilter ∧
    ((saveRpFilter d iface written).final s).devices = s.devices ∧
    ∀ saved, ((saveRpFilter d iface written).final s).saved = some saved →
      ∀ line ∈ savedLines saved, line.1 ≠ iface := by
  rw [saveRpFilter,final_read]
  split_ifs with hskip
  · refine ⟨rfl,rfl,?_⟩
    intro saved hsaved
    simp [hs] at hsaved
  · have hwritten : written = true := by
      cases written with
      | true => rfl
      | false => simp at hskip
    refine ⟨rfl,rfl,?_⟩
    rintro saved - line hline rfl
    exact hrec ⟨(List.mem_filter.mp hline).2,hwritten⟩

theorem loosen_lost (written : Bool) (hne : m.defaultInterface ≠ m.tunName) {v : RpFilter}
    (hs : s.saved = none) (hdev : (s.devices m.defaultInterface).isSome)
    (hv : s.rpFilter m.defaultInterface = some v)
    (hrec : ¬(validInterfaceName m.defaultInterface = true ∧ written = true)) :
    Lost m ((loosenRpFilter m.tunName m.defaultInterface written).final s) := by
  obtain ⟨hrp,hdevices,hlines⟩ := save_final m.tunName m.defaultInterface written hs hrec
  rw [loosenRpFilter,final_seq_ok (saveRpFilter_succeeds _ _ _ s)]
  generalize (saveRpFilter m.tunName m.defaultInterface written).final s = u at hrp hdevices hlines
  have hloose : Lost m ((loosen m.defaultInterface).final u) := by
    rw [loosen_final,if_pos (by simp [hdevices,hrp,hdev,hv])]
    exact ⟨by simp,hlines⟩
  change Lost m ((Script.seq (.tolerate (loosen m.defaultInterface)) (loosen m.tunName)).final u)
  rw [final_seq_tolerate,loosen_final]
  split_ifs
  · exact ⟨by simpa [hne] using hloose.loose,hloose.lines⟩
  · exact hloose

theorem keeps_restoreLine {line : String × RpFilter} {v : Option RpFilter} (h : line.1 ≠ d) :
    Keeps (fun s : Net => s.rpFilter d = v) (restoreLine line) := by
  apply keeps_read
  intro s hs
  split_ifs
  · apply keepsFrom_command (P := fun s : Net => s.rpFilter d = v) hs
    intro t ht
    obtain ⟨w,-,rfl⟩ := Option.map_eq_some_iff.mp ht
    simpa [h.symm] using hs
  · exact keeps_done s hs

/-- Reading the file back does not bring a lost value back. -/
theorem restore_lost (h : Lost m s) :
    (restoreRpFilter.final s).rpFilter m.defaultInterface = some .loose := by
  rw [restoreRpFilter,final_read]
  cases hs : s.saved with
  | none => exact h.loose
  | some saved =>
    have hlines : Keeps (fun s : Net => s.rpFilter m.defaultInterface = some .loose)
        (lenient ((savedLines saved).map restoreLine)) := by
      apply keeps_lenient
      intro p hp
      obtain ⟨line,hline,rfl⟩ := List.mem_map.mp hp
      exact keeps_restoreLine (h.lines saved hs line hline)
    have hremove : Keeps (fun s : Net => s.rpFilter m.defaultInterface = some .loose)
        (.command (must fun s : Net => some (s.setSaved none))) := by
      apply keeps_command
      intro u t hu ht
      rw [← Option.some.inj ht]
      exact hu
    exact (keeps_seq hlines hremove s h.loose []).2

theorem clear_lost (hf : Fresh b m n) (hu : Unrouted m n) (hne : m.defaultInterface ≠ m.tunName)
    (h : Lost m s) : ((clearNetworkRules b m).final s).rpFilter m.defaultInterface = some .loose := by
  rw [clearNetworkRules_eq,final_both]
  exact (acts_joined (acts_rest hf hu)).final
    (P := fun s : Net => s.rpFilter m.defaultInterface = some .loose)
    (fun _ _ hc hs => ((rp_change hc).2 _ hne).trans hs) (restore_lost h)

/-- A start without faults gets to the loosening, and nothing after it saves the value. -/
theorem setup_lost (hf : Fresh b m n) (hu : Unrouted m n) (hg : m.defaultInterfaceIp.isSome)
    (hadd : Addable m n) (htidy : Tidy m) {a : Answer} {v : RpFilter}
    (hne : m.defaultInterface ≠ m.tunName) (hdev : (n.devices m.defaultInterface).isSome)
    (hv : n.rpFilter m.defaultInterface = some v)
    (hrec : ¬(validInterfaceName m.defaultInterface = true ∧ a.stateWritten = true)) :
    Lost m ((setup b a m).final n) := by
  have hbase : AllowsBase (ownScope b m n True False) b m := ownBase hf hu
  have hdevice : (ownScope b m n True False).device m.tunName := ⟨trivial,rfl⟩
  have hcreate : Acts (Change (ownScope b m n True False)) (createTun m.tunName a.retries) :=
    acts_createTun hdevice rfl _
  have hproxies : Acts (Change (ownScope b m n True False)) (setupProxyIpRoutes m.proxyIpv4s
      m.proxyIpv6s m.defaultInterfaceIp m.defaultInterfaceIpv6) :=
    acts_setupProxyIpRoutes (fun ip hip => hbase.add .v4 ip (proxy_mem hip))
      fun ip hip => hbase.add .v6 ip (proxy_mem hip)
  have hsplit : Acts (Change (ownScope b m n True False))
      (setupSplit a.splitMode a.realUserUid m) :=
    acts_setupSplit (ownSplit hf) (fun f => ⟨trivial,.tun f⟩) _ _
  obtain ⟨hok1,-,hroutes⟩ := achieves_createTun hf hadd.named hadd.short a.retries n rfl
  have hfinal : ∀ {p : Script Net} {s : Net}, Acts (Change (ownScope b m n True False)) p →
      Untouched b m n s → Untouched b m n (p.final s) := fun hp h => untouched_run hf hp h []
  have h1 := hfinal hcreate ⟨partial_self hf,rpSame_self m n⟩
  have hok2 := proxies_succeed htidy hadd hg hroutes
  have h2 := hfinal hproxies h1
  have hok3 := legacy_succeeds hf hu hadd h2.1
  have h3 := hfinal (acts_setupLegacyRoutes hbase) h2
  have hloose := loosen_lost a.stateWritten hne (h3.2.saved.trans hf.saved)
    (by rw [h3.1.devices _ hne]; exact hdev) ((h3.2.values _ hne).trans hv) hrec
  have hmost : Lost m ((setupBase b a m).final n) := by
    rw [setupBase_eq,final_seq_ok hok1,final_seq_ok hok2,final_seq_ok hok3,final_seq]
    split_ifs
    · exact (acts_setupMarks hbase).final (fun _ _ hc hs => lost_change hne hc hs) hloose
    · exact hloose
  rw [setup,final_seq]
  split_ifs
  · exact hsplit.final (fun _ _ hc hs => lost_change hne hc hs) hmost
  · exact hmost

end Values

section Conditions

variable {d : Daemon} {a : Answer} {ipv4s ipv6s : List IP} {dns : DnsHijack} {t : Manager} {n : Net}
variable {l : Link}

theorem needs_recordable (hf : Fresh d.backend t n)
    (hfm : Fresh d.backend (configured d a l ipv4s ipv6s dns t) n)
    (h : Transactional d a ipv4s ipv6s dns t n) (hl : a.link = some l)
    (hadd : Addable (configured d a l ipv4s ipv6s dns t) n)
    (htidy : Tidy (configured d a l ipv4s ipv6s dns t)) :
    Recordable a.stateWritten (configured d a l ipv4s ipv6s dns t) n := by
  intro v hv hdev hloose
  by_contra hrec
  have hu := needs_new hf h hl
  have hne : l.iface ≠ a.tunName := by
    intro he
    have hgone : n.devices a.tunName = none := hfm.device
    change (n.devices l.iface).isSome = true at hdev
    simp [he,hgone] at hdev
  have hlost := clear_lost hfm hu hne (setup_lost hfm hu rfl hadd htidy hne hdev hv hrec)
  have hend : (clearNetworkRules d.backend (configured d a l ipv4s ipv6s dns t)).final
      ((setup d.backend a (configured d a l ipv4s ipv6s dns t)).final n) = n := by
    rcases @start_ends d a ipv4s ipv6s dns t n l hf (needs_old h) hl [] with
      ⟨hok,hn⟩ | ⟨hfail,-,hn⟩
    · exact hn.symm.trans (h.stopped [] hok)
    · exact hn.symm.trans (h.failed [] hfail).2
  rw [hend,hv] at hlost
  exact hloose (Option.some.inj hlost)

theorem setup_run_ok (hf : Fresh d.backend (configured d a l ipv4s ipv6s dns t) n)
    {faults : List Bool}
    (hok : ((setup d.backend a (configured d a l ipv4s ipv6s dns t)).run faults n).ok = true) :
    Tidy (configured d a l ipv4s ipv6s dns t) := by
  have hdevice : (ownScope d.backend (configured d a l ipv4s ipv6s dns t) n True False).device
      (configured d a l ipv4s ipv6s dns t).tunName := ⟨trivial,rfl⟩
  have hcreate : Acts (Change (ownScope d.backend (configured d a l ipv4s ipv6s dns t) n True False))
      (createTun (configured d a l ipv4s ipv6s dns t).tunName a.retries) :=
    acts_createTun hdevice rfl _
  have hbase := (seq_run_ok hok).1
  rw [setupBase_eq] at hbase
  obtain ⟨-,faults',hrest⟩ := seq_run_ok hbase
  exact (proxies_run_ok (untouched_run hf hcreate ⟨partial_self hf,rpSame_self _ n⟩ faults).1
    (seq_run_ok hrest).1).1

theorem needs_tidy (hf : Fresh d.backend t n)
    (hfm : Fresh d.backend (configured d a l ipv4s ipv6s dns t) n)
    (h : Transactional d a ipv4s ipv6s dns t n) (hl : a.link = some l)
    (hready : Ready a.splitMode (configured d a l ipv4s ipv6s dns t) n) :
    Tidy (configured d a l ipv4s ipv6s dns t) := by
  have hstart := h.started l hl hready
  rw [start_fresh hf (needs_old h) hl] at hstart
  rcases startSetup_cases d a [] (configured d a l ipv4s ipv6s dns t)
    ((clearNetworkRules d.backend t).run [] n).passed n with ⟨hok,-⟩ | ⟨-,hfail,-⟩
  · exact setup_run_ok hfm hok
  · rw [hstart] at hfail
    cases hfail

end Conditions

section Plain

theorem plain_fresh (b : FirewallBackend) {m : Manager} (h : m.tunName ≠ "eth0") :
    Fresh b m plainHost where
  rules f r _ hr := by cases hr
  tables p hp := by
    apply if_neg
    rintro rfl
    simp [mainDefault] at hp
  nft _ _ := rfl
  marks k r _ hr := by cases hr
  jumps _ f hook c _ hr := by cases hr
  chains _ _ := rfl
  device := if_neg h
  routes p r hr := by
    have hmem : r ∈ if p = mainDefault .v4 then [via .v4 (mapped (ipv4 192 168 1 1))] else [] := hr
    split_ifs at hmem
    · rw [List.mem_singleton.mp hmem]
      simp [via]
    · cases hmem
  rpFilter := if_neg h
  linkDns := rfl
  saved := rfl

/-- 2001:db8::7 -/
def plainProxy6 : IP := ofGroups [0x2001,0xdb8,0,0,0,0,0,7]

/-- A host with a route of its own to the proxy. -/
def routedHost : Net :=
  plainHost.setRoutes (mainHost .v4 plainProxy) [⟨some (mapped (ipv4 192 168 1 1)),none,false,5⟩]

end Plain

end Whoisthat.StartConditions
