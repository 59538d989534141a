import Whoisthat.RpFilterRestore

/-!
# A start that fails, and a stop after one

How far a start gets by its addresses and the host, whatever else fails, and
that the teardown then leaves the host as it was. What the daemon installs is
told apart from the rest of the host by its names, except for host routes.
-/

set_option autoImplicit false

namespace Whoisthat.StartRollback
open Whoisthat.ScriptRuns Whoisthat.ShellScripts Whoisthat.HostNetwork Whoisthat.NetworkChanges
open Whoisthat.IPLiterals Whoisthat.TunScripts Whoisthat.TunNetwork Whoisthat.ScriptScopes
open Whoisthat.OwnArtifacts Whoisthat.TunCleanup Whoisthat.RpFilterRestore
open Whoisthat.KillSwitchArming (FirewallBackend)

section Statement

/-- No duplicate proxy, and no IPv6 proxy without a gateway for it. -/
structure Tidy (m : Manager) : Prop where
  v4 : m.proxyIpv4s.Nodup
  v6 : m.proxyIpv6s.Nodup
  gateway : m.defaultInterfaceIpv6 = none → m.proxyIpv6s = []

/-- Nothing else is in the way of the device and the host routes. -/
structure Addable (m : Manager) (n : Net) : Prop where
  named : m.tunName ≠ ""
  short : m.tunName.length ≤ 15
  free : ∀ f, ∀ ip ∈ hosts m f, ∀ r ∈ n.routes (mainHost f ip), r.metric ≠ defaultMetric f
  stub : m.dnsHijack.legacy = true → m.defaultInterfaceIp.isSome → m.dnsHijack.sink4 ≠ some stubResolver

end Statement

section Reached

variable {b : FirewallBackend} {m : Manager} {d : String} {n s : Net} {f : Family}

theorem createTunOnce_run_ok {faults : List Bool}
    (h : ((createTunOnce d).run faults s).ok = true) : d ≠ "" ∧ d.length ≤ 15 := by
  obtain ⟨-,faults',hadd⟩ := seq_run_ok h
  obtain ⟨t,-,ht,-⟩ := commands_run_must hadd
  rw [Network.addDevice] at ht
  split_ifs at ht with hd
  simp only [not_or,Nat.not_lt] at hd
  exact ⟨hd.1,hd.2.1⟩

theorem createTun_run_ok {retries : ℕ} {faults : List Bool}
    (h : ((createTun d retries).run faults s).ok = true) : d ≠ "" ∧ d.length ≤ 15 := by
  rw [createTun] at h
  generalize min retries 4 = tries at h
  induction tries generalizing s faults with
  | zero => exact createTunOnce_run_ok h
  | succ n ih =>
    rw [createTunTries,run_orElse] at h
    split_ifs at h with hok
    · exact createTunOnce_run_ok hok
    · rw [Outcome.after,Bool.and_true] at h
      exact ih h

theorem mainHost_inj {f f' : Family} {ip ip' : IP} (h : mainHost f ip = mainHost f' ip') :
    f = f' ∧ ip = ip' := by
  cases h
  exact ⟨rfl,rfl⟩

/-- Routes that are all added have different destinations, each of them free. -/
theorem addVias_run_ok {gateway : Option IP} {ips : List IP} {cs : List (Command Net)}
    {faults : List Bool} (h : ((commands (ips.map (addVia f gateway) ++ cs)).run faults s).ok = true) :
    ips.Nodup ∧ (∀ ip ∈ ips, gateway.isSome ∧ ∀ r ∈ s.routes (mainHost f ip),
      r.metric ≠ defaultMetric f) ∧
    ∃ t faults', ((commands cs).run faults' t).ok = true ∧
      ∀ p, (∀ ip ∈ ips, p ≠ mainHost f ip) → t.routes p = s.routes p := by
  induction ips generalizing s faults with
  | nil => exact ⟨List.nodup_nil,by simp,s,faults,h,fun _ _ => rfl⟩
  | cons ip ips ih =>
    obtain ⟨t,faults',ht,hrest⟩ := commands_run_must h
    obtain ⟨g,hg,hadd⟩ := Option.bind_eq_some_iff.mp ht
    obtain ⟨-,hfree,rfl⟩ := addRoute_cases hadd
    obtain ⟨hnd,hips,t,faults',hok,hsame⟩ := ih hrest
    have hnew : ip ∉ ips := by
      intro hip
      refine (hips ip hip).2 (via f g) ?_ rfl
      rw [setRoutes_routes,if_pos rfl]
      exact mem_insertRoute.mpr (Or.inl rfl)
    refine ⟨List.nodup_cons.mpr ⟨hnew,hnd⟩,?_,t,faults',hok,?_⟩
    · intro ip' hip'
      rcases List.mem_cons.mp hip' with rfl | hip'
      · exact ⟨by simp [hg],hfree⟩
      · refine ⟨(hips ip' hip').1,?_⟩
        intro r hr
        apply (hips ip' hip').2 r
        have hne : mainHost f ip' ≠ mainHost f ip := fun he => hnew ((mainHost_inj he).2 ▸ hip')
        rwa [setRoutes_routes,if_neg hne]
    · intro p hp
      rw [hsame p fun ip' hip' => hp ip' (List.mem_cons_of_mem ip hip'),setRoutes_routes,
        if_neg (hp ip List.mem_cons_self)]

/-- The host's own routes are still there. -/
theorem partial_subset (h : Partial b m n s) (ip : IP) :
    n.routes (mainHost f ip) ⊆ s.routes (mainHost f ip) := by
  intro r hr
  rcases h.routes (mainHost f ip) with hs | hs | ⟨r',-,hs⟩
  · simp [splitPlace,mainHost] at hs
  · exact hs ▸ hr
  · exact hs ▸ mem_insertRoute.mpr (Or.inr hr)

theorem proxies_run_ok {faults : List Bool} (h : Partial b m n s)
    (hok : ((setupProxyIpRoutes m.proxyIpv4s m.proxyIpv6s m.defaultInterfaceIp
      m.defaultInterfaceIpv6).run faults s).ok = true) :
    Tidy m ∧ ∀ f, ∀ ip ∈ proxyHosts m f, ∀ r ∈ n.routes (mainHost f ip),
      r.metric ≠ defaultMetric f := by
  rw [setupProxyIpRoutes] at hok
  obtain ⟨hnd4,h4,t,faults',hok6,hsame⟩ := addVias_run_ok hok
  rw [← List.append_nil (List.map (addVia .v6 m.defaultInterfaceIpv6) m.proxyIpv6s)] at hok6
  obtain ⟨hnd6,h6,-⟩ := addVias_run_ok hok6
  refine ⟨⟨hnd4,hnd6,?_⟩,?_⟩
  · intro hnone
    apply List.eq_nil_iff_forall_not_mem.mpr
    intro ip hip
    simpa [hnone] using (h6 ip hip).1
  · intro f ip hip r hr
    cases f with
    | v4 => exact (h4 ip hip).2 r (partial_subset h ip hr)
    | v6 =>
      apply (h6 ip hip).2 r
      rw [hsame _ fun ip' _ => by simp [mainHost]]
      exact partial_subset h ip hr

/-- Whatever is deleted before, the routes that a legacy plan adds were free. -/
theorem legacy_run_ok (hf : Fresh b m n) (hu : Unrouted m n) {faults : List Bool}
    (h : Partial b m n s) (hok : ((setupLegacyRoutes m).run faults s).ok = true) :
    (∀ f, ∀ ip ∈ legacyHosts m f, ∀ r ∈ n.routes (mainHost f ip), r.metric ≠ defaultMetric f) ∧
    (m.dnsHijack.legacy = true → m.defaultInterfaceIp.isSome →
      m.dnsHijack.sink4 ≠ some stubResolver) := by
  rw [setupLegacyRoutes] at hok
  split_ifs at hok with hl
  · obtain ⟨-,faults',hadd⟩ := seq_run_ok hok
    have hdel : Acts (Change (ownScope b m n False False)) (deleteLegacyRoutes m) :=
      acts_deleteLegacyRoutes (ownHostDel hu)
    have hpart := (hdel _ (fun _ _ hc hs => partial_change hf hc hs) s h faults).2
    change Partial b m n ((Script.tolerate (deleteLegacyRoutes m)).run faults s).state at hpart
    generalize ((Script.tolerate (deleteLegacyRoutes m)).run faults s).state = u at hadd hpart
    rw [setupDnsIpRoutes] at hadd
    obtain ⟨hnd,h4,t,faults'',hok6,hsame⟩ := addVias_run_ok hadd
    rw [← List.append_nil (List.map (addVia .v6 m.defaultInterfaceIpv6) _)] at hok6
    obtain ⟨-,h6,-⟩ := addVias_run_ok hok6
    constructor
    · intro f ip hip r hr
      cases f with
      | v4 =>
        rw [legacyHosts,if_pos hl] at hip
        exact (h4 ip hip).2 r (partial_subset hpart ip hr)
      | v6 =>
        rw [legacyHosts,if_pos hl] at hip
        apply (h6 ip hip).2 r
        rw [hsame _ fun ip' _ => by simp [mainHost]]
        exact partial_subset hpart ip hr
    · intro _ hg hsink
      obtain ⟨g,hg⟩ := Option.isSome_iff_exists.mp hg
      rw [hsink,hg] at hnd
      simp [dnsHosts4] at hnd
  · constructor
    · intro f ip hip
      cases f <;> simp [legacyHosts,hl] at hip
    · exact fun hl' => absurd hl' hl

/-- A setup that gets to the loosening has met nothing in its way. -/
theorem reached (hf : Fresh b m n) (hu : Unrouted m n) {retries : ℕ} {faults : List Bool}
    (htun : ((createTun m.tunName retries).run faults n).ok = true) {faults' : List Bool} {s' : Net}
    (hs : Partial b m n s) (hproxy : ((setupProxyIpRoutes m.proxyIpv4s m.proxyIpv6s
      m.defaultInterfaceIp m.defaultInterfaceIpv6).run faults' s).ok = true) {faults'' : List Bool}
    (hs' : Partial b m n s') (hlegacy : ((setupLegacyRoutes m).run faults'' s').ok = true) :
    Addable m n ∧ Tidy m := by
  obtain ⟨hnamed,hshort⟩ := createTun_run_ok htun
  obtain ⟨htidy,hproxies⟩ := proxies_run_ok hs hproxy
  obtain ⟨hdns,hstub⟩ := legacy_run_ok hf hu hs' hlegacy
  refine ⟨⟨hnamed,hshort,?_,hstub⟩,htidy⟩
  intro f ip hip
  rcases List.mem_append.mp hip with hip | hip
  · exact hproxies f ip hip
  · exact hdns f ip hip

end Reached

section Kept

variable {b : FirewallBackend} {m : Manager} {n s : Net}

/-- What holds before the loosening. -/
def Untouched (b : FirewallBackend) (m : Manager) (n s : Net) : Prop :=
  Partial b m n s ∧ RpSame m n s

theorem untouched_run (hf : Fresh b m n) {p : Script Net}
    (hp : Acts (Change (ownScope b m n True False)) p) (h : Untouched b m n s) (faults : List Bool) :
    Untouched b m n (p.run faults s).state :=
  (hp (Untouched b m n) (fun _ _ hc hs => ⟨partial_change hf hc hs.1,rpSame_change hc hs.2⟩) s h
    faults).2

theorem kept_run {p : Script Net} (hp : Acts (Change (ownScope b m n True False)) p)
    (h : RpKept m n s) (faults : List Bool) : RpKept m n (p.run faults s).state :=
  (hp (RpKept m n) (fun _ _ hc hs => rpKept_change hc hs) s h faults).2

theorem kept_untouched (hf : Fresh b m n) (h : Untouched b m n s) : RpKept m n s :=
  rpKept_of_same hf.saved h.2

/-- Whatever fails, the file has what a setup has loosened. -/
theorem kept_setup (hf : Fresh b m n) (hu : Unrouted m n) (a : Answer)
    (hrec : Addable m n → Tidy m → Recordable a.stateWritten m n) (faults : List Bool) :
    RpKept m n ((setup b a m).run faults n).state := by
  have hbase : AllowsBase (ownScope b m n True False) b m := ownBase hf hu
  have hdevice : (ownScope b m n True False).device m.tunName := ⟨trivial,rfl⟩
  have hstart : Untouched b m n n := ⟨partial_self hf,rpSame_self m n⟩
  have hcreate : Acts (Change (ownScope b m n True False)) (createTun m.tunName a.retries) :=
    acts_createTun hdevice rfl _
  have hproxies : Acts (Change (ownScope b m n True False)) (setupProxyIpRoutes m.proxyIpv4s
      m.proxyIpv6s m.defaultInterfaceIp m.defaultInterfaceIpv6) :=
    acts_setupProxyIpRoutes (fun ip hip => hbase.add .v4 ip (proxy_mem hip))
      fun ip hip => hbase.add .v6 ip (proxy_mem hip)
  have hsplit : Acts (Change (ownScope b m n True False))
      (setupSplit a.splitMode a.realUserUid m) :=
    acts_setupSplit (ownSplit hf) (fun f => ⟨trivial,.tun f⟩) _ _
  have hmost : ∀ faults, RpKept m n ((setupBase b a m).run faults n).state := by
    intro faults
    rw [setupBase_eq]
    have h1 := untouched_run hf hcreate hstart
    refine seq_leads (fun _ => kept_untouched hf (h1 faults)) fun htun faults' => ?_
    have h2 := untouched_run hf hproxies (h1 faults)
    refine seq_leads (fun _ => kept_untouched hf (h2 faults')) fun hproxy faults'' => ?_
    have h3 := untouched_run hf (acts_setupLegacyRoutes hbase) (h2 faults')
    refine seq_leads (fun _ => kept_untouched hf (h3 faults'')) fun hlegacy _ => ?_
    obtain ⟨haddable,htidy⟩ := reached hf hu htun (h1 faults).1 hproxy (h2 faults').1 hlegacy
    have hloose := loosen_kept hf.saved (hrec haddable htidy) (h3 faults'').1.devices (h3 faults'').2
    exact seq_leads (fun _ => hloose _) fun _ _ => kept_run (acts_setupMarks hbase) (hloose _) _
  exact seq_leads (fun _ => hmost faults) fun _ _ => kept_run hsplit (hmost faults) _

end Kept

end Whoisthat.StartRollback
