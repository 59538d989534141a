import Whoisthat.ScriptScopes

/-!
# What the daemon puts on a host

The rules, routes, tables, chains and the device that the scripts of a manager
may install. A setup leaves the host with some of these next to its own state,
whatever fails on the way, and only these can be taken away again.
-/

set_option autoImplicit false

namespace Whoisthat.OwnArtifacts
open Whoisthat.ScriptRuns Whoisthat.ShellScripts Whoisthat.HostNetwork Whoisthat.NetworkChanges
open Whoisthat.IPLiterals Whoisthat.TunScripts Whoisthat.TunNetwork Whoisthat.ScriptScopes
open Whoisthat.KillSwitchArming (FirewallBackend)

section Artifacts

def ownRules (m : Manager) : List PolicyRule := includeRule::(bypass m).map fun sel => ⟨sel,100⟩

def ownTables : FirewallBackend → List NftTable
  | .nftables => [splitTable,mangleTable .v4,mangleTable .v6,mangleInet,hijackTable .v4,
      hijackTable .v6]
  | .iptables => [splitTable]

inductive OwnJump : FirewallBackend → ChainPlace → FirewallRule → Prop where
  | jump (f : Family) {c : String × String} (hc : c ∈ dnsChains) :
      OwnJump .iptables (natPlace f c.1) (.jump c.2)

inductive OwnMark (m : Manager) : FirewallBackend → ChainPlace → FirewallRule → Prop where
  | mark (f : Family) {r : String × FirewallRule} (hr : r ∈ conntrackRules m.defaultInterface) :
      OwnMark m .iptables (mangleHook f r.1) r.2

inductive OwnChain : FirewallBackend → ChainPlace → Prop where
  | chain (f : Family) {c : String × String} (hc : c ∈ dnsChains) :
      OwnChain .iptables (natPlace f c.2)

/-- The routes that are added one by one. -/
inductive Installs (m : Manager) : Place IP → Route IP → Prop where
  | host {f : Family} {g ip : IP} (hg : m.gateway f = some g) (hip : ip ∈ hosts m f) :
      Installs m (mainHost f ip) (via f g)
  | gateway {f : Family} {g : IP} (hg : m.gateway f = some g) :
      Installs m (tableHost f 100 g) (onDevice f m.defaultInterface)
  | bypass {f : Family} {g : IP} (hg : m.gateway f = some g) :
      Installs m (tableDefault f 100) (via f g)
  | tun (f : Family) : Installs m (mainDefault f) (tunDefault f m.tunName)

/-- A host without leftovers. -/
structure Fresh (b : FirewallBackend) (m : Manager) (n : Net) : Prop where
  rules : ∀ f, ∀ r ∈ ownRules m, r ∉ (n.rules f).val
  tables : ∀ p, p.table = some 100 ∨ p.table = some 200 → n.routes p = []
  nft : ∀ t ∈ ownTables b, n.nft t = none
  marks : ∀ k r, OwnMark m b k r → r ∉ n.builtin k
  jumps : b = .iptables → ∀ f hook, ∀ c ∈ dnsChains, .jump c.2 ∉ n.builtin (natPlace f hook)
  chains : ∀ k, OwnChain b k → n.chains k = none
  device : n.devices m.tunName = none
  routes : ∀ p, ∀ r ∈ n.routes p, r.dev ≠ some m.tunName
  rpFilter : n.rpFilter m.tunName = none
  linkDns : n.linkDns m.tunName = none
  saved : n.saved = none

/-- No address of the manager has a host route by the gateway already. -/
def Unrouted (m : Manager) (n : Net) : Prop :=
  ∀ f, ∀ ip ∈ hosts m f, ∀ g, m.gateway f = some g → ∀ r ∈ n.routes (mainHost f ip), isVia g r = false

/-- `s` is `n` with some of what the manager installs. -/
structure Partial (b : FirewallBackend) (m : Manager) (n s : Net) : Prop where
  rules : ∀ f, (s.rules f).val.filter (fun r => r ∉ ownRules m) = (n.rules f).val
  routes : ∀ p, splitPlace m p ∨ s.routes p = n.routes p ∨
    ∃ r, Installs m p r ∧ s.routes p = Network.insertRoute r (n.routes p)
  nft : ∀ t ∉ ownTables b, s.nft t = n.nft t
  builtin : ∀ k, ∃ pre post, s.builtin k = pre ++ (n.builtin k ++ post) ∧ pre.Nodup ∧
    (∀ r ∈ pre, OwnJump b k r) ∧ ∀ r ∈ post, OwnMark m b k r
  chains : ∀ k, ¬OwnChain b k → s.chains k = n.chains k
  devices : ∀ d ≠ m.tunName, s.devices d = n.devices d
  linkDns : ∀ d ≠ m.tunName, s.linkDns d = n.linkDns d
  rpDefault : s.rpDefault = n.rpDefault
  gone : s.devices m.tunName = none ↔ s.rpFilter m.tunName = none
  silent : s.devices m.tunName = none → s.linkDns m.tunName = none

/-- With `up` what a setup changes, without it what a teardown does. -/
def ownScope (b : FirewallBackend) (m : Manager) (n : Net) (up rp : Prop) :
    Scope IP FirewallRule where
  rule _ r := up ∧ r ∈ ownRules m
  unrule _ r := r ∈ ownRules m
  add p r := up ∧ Installs m p r
  replace p r := up ∧ (splitPlace m p ∨ (n.routes p = [] ∧ Installs m p r))
  del p q := ∃ r, Installs m p r ∧ q r = true ∧ ∀ r' ∈ n.routes p, q r' = false
  flush f table := ∀ target, splitPlace m ⟨f,some table,target⟩
  device d := up ∧ d = m.tunName
  undevice d := d = m.tunName
  link d := d = m.tunName
  table t := up ∧ t ∈ ownTables b
  untable t := t ∈ ownTables b
  append k r := up ∧ OwnMark m b k r
  jump k r := up ∧ OwnJump b k r
  erase k r := OwnMark m b k r ∨ OwnJump b k r
  chain k := up ∧ OwnChain b k
  unchain k := OwnChain b k
  rpFilter := rp

end Artifacts

section Facts

variable {b : FirewallBackend} {m : Manager} {n s t : Net} {p : Place IP} {r r' : Route IP}

theorem installs_unique (h : Installs m p r) (h' : Installs m p r') : r = r' := by
  cases h with
  | host hg _ =>
    cases h' with
    | host hg' _ => rw [Option.some.inj (hg.symm.trans hg')]
  | gateway hg =>
    cases h' with
    | gateway _ => rfl
  | bypass hg =>
    cases h' with
    | bypass hg' => rw [Option.some.inj (hg.symm.trans hg')]
  | tun f =>
    cases h' with
    | tun _ => rfl

theorem mark_table {k : ChainPlace} {r : FirewallRule} (h : OwnMark m b k r) :
    k.table = .mangle := by
  cases h with
  | mark f hr => rfl

theorem jump_fresh (hf : Fresh b m n) {k : ChainPlace} {r : FirewallRule} (h : OwnJump b k r) :
    r ∉ n.builtin k := by
  cases h with
  | jump f hc => exact hf.jumps rfl f _ _ hc

theorem erase_fresh (hf : Fresh b m n) {k : ChainPlace} {r : FirewallRule}
    (h : OwnMark m b k r ∨ OwnJump b k r) : r ∉ n.builtin k := by
  rcases h with h | h
  · exact hf.marks k r h
  · exact jump_fresh hf h

theorem partial_self (hf : Fresh b m n) : Partial b m n n where
  rules f := by
    apply List.filter_eq_self.mpr
    intro r hr
    simpa using fun hm : r ∈ ownRules m => hf.rules f r hm hr
  routes _ := Or.inr (Or.inl rfl)
  nft _ _ := rfl
  builtin _ := ⟨[],[],by simp,List.nodup_nil,by simp,by simp⟩
  chains _ _ := rfl
  devices _ _ := rfl
  linkDns _ _ := rfl
  rpDefault := rfl
  gone := ⟨fun _ => hf.rpFilter,fun _ => hf.device⟩
  silent _ := hf.linkDns

end Facts

section Kept

variable {b : FirewallBackend} {m : Manager} {n s t : Net} {up rp : Prop}

theorem Partial.setRules (h : Partial b m n s) {f : Family} {l : RuleList}
    (hl : l.val.filter (fun r => r ∉ ownRules m) = (n.rules f).val) :
    Partial b m n { s with rules := Function.update s.rules f l } :=
  { h with
    rules := fun g => by
      by_cases hg : g = f
      · subst hg
        simpa using hl
      · simpa [hg] using h.rules g }

theorem Partial.setRoutes (h : Partial b m n s) {p : Place IP} {l : List (Route IP)}
    (hl : splitPlace m p ∨ l = n.routes p ∨
      ∃ r, Installs m p r ∧ l = Network.insertRoute r (n.routes p)) :
    Partial b m n (s.setRoutes p l) :=
  { h with
    routes := fun q => by
      rw [setRoutes_routes]
      split_ifs with hq
      · exact hq ▸ hl
      · exact h.routes q }

theorem Partial.setNft (h : Partial b m n s) {t : NftTable} (ht : t ∈ ownTables b)
    (content : Option (List (NftChain FirewallRule))) :
    Partial b m n { s with nft := Function.update s.nft t content } :=
  { h with
    nft := fun t' ht' => by
      have hne : t' ≠ t := fun he => ht' (he ▸ ht)
      simpa [hne] using h.nft t' ht' }

theorem Partial.setChain (h : Partial b m n s) {k : ChainPlace} (hk : OwnChain b k)
    (content : Option (List FirewallRule)) : Partial b m n (s.setChain k content) :=
  { h with
    chains := fun k' hk' => by
      have hne : k' ≠ k := fun he => hk' (he ▸ hk)
      simpa [Network.setChain,hne] using h.chains k' hk' }

theorem Partial.setBuiltin (h : Partial b m n s) {k : ChainPlace} {rs : List FirewallRule}
    (hrs : ∃ pre post, rs = pre ++ (n.builtin k ++ post) ∧ pre.Nodup ∧
      (∀ r ∈ pre, OwnJump b k r) ∧ ∀ r ∈ post, OwnMark m b k r) :
    Partial b m n (s.setBuiltin k rs) :=
  { h with
    builtin := fun k' => by
      by_cases hk : k' = k
      · subst hk
        simpa [Network.setBuiltin] using hrs
      · simpa [Network.setBuiltin,hk] using h.builtin k' }

/-- A device takes its routes with it. -/
theorem Partial.withoutDevice (h : Partial b m n s) (hf : Fresh b m n) (p : Place IP) :
    splitPlace m p ∨ (s.routes p).filter (fun r => r.dev ≠ some m.tunName) = n.routes p ∨
    ∃ r, Installs m p r ∧ (s.routes p).filter (fun r => r.dev ≠ some m.tunName) =
      Network.insertRoute r (n.routes p) := by
  have hn : ∀ r ∈ n.routes p, decide (r.dev ≠ some m.tunName) = true :=
    fun r hr => decide_eq_true (hf.routes p r hr)
  rcases h.routes p with hs | hs | ⟨r,hr,hs⟩
  · exact Or.inl hs
  · rw [hs,List.filter_eq_self.mpr hn]
    exact Or.inr (Or.inl rfl)
  · rw [hs,filter_insertRoute _ r hn]
    split_ifs
    · exact Or.inr (Or.inr ⟨r,hr,rfl⟩)
    · exact Or.inr (Or.inl rfl)

theorem erase_own {pre base post : List FirewallRule} {r : FirewallRule} (hb : r ∉ base) :
    (pre ++ (base ++ post)).erase r =
      if r ∈ pre then pre.erase r ++ (base ++ post) else pre ++ (base ++ post.erase r) := by
  rw [List.erase_append,List.erase_append,if_neg hb]

theorem Partial.erase (h : Partial b m n s) {k : ChainPlace} {r : FirewallRule}
    (hr : r ∉ n.builtin k) : Partial b m n (s.setBuiltin k ((s.builtin k).erase r)) := by
  obtain ⟨pre,post,hs,hnd,hpre,hpost⟩ := h.builtin k
  apply h.setBuiltin
  rw [hs,erase_own hr]
  split_ifs
  · exact ⟨_,_,rfl,hnd.erase r,fun r' hr' => hpre r' (List.mem_of_mem_erase hr'),hpost⟩
  · exact ⟨_,_,rfl,hnd,hpre,fun r' hr' => hpost r' (List.mem_of_mem_erase hr')⟩

theorem partial_addRoute (h : Partial b m n s) {p : Place IP} {r : Route IP} (hr : Installs m p r)
    (hadd : s.addRoute p r = some t) : Partial b m n t := by
  obtain ⟨-,hfree,rfl⟩ := addRoute_cases hadd
  apply h.setRoutes
  rcases h.routes p with hs | hs | ⟨r',hr',hs⟩
  · exact Or.inl hs
  · exact Or.inr (Or.inr ⟨r,hr,by rw [hs]⟩)
  · have hmem : r' ∈ s.routes p := hs ▸ mem_insertRoute.mpr (Or.inl rfl)
    exact absurd (congrArg Route.metric (installs_unique hr' hr)) (hfree r' hmem)

theorem partial_replaceRoute (h : Partial b m n s) {p : Place IP} {r : Route IP}
    (hr : splitPlace m p ∨ (n.routes p = [] ∧ Installs m p r))
    (hrep : s.replaceRoute p r = some t) : Partial b m n t := by
  obtain ⟨-,rfl⟩ := replaceRoute_cases hrep
  apply h.setRoutes
  rcases hr with hr | ⟨hn,hr⟩
  · exact Or.inl hr
  · rcases h.routes p with hs | hs | ⟨r',hr',hs⟩
    · exact Or.inl hs
    · exact Or.inr (Or.inr ⟨r,hr,by rw [hs,hn]; rfl⟩)
    · rw [installs_unique hr' hr] at hs
      exact Or.inr (Or.inr ⟨r,hr,by rw [hs,replaced_insertRoute]⟩)

theorem partial_delRoute (h : Partial b m n s) {p : Place IP} {q : Route IP → Bool}
    (hq : ∃ r, Installs m p r ∧ q r = true ∧ ∀ r' ∈ n.routes p, q r' = false) :
    Partial b m n (s.dropRoute p q) := by
  obtain ⟨r,hr,hqr,hn⟩ := hq
  apply h.setRoutes
  rcases h.routes p with hs | hs | ⟨r',hr',hs⟩
  · exact Or.inl hs
  · exact Or.inr (Or.inl (by rw [hs,List.eraseP_of_forall_not fun r hr => by simp [hn r hr]]))
  · rw [installs_unique hr' hr] at hs
    exact Or.inr (Or.inl (by rw [hs,eraseP_insertRoute hqr fun r' hr' _ => hn r' hr']))

theorem partial_change (hf : Fresh b m n) (hc : Change (ownScope b m n up rp) s t)
    (h : Partial b m n s) : Partial b m n t := by
  cases hc with
  | addRule hr hadd =>
    obtain ⟨-,hr⟩ := hr
    obtain ⟨_,rfl⟩ := addRule_cases hadd
    apply h.setRules
    rw [List.filter_cons_of_neg (by simpa using hr)]
    exact h.rules _
  | @delRule f r _ hr =>
    apply h.setRules
    change ((s.rules f).val.eraseP _).filter _ = _
    rw [eraseP_eq_filter (s.rules f).property,List.filter_filter,← h.rules f]
    apply List.filter_congr
    intro r' _
    have hmem : r ∈ ownRules m := hr
    by_cases hrr : r' = r
    · subst hrr
      simpa using hmem
    · simp [hrr]
  | addRoute hr hadd => exact partial_addRoute h hr.2 hadd
  | replaceRoute hr hrep => exact partial_replaceRoute h hr.2 hrep
  | delRoute s hq => exact partial_delRoute h hq
  | @flush f table _ hfl =>
    refine { h with routes := fun p => ?_ }
    rw [flushRoutes_routes]
    split_ifs with hp
    · obtain ⟨f',table',target⟩ := p
      obtain ⟨rfl,rfl⟩ := hp
      exact Or.inl (hfl target)
    · exact h.routes p
  | addDevice hd hadd =>
    obtain ⟨-,rfl⟩ := hd
    rw [Network.addDevice] at hadd
    split_ifs at hadd
    rw [← Option.some.inj hadd]
    exact { h with
      routes := h.withoutDevice hf
      devices := fun d hd => by simpa [hd] using h.devices d hd
      linkDns := fun d hd => by simpa [hd] using h.linkDns d hd
      gone := by simp
      silent := by simp }
  | @setDevice d s v hd hsome =>
    have hd' : d = m.tunName := hd
    subst hd'
    have hrp : ¬s.rpFilter m.tunName = none := fun hn => by simp [h.gone.mpr hn] at hsome
    exact { h with
      devices := fun d hd => by simpa [Network.setDevice,hd] using h.devices d hd
      gone := by simpa [Network.setDevice] using hrp
      silent := by simp [Network.setDevice] }
  | @dropDevice d _ hd =>
    have hd' : d = m.tunName := hd
    subst hd'
    exact { h with
      routes := h.withoutDevice hf
      devices := fun d hd => by simpa [Network.dropDevice,hd] using h.devices d hd
      linkDns := fun d hd => by simpa [Network.dropDevice,hd] using h.linkDns d hd
      gone := by simp [Network.dropDevice]
      silent := by simp [Network.dropDevice] }
  | table s ht content => exact h.setNft ht.2 _
  | dropTable s ht => exact h.setNft ht _
  | @append k r _ hk =>
    obtain ⟨pre,post,hs,hnd,hpre,hpost⟩ := h.builtin k
    apply h.setBuiltin
    refine ⟨pre,post ++ [r],by simp [hs],hnd,hpre,?_⟩
    intro r' hr'
    rcases List.mem_append.mp hr' with hr' | hr'
    · exact hpost r' hr'
    · exact List.mem_singleton.mp hr' ▸ hk.2
  | @jump k r _ hk hnew =>
    obtain ⟨pre,post,hs,hnd,hpre,hpost⟩ := h.builtin k
    apply h.setBuiltin
    have hr : r ∉ pre := fun hr => hnew (hs ▸ List.mem_append_left _ hr)
    refine ⟨r::pre,post,by simp [hs],List.nodup_cons.mpr ⟨hr,hnd⟩,?_,hpost⟩
    intro r' hr'
    rcases List.mem_cons.mp hr' with rfl | hr'
    · exact hk.2
    · exact hpre r' hr'
  | erase s hk => exact h.erase (erase_fresh hf hk)
  | chain s hk content => exact h.setChain hk.2 _
  | emptyChain hk _ => exact h.setChain hk _
  | dropChain s hk => exact h.setChain hk _
  | rpFilter hr values saved hv =>
    exact { h with gone := h.gone.trans (hv m.tunName) }
  | @linkDns d s hd l hsome =>
    have hd' : d = m.tunName := hd
    subst hd'
    exact { h with
      linkDns := fun d hd => by simpa [hd] using h.linkDns d hd
      silent := fun hnone => by simp [show s.devices m.tunName = none from hnone] at hsome }

end Kept

section Scripts

variable {b : FirewallBackend} {m : Manager} {n s : Net} {up rp : Prop}

theorem bypass_own {sel : Selector} (h : sel ∈ bypass m) : ⟨sel,100⟩ ∈ ownRules m :=
  List.mem_cons_of_mem _ (List.mem_map.mpr ⟨sel,h,rfl⟩)

theorem included_own (m : Manager) : includeRule ∈ ownRules m := List.mem_cons_self

theorem excluded_own (m : Manager) : excludeRule ∈ ownRules m := bypass_own (fwmark_bypass m)

theorem ownHostDel (hu : Unrouted m n) : AllowsHostDel (ownScope b m n up rp) m where
  del f ip hip g hg := ⟨via f g,.host hg hip,isVia_via f g,hu f ip hip g hg⟩

theorem ownUnhijack : AllowsUnhijack (ownScope b m n up rp) b := by
  refine ⟨?_,?_,?_⟩
  · rintro rfl f
    cases f <;> simp [ownScope,ownTables]
  · rintro rfl f c hc
    exact .chain f hc
  · rintro rfl f c hc
    exact Or.inr (.jump f hc)

theorem ownUnmark : AllowsUnmark (ownScope b m n up rp) b m.defaultInterface := by
  refine ⟨?_,?_⟩
  · rintro rfl t ht
    simp only [List.mem_cons,List.not_mem_nil,or_false] at ht
    rcases ht with rfl | rfl | rfl <;> simp [ownScope,ownTables]
  · rintro rfl f r hr
    exact Or.inl (.mark f hr)

theorem split_own (b : FirewallBackend) : splitTable ∈ ownTables b := by
  cases b <;> simp [ownTables]

theorem ownUnsplit : AllowsUnsplit (ownScope b m n up rp) m where
  untable := split_own b
  dropped _ := included_own m
  flush _ _ := Or.inl rfl
  dropped6 _ := excluded_own m
  flush6 h _ := Or.inr ⟨h,rfl,rfl⟩

theorem ownBase (hf : Fresh b m n) (hu : Unrouted m n) : AllowsBase (ownScope b m n True rp) b m where
  toAllowsHostDel := ownHostDel hu
  link := rfl
  add f ip hip g hg := ⟨trivial,.host hg hip⟩
  conntrack := by
    refine ⟨ownUnmark,?_,?_⟩
    · rintro rfl f
      cases f <;> simp [ownScope,ownTables]
    · rintro rfl f r hr
      exact ⟨trivial,.mark f hr⟩
  hijack := by
    refine ⟨ownUnhijack,?_,?_,?_⟩
    · rintro rfl f
      cases f <;> simp [ownScope,ownTables]
    · rintro rfl f c hc
      exact ⟨trivial,.chain f hc⟩
    · rintro rfl f c hc
      exact ⟨trivial,.jump f hc⟩
  rule f sel hsel _ := ⟨trivial,bypass_own hsel⟩
  table f g hg := ⟨⟨trivial,Or.inr ⟨hf.tables _ (Or.inl rfl),.gateway hg⟩⟩,
    ⟨trivial,Or.inr ⟨hf.tables _ (Or.inl rfl),.bypass hg⟩⟩⟩

theorem ownSplit (hf : Fresh b m n) : AllowsSplit (ownScope b m n True rp) m where
  toAllowsUnsplit := ownUnsplit
  table := ⟨trivial,split_own b⟩
  included _ := ⟨trivial,included_own m⟩
  excluded := ⟨trivial,excluded_own m⟩
  inside _ := ⟨trivial,Or.inl (Or.inl rfl)⟩
  outside g hg := ⟨⟨trivial,Or.inr ⟨hf.tables _ (Or.inl rfl),@Installs.gateway m .v4 g hg⟩⟩,
    ⟨trivial,Or.inr ⟨hf.tables _ (Or.inl rfl),@Installs.bypass m .v4 g hg⟩⟩⟩
  excluded6 _ := ⟨trivial,excluded_own m⟩
  blackhole h := ⟨trivial,Or.inl (Or.inr ⟨h,rfl,rfl⟩)⟩

theorem ownClear (hf : Fresh b m n) (hu : Unrouted m n) : AllowsClear (ownScope b m n up rp) b m where
  toAllowsHostDel := ownHostDel hu
  undevice := rfl
  link := rfl
  tunDefault f := ⟨tunDefault f m.tunName,.tun f,isTunDefault_tunDefault f _,
    fun r hr => not_isTunDefault (hf.routes _ r hr)⟩
  conntrack := ownUnmark
  hijack := ownUnhijack
  split := ownUnsplit
  unrule f sel hsel := bypass_own hsel
  table f g hg := by
    have hn : ∀ p : Place IP, p.table = some 100 → ∀ (q : Route IP → Bool),
        ∀ r ∈ n.routes p, q r = false := by
      intro p hp q r hr
      rw [hf.tables p (Or.inl hp)] at hr
      cases hr
    exact ⟨⟨_,.gateway hg,isOn_onDevice f _,hn _ rfl _⟩,⟨_,.bypass hg,isVia_via f g,hn _ rfl _⟩⟩

/-- Whatever fails, a setup only adds what is its own. -/
theorem partial_setup (hf : Fresh b m n) (hu : Unrouted m n) (a : Answer) (faults : List Bool) :
    Partial b m n ((setup b a m).run faults n).state := by
  have hdevice : (ownScope b m n True True).device m.tunName := ⟨trivial,rfl⟩
  have hacts : Acts (Change (ownScope b m n True True)) (setup b a m) := by
    apply acts_seq
    · exact acts_setupBase hdevice rfl trivial (ownBase hf hu) a
    · exact acts_setupSplit (ownSplit hf) (fun f => ⟨trivial,.tun f⟩) _ _
  exact (hacts _ (fun _ _ hc hs => partial_change hf hc hs) n (partial_self hf) faults).2

end Scripts

end Whoisthat.OwnArtifacts
