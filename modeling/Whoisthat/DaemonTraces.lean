import Whoisthat.ScriptScopes

/-!
# The traces of a daemon on any host

Whatever a session does and wherever it stops, the network is the one from
before, less what was deleted, with the daemon's own artifacts added where they
can be told: its rules first, one jump before the rest of a hook, its tables by
name, its routes in the main table and in two of their own.
-/

set_option autoImplicit false

namespace Whoisthat.DaemonTraces
open Whoisthat.ScriptRuns Whoisthat.ShellScripts Whoisthat.HostNetwork Whoisthat.NetworkChanges
open Whoisthat.IPLiterals Whoisthat.TunScripts Whoisthat.TunNetwork Whoisthat.ScriptScopes
open Whoisthat.KillSwitchArming (FirewallBackend)

section Traces

/-- The policy rules of a daemon. -/
def daemonRules (d : Daemon) : List PolicyRule :=
  [includeRule,excludeRule,⟨.uidrange d.dedicatedUid,100⟩]

inductive DnsJump : ChainPlace → FirewallRule → Prop where
  | jump (f : Family) {c : String × String} (hc : c ∈ dnsChains) :
      DnsJump (natPlace f c.1) (.jump c.2)

inductive DnsChain : ChainPlace → Prop where
  | chain (f : Family) {c : String × String} (hc : c ∈ dnsChains) : DnsChain (natPlace f c.2)

/-- The chain of the kill switch, which a reconcile takes away as well. -/
def killSwitchChain (k : ChainPlace) : Prop := ∃ f, k = killSwitchPlace f "WHOISTHAT_KS"

/-- A list without some of its elements. -/
def Less {α : Type} (c c' : Option (List α)) : Prop :=
  ∀ xs, c = some xs → ∃ ys, c' = some ys ∧ xs.Sublist ys

/-- Rules of `P` come before what is left of the rules of `n`. -/
def Fronted (P : PolicyRule → Prop) (f : Family) (n s : Net) : Prop :=
  ∃ front rest, (s.rules f).val = front ++ rest ∧ (∀ r ∈ front, P r) ∧ rest.Sublist (n.rules f).val

/-- What a kernel sees to: no route, value or DNS setting without its device, and no jump without
its chain. -/
structure Coherent (n : Net) : Prop where
  anchored : ∀ p, ∀ r ∈ n.routes p, ∀ e, r.dev = some e → (n.devices e).isSome
  gone : ∀ e, n.devices e = none → n.rpFilter e = none
  silent : ∀ e, n.devices e = none → n.linkDns e = none
  resolved : ∀ f hook, ∀ c ∈ dnsChains, .jump c.2 ∈ n.builtin (natPlace f hook) →
    (n.chains (natPlace f c.2)).isSome

/-- `s` is `n`, less some of it, with traces of the daemon. -/
structure Traced (d : Daemon) (n s : Net) : Prop where
  rules : ∀ f, Fronted (fun r => r ∈ daemonRules d) f n s
  routes : ∀ p, p.table ≠ none → p.table ≠ some 100 → p.table ≠ some 200 →
    (s.routes p).Sublist (n.routes p)
  nft : ∀ t ∉ reconciledTables, s.nft t = n.nft t
  builtin : ∀ k, k.table ≠ .mangle → ∃ rest, rest.Sublist (n.builtin k) ∧
    (s.builtin k = rest ∨ ∃ r, DnsJump k r ∧ r ∉ rest ∧ s.builtin k = r::rest)
  chains : ∀ k, ¬DnsChain k → Less (s.chains k) (n.chains k)
  anchored : ∀ p, ∀ r ∈ s.routes p, ∀ e, r.dev = some e → (s.devices e).isSome
  gone : ∀ e, s.devices e = none → s.rpFilter e = none
  silent : ∀ e, s.devices e = none → s.linkDns e = none

/-- What the calls of a daemon change. -/
def daemonScope (d : Daemon) : Scope IP FirewallRule where
  rule _ r := r ∈ daemonRules d
  unrule _ _ := True
  add p _ := p.table = none
  replace p _ := p.table = some 100 ∨ p.table = some 200
  del _ _ := True
  flush _ _ := True
  device _ := True
  undevice _ := True
  link _ := True
  table t := t ∈ reconciledTables
  untable t := t ∈ reconciledTables
  append k _ := k.table = .mangle
  jump k r := DnsJump k r
  erase _ _ := True
  chain k := DnsChain k
  unchain k := DnsChain k ∨ killSwitchChain k
  rpFilter := True

end Traces

section Kept

variable {d : Daemon} {n s t : Net}

theorem less_self {α : Type} (c : Option (List α)) : Less c c :=
  fun xs h => ⟨xs,h,List.Sublist.refl xs⟩

theorem traced_self (h : Coherent n) : Traced d n n where
  rules _ := ⟨[],_,rfl,fun _ hr => absurd hr List.not_mem_nil,List.Sublist.refl _⟩
  routes _ _ _ _ := List.Sublist.refl _
  nft _ _ := rfl
  builtin _ _ := ⟨_,List.Sublist.refl _,Or.inl rfl⟩
  chains _ _ := less_self _
  anchored := h.anchored
  gone := h.gone
  silent := h.silent

/-- Every hook has one chain. -/
theorem dnsJump_unique {k : ChainPlace} {r r' : FirewallRule} (h : DnsJump k r) (h' : DnsJump k r') :
    r = r' := by
  cases h with
  | @jump f c hc =>
    generalize hk : natPlace f c.1 = k at h'
    cases h' with
    | @jump f' c' hc' =>
      simp only [natPlace,ChainPlace.mk.injEq,true_and] at hk
      simp only [dnsChains,List.mem_cons,List.not_mem_nil,or_false] at hc hc'
      rcases hc with rfl | rfl | rfl <;> rcases hc' with rfl | rfl | rfl <;> simp at hk ⊢

/-- Deleting a rule takes it from the front or from the rest. -/
theorem fronted_drop {P : PolicyRule → Prop} {g : Family} (h : Fronted P g n s) (f : Family)
    (q : PolicyRule → Bool) : Fronted P g n (s.dropRule f q) := by
  obtain ⟨front,rest,hs,hfront,hrest⟩ := h
  rw [Fronted,dropRule_val]
  split_ifs with hg
  · rw [← hg,hs,List.eraseP_append]
    split_ifs
    · exact ⟨_,_,rfl,fun r hr => hfront r (List.mem_of_mem_eraseP hr),hrest⟩
    · exact ⟨_,_,rfl,hfront,List.eraseP_sublist.trans hrest⟩
  · exact ⟨front,rest,hs,hfront,hrest⟩

theorem traced_routes (h : Traced d n s) {routes : Place IP → List (Route IP)}
    (hroutes : ∀ p, p.table ≠ none → p.table ≠ some 100 → p.table ≠ some 200 →
      (routes p).Sublist (n.routes p))
    (hdev : ∀ p, ∀ r ∈ routes p, ∀ e, r.dev = some e → (s.devices e).isSome) :
    Traced d n { s with routes := routes } :=
  { h with
    routes := hroutes
    anchored := hdev }

theorem hasDevice_anchored {r : Route IP} (h : s.hasDevice r = true) (e : String)
    (he : r.dev = some e) : (s.devices e).isSome := by
  rw [Network.hasDevice,he] at h
  exact h

theorem traced_builtin (h : Traced d n s) {k : ChainPlace} {rs : List FirewallRule}
    (hrs : k.table ≠ .mangle → ∃ rest, rest.Sublist (n.builtin k) ∧
      (rs = rest ∨ ∃ r, DnsJump k r ∧ r ∉ rest ∧ rs = r::rest)) : Traced d n (s.setBuiltin k rs) :=
  { h with
    builtin := fun k' hk' => by
      by_cases hk : k' = k
      · subst hk
        simpa [Network.setBuiltin] using hrs hk'
      · simpa [Network.setBuiltin,hk] using h.builtin k' hk' }

theorem traced_chain (h : Traced d n s) {k : ChainPlace} {c : Option (List FirewallRule)}
    (hc : ¬DnsChain k → Less c (n.chains k)) : Traced d n (s.setChain k c) :=
  { h with
    chains := fun k' hk' => by
      by_cases hk : k' = k
      · subst hk
        simpa [Network.setChain] using hc hk'
      · simpa [Network.setChain,hk] using h.chains k' hk' }

theorem traced_nft (h : Traced d n s) {t : NftTable} (ht : t ∈ reconciledTables)
    (content : Option (List (NftChain FirewallRule))) :
    Traced d n { s with nft := Function.update s.nft t content } :=
  { h with
    nft := fun t' ht' => by
      have hne : t' ≠ t := fun he => ht' (he ▸ ht)
      simpa [hne] using h.nft t' ht' }

theorem traced_delRule (h : Traced d n s) (f : Family) (q : PolicyRule → Bool) :
    Traced d n (s.dropRule f q) :=
  { h with rules := fun g => fronted_drop (h.rules g) f q }

/-- Deleting a device takes its routes along, a new one has none. -/
theorem withoutDevice_anchored (h : Traced d n s) {e : String} {p : Place IP} {r : Route IP}
    (hr : r ∈ (s.routes p).filter fun r => r.dev ≠ some e) (c : String) (hc : r.dev = some c) :
    c ≠ e ∧ (s.devices c).isSome := by
  obtain ⟨hmem,hdev⟩ := List.mem_filter.mp hr
  refine ⟨?_,h.anchored p r hmem c hc⟩
  rintro rfl
  simp [hc] at hdev

theorem traced_erase (h : Traced d n s) (k : ChainPlace) (r : FirewallRule) :
    Traced d n (s.setBuiltin k ((s.builtin k).erase r)) := by
  apply traced_builtin h
  intro hk
  obtain ⟨rest,hrest,hs | ⟨j,hj,hnew,hs⟩⟩ := h.builtin k hk
  · exact ⟨_,List.erase_sublist.trans hrest,Or.inl (by rw [hs])⟩
  · rw [hs,List.erase_cons]
    split_ifs
    · exact ⟨rest,hrest,Or.inl rfl⟩
    · exact ⟨_,List.erase_sublist.trans hrest,
        Or.inr ⟨j,hj,fun hmem => hnew (List.mem_of_mem_erase hmem),rfl⟩⟩

theorem traced_change (hc : Change (daemonScope d) s t) (h : Traced d n s) : Traced d n t := by
  cases hc with
  | @addRule f r _ _ hr hadd =>
    obtain ⟨_,rfl⟩ := addRule_cases hadd
    refine { h with rules := fun g => ?_ }
    obtain ⟨front,rest,hs,hfront,hrest⟩ := h.rules g
    by_cases hg : g = f
    · subst hg
      refine ⟨r::front,rest,by simp [hs],?_,hrest⟩
      intro r' hr'
      rcases List.mem_cons.mp hr' with rfl | hr'
      · exact hr
      · exact hfront r' hr'
    · exact ⟨front,rest,by simpa [hg] using hs,hfront,hrest⟩
  | delRule s _ => exact traced_delRule h _ _
  | @addRoute p r _ _ hp hadd =>
    obtain ⟨hdev,-,rfl⟩ := addRoute_cases hadd
    apply traced_routes h
    · intro q h0 h100 h200
      have hq : q ≠ p := fun he => h0 (he ▸ hp)
      simpa [hq] using h.routes q h0 h100 h200
    · intro q r' hr'
      by_cases hq : q = p
      · subst hq
        simp only [Function.update_self] at hr'
        rcases mem_insertRoute.mp hr' with rfl | hr'
        · exact hasDevice_anchored hdev
        · exact h.anchored q r' hr'
      · rw [Function.update_of_ne hq] at hr'
        exact h.anchored q r' hr'
  | @replaceRoute p r _ _ hp hrep =>
    obtain ⟨hdev,rfl⟩ := replaceRoute_cases hrep
    apply traced_routes h
    · intro q h0 h100 h200
      have hq : q ≠ p := by
        rintro rfl
        exact hp.elim h100 h200
      simpa [hq] using h.routes q h0 h100 h200
    · intro q r' hr'
      by_cases hq : q = p
      · subst hq
        simp only [Function.update_self] at hr'
        rcases mem_insertRoute.mp hr' with rfl | hr'
        · exact hasDevice_anchored hdev
        · exact h.anchored q r' (List.mem_of_mem_eraseP hr')
      · rw [Function.update_of_ne hq] at hr'
        exact h.anchored q r' hr'
  | @delRoute p q s _ =>
    apply traced_routes h
    · intro p' h0 h100 h200
      by_cases hp : p' = p
      · subst hp
        simpa using List.eraseP_sublist.trans (h.routes p' h0 h100 h200)
      · simpa [hp] using h.routes p' h0 h100 h200
    · intro p' r hr
      by_cases hp : p' = p
      · subst hp
        simp only [Function.update_self] at hr
        exact h.anchored p' r (List.mem_of_mem_eraseP hr)
      · rw [Function.update_of_ne hp] at hr
        exact h.anchored p' r hr
  | @flush f table s _ =>
    apply traced_routes h
    · intro p h0 h100 h200
      split_ifs
      · exact List.nil_sublist _
      · exact h.routes p h0 h100 h200
    · intro p r hr
      split_ifs at hr
      · cases hr
      · exact h.anchored p r hr
  | @addDevice e s _ _ hadd =>
    rw [Network.addDevice] at hadd
    split_ifs at hadd
    rw [← Option.some.inj hadd]
    exact { h with
      routes := fun p h0 h100 h200 => List.filter_sublist.trans (h.routes p h0 h100 h200)
      anchored := fun p r hr c hc => by
        obtain ⟨hne,hdev⟩ := withoutDevice_anchored h hr c hc
        simpa [hne] using hdev
      gone := fun c hc => by
        by_cases he : c = e
        · simp [he] at hc
        · simpa [he] using h.gone c (by simpa [he] using hc)
      silent := fun c hc => by
        by_cases he : c = e
        · simp [he] at hc
        · simpa [he] using h.silent c (by simpa [he] using hc) }
  | @setDevice e s v _ hsome =>
    exact { h with
      anchored := fun p r hr c hc => by
        by_cases he : c = e
        · simp [Network.setDevice,he]
        · simpa [Network.setDevice,he] using h.anchored p r hr c hc
      gone := fun c hc => by
        by_cases he : c = e
        · simp [Network.setDevice,he] at hc
        · exact h.gone c (by simpa [Network.setDevice,he] using hc)
      silent := fun c hc => by
        by_cases he : c = e
        · simp [Network.setDevice,he] at hc
        · exact h.silent c (by simpa [Network.setDevice,he] using hc) }
  | @dropDevice e s _ =>
    exact { h with
      routes := fun p h0 h100 h200 => List.filter_sublist.trans (h.routes p h0 h100 h200)
      anchored := fun p r hr c hc => by
        obtain ⟨hne,hdev⟩ := withoutDevice_anchored h hr c hc
        simpa [Network.dropDevice,hne] using hdev
      gone := fun c hc => by
        by_cases he : c = e
        · simp [Network.dropDevice,he]
        · simpa [Network.dropDevice,he] using h.gone c (by simpa [Network.dropDevice,he] using hc)
      silent := fun c hc => by
        by_cases he : c = e
        · simp [Network.dropDevice,he]
        · simpa [Network.dropDevice,he] using h.silent c (by simpa [Network.dropDevice,he] using hc) }
  | table s ht content => exact traced_nft h ht (some content)
  | dropTable s ht => exact traced_nft h ht none
  | append s hk => exact traced_builtin h fun hne => absurd hk hne
  | @jump k r s hj hnew =>
    apply traced_builtin h
    intro hk
    obtain ⟨rest,hrest,hs | ⟨j,hj',-,hs⟩⟩ := h.builtin k hk
    · exact ⟨rest,hrest,Or.inr ⟨r,hj,hs ▸ hnew,by rw [hs]⟩⟩
    · rw [hs,dnsJump_unique hj' hj] at hnew
      exact absurd List.mem_cons_self hnew
  | @erase k r s _ => exact traced_erase h k r
  | @chain k s hk content => exact traced_chain h fun hne => absurd hk hne
  | @emptyChain k s hk hsome =>
    apply traced_chain h
    intro hne
    obtain ⟨c,hc⟩ := Option.isSome_iff_exists.mp hsome
    obtain ⟨ys,hys,-⟩ := h.chains k hne c hc
    intro xs hxs
    exact ⟨ys,hys,Option.some.inj hxs ▸ List.nil_sublist ys⟩
  | @dropChain k s hk =>
    apply traced_chain h
    intro _ xs hxs
    cases hxs
  | rpFilter _ values saved hv => exact { h with gone := fun e he => (hv e).mp (h.gone e he) }
  | @linkDns e s _ l hsome =>
    exact { h with
      silent := fun c hc => by
        by_cases he : c = e
        · have hgone : s.devices c = none := hc
          simp [← he,hgone] at hsome
        · simpa [he] using h.silent c hc }

end Kept

section Sessions

variable {d : Daemon} {m t : Manager} {n s : Net}

/-- The user of the last start is the daemon's. -/
def Owner (d : Daemon) (t : Manager) : Prop := t.sudoUid = 0 ∨ t.sudoUid = d.dedicatedUid

theorem bypass_rules (hm : Owner d m) {sel : Selector} (h : sel ∈ bypass m) :
    ⟨sel,100⟩ ∈ daemonRules d := by
  rw [bypass] at h
  rcases List.mem_cons.mp h with rfl | h
  · simp [daemonRules,excludeRule]
  · split_ifs at h with hu
    · rw [List.mem_singleton.mp h]
      rcases hm with hm | hm
      · omega
      · simp [daemonRules,hm]
    · cases h

theorem hijack_reconciled (f : Family) : hijackTable f ∈ reconciledTables := by
  cases f <;> simp [reconciledTables]

theorem mangle_reconciled (f : Family) : mangleTable f ∈ reconciledTables := by
  cases f <;> simp [reconciledTables]

theorem daemonUnmark (d : Daemon) (b : FirewallBackend) (iface : String) :
    AllowsUnmark (daemonScope d) b iface where
  untable _ n hn := by
    simp only [List.mem_cons,List.not_mem_nil,or_false] at hn
    rcases hn with rfl | rfl | rfl
    · exact mangle_reconciled .v4
    · exact mangle_reconciled .v6
    · simp [daemonScope,reconciledTables]
  erase _ _ _ _ := trivial

theorem daemonUnhijack (d : Daemon) (b : FirewallBackend) : AllowsUnhijack (daemonScope d) b where
  untable _ := hijack_reconciled
  unchain _ f _ hc := Or.inl (.chain f hc)
  erase _ _ _ _ := trivial

theorem daemonHijack (d : Daemon) (b : FirewallBackend) : AllowsHijack (daemonScope d) b where
  toAllowsUnhijack := daemonUnhijack d b
  table _ := hijack_reconciled
  chain _ f _ hc := .chain f hc
  jump _ f _ hc := .jump f hc

theorem daemonSplit (d : Daemon) (m : Manager) : AllowsSplit (daemonScope d) m where
  untable := by simp [daemonScope,reconciledTables]
  dropped _ := trivial
  flush _ := trivial
  dropped6 _ := trivial
  flush6 _ := trivial
  table := by simp [daemonScope,reconciledTables]
  included _ := by simp [daemonScope,daemonRules]
  excluded := by simp [daemonScope,daemonRules]
  inside _ := Or.inr rfl
  outside _ _ := ⟨Or.inl rfl,Or.inl rfl⟩
  excluded6 _ := by simp [daemonScope,daemonRules]
  blackhole _ := Or.inl rfl

theorem daemonHostDel (d : Daemon) (m : Manager) : AllowsHostDel (daemonScope d) m :=
  ⟨fun _ _ _ _ _ => trivial⟩

theorem daemonClear (d : Daemon) (b : FirewallBackend) (m : Manager) :
    AllowsClear (daemonScope d) b m where
  toAllowsHostDel := daemonHostDel d m
  unrule _ _ _ := trivial
  table _ _ _ := ⟨trivial,trivial⟩
  undevice := trivial
  link := trivial
  tunDefault _ := trivial
  conntrack := daemonUnmark d b _
  hijack := daemonUnhijack d b
  split := (daemonSplit d m).toAllowsUnsplit

theorem daemonBase (b : FirewallBackend) (hm : Owner d m) : AllowsBase (daemonScope d) b m where
  toAllowsHostDel := daemonHostDel d m
  link := trivial
  add _ _ _ _ _ := rfl
  conntrack := ⟨daemonUnmark d b _,fun _ => mangle_reconciled,fun _ _ _ _ => rfl⟩
  hijack := daemonHijack d b
  rule _ _ hsel _ := bypass_rules hm hsel
  table _ _ _ := ⟨Or.inl rfl,Or.inl rfl⟩

theorem acts_setup (b : FirewallBackend) (a : Answer) (hm : Owner d m) :
    Acts (Change (daemonScope d)) (setup b a m) :=
  acts_seq (acts_setupBase trivial trivial trivial (daemonBase b hm) a)
    (acts_setupSplit (daemonSplit d m) (fun _ => rfl) _ _)

theorem acts_clear (d : Daemon) (b : FirewallBackend) (m : Manager) :
    Acts (Change (daemonScope d)) (clearNetworkRules b m) :=
  acts_clearNetworkRules trivial (daemonClear d b m)

/-- `Traced` all the way, and an owner at the end. -/
structure Carries (d : Daemon) (n : Net) (r : Result) : Prop where
  passed : ∀ s ∈ r.passed, Traced d n s
  net : Traced d n r.net
  owner : Owner d r.manager

theorem run_traced {p : Script Net} (hp : Acts (Change (daemonScope d)) p) (h : Traced d n s)
    (faults : List Bool) : (∀ u ∈ (p.run faults s).passed, Traced d n u) ∧
    Traced d n (p.run faults s).state :=
  hp (Traced d n) (fun _ _ hc hs => traced_change hc hs) s h faults

theorem carries_ofRun {p : Script Net} (hp : Acts (Change (daemonScope d)) p) (h : Traced d n s)
    (ht : Owner d t) : Carries d n (ofRun t (p.run [] s)) :=
  ⟨(run_traced hp h []).1,(run_traced hp h []).2,ht⟩

theorem carries_idle (h : Traced d n s) (ht : Owner d t) (ok : Bool) : Carries d n ⟨t,s,ok,[]⟩ :=
  ⟨fun _ hu => absurd hu List.not_mem_nil,h,ht⟩

theorem carries_startSetup {a : Answer} {faults : List Bool} {passed : List Net} (hm : Owner d m)
    (hpassed : ∀ u ∈ passed, Traced d n u) (h : Traced d n s) :
    Carries d n (startSetup d a faults m passed s) := by
  have hsetup := run_traced (acts_setup d.backend a hm) h faults
  have hclear := run_traced (acts_clear d d.backend m) hsetup.2 []
  rw [startSetup]
  split_ifs
  · refine ⟨?_,hsetup.2,hm⟩
    intro u hu
    rcases List.mem_append.mp hu with hu | hu
    · exact hpassed u hu
    · exact hsetup.1 u hu
  · refine ⟨?_,hclear.2,hm⟩
    intro u hu
    rcases List.mem_append.mp hu with hu | hu
    · rcases List.mem_append.mp hu with hu | hu
      · exact hpassed u hu
      · exact hsetup.1 u hu
    · exact hclear.1 u hu

theorem carries_start {a : Answer} {faults : List Bool} {ipv4s ipv6s : List IP} {dns : DnsHijack}
    (ht : Owner d t) (h : Traced d n s) : Carries d n (start d a faults ipv4s ipv6s dns t s) := by
  have hclear := run_traced (acts_clear d d.backend t) h []
  rw [start]
  split_ifs
  · cases a.link with
    | none => exact ⟨hclear.1,hclear.2,ht⟩
    | some l => exact carries_startSetup (Or.inr rfl) hclear.1 hclear.2
  · exact ⟨hclear.1,hclear.2,ht⟩

theorem carries_stop (ht : Owner d t) (h : Traced d n s) : Carries d n (stop d t s) := by
  have hclear := run_traced (acts_clear d d.backend t) h []
  rw [stop]
  split_ifs
  · exact ⟨hclear.1,hclear.2,ht⟩
  · exact carries_idle h ht true

theorem carries_setDnsHijack {dns : DnsHijack} (ht : Owner d t) (h : Traced d n s) :
    Carries d n (setDnsHijack d dns t s) := by
  rw [setDnsHijack]
  split_ifs
  · exact carries_ofRun (acts_setDnsHijackScript (daemonHostDel d t) trivial (daemonBase _ ht)) h ht
  · exact carries_idle h ht true

theorem carries_reapplySplit {mode : String} {uid : ℕ} (ht : Owner d t) (h : Traced d n s) :
    Carries d n (reapplySplit mode uid t s) := by
  rw [reapplySplit]
  split_ifs
  · exact carries_ofRun (acts_reapplySplitScript (daemonSplit d t) (fun _ => rfl)
      (fun _ => trivial) mode uid) h ht
  · exact carries_idle h ht true

theorem carries_perform (c : Call) (ht : Owner d t) (h : Traced d n s) :
    Carries d n (perform d c t s) := by
  cases c with
  | start a faults ipv4s ipv6s dns => exact carries_start ht h
  | stop => exact carries_stop ht h
  | setDnsHijack dns => exact carries_setDnsHijack ht h
  | reapplyDnsHijack mode =>
    rw [perform,reapplyDnsHijack]
    split_ifs
    · exact carries_setDnsHijack ht h
    · exact carries_idle h ht true
  | reapplySplit mode uid => exact carries_reapplySplit ht h

/-- Wherever a session stops. -/
theorem traced_session (calls : List Call) (ht : Owner d t) (h : Traced d n s) :
    ∀ u ∈ (session d calls t s).passed, Traced d n u := by
  induction calls generalizing t s with
  | nil =>
    intro u hu
    rw [List.mem_singleton.mp hu]
    exact h
  | cons c cs ih =>
    have hc := carries_perform c ht h
    intro u hu
    rcases List.mem_append.mp hu with hu | hu
    · rcases List.mem_cons.mp hu with rfl | hu
      · exact h
      · exact hc.passed u hu
    · exact ih hc.owner hc.net u hu

end Sessions

end Whoisthat.DaemonTraces
